import Cse121.Morse.Sender

/-! # The levels that the senders drive

Lab 5.1 keys its LED active-low and lab 5.3 active-high. With a dot of 100 ms both key
the same message, so the line goes through the same durations at opposite levels, from the
request of the line to its release.
-/

namespace Cse121

open PulseTrain

/-- The runs of levels of the line from when it is requested, high as `true`. -/
def levelRuns (acts : List Act) : List (Bool × Int) := runs (keysOf 1 acts)

/-! ## Exchanging the levels -/

/-- Acts that write 0 or 1. -/
def Binary (acts : List Act) : Prop := ∀ v, Act.gpioWrite v ∈ acts → v = 0 ∨ v = 1

theorem binary_append {xs ys : List Act} (hxs : Binary xs) (hys : Binary ys) :
    Binary (xs ++ ys) := by
  intro v hv
  rcases List.mem_append.1 hv with hv | hv
  · exact hxs v hv
  · exact hys v hv

theorem binary_flatMap {α : Type*} {f : α → List Act} {xs : List α}
    (h : ∀ x ∈ xs, Binary (f x)) : Binary (xs.flatMap f) := by
  intro v hv
  rcases List.mem_flatMap.1 hv with ⟨x, hx, hv⟩
  exact h x hx v hv

/-- Reading a line the other way round exchanges the levels of its keying. -/
theorem keysOf_flip {acts : List Act} (h : Binary acts) :
    keysOf 1 acts = (keysOf 0 acts).map Key.flip := by
  induction acts with
  | nil => rfl
  | cons a acts ih =>
      have hrest := ih fun v hv => h v (List.mem_cons_of_mem a hv)
      rw [keysOf_cons, keysOf_cons, List.map_cons, hrest]
      cases a with
      | gpioWrite value =>
          rcases h value List.mem_cons_self with rfl | rfl <;> rfl
      | usleep us => rfl
      | nanosleep tvSec tvNsec => rfl

theorem sendCode_binary {sendDot sendDash letterGap wordGap : List Act} (hdot : Binary sendDot)
    (hdash : Binary sendDash) (hletter : Binary letterGap) (hword : Binary wordGap)
    (morse : CString) : Binary (sendCode sendDot sendDash letterGap wordGap morse) := by
  unfold sendCode
  split
  · exact hword
  · refine binary_append (binary_flatMap ?_) hletter
    intro s _
    split
    · exact hdot
    · split
      · exact hdash
      · intro v hv
        simp at hv

/-- Lab 5.1 writes 0 and 1. -/
theorem Lab51.sendMessage_binary (message : CString) : Binary (Lab51.sendMessage message) := by
  refine binary_flatMap ?_
  intro c _
  split
  · apply sendCode_binary <;> intro v hv <;>
      simp [Lab51.sendDot, Lab51.sendDash, Lab51.gpioWrite] at hv <;> omega
  · intro v hv
    simp at hv

theorem Lab51.main_binary (repetitions : Nat) (message : CString) :
    Binary (Lab51.main repetitions message) := by
  have hwrite : ∀ v : Int, v = 0 ∨ v = 1 → Binary [.gpioWrite v] := by
    intro v hv w hw
    rw [Act.gpioWrite.inj (List.mem_singleton.1 hw)]
    exact hv
  refine binary_append (binary_append (binary_append (hwrite 1 (Or.inr rfl))
    (hwrite 1 (Or.inr rfl))) (binary_flatMap ?_)) (hwrite 1 (Or.inr rfl))
  intro i _
  refine binary_append (Lab51.sendMessage_binary message) ?_
  intro v hv
  split at hv <;> simp at hv

/-! ## The two senders -/

/-- What a message keys, from the request of the line to its release. -/
theorem sent_once (message : CString) :
    keysOf 0 (Lab51.main 1 message) =
      keysOf 1 (Lab53.Sender.main (Lab53.Sender.timingOfDot Lab51.dotDuration) 1 message) := by
  have hdot : (0 : Int) ≤ Lab51.dotDuration := by decide
  rw [Lab51.main_keys, Lab53.Sender.main_keys hdot]
  rfl

/-- The line goes through the same durations at opposite levels. -/
theorem level_runs (message : CString) :
    levelRuns (Lab51.main 1 message) =
      (levelRuns (Lab53.Sender.main (Lab53.Sender.timingOfDot Lab51.dotDuration) 1 message)).map
        fun r => (!r.1, r.2) := by
  rw [levelRuns, levelRuns, keysOf_flip (Lab51.main_binary 1 message), sent_once, runs_flip]

/-- Lab 5.3 requests its line at the low level. -/
theorem levelRuns_low (message : CString) :
    ((levelRuns (Lab53.Sender.main (Lab53.Sender.timingOfDot Lab51.dotDuration) 1
      message)).map Prod.fst).head? = some false := by
  rw [levelRuns, Lab53.Sender.main_keys (by decide)]
  exact runsFrom_head false 0 _

/-- The senders drive the line through the same durations, and at opposite levels from the
request of the line to its release. So for no message do they drive it alike. -/
theorem senders_never_agree (message : CString) :
    levelRuns (Lab51.main 1 message) =
        (levelRuns (Lab53.Sender.main (Lab53.Sender.timingOfDot 100000) 1 message)).map
          (fun r => (!r.1, r.2)) ∧
      levelRuns (Lab51.main 1 message) ≠
        levelRuns (Lab53.Sender.main (Lab53.Sender.timingOfDot 100000) 1 message) := by
  have hdot : (100000 : Int) = Lab51.dotDuration := rfl
  rw [hdot]
  have hopposite := level_runs message
  have hlow := levelRuns_low message
  refine ⟨hopposite, ?_⟩
  intro hsame
  rw [hopposite] at hsame
  generalize levelRuns (Lab53.Sender.main (Lab53.Sender.timingOfDot Lab51.dotDuration) 1
    message) = rs at hlow hsame
  -- the levels at the request of the line
  cases rs with
  | nil => simp at hlow
  | cons r rs =>
      exact Bool.not_ne_self r.1 (congrArg Prod.fst (List.head_eq_of_cons_eq hsame))

/-- The line of an `E`. -/
theorem senders_disagree_e :
    levelRuns (Lab51.main 1 (bytes "e")) = [(true, 0), (false, 100000), (true, 300000)] ∧
      levelRuns (Lab53.Sender.main (Lab53.Sender.timingOfDot 100000) 1 (bytes "e")) =
        [(false, 0), (true, 100000), (false, 300000)] := by
  decide

end Cse121
