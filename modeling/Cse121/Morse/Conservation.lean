import Cse121.Morse.Receiver52

/-! # No symbol is lost or kept waiting in lab 5.2

Read off the samples alone: the light pulses and the changes of the light. The
task hands the classified pulses to `decode_morse` in order, cut into groups, and
no symbol waits longer than the timeout after the light last changed.
-/

namespace Cse121.Lab52

/-! ## The light, as sampled -/

/-- The lengths of the ON pulses that end within the samples; the argument is the
time since which the light is on, if it is. -/
def pulseWidths : Option Int → List Sample → List Int
  | _, [] => []
  | none, x :: xs => if x.lit then pulseWidths (some x.currentTime) xs else pulseWidths none xs
  | some t, x :: xs =>
      if x.lit then pulseWidths (some t) xs else (x.currentTime - t) :: pulseWidths none xs

/-- The times at which the light changes. -/
def changes : Bool → List Sample → List Int
  | _, [] => []
  | b, x :: xs => if x.lit = b then changes b xs else x.currentTime :: changes x.lit xs

/-- Time stamps that never go back. -/
def Ordered (xs : List Sample) : Prop :=
  xs.Pairwise fun x y => x.currentTime ≤ y.currentTime

instance (xs : List Sample) : Decidable (Ordered xs) :=
  inferInstanceAs (Decidable (List.Pairwise _ xs))

/-- The time since which the light is on, in a phase. -/
def Phase.onSince (φ : Phase) : Option Int := if φ.lit then some φ.since else none

theorem pulseWidths_none (x : Sample) (xs : List Sample) :
    pulseWidths none (x :: xs) =
      if x.lit then pulseWidths (some x.currentTime) xs else pulseWidths none xs := rfl

theorem pulseWidths_some (t : Int) (x : Sample) (xs : List Sample) :
    pulseWidths (some t) (x :: xs) =
      if x.lit then pulseWidths (some t) xs
      else (x.currentTime - t) :: pulseWidths none xs := rfl

/-- The symbols of the front end are the classified pulses. -/
theorem syms_marks (φ : Phase) (xs : List Sample) :
    Segment.syms (marks.out φ xs) =
      (pulseWidths φ.onSince xs).flatMap fun w => (pulseSymbol (toInt w)).toList := by
  induction xs generalizing φ with
  | nil => cases φ.onSince <;> rfl
  | cons x xs ih =>
      have htime (o : Option CString) (ts : List (Token UInt8 CString)) :
          Segment.syms (Segment.optBrk o ++ ts) = Segment.syms ts := by
        cases o <;> rfl
      have hsym (o : Option UInt8) :
          Segment.syms (o.toList.map .sym : List (Token UInt8 CString)) = o.toList := by
        cases o <;> rfl
      rw [Transducer.out_cons, Segment.syms_append, ih]
      simp only [marks, htime]
      rcases φ with ⟨b, t⟩
      cases b <;> cases hx : x.lit
      · -- dark, still dark
        simp [Phase.next, hx, Phase.onSince, pulseWidths_none]
      · -- light turned ON: at most a break
        have hbrk := htime (gapBreak (toInt (x.currentTime - t))) []
        rw [List.append_nil] at hbrk
        simp [Phase.next, hx, Phase.change, Phase.onSince, pulseWidths_none, hbrk]
      · -- light turned OFF: the pulse
        simp [Phase.next, hx, Phase.change, Phase.onSince, pulseWidths_some, hsym]
      · -- lit, still lit
        simp [Phase.next, hx, Phase.onSince, pulseWidths_some]

/-- The phase remembers the last change of the light. -/
theorem since_marks (φ : Phase) (xs : List Sample) :
    (marks.state φ xs).since = (changes φ.lit xs).getLast?.getD φ.since := by
  induction xs generalizing φ with
  | nil => rfl
  | cons x xs ih =>
      rw [Transducer.state_cons, ih]
      by_cases hx : x.lit = φ.lit
      · simp [marks, Phase.next, changes, hx]
      · simp only [marks, Phase.next, changes, if_neg hx]
        cases changes x.lit xs with
        | nil => rfl
        | cons c cs => simp [List.getLast?_eq_some_getLast]

/-- Pulses of ordered samples have a length. -/
theorem pulseWidths_nonneg {o : Option Int} {xs : List Sample} (hxs : Ordered xs)
    (ho : ∀ t ∈ o, ∀ x ∈ xs, t ≤ x.currentTime) : ∀ w ∈ pulseWidths o xs, 0 ≤ w := by
  induction xs generalizing o with
  | nil => cases o <;> simp [pulseWidths]
  | cons x xs ih =>
      have hcons := List.pairwise_cons.1 hxs
      have hnone : ∀ w ∈ pulseWidths none xs, 0 ≤ w := ih hcons.2 (by simp)
      cases o with
      | none =>
          simp only [pulseWidths]
          split
          · exact ih hcons.2 (by simpa using hcons.1)
          · exact hnone
      | some t =>
          have ht : ∀ y ∈ x :: xs, t ≤ y.currentTime := ho t rfl
          simp only [pulseWidths]
          split
          · refine ih hcons.2 ?_
            intro t' ht' y hy
            rw [← Option.mem_some_iff.1 ht']
            exact ht y (List.mem_cons_of_mem x hy)
          · intro w hw
            rcases List.mem_cons.1 hw with rfl | hw
            · have := ht x List.mem_cons_self
              omega
            · exact hnone w hw

/-! ## Nothing is kept waiting -/

/-- The tokens of one sample leave symbols pending only within the timeout. -/
theorem pending_recent (φ : Phase) (p : CString) (x : Sample)
    (hp : Segment.segmenter.state p (marks.step φ x).2 ≠ []) :
    x.currentTime - (marks.step φ x).1.since ≤ timeoutMs := by
  by_cases hx : x.lit = φ.lit
  · simp only [marks, Phase.next, if_pos hx, List.append_nil, timeoutBreak] at hp ⊢
    by_contra hidle
    rw [if_pos (by omega)] at hp
    exact hp (by simp)
  · simp only [marks, Phase.next, if_neg hx, timeoutMs]
    omega

/-- When the light comes back after a letter gap, however long, nothing stays pending. -/
theorem gap_flushes {φ : Phase} (hφ : φ.lit = false) (p : CString) {x : Sample}
    (hx : x.lit = true) (hgap : letterGapMin < x.currentTime - φ.since) :
    Segment.segmenter.state p (marks.step φ x).2 = [] := by
  simp only [marks, Phase.change, hφ, hx, Bool.true_eq_false, Bool.false_eq_true, if_false,
    Transducer.state_append, timeoutBreak]
  by_cases hidle : x.currentTime - φ.since > timeoutMs
  · -- the timeout has flushed already
    rw [if_pos hidle]
    cases gapBreak (toInt (x.currentTime - φ.since)) <;> simp
  · -- the gap fits in an `int`, so it is seen as it is
    have hint : toInt (x.currentTime - φ.since) = x.currentTime - φ.since := by
      simp only [letterGapMin, timeoutMs] at hgap hidle
      exact toInt_of_range (by omega) (by omega)
    rw [if_neg hidle, hint, gapBreak, if_pos hgap]
    split <;> simp

/-! ## What the run hands over -/

/-- The patterns handed to `decode_morse`. -/
def patterns (os : List Obs) : List CString :=
  os.flatMap fun
    | .decode p => [p]
    | _ => []

/-- The strings printed, one for each call of `printf`. -/
def prints (os : List Obs) : List CString :=
  os.flatMap fun
    | .printf s => [s]
    | _ => []

/-- What is shown of a run has its patterns and its strings. -/
theorem patterns_shown (os : List Obs) :
    patterns (shown id os) = patterns os ∧ prints (shown id os) = prints os := by
  induction os with
  | nil => exact ⟨rfl, rfl⟩
  | cons o os ih =>
      cases o <;> simpa [patterns, prints, shown, Obs.shown] using ih

/-- The patterns and strings of closed groups. -/
theorem patterns_groups (cut : CString → CString) (gs : List (CString × CString)) :
    patterns (gs.flatMap (groupShown cut)) = gs.map (fun g => cut g.1) ∧
      prints (gs.flatMap (groupShown cut)) = gs.map printed := by
  induction gs with
  | nil => exact ⟨rfl, rfl⟩
  | cons g gs ih => simpa [patterns, prints, groupShown] using ih

/-- The separators that the front end makes. -/
theorem marks_brk (φ : Phase) (xs : List Sample) (sep : CString)
    (h : .brk sep ∈ marks.out φ xs) : sep = [] ∨ sep = [space] ∨ sep = [newline] := by
  refine Transducer.out_invariant marks (fun _ => True) (fun _ => True)
    (fun tok => ∀ sep, tok = .brk sep → sep = [] ∨ sep = [space] ∨ sep = [newline])
    (fun _ _ _ _ => trivial) ?_ (fun _ _ => trivial) trivial _ h sep rfl
  rintro φ x - - tok htok sep rfl
  simp only [marks, Phase.change, Segment.optBrk, timeoutBreak, gapBreak] at htok
  grind

/-! ## The guarantee -/

/-- The groups of a run: the recorded symbols cut into the letters handed over, each
printed once with its separator, and the pending symbols. -/
def Partitioned (symbols : CString) (os : List Obs) (pending : CString) : Prop :=
  ∃ (groups : List CString) (last : CString) (seps : List CString),
    groups.flatten ++ last = symbols ∧ (∀ g ∈ groups, g ≠ []) ∧
    patterns os = groups.map (List.take 9) ∧ pending = last.take 9 ∧
    seps.length = groups.length ∧
    (∀ sep ∈ seps, sep = [] ∨ sep = [space] ∨ sep = [newline]) ∧
    prints os = List.zipWith (fun pattern sep => decodeMorse pattern :: sep) (patterns os) seps

/-- Closed groups, each decoded from its first nine symbols, are printed once. -/
theorem prints_groups (gs : List (CString × CString)) :
    gs.map printed = List.zipWith (fun pattern sep => decodeMorse pattern :: sep)
      (gs.map fun g => g.1.take 9) (gs.map Prod.snd) := by
  induction gs with
  | nil => rfl
  | cons g gs ih => simp [printed, decodeMorse_take, ih]

/-- The state of the task after any samples: the pending symbols and the phase. -/
theorem task_run (junk : Vector UInt8 10) {xs : List Sample} (hpos : ∀ x ∈ xs, 0 < x.currentTime) :
    (Holds (morseReceiverTask.state (start junk) xs).buffer
        (Segment.segmenter.state [] (marks.out ⟨false, 0⟩ xs)) ∧
      Follows (morseReceiverTask.state (start junk) xs).toLocals (marks.state ⟨false, 0⟩ xs)
        (Segment.segmenter.state [] (marks.out ⟨false, 0⟩ xs))) ∧
      shown id (morseReceiverTask.out (start junk) xs) =
        (Segment.segmenter.out [] (marks.out ⟨false, 0⟩ xs)).flatMap (groupShown (List.take 9)) :=
  array_run (s := start junk) (holds_start junk) (follows_dark rfl 0) hpos

/-- The run of the task is a partition of the classified pulses. -/
theorem task_partitioned (junk : Vector UInt8 10) {xs : List Sample}
    (hpos : ∀ x ∈ xs, 0 < x.currentTime) (hord : Ordered xs)
    (hpulse : ∀ w ∈ pulseWidths none xs, w < 2147483648) :
    Partitioned ((pulseWidths none xs).flatMap fun w => (pulseSymbol w).toList)
      (morseReceiverTask.out (start junk) xs)
      (morseReceiverTask.state (start junk) xs).buffer.pending := by
  have hrun := task_run junk hpos
  have hpat := patterns_shown (morseReceiverTask.out (start junk) xs)
  rw [hrun.2] at hpat
  rw [(patterns_groups _ _).1, (patterns_groups _ _).2] at hpat
  have hcons := Segment.conservation [] (marks.out ⟨false, 0⟩ xs)
  have hwidths := pulseWidths_nonneg (o := none) hord (by simp)
  -- pulses below the bound are not changed by the cast to `int`
  have hint : ∀ w ∈ pulseWidths none xs,
      (pulseSymbol (toInt w)).toList = (pulseSymbol w).toList := by
    intro w hw
    have hlo := hwidths w hw
    have hhi := hpulse w hw
    rw [toInt_of_range (by omega) hhi]
  rw [syms_marks, List.nil_append] at hcons
  have hsyms := hcons.trans (List.flatMap_congr hint)
  refine ⟨_, _, (Segment.segmenter.out [] (marks.out ⟨false, 0⟩ xs)).map Prod.snd, hsyms, ?_, ?_,
    hrun.1.1.pending, by simp, ?_, ?_⟩
  · intro g hg
    rcases List.mem_map.1 hg with ⟨g', hg', rfl⟩
    exact Segment.groups_ne_nil _ _ g' hg'
  · rw [← hpat.1, List.map_map]
    rfl
  · intro sep hsep
    rcases List.mem_map.1 hsep with ⟨g, hg, rfl⟩
    exact marks_brk _ xs g.2 (Segment.groups_brk _ _ g hg)
  · rw [← hpat.1, ← hpat.2, prints_groups]

/-- After any sample, pending symbols date from the last change of the light, which is
within the timeout. -/
theorem task_pending (junk : Vector UInt8 10) {pre : List Sample} {x : Sample}
    (hpos : ∀ y ∈ pre ++ [x], 0 < y.currentTime)
    (hpend : 0 < (morseReceiverTask.state (start junk) (pre ++ [x])).buffer.morseIdx) :
    (changes false (pre ++ [x])).getLast? =
        some (morseReceiverTask.state (start junk) (pre ++ [x])).lastActivityTime ∧
      x.currentTime - (morseReceiverTask.state (start junk) (pre ++ [x])).lastActivityTime ≤
        timeoutMs := by
  have hrun := (task_run junk hpos).1
  have hne := List.length_pos_iff.1 (hrun.1.idx_pos.1 hpend)
  have hact := hrun.2.activity hne
  have hsince := since_marks ⟨false, 0⟩ (pre ++ [x])
  rw [hact.1]
  constructor
  · cases hlast : (changes false (pre ++ [x])).getLast? with
    | none =>
        -- without a change of the light nothing is pending
        simp only [hlast, Option.getD_none] at hsince
        omega
    | some c =>
        simp only [hlast, Option.getD_some] at hsince
        rw [hsince]
  · simp only [Transducer.state_append, Transducer.out_append, Transducer.state_cons,
      Transducer.state_nil, Transducer.out_cons, Transducer.out_nil, List.append_nil] at hne ⊢
    exact pending_recent _ _ x hne

/-- When the light comes back after a gap longer than a letter gap, nothing stays pending. -/
theorem task_gap (junk : Vector UInt8 10) {pre : List Sample} {x : Sample}
    (hpos : ∀ y ∈ pre ++ [x], 0 < y.currentTime)
    (hdark : (morseReceiverTask.state (start junk) pre).lightOn = false) (hlit : x.lit = true)
    {c : Int} (hc : (changes false pre).getLast? = some c)
    (hgap : letterGapMin < x.currentTime - c) :
    (morseReceiverTask.state (start junk) (pre ++ [x])).buffer.morseIdx = 0 := by
  have hpre := (task_run junk fun y hy => hpos y (List.mem_append_left [x] hy)).1
  have hrun := (task_run junk hpos).1
  have hsince := since_marks ⟨false, 0⟩ pre
  rw [hc, Option.getD_some] at hsince
  have hφ : (marks.state ⟨false, 0⟩ pre).lit = false := hpre.2.lit.symm.trans hdark
  have hflush := gap_flushes hφ (Segment.segmenter.state [] (marks.out ⟨false, 0⟩ pre)) hlit
    (hsince ▸ hgap)
  have hidx := hrun.1.idx
  simp only [Transducer.out_append, Transducer.state_append, Transducer.out_cons,
    Transducer.out_nil, List.append_nil, hflush] at hidx
  simpa [Transducer.state_append] using hidx

/-- No symbol of a run is lost, doubled or reordered: the classified pulses are the
groups printed and the pending one. No symbol waits either: while symbols are
pending the light changed at most a timeout ago, the next sample checks that again,
and a dark gap longer than a letter gap, of whatever length, leaves nothing pending. -/
theorem symbols_conserved (junk : Vector UInt8 10) {xs : List Sample}
    (hpos : ∀ x ∈ xs, 0 < x.currentTime) (hord : Ordered xs)
    (hpulse : ∀ w ∈ pulseWidths none xs, w < 2147483648) :
    Partitioned ((pulseWidths none xs).flatMap fun w => (pulseSymbol w).toList)
        (morseReceiverTask.out (start junk) xs)
        (morseReceiverTask.state (start junk) xs).buffer.pending ∧
      ∀ pre x post, xs = pre ++ x :: post →
        let s := morseReceiverTask.state (start junk) (pre ++ [x])
        (0 < s.buffer.morseIdx →
          (changes false (pre ++ [x])).getLast? = some s.lastActivityTime ∧
            x.currentTime - s.lastActivityTime ≤ timeoutMs ∧
            ∀ y ∈ post.head?, y.currentTime - s.lastActivityTime ≤
              timeoutMs + (y.currentTime - x.currentTime)) ∧
          ((morseReceiverTask.state (start junk) pre).lightOn = false → x.lit = true →
            ∀ c ∈ (changes false pre).getLast?, letterGapMin < x.currentTime - c →
              s.buffer.morseIdx = 0) := by
  refine ⟨task_partitioned junk hpos hord hpulse, ?_⟩
  rintro pre x post rfl
  have hpre : ∀ y ∈ pre ++ [x], 0 < y.currentTime := by
    intro y hy
    refine hpos y ?_
    rw [List.append_cons]
    exact List.mem_append_left post hy
  constructor
  · intro hpend
    have hrecent := task_pending junk hpre hpend
    refine ⟨hrecent.1, hrecent.2, ?_⟩
    intro y _
    have := hrecent.2
    omega
  · intro hdark hlit c hc hgap
    exact task_gap junk hpre hdark hlit hc hgap

/-- A dot and, a letter gap later, a dash that is read when the timeout has passed. -/
def dotThenDash : List Sample :=
  [⟨40, 100000⟩, ⟨0, 200000⟩, ⟨40, 600000⟩, ⟨0, 900000⟩, ⟨0, 1950000⟩]

theorem symbols_conserved_dot_dash :
    Partitioned ((pulseWidths none dotThenDash).flatMap fun w => (pulseSymbol w).toList)
      (morseReceiverTask.out (start (Vector.replicate 10 0)) dotThenDash)
      (morseReceiverTask.state (start (Vector.replicate 10 0)) dotThenDash).buffer.pending :=
  (symbols_conserved (Vector.replicate 10 0) (by decide) (by decide) (by decide)).1

end Cse121.Lab52
