import Cse121.Morse.Receiver52
import Cse121.Morse.Receiver53

/-! # Ten bytes are enough

The receivers drop the tenth and later symbols of a letter, and nobody can tell:
no code has more than five symbols, so the nine symbols kept are read as `?` just
like all of them. Each task with its array is simulated by the same task with a
list, and along the simulation every write stays inside the array.
-/

namespace Cse121

/-- A run of safe observations prints no NUL and writes inside the array. -/
theorem safe_run {os : List Obs} (h : ∀ o ∈ os, o.Safe) :
    0 ∉ text os ∧ ∀ i, Obs.store i ∈ os → i ≤ 9 := by
  refine ⟨?_, fun i hi => h _ hi⟩
  intro h0
  rcases List.mem_flatMap.1 h0 with ⟨o, ho, h0⟩
  have hsafe := h o ho
  cases o with
  | printf s => exact hsafe h0
  | store i => simp [Obs.text] at h0
  | decode p => simp [Obs.text] at h0
  | warn n => simp [Obs.text] at h0

/-- No separator has a NUL. -/
theorem separators_safe : 0 ∉ [space] ∧ 0 ∉ [newline] ∧ 0 ∉ ([] : CString) := by decide

namespace Lab52

theorem checkTimeout_safe {s : Receiver CharBuffer} {p : CString} (h : Holds s.buffer p)
    (t : Int) : ∀ o ∈ (checkTimeout s t).2, o.Safe := by
  have hidx : morseIdx s.buffer > 0 ↔ 0 < p.length := h.idx_pos
  simp only [checkTimeout]
  split
  · rename_i hpend
    split
    · exact flush_safe h (hidx.1 hpend.1) separators_safe.2.1
    · simp
  · simp

theorem checkLight_safe {s : Receiver CharBuffer} {p : CString} (h : Holds s.buffer p)
    (x : Sample) : ∀ o ∈ (checkLight s x).2, o.Safe := by
  have hidx : morseIdx s.buffer > 0 ↔ 0 < p.length := h.idx_pos
  simp only [checkLight]
  split
  · simp only [lightTurnedOn]
    split
    · split
      · rename_i hpend
        exact flush_safe h (hidx.1 hpend.2) separators_safe.1
      · split
        · rename_i hpend
          exact flush_safe h (hidx.1 hpend.2) separators_safe.2.2
        · simp
    · simp
  · split
    · simp only [lightTurnedOff]
      split
      · exact (push_safe s.buffer dash id).1
      · split
        · exact (push_safe s.buffer dot id).1
        · simp
    · simp

theorem onSample_safe {s : Receiver CharBuffer} {t : Receiver CString} (h : Related s t)
    (x : Sample) : ∀ o ∈ (onSample s x).2, o.Safe := by
  intro o ho
  have ht := related_timeout h x.currentTime
  rcases List.mem_append.1 ho with ho | ho
  · exact checkTimeout_safe h.holds x.currentTime o ho
  · exact checkLight_safe ht.1.holds x o ho

/-- Every run of the task is safe. -/
theorem safe_task (junk : Vector UInt8 10) (xs : List Sample) :
    ∀ o ∈ morseReceiverTask.out (start junk) xs, o.Safe := by
  refine Transducer.out_invariant morseReceiverTask (fun s => ∃ t, Related s t)
    (fun _ => True) Obs.Safe ?_ ?_ (fun _ _ => trivial) ⟨startList, related_start junk⟩
  · rintro s x - ⟨t, h⟩
    exact ⟨_, (related_step x h).1⟩
  · rintro s x - ⟨t, h⟩
    exact onSample_safe h x

end Lab52

namespace Lab53.Receiver

theorem onEvent_safe (cfg : Timing) {s : Decoder CharBuffer} {t : Decoder CString}
    (h : Related s t) (e : EdgeEvent) : ∀ o ∈ (onEvent cfg s e).2, o.Safe := by
  have hidx : morseIdx s.buffer > 0 ↔ 0 < t.buffer.length := h.holds.idx_pos
  simp only [onEvent]
  split
  · simp only [onRising]
    split
    · split
      · rename_i hpend
        exact flush_safe h.holds (hidx.1 hpend.2) separators_safe.1
      · split
        · rename_i hpend
          split <;> exact flush_safe h.holds (hidx.1 hpend.2) separators_safe.2.2
        · simp
    · simp
  · simp only [onFalling]
    split
    · split
      · exact (push_safe s.buffer dash id).1
      · split
        · exact (push_safe s.buffer dot id).1
        · simp [Obs.Safe]
    · simp

/-- Every run of the task is safe. -/
theorem safe_task (cfg : Timing) (junk : Vector UInt8 10) (es : List EdgeEvent) :
    ∀ o ∈ (morseDecoderTask cfg).out (start junk) es, o.Safe := by
  refine Transducer.out_invariant (morseDecoderTask cfg) (fun s => ∃ t, Related s t)
    (fun _ => True) Obs.Safe ?_ ?_ (fun _ _ => trivial) ⟨startList, related_start junk⟩
  · rintro s e - ⟨t, h⟩
    exact ⟨_, (related_step cfg e h).1⟩
  · rintro s e - ⟨t, h⟩
    exact onEvent_safe cfg h e

end Lab53.Receiver

/-- Each receiver with its ten bytes prints, on any samples or events, what it would
print with room for any number of symbols; it never prints a NUL, and every index it
writes is one of the array's. -/
theorem bounded_buffer_refines (junk : Vector UInt8 10) :
    (∀ xs : List Lab52.Sample,
      let os := Lab52.morseReceiverTask.out (Lab52.start junk) xs
      text os = text (Lab52.morseReceiverTask.out Lab52.startList xs) ∧
        0 ∉ text os ∧ ∀ i, Obs.store i ∈ os → i ≤ 9) ∧
    (∀ (cfg : Lab53.Receiver.Timing) (es : List Lab53.Receiver.EdgeEvent),
      let os := (Lab53.Receiver.morseDecoderTask cfg).out (Lab53.Receiver.start junk) es
      text os =
          text ((Lab53.Receiver.morseDecoderTask cfg).out Lab53.Receiver.startList es) ∧
        0 ∉ text os ∧ ∀ i, Obs.store i ∈ os → i ≤ 9) := by
  constructor
  · intro xs
    have hrel := Lab52.related_run (Lab52.related_start junk) xs
    exact ⟨text_eq_of_shown hrel.2, safe_run (Lab52.safe_task junk xs)⟩
  · intro cfg es
    have hrel := Lab53.Receiver.related_run cfg (Lab53.Receiver.related_start junk) es
    exact ⟨text_eq_of_shown hrel.2, safe_run (Lab53.Receiver.safe_task cfg junk es)⟩

end Cse121
