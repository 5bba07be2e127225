import Cse121.Morse.Speed
import Cse121.Morse.Text

/-! # The law of the waveform

What `send_message` of either sender does to the light, said run by run: an ON run for
each symbol, one dark unit inside a character, and between two characters three dark
units and four more for each space. Other characters leave no trace.
-/

namespace Cse121

open PulseTrain

/-- The symbols of a message. -/
def symbolsOf (message : CString) : CString := (message.filter isLetter).flatMap codeOf

/-- The ON runs of a message with unit `u`, each with the OFF run before it. The OFF run
before the first ON run is the time since the message was begun. -/
structure Law (u : Int) (message : CString) (ps : List Pulse) : Prop where
  /-- one ON run for each symbol, in order -/
  widths : ps.map Pulse.width = (symbolsOf message).map fun s => units s * u
  /-- the OFF runs inside a character -/
  inside : ∀ pre c post, message = pre ++ c :: post → isLetter c = true →
    ∀ i, 0 < i → i < (codeOf c).length → (ps[(symbolsOf pre).length + i]?).map Pulse.gap = some u
  /-- the OFF runs between a character and the next one -/
  between : ∀ pre c mid d post, message = (pre ++ [c]) ++ (mid ++ d :: post) →
    isLetter c = true → (∀ x ∈ mid, isLetter x = false) → isLetter d = true →
    (ps[(symbolsOf (pre ++ [c])).length]?).map Pulse.gap =
      some ((3 + 4 * mid.count space) * u)

theorem train_length_symbols (u g : Int) (message : CString) :
    (train u (letters g message)).length = (symbolsOf message).length := by
  have hwidths := congrArg List.length (train_widths u (letters g message))
  rwa [List.length_map, List.length_map, letters_chars] at hwidths

/-- The OFF run before a symbol of a code. -/
theorem codePulses_gap (u g : Int) (code : CString) {i : Nat} (hi : i < code.length) :
    ((codePulses u g code)[i]?).map Pulse.gap = some ((if i = 0 then g else 1) * u) := by
  induction code generalizing g i with
  | nil => simp at hi
  | cons s code ih =>
      cases i with
      | zero => rfl
      | succ i =>
          have hrest := ih 1 (Nat.lt_of_succ_lt_succ hi)
          rw [ite_self] at hrest
          simpa [codePulses] using hrest

/-- The OFF run before a symbol of a letter, with letters before and after it. -/
theorem train_gap_at (u g : Int) (before : CString) {l : Letter} {ls : List Letter} {i : Nat}
    (hi : i < (codeOf l.char).length) :
    ((train u (letters g before ++ l :: ls))[(symbolsOf before).length + i]?).map Pulse.gap =
      some ((if i = 0 then l.gap else 1) * u) := by
  have hlen : i < (codePulses u l.gap (codeOf l.char)).length := by
    have hwidth := train_widths u [l]
    have := congrArg List.length hwidth
    simp [train] at this
    omega
  rw [train_append, ← train_length_symbols u g before, List.getElem?_append_right (by omega),
    Nat.add_sub_cancel_left, train_cons, List.getElem?_append_left hlen]
  exact codePulses_gap u l.gap (codeOf l.char) hi

/-- Characters that are no letters only make the gap longer, by four units for each
space. -/
theorem letters_mid {mid : CString} (h : ∀ x ∈ mid, isLetter x = false) (g : Int) (cs : CString) :
    letters g (mid ++ cs) = letters (g + 4 * mid.count space) cs := by
  induction mid generalizing g with
  | nil => simp
  | cons x mid ih =>
      have hx := h x List.mem_cons_self
      have hrest := ih fun y hy => h y (List.mem_cons_of_mem x hy)
      rw [List.cons_append]
      by_cases hs : x = space
      · subst hs
        simp only [letters, hx, Bool.false_eq_true, if_false, if_true, hrest,
          List.count_cons_self]
        congr 1
        push_cast
        omega
      · simp only [letters, hx, Bool.false_eq_true, if_false, if_neg hs, hrest,
          List.count_cons_of_ne hs]

/-- The train of the letters of a message obeys the law. -/
theorem law_train (u g : Int) (message : CString) :
    Law u message (train u (letters g message)) := by
  constructor
  · rw [train_widths, letters_chars]
    rfl
  · rintro pre c post rfl hc i hpos hi
    have hcons : ∀ g', letters g' (c :: post) = ⟨g', c⟩ :: letters 3 post := by
      intro g'
      simp [letters, hc]
    rw [letters_append, hcons, train_gap_at u g pre (l := ⟨_, c⟩) hi, if_neg (by omega),
      Int.one_mul]
  · rintro pre c mid d post rfl hc hmid hd
    have hgap : gapAfter g (pre ++ [c]) = 3 := by
      rw [gapAfter_append]
      simp [gapAfter, hc]
    have hlen : 0 < (codeOf d).length := List.length_pos_iff.2 (codeOf_spec d hd).2.1
    have hcons : letters (3 + 4 * mid.count space) (d :: post) =
        ⟨3 + 4 * mid.count space, d⟩ :: letters 3 post := by
      simp [letters, hd]
    have hat := @train_gap_at u g (pre ++ [c]) ⟨3 + 4 * mid.count space, d⟩
      (letters 3 post) 0 hlen
    rw [letters_append, hgap, letters_mid hmid, hcons]
    simpa using hat

/-- A run of a sender, on a line that is on at level `on`, obeys the law and leaves the
line off. -/
def Obeys (on u : Int) (message : CString) (acts : List Act) : Prop :=
  Law u message (pulses on acts) ∧ (keyer.state (.off 0) (keysOf on acts)).on = false

theorem obeys_of_keys {on u : Int} {message : CString} {acts : List Act}
    (h : keysOf on acts = messageKeys u message) : Obeys on u message acts := by
  have hkeyer := keyer_message u 0 message
  rw [Int.zero_mul] at hkeyer
  unfold Obeys pulses
  rw [h, hkeyer.1, hkeyer.2]
  exact ⟨law_train u 0 message, rfl⟩

/-- Unsupported characters do nothing at all. -/
theorem sendChars_supported (sendMorseChar : CString → List Act) (message : CString) :
    sendChars Lab51.getMorseCode sendMorseChar (message.filter supported) =
      sendChars Lab51.getMorseCode sendMorseChar message := by
  induction message with
  | nil => rfl
  | cons c cs ih =>
      by_cases hc : supported c = true
      · rw [List.filter_cons_of_pos hc]
        simp only [sendChars, List.flatMap_cons] at ih ⊢
        rw [ih]
      · have hother : isLetter c = false ∧ c ≠ space := by simpa [supported] using hc
        rw [List.filter_cons_of_neg hc, ih]
        simp [sendChars, getMorseCode_other c hother.1 hother.2]

/-- Both senders obey the law for every message, lab 5.3 with any positive dot whose lengths
fit an `int`, and do the same for a message without its unsupported characters. -/
theorem waveform_law (message : CString) {d : Int} (hd : 0 < d) (hfits : d * 7 ≤ 2147483647) :
    (Obeys 0 100000 message (Lab51.sendMessage message) ∧
        Lab51.sendMessage (message.filter supported) = Lab51.sendMessage message) ∧
      ∃ t, Lab53.Sender.dotTiming d = some t ∧
        Obeys 1 d message (Lab53.Sender.sendMessage t message) ∧
          Lab53.Sender.sendMessage t (message.filter supported) =
            Lab53.Sender.sendMessage t message := by
  refine ⟨⟨?_, ?_⟩, Lab53.Sender.timingOfDot d, ?_, ?_, ?_⟩
  · exact obeys_of_keys (Lab51.sendMessage_keys message)
  · exact sendChars_supported _ message
  · rw [Lab53.Sender.dotTiming_of_nonneg hd.le, if_pos hfits]
  · exact obeys_of_keys (Lab53.Sender.sendMessage_keys hd.le message)
  · unfold Lab53.Sender.sendMessage
    rw [sender_codes_agree]
    exact sendChars_supported _ message

/-- The law for two letters with a comma and a space between them, at the longest dot. -/
theorem waveform_law_ab :
    ∃ t, Lab53.Sender.dotTiming 306783378 = some t ∧
      Obeys 1 306783378 (bytes "a, b") (Lab53.Sender.sendMessage t (bytes "a, b")) := by
  rcases (waveform_law (bytes "a, b") (d := 306783378) (by decide) (by decide)).2 with
    ⟨t, ht, hlaw, -⟩
  exact ⟨t, ht, hlaw⟩

/-- A dot of 600 s, which the speed of a character in 6000 s has: the word gap does not fit
an `int`. -/
theorem slow_dot_overflows :
    (truncate (1 / ((1 / 6000 : ℚ) * 10) * 1000000) = 600000000 ∧
      Lab53.Sender.calculateTiming (1 / 6000) = none) ∧
      ¬ ∀ message d, 0 < d → ∃ t, Lab53.Sender.dotTiming d = some t ∧
        Obeys 1 d message (Lab53.Sender.sendMessage t message) := by
  have hnone : Lab53.Sender.dotTiming 600000000 = none := by decide
  have hdot : truncate (1 / ((1 / 6000 : ℚ) * 10) * 1000000) = 600000000 := by
    rw [Lab53.Sender.dot_eq (by norm_num)]
    norm_num
  refine ⟨⟨hdot, ?_⟩, ?_⟩
  · rw [Lab53.Sender.calculateTiming_eq, hdot]
    exact hnone
  · intro h
    rcases h (bytes "a b") 600000000 (by decide) with ⟨t, ht, -⟩
    rw [hnone] at ht
    cases ht

end Cse121
