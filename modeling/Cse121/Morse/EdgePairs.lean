import Cse121.Morse.Receiver53

/-! # Rising edges and symbols in lab 5.3

The handler may miss an edge or read the same level twice, so the decoder task gets
events in any order. A falling event is measured from the last rising one, however many
falling events came in between.
-/

namespace Cse121.Lab53.Receiver

/-! ## What is recorded -/

/-- The symbol that an event adds to the array. -/
def recorded (cfg : Timing) (s : Decoder CharBuffer) (e : EdgeEvent) : Option UInt8 :=
  let b := (onEvent cfg s e).1.buffer
  if s.buffer.morseIdx < b.morseIdx then b.pending.getLast? else none

/-- The task with the recorded symbols for output. -/
def recorder (cfg : Timing) : Transducer (Decoder CharBuffer) EdgeEvent UInt8 where
  step s e := ((onEvent cfg s e).1, (recorded cfg s e).toList)

theorem recorder_state (cfg : Timing) (s : Decoder CharBuffer) (es : List EdgeEvent) :
    (recorder cfg).state s es = (morseDecoderTask cfg).state s es := by
  induction es generalizing s with
  | nil => rfl
  | cons e es ih => exact ih (onEvent cfg s e).1

/-- A rising event records nothing. -/
theorem recorded_rising (cfg : Timing) (s : Decoder CharBuffer) {e : EdgeEvent}
    (he : e.level = 1) : recorded cfg s e = none := by
  have hidx : (onEvent cfg s e).1.buffer.morseIdx ≤ s.buffer.morseIdx := by
    simp only [onEvent, if_pos he, onRising]
    repeat' split
    all_goals first | exact Nat.zero_le _ | exact le_refl _
  unfold recorded
  rw [if_neg (by omega)]

theorem recorded_push {s s' : Decoder CharBuffer} {c : UInt8}
    (h : s'.buffer = (push s.buffer c).1) :
    (if s.buffer.morseIdx < s'.buffer.morseIdx then s'.buffer.pending.getLast? else none) =
      if s.buffer.morseIdx < 9 then some c else none := by
  rw [h]
  by_cases hroom : s.buffer.morseIdx < 10 - 1
  · have hpush := push_pending hroom c
    rw [hpush.1, hpush.2, if_pos (Nat.lt_succ_self _), if_pos hroom, List.getLast?_concat]
  · rw [push_full hroom, if_neg (lt_irrefl _), if_neg hroom]

/-- A falling event records the symbol of the time since the last rising event, while
there is room. -/
theorem recorded_falling (cfg : Timing) (s : Decoder CharBuffer) {e : EdgeEvent}
    (he : e.level ≠ 1) :
    recorded cfg s e =
      if s.buffer.morseIdx < 9 then s.toLocals.phase.symbolAt cfg e.timestampUs else none := by
  have hsame : ∀ s' : Decoder CharBuffer, s'.buffer = s.buffer →
      (if s.buffer.morseIdx < s'.buffer.morseIdx then s'.buffer.pending.getLast? else none) =
        if s.buffer.morseIdx < 9 then (none : Option UInt8) else none := by
    intro s' hs'
    rw [hs', if_neg (lt_irrefl _), ite_self]
  unfold recorded
  simp only [onEvent, if_neg he, onFalling, phase_symbol, pulseSymbol]
  split
  · split
    · exact recorded_push rfl
    · split
      · exact recorded_push rfl
      · exact hsame _ rfl
  · exact hsame _ rfl

/-! ## The last rising event -/

/-- The time of the last rising event, 0 before the first one. -/
def lastRise (es : List EdgeEvent) : Int :=
  es.foldl (fun t e => if e.level = 1 then e.timestampUs else t) 0

/-- The number of rising events. -/
def risings (es : List EdgeEvent) : Nat := es.countP (·.level = 1)

/-- Whether the last event was a rising one. -/
def AfterRising (es : List EdgeEvent) : Prop := ∃ es' r, es = es' ++ [r] ∧ r.level = 1

theorem lastRise_concat (es : List EdgeEvent) (e : EdgeEvent) :
    lastRise (es ++ [e]) = if e.level = 1 then e.timestampUs else lastRise es := by
  simp [lastRise]

/-- The task measures from the last rising event. -/
theorem state_lastRise (cfg : Timing) (junk : Vector UInt8 10) (es : List EdgeEvent) :
    ((morseDecoderTask cfg).state (start junk) es).toLocals.phase.lastRising = lastRise es := by
  rw [(array_run cfg (s := start junk) (holds_start junk) es).1.1]
  induction es using List.reverseRecOn with
  | nil => rfl
  | append_singleton es e ih =>
      rw [Transducer.state_append, lastRise_concat, ← ih]
      by_cases he : e.level = 1 <;> simp [marks, he]

/-- What the next event records. -/
theorem recorded_iff (cfg : Timing) (junk : Vector UInt8 10) (pre : List EdgeEvent)
    (e : EdgeEvent) (c : UInt8) :
    recorded cfg ((morseDecoderTask cfg).state (start junk) pre) e = some c ↔
      (e.level ≠ 1 ∧ ((morseDecoderTask cfg).state (start junk) pre).buffer.morseIdx < 9) ∧
        0 < lastRise pre ∧ pulseSymbol cfg (toInt (e.timestampUs - lastRise pre)) = some c := by
  by_cases he : e.level = 1
  · rw [recorded_rising cfg _ he]
    simp [he]
  · rw [recorded_falling cfg _ he, Phase.symbolAt, state_lastRise]
    split
    · rename_i hroom
      split
      · rename_i hpos
        simp only [he, hroom, hpos, ne_eq, not_false_eq_true, true_and]
      · rename_i hpos
        simp only [hpos, false_and, and_false, reduceCtorEq]
    · rename_i hroom
      simp only [hroom, and_false, false_and, reduceCtorEq]

/-! ## One symbol for each rising event -/

/-- Every symbol is recorded by a falling event, from the time since the rising event just
before it. -/
def Paired (cfg : Timing) (junk : Vector UInt8 10) (es : List EdgeEvent) : Prop :=
  ∀ pre e post c, es = pre ++ e :: post →
    recorded cfg ((morseDecoderTask cfg).state (start junk) pre) e = some c →
    e.level ≠ 1 ∧ ∃ pre' r, pre = pre' ++ [r] ∧ r.level = 1 ∧
      pulseSymbol cfg (toInt (e.timestampUs - r.timestampUs)) = some c

/-- A falling event that does not come right after a rising one finds no rising event at
all, or one at a distance that is no symbol, or no room. -/
def Fresh (cfg : Timing) (junk : Vector UInt8 10) (es : List EdgeEvent) : Prop :=
  ∀ pre e post, es = pre ++ e :: post → e.level ≠ 1 → ¬ AfterRising pre →
    lastRise pre ≤ 0 ∨ pulseSymbol cfg (toInt (e.timestampUs - lastRise pre)) = none ∨
      9 ≤ ((morseDecoderTask cfg).state (start junk) pre).buffer.morseIdx

theorem paired_iff_fresh (cfg : Timing) (junk : Vector UInt8 10) (es : List EdgeEvent) :
    Paired cfg junk es ↔ Fresh cfg junk es := by
  constructor
  · intro hpaired pre e post hes he hafter
    by_contra hno
    push Not at hno
    obtain ⟨c, hc⟩ := Option.ne_none_iff_exists'.1 hno.2.1
    have hrec := (recorded_iff cfg junk pre e c).2 ⟨⟨he, hno.2.2⟩, hno.1, hc⟩
    rcases (hpaired pre e post c hes hrec).2 with ⟨pre', r, hpre, hr, -⟩
    exact hafter ⟨pre', r, hpre, hr⟩
  · intro hfresh pre e post c hes hrec
    rcases (recorded_iff cfg junk pre e c).1 hrec with ⟨⟨he, hroom⟩, hpos, hc⟩
    refine ⟨he, ?_⟩
    by_cases hafter : AfterRising pre
    · rcases hafter with ⟨pre', r, rfl, hr⟩
      rw [lastRise_concat, if_pos hr] at hc
      exact ⟨pre', r, rfl, hr, hc⟩
    · rcases hfresh pre e post hes he hafter with h | h | h
      · omega
      · rw [h] at hc
        exact absurd hc (by simp)
      · omega

/-- Symbols that are paired with rising events are no more than these, and one less while
a rising event waits for its falling one. -/
theorem paired_count (cfg : Timing) (junk : Vector UInt8 10) {es : List EdgeEvent}
    (h : Paired cfg junk es) :
    ((recorder cfg).out (start junk) es).length ≤ risings es ∧
      (AfterRising es → ((recorder cfg).out (start junk) es).length < risings es) := by
  induction es using List.reverseRecOn with
  | nil =>
      constructor
      · exact Nat.zero_le _
      · rintro ⟨es', r, hes, -⟩
        simp at hes
  | append_singleton es e ih =>
      have hprefix : Paired cfg junk es := by
        intro pre x post c hes
        exact h pre x (post ++ [e]) c (by simp [hes])
      have hcount := ih hprefix
      have hlast : AfterRising (es ++ [e]) ↔ e.level = 1 := by
        constructor
        · rintro ⟨es', r, hes, hr⟩
          rw [(List.append_inj' hes rfl).2 |> List.singleton_inj.1]
          exact hr
        · intro he
          exact ⟨es, e, rfl, he⟩
      have hrisings : risings (es ++ [e]) = risings es + if e.level = 1 then 1 else 0 := by
        simp [risings, List.countP_append, List.countP_singleton]
      have hout : (recorder cfg).out (start junk) (es ++ [e]) =
          (recorder cfg).out (start junk) es ++
            (recorded cfg ((morseDecoderTask cfg).state (start junk) es) e).toList := by
        rw [Transducer.out_append, recorder_state, Transducer.out_cons, Transducer.out_nil,
          List.append_nil]
        rfl
      rw [hlast, hout, hrisings, List.length_append]
      cases hrec : recorded cfg ((morseDecoderTask cfg).state (start junk) es) e with
      | none =>
          -- nothing recorded: a rising event only adds to the other side
          simp only [Option.toList_none, List.length_nil]
          split
          · omega
          · rename_i he
            exact ⟨by omega, fun he' => absurd he' he⟩
      | some c =>
          -- the rising event just before has no symbol yet
          rcases h es e [] c rfl hrec with ⟨he, es', r, hes, hr, -⟩
          have hless := hcount.2 ⟨es', r, hes, hr⟩
          simp only [Option.toList_some, List.length_singleton, if_neg he]
          exact ⟨by omega, fun he' => absurd he' he⟩

/-- The rising events are used once, each by the falling event right after it, exactly
when no other falling event finds one that it can use. -/
theorem edges_used_once_iff (cfg : Timing) (junk : Vector UInt8 10) (es : List EdgeEvent) :
    (Paired cfg junk es ∧ ∀ pre post, es = pre ++ post →
        ((recorder cfg).out (start junk) pre).length ≤ risings pre) ↔
      Fresh cfg junk es := by
  rw [← paired_iff_fresh]
  constructor
  · intro h
    exact h.1
  · intro h
    refine ⟨h, ?_⟩
    rintro pre post rfl
    have hprefix : Paired cfg junk pre := by
      intro pre' e post' c hpre
      exact h pre' e (post' ++ post) c (by simp [hpre])
    exact (paired_count cfg junk hprefix).1

/-- One rising event and two falling ones: two symbols. -/
theorem edge_used_twice :
    ((recorder (configureTiming 10000 5000)).out (start (Vector.replicate 10 0))
        [⟨100000, 1⟩, ⟨110000, 0⟩, ⟨112000, 0⟩] = bytes "..") ∧
      risings [⟨100000, 1⟩, ⟨110000, 0⟩, ⟨112000, 0⟩] = 1 := by
  decide

end Cse121.Lab53.Receiver
