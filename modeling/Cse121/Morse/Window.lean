import Cse121.Morse.Link53

/-! # What the link of lab 5.3 can accept

Two limits of the edge receiver. A letter is closed by the gap after it, which the task
keeps in an `int`: a gap that does not fit is taken for another one. And a message comes
through only from a sender whose dot is in a window around the receiver's: outside of it
dashes are not dashes any more, or words are not kept apart.
-/

namespace Cse121.Lab53.Receiver

open PulseTrain

/-! ## Long gaps -/

/-- The event closes the pending letter as the end of a word: the letter is printed once,
with a space, and nothing stays pending. -/
def FlushesWord (cfg : Timing) (s : Decoder CharBuffer) (e : EdgeEvent) : Prop :=
  text (onEvent cfg s e).2 = [decodeMorse s.buffer.pending, space] ∧
    (onEvent cfg s e).1.buffer.morseIdx = 0

instance (cfg : Timing) (s : Decoder CharBuffer) (e : EdgeEvent) :
    Decidable (FlushesWord cfg s e) :=
  inferInstanceAs (Decidable (_ ∧ _))

theorem breakAt_word_iff (cfg : Timing) (φ : Phase) (t : Int) :
    φ.breakAt cfg t = some [space] ↔
      0 < φ.lastFalling ∧ cfg.wordGapMinUs < toInt (t - φ.lastFalling) := by
  unfold Phase.breakAt gapBreak
  split
  · rename_i hpos
    split
    · rename_i hword
      exact ⟨fun _ => ⟨hpos, hword⟩, fun _ => rfl⟩
    · rename_i hword
      split <;> simp [hword]
  · rename_i hpos
    simp only [reduceCtorEq, false_iff, not_and]
    intro hpos'
    exact absurd hpos' hpos

/-- With symbols pending, a rising edge ends a word exactly when its gap is read as a
word gap. -/
theorem flushesWord_iff (cfg : Timing) {s : Decoder CharBuffer} {p : CString}
    (hp : Holds s.buffer p) (hpend : 0 < s.buffer.morseIdx) {r : EdgeEvent} (hr : r.level = 1) :
    FlushesWord cfg s r ↔ s.toLocals.phase.breakAt cfg r.timestampUs = some [space] := by
  have hne : p ≠ [] := List.length_pos_iff.1 (hp.idx_pos.1 hpend)
  have hrun := (array_run cfg hp [r]).1.2
  have htext := array_text cfg hp [r]
  have hdec : decodeMorse s.buffer.pending = decodeMorse p := by
    rw [hp.pending]
    exact decodeMorse_take p
  simp only [Transducer.out_cons, Transducer.out_nil, Transducer.state_cons,
    Transducer.state_nil, marks, hr, if_true, List.append_nil] at hrun htext
  have hstep : (morseDecoderTask cfg).step s r = onEvent cfg s r := rfl
  rw [hstep] at hrun htext
  unfold FlushesWord
  rw [htext, hdec]
  cases hbreak : s.toLocals.phase.breakAt cfg r.timestampUs with
  | none => simp
  | some sep =>
      rw [hbreak] at hrun
      have hidx : (onEvent cfg s r).1.buffer.morseIdx = 0 := by
        rw [hrun.idx_zero, Segment.optBrk_some, Transducer.state_cons, Segment.step_brk_fst]
        rfl
      simp [Segment.step_brk hne, printed, hidx, receiver_codes_agree]

/-- Whatever the pending symbols, the rising edge after a falling edge ends the word
exactly when the gap between them, as an `int`, is a word gap. -/
theorem long_gap_flushed_iff (cfg : Timing) (junk : Vector UInt8 10) (hist : List EdgeEvent)
    {f r : EdgeEvent} (hf : f.level ≠ 1) (hr : r.level = 1)
    (hpend : 0 < ((morseDecoderTask cfg).state (start junk) (hist ++ [f])).buffer.morseIdx) :
    FlushesWord cfg ((morseDecoderTask cfg).state (start junk) (hist ++ [f])) r ↔
      0 < f.timestampUs ∧ cfg.wordGapMinUs < toInt (r.timestampUs - f.timestampUs) := by
  have hreach : Reachable cfg ((morseDecoderTask cfg).state (start junk) (hist ++ [f])) :=
    ⟨junk, hist ++ [f], rfl⟩
  rcases hreach.holds with ⟨p, hp⟩
  rw [flushesWord_iff cfg hp hpend hr, breakAt_word_iff, Locals.phase,
    state_lastFalling cfg junk hist hf]

/-- The gap after an `E` of seven dots. -/
theorem long_gap_flushed_iff_e :
    FlushesWord (configureTiming 10000 5000) ((morseDecoderTask (configureTiming 10000 5000)).state
      (start (Vector.replicate 10 0)) ([⟨100000, 1⟩] ++ [⟨110000, 0⟩])) ⟨180000, 1⟩ :=
  (long_gap_flushed_iff _ _ _ (by decide) (by decide) (by decide)).2 (by decide)

/-- An `E`, and another one after 2 ^ 31 microseconds: nothing is printed, and the two are
one letter. -/
theorem long_gap_merges :
    (configureTiming 10000 5000).wordGapMinUs < 2147593648 - 110000 ∧
      ¬ FlushesWord (configureTiming 10000 5000)
        ((morseDecoderTask (configureTiming 10000 5000)).state (start (Vector.replicate 10 0))
          [⟨100000, 1⟩, ⟨110000, 0⟩]) ⟨2147593648, 1⟩ ∧
      text ((morseDecoderTask (configureTiming 10000 5000)).out (start (Vector.replicate 10 0))
        [⟨100000, 1⟩, ⟨110000, 0⟩, ⟨2147593648, 1⟩, ⟨2147603648, 0⟩]) = [] ∧
      ((morseDecoderTask (configureTiming 10000 5000)).state (start (Vector.replicate 10 0))
        [⟨100000, 1⟩, ⟨110000, 0⟩, ⟨2147593648, 1⟩, ⟨2147603648, 0⟩]).buffer.pending =
          bytes ".." := by
  decide

/-! ## The window of speeds -/

theorem pulseSymbol_dash_iff (cfg : Timing) (d : Int) :
    pulseSymbol cfg d = some dash ↔ cfg.dashMinUs ≤ d ∧ d ≤ cfg.dashMaxUs := by
  have hne : dot ≠ dash := by decide
  unfold pulseSymbol
  split
  · rename_i h
    simp [h]
  · rename_i h
    constructor
    · intro hsome
      split at hsome
      · exact absurd (Option.some.inj hsome) hne
      · exact absurd hsome (by simp)
    · intro hd
      exact absurd hd h

/-- The events of a light that shines, without any jitter, as a train of pulses. It is
dark for less than 2 ^ 31 us at a time. -/
structure Exact (ps : List Pulse) (es : List EdgeEvent) : Prop where
  edges : ∃ t, es.map EdgeEvent.edge = edges t ps
  first : ∀ e ∈ es.head?, 0 < e.timestampUs
  off : OffGapsFit es

/-- What the task has printed of a train when it is over, and the letter still pending. -/
def received (cfg : Timing) (junk : Vector UInt8 10) (es : List EdgeEvent) : CString :=
  text ((morseDecoderTask cfg).out (start junk) es) ++
    [decodeMorse ((morseDecoderTask cfg).state (start junk) es).buffer.pending]

theorem received_eq (cfg : Timing) (junk : Vector UInt8 10) (es : List EdgeEvent) :
    received cfg junk es =
      (Segment.segmenter.out [] ((marks cfg).out ⟨0, 0⟩ es)).flatMap printed ++
        [Lab52.decodeMorse (Segment.segmenter.state [] ((marks cfg).out ⟨0, 0⟩ es))] := by
  have hrun := (array_run cfg (s := start junk) (holds_start junk) es).1.2
  have htext := array_text cfg (s := start junk) (holds_start junk) es
  rw [received, htext, hrun.pending, receiver_codes_agree, decodeMorse_take]
  rfl

/-- The tokens of an exact train: the light comes on for the first time without a break. -/
theorem Exact.marks {ds : Int} (hds : 1 ≤ ds) (hwidth : 3 * ds < 2147483648) {l : Letter}
    (hl : isLetter l.char = true) {ls : List Letter} (hls : ∀ l' ∈ ls, 1 ≤ l'.gap)
    {es : List EdgeEvent} (h : Exact (train ds (l :: ls)) es) (cfg : Timing) :
    ∃ q qs, train ds (l :: ls) = q :: qs ∧
      (marks cfg).out ⟨0, 0⟩ es = (pulseSymbol cfg q.width).toList.map .sym ++
        trainTokens (gapBreak cfg) (pulseSymbol cfg) qs := by
  rcases h.edges with ⟨t, hes⟩
  have hwidths := train_width (u := ds) (by omega) (l :: ls)
  have hgaps := train_gap (u := ds) (by omega) hl hls
  obtain ⟨q, qs, htrain⟩ := List.exists_cons_of_ne_nil (train_ne_nil (u := ds) hl ls)
  rw [htrain] at hes hwidths hgaps
  refine ⟨q, qs, htrain, ?_⟩
  rcases head_edge hes with ⟨e, he, htime⟩
  have hpos := h.first e he
  have hoff := offGaps_train h.off hes
  have hq := hwidths q List.mem_cons_self
  have hfits : ∀ q' ∈ qs, Fits q' := by
    intro q' hq'
    have hw := hwidths q' (List.mem_cons_of_mem q hq')
    have hg := hgaps q' hq'
    have ho := hoff q' hq'
    simp only [Fits]
    omega
  rw [htime] at hpos
  exact marks_first cfg ⟨0, 0⟩ hpos (by omega) hfits hes

/-- If what is received of a train is what letters spell, every symbol was read as
itself. -/
theorem symbols_read {ds : Int} (hds : 1 ≤ ds) (hwidth : 3 * ds < 2147483648) {l : Letter}
    (hl : isLetter l.char = true) {ls : List Letter}
    (hls : ∀ l' ∈ ls, isLetter l'.char = true ∧ 1 ≤ l'.gap) {es : List EdgeEvent}
    (h : Exact (train ds (l :: ls)) es) (cfg : Timing) (junk : Vector UInt8 10)
    {sep : Int → CString}
    (hsep : ∀ l' ∈ ls, sep l'.gap = [] ∨ sep l'.gap = [space])
    (heq : received cfg junk es = toupper l.char :: spelled sep ls) :
    ∀ s ∈ ((l :: ls).map Letter.char).flatMap codeOf, pulseSymbol cfg (units s * ds) = some s := by
  rcases h.marks hds hwidth hl (fun l' hl' => (hls l' hl').2) cfg with ⟨q, qs, htrain, htoks⟩
  rw [received_eq] at heq
  have hgroups : ∀ g ∈ Segment.segmenter.out [] ((marks cfg).out ⟨0, 0⟩ es),
      g.2 = [] ∨ g.2 = [space] :=
    fun g hg => marks_sep cfg ⟨0, 0⟩ es g.2 (Segment.groups_brk [] _ g hg)
  have hcodes := codes_of_text hgroups hl (fun l' hl' => (hls l' hl').1) hsep heq
  -- the symbols that were recorded are the symbols of the pulses
  have hsyms : Segment.syms ((marks cfg).out ⟨0, 0⟩ es) =
      ((train ds (l :: ls)).map Pulse.width).filterMap (pulseSymbol cfg) := by
    rw [htoks, Segment.syms_append, syms_trainTokens, htrain, List.map_cons, List.filterMap_cons]
    cases pulseSymbol cfg q.width <;> rfl
  rw [Segment.conservation, List.nil_append, hsyms, train_widths, List.filterMap_map] at hcodes
  have hall := (List.filterMap_eq_map_iff_forall_eq_some (g := id)).1 (hcodes.trans (by simp))
  exact hall

/-- In the window of the dashes everything but the gaps between letters is read as it was
sent; what is received depends on which of these end a word. -/
theorem received_in_window {ds dr tol : Int} (hds : 1 ≤ ds) (hwidth : 3 * ds < 2147483648)
    (htol : 0 ≤ tol) (htol' : tol < dr) (hlo : 3 * dr - tol ≤ 3 * ds)
    (hhi : 3 * ds ≤ 3 * dr + tol) {l : Letter} (hl : isLetter l.char = true) {ls : List Letter}
    (hls : ∀ l' ∈ ls, isLetter l'.char = true ∧ 3 ≤ l'.gap) {es : List EdgeEvent}
    (h : Exact (train ds (l :: ls)) es) (junk : Vector UInt8 10) :
    received (configureTiming dr tol) junk es = toupper l.char ::
      spelled (fun g => if 6 * dr < g * ds then [space] else []) ls := by
  have hall : ∀ l' ∈ l :: ls, isLetter l'.char = true := by
    intro l' hl'
    rcases List.mem_cons.1 hl' with rfl | hl'
    · exact hl
    · exact (hls l' hl').1
  have hgap : ∀ l' ∈ ls, 1 ≤ l'.gap := by
    intro l' hl'
    have := (hls l' hl').2
    omega
  have hreads : Reads (Within 0) ds (gapBreak (configureTiming dr tol))
      (pulseSymbol (configureTiming dr tol)) := by
    refine ⟨?_, ?_, ?_⟩
    · rintro d ⟨_, _⟩
      apply pulseSymbol_dot <;> simp only [configureTiming] <;> omega
    · rintro d ⟨_, _⟩
      apply pulseSymbol_dash <;> simp only [configureTiming] <;> omega
    · rintro d ⟨_, _⟩
      apply gapBreak_none <;> simp only [configureTiming] <;> omega
  -- a gap between letters is a break of one kind or the other
  have hbreak : ∀ l' ∈ ls, ∀ d, Within 0 (l'.gap * ds) d →
      ∃ b, gapBreak (configureTiming dr tol) d = some b ∧
        b = if 6 * dr < l'.gap * ds then [space] else [] := by
    rintro l' hl' d ⟨hd, hd'⟩
    have heq : d = l'.gap * ds := by omega
    have hmul : 3 * ds ≤ l'.gap * ds := Int.mul_le_mul_of_nonneg_right (hls l' hl').2 (by omega)
    subst heq
    refine ⟨_, ?_, rfl⟩
    split
    · apply gapBreak_word
      simp only [configureTiming]
      omega
    · apply gapBreak_letter <;> simp only [configureTiming] <;> omega
  rcases h.marks hds hwidth hl hgap (configureTiming dr tol) with ⟨q, qs, htrain, htoks⟩
  rcases hreads.train (fun g b => b = if 6 * dr < g * ds then [space] else []) hall hbreak
    (alikeTrain_refl (le_refl 0) (train ds (l :: ls))) with ⟨q', qs', ks, hqs, hread, hrel⟩
  obtain ⟨rfl, rfl⟩ := List.cons.inj (htrain.symm.trans hqs)
  have hcode : (marks (configureTiming dr tol)).out ⟨0, 0⟩ es =
      (codeOf l.char).map .sym ++ Segment.letterTokens ks := by
    rw [htrain, trainTokens, List.flatMap_cons, List.append_assoc] at hread
    exact htoks.trans (List.append_cancel_left hread)
  have hletters : ∀ l' ∈ ls, isLetter l'.char = true := fun l' hl' => (hls l' hl').1
  have htext := (letters_text (fun g b => b = if 6 * dr < g * ds then [space] else []) hl
    hletters hrel).2
  rw [received_eq, hcode, htext,
    @printedLetters_spelled (fun g => if 6 * dr < g * ds then [space] else []) ls hletters ks hrel]

/-- In the window of the dashes only the separators are left to compare. -/
theorem received_separators {ds dr tol : Int} (hds : 1 ≤ ds) (hwidth : 3 * ds < 2147483648)
    (htol : 0 ≤ tol) (htol' : tol < dr) (hlo : 3 * dr - tol ≤ 3 * ds)
    (hhi : 3 * ds ≤ 3 * dr + tol) {l : Letter} (hl : isLetter l.char = true) {ls : List Letter}
    (hls : ∀ l' ∈ ls, isLetter l'.char = true ∧ 3 ≤ l'.gap) {es : List EdgeEvent}
    (h : Exact (train ds (l :: ls)) es) (junk : Vector UInt8 10) :
    received (configureTiming dr tol) junk es = toupper l.char :: spelled wordSep ls ↔
      ∀ l' ∈ ls, (if 6 * dr < l'.gap * ds then [space] else []) = wordSep l'.gap := by
  have hletters : ∀ l' ∈ ls, isLetter l'.char = true := fun l' hl' => (hls l' hl').1
  have hgapSep : ∀ l' ∈ ls, (if 6 * dr < l'.gap * ds then [space] else []) = [] ∨
      (if 6 * dr < l'.gap * ds then [space] else []) = [space] := by
    intro l' _
    split <;> simp
  rw [received_in_window hds hwidth htol htol' hlo hhi hl hls h junk, List.cons_inj_right,
    spelled_inj hletters hgapSep fun l' _ => wordSep_cases l'.gap]

/-- A message with a dash and a single space, sent without jitter, comes through exactly
when the dashes are in the receiver's window and the word gaps above its limit. -/
theorem operating_window_iff {ds dr tol : Int} (hds : 1 ≤ ds) (hwidth : 3 * ds < 2147483648)
    (htol : 0 ≤ tol) (htol' : tol < dr) {message : CString}
    (hdash : ∃ c ∈ message, isLetter c = true ∧ dash ∈ codeOf c)
    (hpair : ∃ a b, isLetter a = true ∧ isLetter b = true ∧
      [a, space, b] <:+: supportedText message) {es : List EdgeEvent}
    (hes : Exact (pulses 1 (Sender.main (Sender.timingOfDot ds) 1 message)) es)
    (junk : Vector UInt8 10) :
    received (configureTiming dr tol) junk es = normalise message ↔
      6 * dr < 7 * ds ∧ 3 * dr - tol ≤ 3 * ds ∧ 3 * ds ≤ 3 * dr + tol := by
  rcases hdash with ⟨d, hd, hdl, hdc⟩
  rcases hpair with ⟨a, b, ha, hb, hpair⟩
  rcases transmission_shape ⟨d, hd, hdl⟩ with ⟨k, c, inner, hk, hc, hls, hinner, htrans⟩
  have hnorm := spelled_normalise hk hls
  have hinner3 : ∀ l ∈ inner, isLetter l.char = true ∧ 3 ≤ l.gap := by
    intro l hl
    have := (hinner l hl).2
    exact ⟨(hinner l hl).1, by omega⟩
  have hinner1 : ∀ l ∈ inner, isLetter l.char = true ∧ 1 ≤ l.gap := by
    intro l hl
    have := hinner3 l hl
    exact ⟨this.1, by omega⟩
  rw [Sender.main_pulses (by omega), htrans, List.replicate_zero, List.flatten_nil,
    List.append_nil] at hes
  have hfirst : letters 0 message = ⟨k, c⟩ :: inner := by
    rw [hls 0, Int.zero_add]
  have hseps := fun hlo hhi => @received_separators ds dr tol hds hwidth htol htol' hlo hhi
    ⟨k, c⟩ hc inner hinner3 es hes junk
  rw [hnorm] at hseps
  constructor
  · intro heq
    -- a dash that comes through was read as one
    have hall := symbols_read (l := ⟨k, c⟩) hds hwidth hc hinner1 hes (configureTiming dr tol) junk
      (fun l' _ => wordSep_cases l'.gap) (heq.trans hnorm.symm)
    have hmem : dash ∈ (((⟨k, c⟩ : Letter) :: inner).map Letter.char).flatMap codeOf := by
      rw [← hfirst, letters_chars, List.mem_flatMap]
      exact ⟨d, List.mem_filter.2 ⟨hd, hdl⟩, hdc⟩
    have hread := hall dash hmem
    have hunits : units dash = 3 := by decide
    rw [hunits, pulseSymbol_dash_iff] at hread
    simp only [configureTiming] at hread
    have hlo : 3 * dr - tol ≤ 3 * ds := by omega
    have hhi : 3 * ds ≤ 3 * dr + tol := by omega
    refine ⟨?_, hlo, hhi⟩
    rcases word_gap ha hb hpair hfirst with ⟨l, hl, hseven⟩
    have hsep := (hseps hlo hhi).1 heq l hl
    rw [hseven] at hsep
    by_contra hnot
    rw [if_neg hnot] at hsep
    exact absurd hsep (by decide)
  · rintro ⟨hword, hlo, hhi⟩
    rw [hseps hlo hhi]
    intro l hl
    unfold wordSep
    have hgap := (hinner l hl).2
    by_cases h3 : l.gap = 3
    · rw [if_pos h3, if_neg (by rw [h3]; omega)]
    · have hmul : 7 * ds ≤ l.gap * ds := Int.mul_le_mul_of_nonneg_right (by omega) (by omega)
      rw [if_neg h3, if_pos (by omega)]

/-- The edges of `t e` with a dot of 100 ms. -/
def dashDot : List EdgeEvent := [⟨50000, 1⟩, ⟨350000, 0⟩, ⟨1050000, 1⟩, ⟨1150000, 0⟩]

theorem operating_window_iff_dashDot :
    received (configureTiming 110000 40000) (Vector.replicate 10 0) dashDot =
        normalise (bytes "t e") ∧
      received (configureTiming 120000 30000) (Vector.replicate 10 0) dashDot ≠
        normalise (bytes "t e") := by
  have hexact : Exact (pulses 1 (Sender.main (Sender.timingOfDot 100000) 1 (bytes "t e")))
      dashDot := by
    refine ⟨⟨50000, by decide⟩, ?_, ?_⟩
    · rintro e ⟨⟩
      decide
    · simp [OffGapsFit, dashDot]
  have hpair : [chr 'T', space, chr 'E'] <:+: supportedText (bytes "t e") := ⟨[], [], by decide⟩
  constructor
  · exact (operating_window_iff (by decide) (by decide) (by decide) (by decide)
      ⟨chr 't', by decide, by decide, by decide⟩ ⟨_, _, by decide, by decide, hpair⟩ hexact _).2
      (by decide)
  · exact mt (operating_window_iff (by decide) (by decide) (by decide) (by decide)
      ⟨chr 't', by decide, by decide, by decide⟩ ⟨_, _, by decide, by decide, hpair⟩ hexact _).1
      (by decide)

end Cse121.Lab53.Receiver
