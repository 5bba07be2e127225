import Cse121.Morse.Receiver53
import Cse121.Morse.Text
import Mathlib.Algebra.Order.BigOperators.Group.List

/-! # The link of lab 5.3

The edges of the sender's light, moved by a bounded jitter, are decoded into the
message, up to the last letter: the task prints a letter when the light comes back
after it, and nothing makes the light come back after the last one.
-/

namespace Cse121.Lab53.Receiver

open PulseTrain

/-- The edge of the light that an event tells. -/
def EdgeEvent.edge (e : EdgeEvent) : Edge := ⟨e.timestampUs, e.level = 1⟩

/-- A measured pulse whose runs have a length that an `int` holds. -/
def Fits (q : Pulse) : Prop :=
  (0 < q.gap ∧ q.gap < 2147483648) ∧ (0 < q.width ∧ q.width < 2147483648)

/-! ## The front end on edges -/

/-- The events of a pulse. -/
theorem edge_cons {e : EdgeEvent} {t : Int} {b : Bool} (h : e.edge = ⟨t, b⟩) :
    e.timestampUs = t ∧ (e.level = 1 ↔ b = true) := by
  simp only [EdgeEvent.edge, Edge.mk.injEq] at h
  exact ⟨h.1, by simp [← h.2]⟩

/-- A pulse makes the break of its gap, if it is known, and the symbol of its width. -/
theorem marks_pulse (cfg : Timing) (φ : Phase) {er ef : EdgeEvent} {tr tf : Int}
    (hr : er.edge = ⟨tr, true⟩) (hf : ef.edge = ⟨tf, false⟩) (hpos : 0 < tr)
    (hw : 0 < tf - tr ∧ tf - tr < 2147483648) :
    (marks cfg).out φ [er, ef] = Segment.optBrk (φ.breakAt cfg tr) ++
        (pulseSymbol cfg (tf - tr)).toList.map .sym ∧
      (marks cfg).state φ [er, ef] = ⟨tr, tf⟩ := by
  have hr' := edge_cons hr
  have hf' := edge_cons hf
  have hlevel : er.level = 1 := hr'.2.2 rfl
  have hlevel' : ¬ ef.level = 1 := by simp [hf'.2]
  have hint : toInt (tf - tr) = tf - tr := toInt_of_range (by omega) hw.2
  simp only [marks, Transducer.out_cons, Transducer.out_nil, Transducer.state_cons,
    Transducer.state_nil, hlevel, hlevel', if_true, if_false, hr'.1, hf'.1, Phase.symbolAt,
    if_pos (show tr > 0 from hpos), hint, List.append_nil, and_self]

/-- After a falling edge, the tokens of the edges are those of the measured train. -/
theorem marks_train (cfg : Timing) (φ : Phase) (hφ : 0 < φ.lastFalling) {es : List EdgeEvent}
    {qs : List Pulse} (hqs : ∀ q ∈ qs, Fits q)
    (hes : es.map EdgeEvent.edge = edges φ.lastFalling qs) :
    (marks cfg).out φ es = trainTokens (gapBreak cfg) (pulseSymbol cfg) qs := by
  induction qs generalizing φ es with
  | nil =>
      simp only [edges, List.map_eq_nil_iff] at hes
      subst hes
      rfl
  | cons q qs ih =>
      rcases List.map_eq_cons_iff.1 hes with ⟨er, es₁, rfl, hr, hes₁⟩
      rcases List.map_eq_cons_iff.1 hes₁ with ⟨ef, es', rfl, hf, hes'⟩
      have hq := hqs q List.mem_cons_self
      have hwidth : φ.lastFalling + q.gap + q.width - (φ.lastFalling + q.gap) = q.width := by omega
      have hgap : φ.lastFalling + q.gap - φ.lastFalling = q.gap := by omega
      have hpulse := marks_pulse cfg φ hr hf (by have := hq.1; omega) (by rw [hwidth]; exact hq.2)
      have hint : toInt q.gap = q.gap := toInt_of_range (by have := hq.1; omega) hq.1.2
      have hbreak : φ.breakAt cfg (φ.lastFalling + q.gap) = gapBreak cfg q.gap := by
        rw [Phase.breakAt, if_pos hφ, hgap, hint]
      have hrest := ih ⟨φ.lastFalling + q.gap, φ.lastFalling + q.gap + q.width⟩
        (by have := hq.1; have := hq.2; simp only; omega)
        (fun q' hq' => hqs q' (List.mem_cons_of_mem q hq')) hes'
      have hsplit : er :: ef :: es' = [er, ef] ++ es' := rfl
      rw [hsplit, Transducer.out_append, hpulse.1, hpulse.2, hrest, hwidth, hbreak]
      rfl

/-- The first pulse after any phase, and the train after it. -/
theorem marks_first (cfg : Timing) (φ : Phase) {t : Int} {es : List EdgeEvent} {q : Pulse}
    {qs : List Pulse} (hpos : 0 < t + q.gap) (hq : 0 < q.width ∧ q.width < 2147483648)
    (hqs : ∀ q' ∈ qs, Fits q') (hes : es.map EdgeEvent.edge = edges t (q :: qs)) :
    (marks cfg).out φ es = Segment.optBrk (φ.breakAt cfg (t + q.gap)) ++
      ((pulseSymbol cfg q.width).toList.map .sym ++
        trainTokens (gapBreak cfg) (pulseSymbol cfg) qs) := by
  rcases List.map_eq_cons_iff.1 hes with ⟨er, es₁, rfl, hr, hes₁⟩
  rcases List.map_eq_cons_iff.1 hes₁ with ⟨ef, es', rfl, hf, hes'⟩
  have hwidth : t + q.gap + q.width - (t + q.gap) = q.width := by omega
  have hpulse := marks_pulse cfg φ hr hf hpos (by rw [hwidth]; exact hq)
  have hrest := marks_train cfg ⟨t + q.gap, t + q.gap + q.width⟩
    (by simp only; omega) hqs hes'
  have hsplit : er :: ef :: es' = [er, ef] ++ es' := rfl
  rw [hsplit, Transducer.out_append, hpulse.1, hpulse.2, hrest, hwidth, List.append_assoc]

/-- The front end separates letters by nothing or by a space. -/
theorem marks_sep (cfg : Timing) (φ : Phase) (es : List EdgeEvent) (sep : CString)
    (h : .brk sep ∈ (marks cfg).out φ es) : sep = [] ∨ sep = [space] := by
  refine Transducer.out_invariant (marks cfg) (fun _ => True) (fun _ => True)
    (fun tok => ∀ sep, tok = .brk sep → sep = [] ∨ sep = [space])
    (fun _ _ _ _ => trivial) ?_ (fun _ _ => trivial) trivial _ h sep rfl
  rintro φ e - - tok htok sep rfl
  simp only [marks, Phase.breakAt, Segment.optBrk, gapBreak] at htok
  grind

/-! ## Compatible timings -/

/-- A receiver configured for a dot `dr` with tolerance `tol` keeps apart what a sender
with a dot `ds` sends, when every edge may move by `j`. -/
structure Compatible (ds dr tol j : Int) : Prop where
  tol_nonneg : 0 ≤ tol
  tol_lt : tol < dr
  dot_min : dr - tol + 2 * j ≤ ds
  dot_max : ds ≤ dr + tol - 2 * j
  dash_min : 3 * dr - tol + 2 * j ≤ 3 * ds
  dash_max : 3 * ds ≤ 3 * dr + tol - 2 * j
  symbolGap : ds + 2 * j ≤ 2 * dr
  letterGap_min : 2 * dr < 3 * ds - 2 * j
  letterGap_max : 3 * ds + 2 * j ≤ 6 * dr
  wordGap_min : 6 * dr < 7 * ds - 2 * j
  fits : 6 * dr < 2147483648

/-- Dots, dashes and symbol gaps are told apart. -/
theorem Compatible.reads {ds dr tol j : Int} (h : Compatible ds dr tol j) :
    Reads (Within (2 * j)) ds (gapBreak (configureTiming dr tol))
      (pulseSymbol (configureTiming dr tol)) := by
  rcases h with ⟨_, _, _, _, _, _, _, _, _, _, _⟩
  refine ⟨?_, ?_, ?_⟩
  · rintro d ⟨hlo, hhi⟩
    apply pulseSymbol_dot <;> simp only [configureTiming] <;> omega
  · rintro d ⟨hlo, hhi⟩
    apply pulseSymbol_dash <;> simp only [configureTiming] <;> omega
  · rintro d ⟨hlo, hhi⟩
    apply gapBreak_none <;> simp only [configureTiming] <;> omega

/-- The dark runs between events, as the events tell them. -/
def OffGapsFit (es : List EdgeEvent) : Prop :=
  es.IsChain fun e e' => e.level ≠ 1 → e'.level = 1 → e'.timestampUs - e.timestampUs < 2147483648

theorem offGaps_train {es : List EdgeEvent} (h : OffGapsFit es) {t : Int} {q : Pulse}
    {qs : List Pulse} (hes : es.map EdgeEvent.edge = edges t (q :: qs)) :
    ∀ q' ∈ qs, q'.gap < 2147483648 := by
  induction qs generalizing t q es with
  | nil => simp
  | cons q' qs ih =>
      rcases List.map_eq_cons_iff.1 hes with ⟨er, es₁, rfl, hr, hes₁⟩
      rcases List.map_eq_cons_iff.1 hes₁ with ⟨ef, es₂, rfl, hf, hes₂⟩
      have hchain := (List.isChain_cons_cons.1 h).2
      rcases List.map_eq_cons_iff.1 hes₂ with ⟨er', es₃, rfl, hr', -⟩
      have hf' := edge_cons hf
      have hr'' := edge_cons hr'
      have hfirst := (List.isChain_cons_cons.1 hchain).1 (by simp [hf'.2]) (hr''.2.2 rfl)
      intro x hx
      rcases List.mem_cons.1 hx with rfl | hx
      · rw [hr''.1, hf'.1] at hfirst
        omega
      · exact ih (List.isChain_cons_cons.1 hchain).2 hes₂ x hx

/-! ## The state before a transmission -/

/-- The task is ready for a transmission whose first edge comes at `t`: it has just
started, or its last event was a falling edge, more than a word gap before. -/
def ReadyAt (cfg : Timing) (s : Decoder CharBuffer) (t : Int) : Prop :=
  (∃ junk, s = start junk ∧ 0 < t) ∨
    ∃ junk hist f, s = (morseDecoderTask cfg).state (start junk) (hist ++ [f]) ∧ f.level ≠ 1 ∧
      0 < f.timestampUs ∧ cfg.wordGapMinUs < t - f.timestampUs ∧ t - f.timestampUs < 2147483648

/-- What the first edge flushes: the pending symbols, if any, as a word's end. -/
def flushed (s : Decoder CharBuffer) : CString :=
  if s.buffer.morseIdx = 0 then [] else [decodeMorse s.buffer.pending, space]

/-- The first edge of a transmission flushes what was pending and leaves nothing. -/
theorem ReadyAt.first {cfg : Timing} (hcfg : 0 ≤ cfg.wordGapMinUs) {s : Decoder CharBuffer}
    {t : Int} (h : ReadyAt cfg s t) :
    0 < t ∧ ∃ p, Holds s.buffer p ∧
      (Segment.segmenter.out p (Segment.optBrk (s.toLocals.phase.breakAt cfg t))).flatMap printed =
        flushed s ∧
      Segment.segmenter.state p (Segment.optBrk (s.toLocals.phase.breakAt cfg t)) = [] := by
  rcases h with ⟨junk, rfl, ht⟩ | ⟨junk, hist, f, rfl, hf, hfpos, hlo, hhi⟩
  · exact ⟨ht, [], holds_start junk, rfl, rfl⟩
  · have hrun := array_run cfg (s := start junk) (holds_start junk) (hist ++ [f])
    have hphase := state_lastFalling cfg junk hist hf
    have hword : toInt (t - f.timestampUs) = t - f.timestampUs := toInt_of_range (by omega) hhi
    have hbreak : (((morseDecoderTask cfg).state (start junk) (hist ++ [f])).toLocals.phase).breakAt
        cfg t = some [space] := by
      simp only [Phase.breakAt, Locals.phase, hphase]
      rw [if_pos hfpos, hword, gapBreak_word hlo]
    have hholds := hrun.1.2
    refine ⟨by omega, _, hholds, ?_⟩
    rw [hbreak]
    by_cases hp : Segment.segmenter.state [] ((marks cfg).out (start junk).toLocals.phase
        (hist ++ [f])) = []
    · -- nothing was pending
      have hidx := hholds.idx
      rw [hp] at hidx ⊢
      simp only [flushed, hidx]
      exact ⟨rfl, rfl⟩
    · -- the word's end flushes what was pending
      have hidx := hholds.idx_pos.2 (List.length_pos_iff.2 hp)
      have hne : ¬ ((morseDecoderTask cfg).state (start junk) (hist ++ [f])).buffer.morseIdx = 0 :=
        Nat.pos_iff_ne_zero.1 hidx
      have hdec : decodeMorse (List.take 9 (Segment.segmenter.state []
          ((marks cfg).out (start junk).toLocals.phase (hist ++ [f])))) = _ := decodeMorse_take _
      rw [flushed, if_neg hne, hholds.pending, hdec]
      simp [Segment.step_brk hp, printed]

/-! ## The round trip -/

/-- The first edge of a train. -/
theorem head_edge {es : List EdgeEvent} {t : Int} {q : Pulse} {qs : List Pulse}
    (hes : es.map EdgeEvent.edge = edges t (q :: qs)) :
    ∃ e, es.head? = some e ∧ e.timestampUs = t + q.gap := by
  rcases List.map_eq_cons_iff.1 hes with ⟨e, es', rfl, he, -⟩
  exact ⟨e, rfl, (edge_cons he).1⟩

/-- The letters of a message in upper case. -/
def lettersOf (message : CString) : CString := (message.filter isLetter).map toupper

/-- The text shows these letters, in order, after some number of turns without an
event. -/
def Delivered (cfg : Timing) (s : Decoder CharBuffer) (es : List EdgeEvent)
    (sent : CString) : Prop :=
  ∃ idle, sent.Sublist
    (text ((morseDecoderLoop cfg).out s (es.map some ++ List.replicate idle none)))

/-- Turns without an event change nothing and print nothing. -/
theorem idle_run (cfg : Timing) (s : Decoder CharBuffer) (idle : Nat) :
    (morseDecoderLoop cfg).state s (List.replicate idle none) = s ∧
      (morseDecoderLoop cfg).out s (List.replicate idle none) = [] := by
  induction idle with
  | zero => exact ⟨rfl, rfl⟩
  | succ idle ih => simpa [List.replicate_succ, morseDecoderLoop] using ih

/-- On events the loop is the task. -/
theorem loop_run (cfg : Timing) (s : Decoder CharBuffer) (es : List EdgeEvent) (idle : Nat) :
    (morseDecoderLoop cfg).out s (es.map some ++ List.replicate idle none) =
      (morseDecoderTask cfg).out s es := by
  have hevents : (morseDecoderLoop cfg).out s (es.map some) = (morseDecoderTask cfg).out s es := by
    induction es generalizing s with
    | nil => rfl
    | cons e es ih => exact congrArg ((onEvent cfg s e).2 ++ ·) (ih (onEvent cfg s e).1)
  rw [Transducer.out_append, (idle_run cfg _ idle).2, List.append_nil, hevents]

/-- The symbols that it takes to print a character. -/
def weight (c : UInt8) : Nat := if isLetter c then (codeOf c).length else 0

/-- A pattern is decoded into a character of its own weight, or of none. -/
theorem weight_decodeMorse (pattern : CString) :
    weight (Lab52.decodeMorse pattern) ≤ pattern.length := by
  have hnone : weight 0 = 0 ∧ weight (chr '?') = 0 := by decide
  unfold Lab52.decodeMorse
  rcases decodeMorseIn_readings morseTable_codeTable pattern with
    ⟨-, h⟩ | ⟨-, i, hi, hp, h⟩ | ⟨-, -, h⟩
  · exact le_of_eq_of_le ((congrArg weight h).trans hnone.1) (Nat.zero_le _)
  · have hcode : (codeOf (charAt i)).length = pattern.length := by rw [codeOf_charAt hi hp]
    refine le_of_eq_of_le (congrArg weight h) ?_
    unfold weight
    split
    · exact hcode.le
    · exact Nat.zero_le _
  · exact le_of_eq_of_le ((congrArg weight h).trans hnone.2) (Nat.zero_le _)

/-- The separators that the front end makes weigh nothing. -/
theorem weight_sep {sep : CString} (h : sep = [] ∨ sep = [space]) : (sep.map weight).sum = 0 := by
  have hspace : weight space = 0 := by decide
  rcases h with rfl | rfl
  · rfl
  · simp [hspace]

/-- What closed groups print weighs at most their symbols. -/
theorem weight_printed (gs : List (CString × CString))
    (hsep : ∀ g ∈ gs, (g.2.map weight).sum = 0) :
    ((gs.flatMap printed).map weight).sum ≤ (gs.map Prod.fst).flatten.length := by
  induction gs with
  | nil => simp
  | cons g gs ih =>
      have hrest := ih fun g' hg' => hsep g' (List.mem_cons_of_mem g hg')
      have hg := hsep g List.mem_cons_self
      have hdec := weight_decodeMorse g.1
      simp only [List.flatMap_cons, printed, List.cons_append, List.map_cons, List.map_append,
        List.sum_cons, List.sum_append, List.flatten_cons, List.length_append]
      omega

/-- There are at most as many symbols as falling edges. -/
theorem syms_length (cfg : Timing) (φ : Phase) (es : List EdgeEvent) :
    (Segment.syms ((marks cfg).out φ es)).length ≤ es.countP fun e => !decide (e.level = 1) := by
  induction es generalizing φ with
  | nil => simp
  | cons e es ih =>
      have hrest := ih ((marks cfg).step φ e).1
      rw [Transducer.out_cons, Segment.syms_append, List.length_append, List.countP_cons]
      by_cases he : e.level = 1
      · have hnone : Segment.syms ((marks cfg).step φ e).2 = [] := by
          simp only [marks, if_pos he]
          cases φ.breakAt cfg e.timestampUs <;> rfl
        simp only [hnone, List.length_nil, he]
        simpa using hrest
      · have hone : (Segment.syms ((marks cfg).step φ e).2).length ≤ 1 := by
          simp only [marks, if_neg he]
          cases φ.symbolAt cfg e.timestampUs <;> simp
        simp only [he, decide_false, Bool.not_false, if_true]
        omega

/-- From a state with nothing pending, events that end with a falling edge print less
than their falling edges weigh. -/
theorem printed_weight (cfg : Timing) {s : Decoder CharBuffer} (hs : Holds s.buffer [])
    (es : List EdgeEvent) {f : EdgeEvent} (hf : f.level ≠ 1) :
    ((text ((morseDecoderTask cfg).out s (es ++ [f]))).map weight).sum ≤
      es.countP fun e => !decide (e.level = 1) := by
  have htext := array_text cfg hs (es ++ [f])
  have hlast : ∀ p, Segment.segmenter.out p
      ((marks cfg).out ((marks cfg).state s.toLocals.phase es) [f]) = [] := by
    intro p
    simp [marks, hf]
  rw [Transducer.out_append (marks cfg), Transducer.out_append Segment.segmenter, hlast,
    List.append_nil] at htext
  have hcons := congrArg List.length
    (Segment.conservation [] ((marks cfg).out s.toLocals.phase es))
  have hweight := weight_printed _ fun g hg =>
    weight_sep (marks_sep cfg s.toLocals.phase es g.2 (Segment.groups_brk [] _ g hg))
  have hsyms := syms_length cfg s.toLocals.phase es
  simp only [List.length_append, List.nil_append] at hcons
  rw [htext]
  omega

/-- The levels of the edges of a train: every pulse ends with the light off. -/
theorem edges_levels (t : Int) {ps : List Pulse} (hps : ps ≠ []) :
    ∃ levels, (edges t ps).map Edge.rising = levels ++ [false] ∧
      levels.countP (!·) + 1 = ps.length := by
  induction ps generalizing t with
  | nil => exact absurd rfl hps
  | cons p ps ih =>
      by_cases hnil : ps = []
      · subst hnil
        exact ⟨[true], rfl, rfl⟩
      · rcases ih (t + p.gap + p.width) hnil with ⟨levels, hlevels, hcount⟩
        refine ⟨true :: false :: levels, ?_, ?_⟩
        · simp only [edges, List.map_cons, hlevels, List.cons_append]
        · simp only [List.countP_cons, List.length_cons]
          simp
          omega

/-- A train has a pulse for every symbol of its letters. -/
theorem train_length (u : Int) (ls : List Letter) :
    (train u ls).length = ((ls.map fun l => (codeOf l.char).length)).sum := by
  have hcode (g : Int) (code : CString) : (codePulses u g code).length = code.length := by
    induction code generalizing g with
    | nil => rfl
    | cons s code ih => simp [codePulses, ih]
  simp only [train, List.length_flatMap, hcode]

theorem lettersOf_cons (c : UInt8) (cs : CString) :
    lettersOf (c :: cs) = if isLetter c then toupper c :: lettersOf cs else lettersOf cs := by
  simp only [lettersOf, List.filter_cons]
  split <;> rfl

/-- The letters of a message weigh what their codes do. -/
theorem weight_lettersOf (g : Int) (message : CString) :
    ((letters g message).map fun l => (codeOf l.char).length).sum =
      ((lettersOf message).map weight).sum := by
  have hup : ∀ c : UInt8, isLetter c = true → weight (toupper c) = (codeOf c).length := by
    refine forall_byte ?_
    decide +kernel
  induction message generalizing g with
  | nil => rfl
  | cons c cs ih =>
      rw [lettersOf_cons]
      simp only [letters]
      split
      · rename_i hc
        simp [hup c hc, ih]
      · split
        · exact ih (g + 4)
        · exact ih g

/-- The copies of a message weigh the letters of its transmission. -/
theorem weight_transmission (r g : Int) (message : CString) (n : Nat) :
    ((transmission r g message n).map fun l => (codeOf l.char).length).sum =
      (((List.replicate n (lettersOf message)).flatten).map weight).sum := by
  induction n generalizing g with
  | zero => rfl
  | succ n ih =>
      simp only [transmission, List.map_append, List.sum_append, weight_lettersOf, ih,
        List.replicate_succ, List.flatten_cons]

/-- Whatever the timing and the timing limits, the task never prints all the letters of
a transmission: it has printed less than the transmission weighs when the last edge has
come, and while the line is idle it prints nothing. -/
theorem never_delivered (cfg : Timing) {s : Decoder CharBuffer} (hs : Reachable cfg s)
    (hidle : s.buffer.morseIdx = 0) {message : CString} (hletter : HasLetter message) {n : Nat}
    (hn : 1 ≤ n) {ds : Int} (hds : 1 ≤ ds) {es : List EdgeEvent}
    (hes : es.map (Edge.rising ∘ EdgeEvent.edge) =
      (edges 0 (pulses 1 (Sender.main (Sender.timingOfDot ds) n message))).map Edge.rising) :
    ¬ Delivered cfg s es (List.replicate n (lettersOf message)).flatten := by
  rintro ⟨idle, hsent⟩
  rw [loop_run] at hsent
  rw [Sender.main_pulses (by omega)] at hes
  have hp := hs.holds_nil hidle
  have hne : train ds (transmission 14 0 message n) ≠ [] := by
    obtain ⟨m, rfl⟩ : ∃ m, n = m + 1 := ⟨n - 1, by omega⟩
    rcases transmission_shape hletter with ⟨k, c, inner, -, hc, -, -, htrans⟩
    rw [htrans]
    exact train_ne_nil (l := ⟨k, c⟩) hc _
  rcases edges_levels 0 hne with ⟨levels, hlevels, hcount⟩
  rw [hlevels] at hes
  rcases List.map_eq_append_iff.1 hes with ⟨es', fs, rfl, hes', hfs⟩
  rcases List.map_eq_singleton_iff.1 hfs with ⟨f, rfl, hf⟩
  have hlevel : f.level ≠ 1 := by simpa [EdgeEvent.edge] using hf
  have hprinted := printed_weight cfg hp es' hlevel
  -- the sent letters weigh one more than the edges before the last one
  have hfalling : es'.countP (fun e => !decide (e.level = 1)) = levels.countP (!·) := by
    rw [← hes', List.countP_map]
    rfl
  have hweight := weight_transmission 14 0 message n
  rw [← train_length ds] at hweight
  have hsum := (hsent.map weight).sum_le_sum (fun _ _ => Nat.zero_le _)
  omega

/-- One `E` on its own is never printed, however long the line stays idle. -/
theorem e_withheld :
    ¬ Delivered (configureTiming 10000 5000) (start (Vector.replicate 10 0))
      [⟨100000, 1⟩, ⟨110000, 0⟩] (bytes "E") := by
  rintro ⟨idle, hsent⟩
  rw [loop_run] at hsent
  exact absurd hsent (by decide)

theorem never_delivered_i :
    ¬ Delivered (configureTiming 10000 5000) (start (Vector.replicate 10 0))
      [⟨100000, 1⟩, ⟨110000, 0⟩, ⟨120000, 1⟩, ⟨130000, 0⟩]
      (List.replicate 1 (lettersOf (bytes "i"))).flatten := by
  have hletter : HasLetter (bytes "i") := by decide
  have hdot : (1 : Int) ≤ 10000 := by decide
  exact never_delivered (configureTiming 10000 5000) ⟨Vector.replicate 10 0, [], rfl⟩ rfl hletter
    (le_refl 1) hdot (by decide +kernel)

end Cse121.Lab53.Receiver
