import Cse121.Morse.Link52
import Cse121.Morse.Receiver53

/-! # Noise

A pulse that is no symbol still moves the time stamps from which the next gap is
measured: the one gap around it becomes two shorter ones. Whether that shows in the text
is decided by the break that closes the pending letter with the pulse and without.
-/

namespace Cse121

/-- The text of closed groups is their reading. -/
theorem printed_reading (gs : List (CString × CString)) :
    gs.flatMap printed = Segment.reading Lab52.decodeMorse id gs := rfl

/-! ## Lab 5.3 -/

namespace Lab53.Receiver

/-- The break that closes what is pending, if the events bring no symbol before it. -/
def nextBreak (cfg : Timing) (φ : Phase) (es : List EdgeEvent) : Option CString :=
  Segment.firstBreak ((marks cfg).out φ es)

/-- Noise: a pulse that the decoder rejects, and that the light is dark after. -/
structure Blip (cfg : Timing) (r f : EdgeEvent) (rest : List EdgeEvent) : Prop where
  rising : r.level = 1
  falling : f.level ≠ 1
  rejected : pulseSymbol cfg (toInt (f.timestampUs - r.timestampUs)) = none
  dark : ∀ e ∈ rest.head?, e.level = 1

theorem marks_step_rising (cfg : Timing) (φ : Phase) {e : EdgeEvent} (he : e.level = 1) :
    (marks cfg).step φ e =
      ({ φ with lastRising := e.timestampUs }, Segment.optBrk (φ.breakAt cfg e.timestampUs)) :=
  if_pos he

theorem marks_step_falling (cfg : Timing) (φ : Phase) {e : EdgeEvent} (he : e.level ≠ 1) :
    (marks cfg).step φ e = ({ φ with lastFalling := e.timestampUs },
      (φ.symbolAt cfg e.timestampUs).toList.map .sym) :=
  if_neg he

/-- From two phases that agree on the last rising edge, or meet one at once, the tokens
differ in breaks at the start only. -/
theorem marks_fork (cfg : Timing) {φ ψ : Phase} {es : List EdgeEvent}
    (h : (∀ e ∈ es.head?, e.level = 1) ∨ φ.lastRising = ψ.lastRising) :
    ∃ (bs bs' : List CString) (us : List (Token UInt8 CString)),
      (marks cfg).out φ es = bs.map .brk ++ us ∧ (marks cfg).out ψ es = bs'.map .brk ++ us := by
  induction es generalizing φ ψ with
  | nil => exact ⟨[], [], [], rfl, rfl⟩
  | cons e es ih =>
      by_cases he : e.level = 1
      · rcases ih (φ := { φ with lastRising := e.timestampUs })
          (ψ := { ψ with lastRising := e.timestampUs }) (Or.inr rfl) with ⟨bs, bs', us, hφ, hψ⟩
        refine ⟨(φ.breakAt cfg e.timestampUs).toList ++ bs,
          (ψ.breakAt cfg e.timestampUs).toList ++ bs', us, ?_, ?_⟩
        · rw [Transducer.out_cons, marks_step_rising cfg φ he, hφ, List.map_append,
            List.append_assoc]
          rfl
        · rw [Transducer.out_cons, marks_step_rising cfg ψ he, hψ, List.map_append,
            List.append_assoc]
          rfl
      · -- after a falling edge the phases are the same
        rcases h with h | h
        · exact absurd (h e rfl) he
        · refine ⟨[], [], (marks cfg).out φ (e :: es), rfl, ?_⟩
          rw [Transducer.out_cons, Transducer.out_cons, marks_step_falling cfg φ he,
            marks_step_falling cfg ψ he]
          simp [Phase.symbolAt, h]

/-- A blip makes the break of the gap before it and no symbol. -/
theorem Blip.marks {cfg : Timing} {r f : EdgeEvent} {rest : List EdgeEvent}
    (h : Blip cfg r f rest) (φ : Phase) :
    (marks cfg).out φ (r :: f :: rest) = Segment.optBrk (φ.breakAt cfg r.timestampUs) ++
      (marks cfg).out ⟨r.timestampUs, f.timestampUs⟩ rest := by
  have hnone : Phase.symbolAt cfg { φ with lastRising := r.timestampUs } f.timestampUs = none := by
    unfold Phase.symbolAt
    split
    · exact h.rejected
    · rfl
  rw [Transducer.out_cons, Transducer.out_cons, marks_step_rising cfg φ h.rising,
    marks_step_falling cfg _ h.falling, hnone]
  rfl

/-- A blip changes the text exactly when something is pending and the two gaps around
the blip close it by another break than the one gap without it. -/
theorem blip_iff {cfg : Timing} {s : Decoder CharBuffer} (hs : Reachable cfg s)
    {r f : EdgeEvent} {rest : List EdgeEvent} (hblip : Blip cfg r f rest) :
    text ((morseDecoderTask cfg).out s (r :: f :: rest)) =
        text ((morseDecoderTask cfg).out s rest) ↔
      s.buffer.morseIdx = 0 ∨
        (s.toLocals.phase.breakAt cfg r.timestampUs).or
            (nextBreak cfg ⟨r.timestampUs, f.timestampUs⟩ rest) =
          nextBreak cfg s.toLocals.phase rest := by
  rcases hs.holds with ⟨p, hp⟩
  rcases marks_fork cfg (φ := ⟨r.timestampUs, f.timestampUs⟩) (ψ := s.toLocals.phase)
    (Or.inl hblip.dark) with ⟨bs, bs', us, hafter, hplain⟩
  have hfront : (marks cfg).out s.toLocals.phase (r :: f :: rest) =
      ((s.toLocals.phase.breakAt cfg r.timestampUs).toList ++ bs).map .brk ++ us := by
    rw [hblip.marks, hafter, List.map_append, List.append_assoc]
    rfl
  rw [array_text cfg hp, array_text cfg hp, printed_reading, printed_reading, hfront, hplain,
    hp.idx_zero, Segment.reading_brks_iff Lab52.decodeMorse Function.injective_id]
  -- both sides speak of the first break in front
  rw [nextBreak, nextBreak, hafter, hplain, Segment.firstBreak_brks, Segment.firstBreak_brks,
    Segment.firstBreak_brks, List.head?_append, Option.head?_toList, Option.or_assoc]

end Lab53.Receiver

/-! ## Lab 5.2 -/

namespace Lab52

/-- Noise: lit samples from `a` on, and the dark sample `b` after them, by which they are
measured shorter than half a dot. `off` are the same samples without the light. -/
structure Blip (off : List Sample) (a : Sample) (on : List Sample) (b : Sample) : Prop where
  times : off.map Sample.timerUs = (a :: on).map Sample.timerUs
  dark : ∀ x ∈ off, x.lit = false
  lit : ∀ x ∈ a :: on, x.lit = true
  after : b.lit = false
  short : b.currentTime - a.currentTime < dotDuration / 2

/-- The break that closes what is pending in the dark since `τ`, if the samples bring no
symbol before it. -/
def nextBreak (τ : Int) (xs : List Sample) : Option CString :=
  Segment.firstBreak (marks.out ⟨false, τ⟩ xs)

/-- From two dark phases the tokens differ in breaks at the start only. -/
theorem marks_fork (τ τ' : Int) (xs : List Sample) :
    ∃ (bs bs' : List CString) (us : List (Token UInt8 CString)),
      marks.out ⟨false, τ⟩ xs = bs.map .brk ++ us ∧
        marks.out ⟨false, τ'⟩ xs = bs'.map .brk ++ us := by
  induction xs with
  | nil => exact ⟨[], [], [], rfl, rfl⟩
  | cons x xs ih =>
      cases hx : x.lit with
      | false =>
          rcases ih with ⟨bs, bs', us, hτ, hτ'⟩
          refine ⟨(timeoutBreak (x.currentTime - τ)).toList ++ bs,
            (timeoutBreak (x.currentTime - τ')).toList ++ bs', us, ?_, ?_⟩
          · rw [Transducer.out_cons, marks_step_dark τ hx, hτ, List.map_append, List.append_assoc]
            rfl
          · rw [Transducer.out_cons, marks_step_dark τ' hx, hτ', List.map_append,
              List.append_assoc]
            rfl
      | true =>
          -- when the light comes back the phases are the same
          refine ⟨riseBreaks τ x, riseBreaks τ' x, marks.out ⟨true, x.currentTime⟩ xs, ?_, ?_⟩
          · rw [Transducer.out_cons, marks_step_rise τ hx]
          · rw [Transducer.out_cons, marks_step_rise τ' hx]

/-- What a run prints after its first part. -/
theorem rest_text (junk : Vector UInt8 10) {hist xs : List Sample} (h : Run (hist ++ xs)) :
    text (morseReceiverTask.out (morseReceiverTask.state (start junk) hist) xs) =
      (Segment.segmenter.out (Segment.segmenter.state [] (marks.out ⟨false, 0⟩ hist))
        (marks.out (marks.state ⟨false, 0⟩ hist) xs)).flatMap printed := by
  have hall := boot_text (s := start junk) (holds_start junk) rfl h
  have hpre := boot_text (s := start junk) (holds_start junk) rfl h.left
  rw [Transducer.out_append, text_append, hpre, Transducer.out_append, Transducer.out_append,
    List.flatMap_append] at hall
  exact List.append_cancel_left hall

/-- A blip makes the break of the dark before it and no symbol. -/
theorem marks_blip (τ : Int) {a b : Sample} {on : List Sample} (ha : a.lit = true)
    (hon : ∀ x ∈ on, x.lit = true) (hb : b.lit = false)
    (horder : ∀ x ∈ on ++ [b], 0 ≤ x.currentTime - a.currentTime ∧
      x.currentTime - a.currentTime < dotDuration / 2) (xs : List Sample) :
    marks.out ⟨false, τ⟩ (a :: on ++ b :: xs) =
      (riseBreaks τ a).map .brk ++ marks.out ⟨false, b.currentTime⟩ xs := by
  have hshort : ∀ x ∈ on ++ [b], x.currentTime - a.currentTime ≤ timeoutMs := by
    intro x hx
    have := (horder x hx).2
    simp only [dotDuration] at this
    simp only [timeoutMs]
    omega
  have hfall := marks_fall a.currentTime hon hb (fun x hx => hshort x (by simp [hx]))
    (hshort b (by simp))
  have hnone : widthSymbol (b.currentTime - a.currentTime) = none := by
    have hwidth := horder b (by simp)
    simp only [dotDuration] at hwidth
    rw [widthSymbol, toInt_of_range (by omega) (by omega), pulseSymbol, dashMinDuration,
      dotDuration, if_neg (by omega), if_neg (by omega)]
  have hsplit : a :: on ++ b :: xs = a :: ((on ++ [b]) ++ xs) := by simp
  rw [hsplit, Transducer.out_cons, marks_step_rise τ ha, Transducer.out_append, hfall.1, hfall.2,
    hnone]
  rfl

/-- The samples of a blip lie between its first one and the one after it. -/
theorem Run.between {hist on rest : List Sample} {a b : Sample}
    (h : Run (hist ++ (a :: on ++ b :: rest))) :
    ∀ x ∈ on ++ [b], 0 ≤ a.timerUs ∧ a.timerUs ≤ x.timerUs ∧ x.timerUs ≤ b.timerUs := by
  have horder := h.inOrder
  rw [List.map_append, List.pairwise_append] at horder
  simp only [List.cons_append, List.map_cons, List.map_append, List.pairwise_cons,
    List.pairwise_append] at horder
  rcases horder with ⟨-, ⟨ha, -, -, hb⟩, -⟩
  have hpos : 0 ≤ a.timerUs := h.nonneg a (by simp)
  intro x hx
  rcases List.mem_append.1 hx with hx | hx
  · have hxtime : x.timerUs ∈ on.map Sample.timerUs := List.mem_map_of_mem hx
    exact ⟨hpos, ha _ (List.mem_append_left _ hxtime), hb _ hxtime _ List.mem_cons_self⟩
  · rw [List.mem_singleton.1 hx]
    exact ⟨hpos, ha _ (by simp), le_refl _⟩

/-- The same run without a blip. -/
theorem Blip.run {hist off on rest : List Sample} {a b : Sample} (hblip : Blip off a on b)
    (h : Run (hist ++ (a :: on ++ b :: rest))) : Run (hist ++ (off ++ b :: rest)) := by
  have htimes : (hist ++ (off ++ b :: rest)).map Sample.timerUs =
      (hist ++ (a :: on ++ b :: rest)).map Sample.timerUs := by
    rw [List.map_append, List.map_append, List.map_append, List.map_append, hblip.times]
  refine ⟨by rw [htimes]; exact h.inOrder, ?_⟩
  intro x hx
  have hx' := List.mem_map_of_mem (f := Sample.timerUs) hx
  rw [htimes] at hx'
  rcases List.mem_map.1 hx' with ⟨y, hy, hxy⟩
  rw [← hxy]
  exact h.nonneg y hy

/-- The tokens of a run with a blip in the dark since `τ`. -/
theorem Blip.marks {off on xs : List Sample} {a b : Sample} (hblip : Blip off a on b)
    (hbetween : ∀ x ∈ on ++ [b], 0 ≤ a.timerUs ∧ a.timerUs ≤ x.timerUs ∧ x.timerUs ≤ b.timerUs)
    (τ : Int) :
    marks.out ⟨false, τ⟩ (a :: on ++ b :: xs) =
      (riseBreaks τ a).map .brk ++ marks.out ⟨false, b.currentTime⟩ xs := by
  apply marks_blip τ (hblip.lit a List.mem_cons_self)
    (fun x hx => hblip.lit x (List.mem_cons_of_mem a hx)) hblip.after
  intro x hx
  have hx' := hbetween x hx
  have hb := hblip.short
  rw [currentTime_of_nonneg hx'.1, currentTime_of_nonneg (by omega)] at *
  omega

/-- The tokens of the same run without the blip. -/
theorem Blip.marks_off {off on xs : List Sample} {a b : Sample} (hblip : Blip off a on b)
    (τ : Int) :
    Lab52.marks.out ⟨false, τ⟩ (off ++ b :: xs) =
      (timeouts τ (off ++ [b])).map .brk ++ Lab52.marks.out ⟨false, τ⟩ xs := by
  have hdark : ∀ x ∈ off ++ [b], x.lit = false := by
    intro x hx
    rcases List.mem_append.1 hx with hx | hx
    · exact hblip.dark x hx
    · rw [List.mem_singleton.1 hx]
      exact hblip.after
  have hplain := marks_dark τ hdark
  rw [List.append_cons, Transducer.out_append, hplain.1, hplain.2]

/-- A blip changes the text exactly when something is pending and the two gaps around the
blip close it by another break than the one gap without it. -/
theorem blip_iff (junk : Vector UInt8 10) {hist off on rest : List Sample} {a b : Sample}
    (hblip : Blip off a on b) (hrun : Run (hist ++ (a :: on ++ b :: rest)))
    {s : Receiver CharBuffer} (hs : s = morseReceiverTask.state (start junk) hist)
    (hdark : s.lightOn = false) :
    text (morseReceiverTask.out s (a :: on ++ b :: rest)) =
        text (morseReceiverTask.out s (off ++ b :: rest)) ↔
      s.buffer.morseIdx = 0 ∨
        (gapSep (a.currentTime - s.gapStartTime)).or (nextBreak b.currentTime rest) =
          nextBreak s.gapStartTime (off ++ b :: rest) := by
  have hhist := (boot_run (s := start junk) (holds_start junk) rfl hrun.left).1
  have htext := rest_text junk hrun
  have htext' := rest_text junk (hblip.run hrun)
  rw [← hs] at hhist htext htext'
  rw [htext, htext', hhist.1.idx_zero]
  generalize Segment.segmenter.state [] (marks.out ⟨false, 0⟩ hist) = p at hhist
  -- the run so far ends in the dark since some `τ`
  obtain ⟨τ, hφ⟩ : ∃ τ, marks.state ⟨false, 0⟩ hist = ⟨false, τ⟩ := by
    cases h : marks.state ⟨false, 0⟩ hist with
    | mk lit τ => exact ⟨τ, by rw [← hhist.2.lit.symm.trans hdark, h]⟩
  rw [hφ] at hhist ⊢
  rcases marks_fork b.currentTime τ rest with ⟨bs, bs', us, hafter, hafter'⟩
  have hfront : marks.out ⟨false, τ⟩ (a :: on ++ b :: rest) =
      (riseBreaks τ a ++ bs).map .brk ++ us := by
    rw [hblip.marks hrun.between, hafter, List.map_append, List.append_assoc]
  have hfront' : marks.out ⟨false, τ⟩ (off ++ b :: rest) =
      (timeouts τ (off ++ [b]) ++ bs').map .brk ++ us := by
    rw [hblip.marks_off, hafter', List.map_append, List.append_assoc]
  rw [printed_reading, printed_reading, hfront, hfront',
    Segment.reading_brks_iff Lab52.decodeMorse Function.injective_id]
  by_cases hp : p = []
  · simp [hp]
  · -- something is pending: the dark is measured from the last falling edge
    have hfirst : ∀ x ∈ ([] : List Sample), x.currentTime ≤ a.currentTime := by simp
    have hrise : (riseBreaks τ a).head? = gapSep (a.currentTime - τ) :=
      timeout_first hfirst _
    rw [hhist.2.gap rfl hp, nextBreak, nextBreak, hafter, hfront', Segment.firstBreak_brks,
      Segment.firstBreak_brks, Segment.firstBreak_brks, List.head?_append, hrise, Option.or_assoc]

end Lab52

/-! ## Both receivers -/

/-- In both receivers, after any run, a pulse that is no symbol leaves the text alone
exactly when nothing is pending or the gaps before and after it come to the same break as
the gap without it. -/
theorem noise_harmless_iff (junk : Vector UInt8 10) :
    (∀ {cfg : Lab53.Receiver.Timing} {hist rest : List Lab53.Receiver.EdgeEvent}
        {r f : Lab53.Receiver.EdgeEvent}, Lab53.Receiver.Blip cfg r f rest →
      let s := (Lab53.Receiver.morseDecoderTask cfg).state (Lab53.Receiver.start junk) hist
      (text ((Lab53.Receiver.morseDecoderTask cfg).out s (r :: f :: rest)) =
          text ((Lab53.Receiver.morseDecoderTask cfg).out s rest) ↔
        s.buffer.morseIdx = 0 ∨
          (s.toLocals.phase.breakAt cfg r.timestampUs).or
              (Lab53.Receiver.nextBreak cfg ⟨r.timestampUs, f.timestampUs⟩ rest) =
            Lab53.Receiver.nextBreak cfg s.toLocals.phase rest)) ∧
    ∀ {hist off on rest : List Lab52.Sample} {a b : Lab52.Sample}, Lab52.Blip off a on b →
        Lab52.Run (hist ++ (a :: on ++ b :: rest)) →
      let s := Lab52.morseReceiverTask.state (Lab52.start junk) hist
      s.lightOn = false →
      (text (Lab52.morseReceiverTask.out s (a :: on ++ b :: rest)) =
          text (Lab52.morseReceiverTask.out s (off ++ b :: rest)) ↔
        s.buffer.morseIdx = 0 ∨
          (Lab52.gapSep (a.currentTime - s.gapStartTime)).or
              (Lab52.nextBreak b.currentTime rest) =
            Lab52.nextBreak s.gapStartTime (off ++ b :: rest)) := by
  constructor
  · intro cfg hist rest r f hblip
    exact Lab53.Receiver.blip_iff ⟨junk, hist, rfl⟩ hblip
  · intro hist off on rest a b hblip hrun s hdark
    exact Lab52.blip_iff junk hblip hrun rfl hdark

/-- A dot, and after the middle of a letter gap another one. -/
theorem noise_harmless_iff_dots :
    text ((Lab53.Receiver.morseDecoderTask (Lab53.Receiver.configureTiming 10000 5000)).out
        ((Lab53.Receiver.morseDecoderTask (Lab53.Receiver.configureTiming 10000 5000)).state
          (Lab53.Receiver.start (Vector.replicate 10 0)) [⟨100000, 1⟩, ⟨110000, 0⟩])
        [⟨124000, 1⟩, ⟨126000, 0⟩, ⟨140000, 1⟩, ⟨150000, 0⟩]) ≠
      text ((Lab53.Receiver.morseDecoderTask (Lab53.Receiver.configureTiming 10000 5000)).out
        ((Lab53.Receiver.morseDecoderTask (Lab53.Receiver.configureTiming 10000 5000)).state
          (Lab53.Receiver.start (Vector.replicate 10 0)) [⟨100000, 1⟩, ⟨110000, 0⟩])
        [⟨140000, 1⟩, ⟨150000, 0⟩]) ∧
    text (Lab52.morseReceiverTask.out (Lab52.morseReceiverTask.state
          (Lab52.start (Vector.replicate 10 0)) [⟨40, 1000000⟩, ⟨0, 1100000⟩])
        [⟨40, 1240000⟩, ⟨0, 1250000⟩, ⟨40, 1400000⟩]) ≠
      text (Lab52.morseReceiverTask.out (Lab52.morseReceiverTask.state
          (Lab52.start (Vector.replicate 10 0)) [⟨40, 1000000⟩, ⟨0, 1100000⟩])
        [⟨0, 1240000⟩, ⟨0, 1250000⟩, ⟨40, 1400000⟩]) := by
  constructor
  · have hblip : Lab53.Receiver.Blip (Lab53.Receiver.configureTiming 10000 5000) ⟨124000, 1⟩
        ⟨126000, 0⟩ [⟨140000, 1⟩, ⟨150000, 0⟩] := ⟨rfl, by decide, by decide, by decide⟩
    apply mt ((noise_harmless_iff (Vector.replicate 10 0)).1 hblip).1
    decide
  · have hblip : Lab52.Blip [⟨0, 1240000⟩] ⟨40, 1240000⟩ [] ⟨0, 1250000⟩ :=
      ⟨by decide, by decide, by decide, rfl, by decide⟩
    apply mt ((noise_harmless_iff (Vector.replicate 10 0)).2 hblip ⟨by decide, by decide⟩
      (by decide)).1
    decide

/-- Noise in the middle of a letter gap: the letter before the gap is printed without it,
and not with it. -/
theorem noise_merges_letters :
    (Lab53.Receiver.Blip (Lab53.Receiver.configureTiming 10000 5000) ⟨124000, 1⟩ ⟨126000, 0⟩
        [⟨140000, 1⟩, ⟨150000, 0⟩] ∧
      text ((Lab53.Receiver.morseDecoderTask (Lab53.Receiver.configureTiming 10000 5000)).out
          (Lab53.Receiver.start (Vector.replicate 10 0))
          [⟨100000, 1⟩, ⟨110000, 0⟩, ⟨140000, 1⟩, ⟨150000, 0⟩]) = bytes "E" ∧
      text ((Lab53.Receiver.morseDecoderTask (Lab53.Receiver.configureTiming 10000 5000)).out
          (Lab53.Receiver.start (Vector.replicate 10 0))
          [⟨100000, 1⟩, ⟨110000, 0⟩, ⟨124000, 1⟩, ⟨126000, 0⟩, ⟨140000, 1⟩, ⟨150000, 0⟩]) = []) ∧
    Lab52.Blip [⟨0, 1240000⟩] ⟨40, 1240000⟩ [] ⟨0, 1250000⟩ ∧
      text (Lab52.morseReceiverTask.out (Lab52.start (Vector.replicate 10 0))
          [⟨40, 1000000⟩, ⟨0, 1100000⟩, ⟨0, 1240000⟩, ⟨0, 1250000⟩, ⟨40, 1400000⟩]) =
        bytes "E" ∧
      text (Lab52.morseReceiverTask.out (Lab52.start (Vector.replicate 10 0))
          [⟨40, 1000000⟩, ⟨0, 1100000⟩, ⟨40, 1240000⟩, ⟨0, 1250000⟩, ⟨40, 1400000⟩]) = [] := by
  refine ⟨⟨⟨rfl, by decide, by decide, by decide⟩, by decide, by decide⟩,
    ⟨by decide, by decide, by decide, rfl, by decide⟩, by decide, by decide⟩

end Cse121
