import Cse121.Lib.Segment
import Cse121.Morse.Buffer

/-! # The edge receiver of lab 5.3

`lab5_3/receiver/main/lab5_3.c`: an interrupt handler time-stamps every edge of
the light and queues it, and `morse_decoder_task` handles the queued events one by
one. Nothing happens in the task while no event arrives. The timing limits are
computed once by `configure_timing`.

The task refines a timing front end (`marks`: which edges mean a symbol, a letter
gap or a word gap, whatever is pending) followed by the segmenter.
-/

namespace Cse121.Lab53.Receiver

/-- `edge_event_t`. -/
structure EdgeEvent where
  timestampUs : Int
  level : Int
deriving DecidableEq, Repr

/-- The timing limits of the file. -/
structure Timing where
  dotMinUs : Int
  dotMaxUs : Int
  dashMinUs : Int
  dashMaxUs : Int
  letterGapMinUs : Int
  wordGapMinUs : Int
deriving DecidableEq, Repr

/-- `configure_timing`. `tolUs` is the first line's `(int)(dot_duration_us * tolerance)`,
the only place where the tolerance, a `double`, is used. -/
def configureTiming (dotDurationUs tolUs : Int) : Timing :=
  let dashDurationUs := dotDurationUs * 3
  { dotMinUs := dotDurationUs - tolUs
    dotMaxUs := dotDurationUs + tolUs
    dashMinUs := dashDurationUs - tolUs
    dashMaxUs := dashDurationUs + tolUs
    letterGapMinUs := dotDurationUs * 2
    wordGapMinUs := dotDurationUs * 6 }

/-- The variables of `morse_decoder_task` besides the buffer. -/
structure Locals where
  lastRisingEdge : Int := 0
  lastFallingEdge : Int := 0
  totalChars : Int := 0
  firstCharTime : Int := 0
  correctChars : Int := 0
  errorChars : Int := 0
deriving DecidableEq, Repr

/-- The state of `morse_decoder_task` over a buffer. -/
structure Decoder (β : Type) extends Locals where
  buffer : β
deriving DecidableEq, Repr

variable {β : Type} [SymbolBuffer β]

/-- The counters after a decoded character. -/
def Locals.countChar (s : Locals) (decoded : UInt8) : Locals :=
  let s := if decoded ≠ chr '?' then { s with correctChars := s.correctChars + 1 }
    else { s with errorChars := s.errorChars + 1 }
  { s with totalChars := s.totalChars + 1 }

/-- Decode the buffered symbols, print the character and `sep`, count it. -/
def Decoder.flush (s : Decoder β) (sep : CString) : Decoder β × List Obs :=
  let f := flushLetter decodeMorse s.buffer sep
  ({ toLocals := s.toLocals.countChar f.1, buffer := f.2.1 }, f.2.2)

/-- Record a symbol. -/
def Decoder.record (s : Decoder β) (c : UInt8) : Decoder β × List Obs :=
  let r := push s.buffer c
  ({ s with buffer := r.1 }, r.2)

/-- `event.level == 1`: light turned ON. -/
def onRising (cfg : Timing) (s : Decoder β) (event : EdgeEvent) : Decoder β × List Obs :=
  let s := { s with lastRisingEdge := event.timestampUs }
  if s.lastFallingEdge > 0 then
    let gapUs := toInt (event.timestampUs - s.lastFallingEdge)
    if gapUs > cfg.wordGapMinUs ∧ morseIdx s.buffer > 0 then
      s.flush [space]
    else if gapUs > cfg.letterGapMinUs ∧ morseIdx s.buffer > 0 then
      let s := if s.firstCharTime = 0 then { s with firstCharTime := event.timestampUs } else s
      s.flush []
    else (s, [])
  else (s, [])

/-- Any other level: light turned OFF. -/
def onFalling (cfg : Timing) (s : Decoder β) (event : EdgeEvent) : Decoder β × List Obs :=
  let s := { s with lastFallingEdge := event.timestampUs }
  if s.lastRisingEdge > 0 then
    let pulseUs := toInt (event.timestampUs - s.lastRisingEdge)
    if pulseUs ≥ cfg.dashMinUs ∧ pulseUs ≤ cfg.dashMaxUs then s.record dash
    else if pulseUs ≥ cfg.dotMinUs ∧ pulseUs ≤ cfg.dotMaxUs then s.record dot
    else (s, [.warn pulseUs])
  else (s, [])

/-- The handling of one received event. -/
def onEvent (cfg : Timing) (s : Decoder β) (event : EdgeEvent) : Decoder β × List Obs :=
  if event.level = 1 then onRising cfg s event else onFalling cfg s event

/-- `morse_decoder_task` on the events that it receives. -/
def morseDecoderTask (cfg : Timing) : Transducer (Decoder β) EdgeEvent Obs where
  step := onEvent cfg

/-- The loop of `morse_decoder_task`: a turn receives an event, or `xQueueReceive`
returns without one and the turn does nothing. -/
def morseDecoderLoop (cfg : Timing) : Transducer (Decoder β) (Option EdgeEvent) Obs where
  step s
    | none => (s, [])
    | some event => onEvent cfg s event

/-- The task when it starts, with whatever is in the buffer's memory. -/
def start (junk : Vector UInt8 10) : Decoder CharBuffer := { buffer := .start junk }

/-- The same task with an unbounded list of symbols when it starts. -/
def startList : Decoder CString := { buffer := [] }

/-- The reachable states of the task. -/
def Reachable (cfg : Timing) (s : Decoder CharBuffer) : Prop :=
  ∃ junk es, s = (morseDecoderTask cfg).state (start junk) es

/-! ## The array task and the list task -/

/-- The two tasks agree on all variables, and the array holds the list's symbols. -/
structure Related (s : Decoder CharBuffer) (t : Decoder CString) : Prop where
  locals : s.toLocals = t.toLocals
  holds : Holds s.buffer t.buffer

theorem related_start (junk : Vector UInt8 10) : Related (start junk) startList :=
  ⟨rfl, holds_start junk⟩

theorem related_flush {s : Decoder CharBuffer} {t : Decoder CString} (h : Related s t)
    (sep : CString) :
    Related (s.flush sep).1 (t.flush sep).1 ∧
      shown id (s.flush sep).2 = shown (List.take 9) (t.flush sep).2 := by
  have hf := holds_flush decodeMorse sep h.holds
  have hdec : decodeMorse (t.buffer.take 9) = decodeMorse t.buffer := decodeMorse_take t.buffer
  rw [hdec] at hf
  simp only [Decoder.flush, hf.1, flush_list, h.locals]
  exact ⟨⟨rfl, hf.2⟩, rfl⟩

theorem related_record {s : Decoder CharBuffer} {t : Decoder CString} (h : Related s t)
    {c : UInt8} (hc : c ≠ 0) :
    Related (s.record c).1 (t.record c).1 ∧
      shown id (s.record c).2 = shown (List.take 9) (t.record c).2 := by
  refine ⟨⟨h.locals, holds_push h.holds hc⟩, ?_⟩
  simp only [Decoder.record, (push_safe s.buffer c id).2, push_list, shown_nil]

theorem related_mk (l : Locals) {b : CharBuffer} {p : CString} (h : Holds b p) :
    Related { toLocals := l, buffer := b } { toLocals := l, buffer := p } := ⟨rfl, h⟩

/-- One event takes related states to related states and shows the same. -/
theorem related_step (cfg : Timing) {s : Decoder CharBuffer} {t : Decoder CString}
    (e : EdgeEvent) (h : Related s t) :
    Related (onEvent cfg s e).1 (onEvent cfg t e).1 ∧
      shown id (onEvent cfg s e).2 = shown (List.take 9) (onEvent cfg t e).2 := by
  rcases s with ⟨l, b⟩
  rcases t with ⟨l', p⟩
  rcases h with ⟨rfl, hb⟩
  have hidx : morseIdx b > 0 ↔ morseIdx p > 0 := hb.idx_pos
  have hdash : dash ≠ 0 := by decide
  have hdot : dot ≠ 0 := by decide
  simp only [onEvent]
  split
  · -- rising: both flush or both do not
    simp only [onRising, hidx]
    split
    · split
      · exact related_flush (related_mk _ hb) [space]
      · split
        · split <;> exact related_flush (related_mk _ hb) []
        · exact ⟨related_mk _ hb, rfl⟩
    · exact ⟨related_mk _ hb, rfl⟩
  · -- falling: both record the same symbol or none
    simp only [onFalling]
    split
    · split
      · exact related_record (related_mk _ hb) hdash
      · split
        · exact related_record (related_mk _ hb) hdot
        · exact ⟨related_mk _ hb, rfl⟩
    · exact ⟨related_mk _ hb, rfl⟩

/-- The array task shows what the list task shows, its patterns cut to nine symbols, on any
events. -/
theorem related_run (cfg : Timing) {s : Decoder CharBuffer} {t : Decoder CString}
    (h : Related s t) (es : List EdgeEvent) :
    Related ((morseDecoderTask cfg).state s es) ((morseDecoderTask cfg).state t es) ∧
      shown id ((morseDecoderTask cfg).out s es) =
        shown (List.take 9) ((morseDecoderTask cfg).out t es) :=
  Transducer.lockstep (M := morseDecoderTask cfg) (N := morseDecoderTask cfg) Related
    (fun _ => True) (Obs.shown id) (Obs.shown (List.take 9))
    (fun _ _ e hR _ => related_step cfg e hR) h (fun _ _ => trivial)

/-! ## The timing front end -/

variable (cut : CString → CString)

/-- What a gap of the light means for the letters. -/
def gapBreak (cfg : Timing) (gapUs : Int) : Option CString :=
  if gapUs > cfg.wordGapMinUs then some [space]
  else if gapUs > cfg.letterGapMinUs then some []
  else none

/-- What a pulse of the light means. -/
def pulseSymbol (cfg : Timing) (pulseUs : Int) : Option UInt8 :=
  if pulseUs ≥ cfg.dashMinUs ∧ pulseUs ≤ cfg.dashMaxUs then some dash
  else if pulseUs ≥ cfg.dotMinUs ∧ pulseUs ≤ cfg.dotMaxUs then some dot
  else none

theorem gapBreak_none {cfg : Timing} {d : Int} (hword : d ≤ cfg.wordGapMinUs)
    (hletter : d ≤ cfg.letterGapMinUs) : gapBreak cfg d = none := by
  rw [gapBreak, if_neg (by omega), if_neg (by omega)]

theorem gapBreak_letter {cfg : Timing} {d : Int} (hword : d ≤ cfg.wordGapMinUs)
    (hletter : cfg.letterGapMinUs < d) : gapBreak cfg d = some [] := by
  rw [gapBreak, if_neg (by omega), if_pos hletter]

theorem gapBreak_word {cfg : Timing} {d : Int} (hword : cfg.wordGapMinUs < d) :
    gapBreak cfg d = some [space] := by
  rw [gapBreak, if_pos hword]

theorem pulseSymbol_dash {cfg : Timing} {d : Int} (hlo : cfg.dashMinUs ≤ d)
    (hhi : d ≤ cfg.dashMaxUs) : pulseSymbol cfg d = some dash := by
  rw [pulseSymbol, if_pos ⟨hlo, hhi⟩]

theorem pulseSymbol_dot {cfg : Timing} {d : Int} (hdash : d < cfg.dashMinUs)
    (hlo : cfg.dotMinUs ≤ d) (hhi : d ≤ cfg.dotMaxUs) : pulseSymbol cfg d = some dot := by
  rw [pulseSymbol, if_neg (by omega), if_pos ⟨hlo, hhi⟩]

/-- The last edges seen by the task. -/
structure Phase where
  lastRising : Int := 0
  lastFalling : Int := 0
deriving DecidableEq, Repr

/-- The break that a rising edge makes. -/
def Phase.breakAt (cfg : Timing) (φ : Phase) (t : Int) : Option CString :=
  if φ.lastFalling > 0 then gapBreak cfg (toInt (t - φ.lastFalling)) else none

/-- The symbol that a falling edge makes. -/
def Phase.symbolAt (cfg : Timing) (φ : Phase) (t : Int) : Option UInt8 :=
  if φ.lastRising > 0 then pulseSymbol cfg (toInt (t - φ.lastRising)) else none

/-- The tokens of the edges. -/
def marks (cfg : Timing) : Transducer Phase EdgeEvent (Token UInt8 CString) where
  step φ e :=
    if e.level = 1 then
      ({ φ with lastRising := e.timestampUs }, Segment.optBrk (φ.breakAt cfg e.timestampUs))
    else
      ({ φ with lastFalling := e.timestampUs },
        ((φ.symbolAt cfg e.timestampUs).toList.map .sym))

/-- The phase of a state. -/
def Locals.phase (s : Locals) : Phase := ⟨s.lastRisingEdge, s.lastFallingEdge⟩

/-- A flush of the list prints one group and leaves the phase alone. -/
theorem flush_phase (l : Locals) (p sep : CString) :
    ∃ l' : Locals, l'.phase = l.phase ∧
      Decoder.flush { toLocals := l, buffer := p } sep =
        ({ toLocals := l', buffer := [] }, [.decode p, .printf (printed (p, sep))]) := by
  refine ⟨l.countChar (decodeMorse p), ?_, rfl⟩
  simp only [Locals.countChar, Locals.phase]
  split <;> rfl

/-- A rising edge flushes what is pending exactly when its gap is a break. -/
theorem onRising_spec (cfg : Timing) (l : Locals) (p : CString) (e : EdgeEvent) :
    ∃ l' : Locals, l'.phase = { l.phase with lastRising := e.timestampUs } ∧
      onRising cfg { toLocals := l, buffer := p } e =
        match if p = [] then none else l.phase.breakAt cfg e.timestampUs with
        | none => ({ toLocals := l', buffer := p }, [])
        | some sep =>
            ({ toLocals := l', buffer := [] }, [.decode p, .printf (printed (p, sep))]) := by
  simp only [onRising, morseIdx_list, Phase.breakAt, gapBreak, Locals.phase, gt_iff_lt]
  by_cases hp : p = []
  · -- nothing pending: no branch flushes
    exact ⟨{ l with lastRisingEdge := e.timestampUs }, rfl, by simp [hp]⟩
  have hlen : 0 < p.length := List.length_pos_iff.2 hp
  simp only [hlen, and_true, if_neg hp]
  by_cases hf : 0 < l.lastFallingEdge
  · simp only [if_pos hf]
    by_cases hw : cfg.wordGapMinUs < toInt (e.timestampUs - l.lastFallingEdge)
    · simp only [if_pos hw]
      exact flush_phase { l with lastRisingEdge := e.timestampUs } p [space]
    · simp only [if_neg hw]
      by_cases hl : cfg.letterGapMinUs < toInt (e.timestampUs - l.lastFallingEdge)
      · simp only [if_pos hl]
        split
        · exact flush_phase { l with lastRisingEdge := e.timestampUs
                                     firstCharTime := e.timestampUs } p []
        · exact flush_phase { l with lastRisingEdge := e.timestampUs } p []
      · simp only [if_neg hl]
        exact ⟨{ l with lastRisingEdge := e.timestampUs }, rfl, rfl⟩
  · simp only [if_neg hf]
    exact ⟨{ l with lastRisingEdge := e.timestampUs }, rfl, rfl⟩

theorem phase_symbol (cfg : Timing) (l : Locals) (t : Int) :
    l.phase.symbolAt cfg t =
      if l.lastRisingEdge > 0 then pulseSymbol cfg (toInt (t - l.lastRisingEdge)) else none := rfl

/-- A falling edge records the symbol of its pulse. -/
theorem onFalling_spec (cfg : Timing) (l : Locals) (p : CString) (e : EdgeEvent) :
    (onFalling cfg { toLocals := l, buffer := p } e).1 =
        { toLocals := { l with lastFallingEdge := e.timestampUs },
          buffer := p ++ (l.phase.symbolAt cfg e.timestampUs).toList } ∧
      shown cut (onFalling cfg { toLocals := l, buffer := p } e).2 = [] := by
  rw [phase_symbol]
  simp only [onFalling]
  by_cases hr : l.lastRisingEdge > 0
  · simp only [if_pos hr, pulseSymbol]
    split
    · exact ⟨rfl, rfl⟩
    · split
      · exact ⟨rfl, rfl⟩
      · exact ⟨by simp, rfl⟩
  · simp only [if_neg hr]
    exact ⟨by simp, rfl⟩

/-- One event does what the segmenter does with the event's tokens. -/
theorem marks_step (cfg : Timing) (s : Decoder CString) (e : EdgeEvent) :
    ((onEvent cfg s e).1.toLocals.phase = ((marks cfg).step s.toLocals.phase e).1 ∧
      (onEvent cfg s e).1.buffer =
        Segment.segmenter.state s.buffer ((marks cfg).step s.toLocals.phase e).2) ∧
    shown cut (onEvent cfg s e).2 =
      (Segment.segmenter.out s.buffer ((marks cfg).step s.toLocals.phase e).2).flatMap
        (groupShown cut) := by
  rcases s with ⟨l, p⟩
  by_cases he : e.level = 1
  · rcases onRising_spec cfg l p e with ⟨l', hphase, heq⟩
    simp only [onEvent, marks, if_pos he, heq]
    by_cases hp : p = []
    · -- with nothing pending the break of the edge, if any, does nothing
      simp only [hp, if_true, hphase, true_and]
      cases l.phase.breakAt cfg e.timestampUs <;> exact ⟨rfl, rfl⟩
    · simp only [if_neg hp]
      cases l.phase.breakAt cfg e.timestampUs with
      | none => exact ⟨⟨hphase, rfl⟩, rfl⟩
      | some sep =>
          simp only [Segment.optBrk_some, Transducer.state_cons, Transducer.out_cons,
            Segment.step_brk hp, hphase, true_and]
          exact ⟨rfl, rfl⟩
  · have hspec := onFalling_spec cut cfg l p e
    simp only [onEvent, marks, if_neg he, hspec.1, hspec.2, Segment.state_syms, Segment.out_syms,
      and_true]
    exact ⟨rfl, rfl⟩

/-- The list task is the timing front end followed by the segmenter. -/
theorem marks_run (cfg : Timing) (s : Decoder CString) (es : List EdgeEvent) :
    (((morseDecoderTask cfg).state s es).toLocals.phase = (marks cfg).state s.toLocals.phase es ∧
      ((morseDecoderTask cfg).state s es).buffer =
        Segment.segmenter.state s.buffer ((marks cfg).out s.toLocals.phase es)) ∧
      shown cut ((morseDecoderTask cfg).out s es) =
        (Segment.segmenter.out s.buffer ((marks cfg).out s.toLocals.phase es)).flatMap
          (groupShown cut) := by
  have h := Transducer.refines_cascade (M := morseDecoderTask cfg) (F := marks cfg)
    (N := Segment.segmenter) (fun s φ p => s.toLocals.phase = φ ∧ s.buffer = p)
    (fun _ => True) (Obs.shown cut) (groupShown cut) ?_ (s := s)
    ⟨rfl, rfl⟩ (fun e (_ : e ∈ es) => trivial)
  · exact h
  · rintro s _ _ e ⟨rfl, rfl⟩ -
    exact marks_step cut cfg s e

/-- The array task, from an array that holds `p`, shows the groups that the segmenter
closes, their patterns cut to nine symbols. -/
theorem array_run (cfg : Timing) {s : Decoder CharBuffer} {p : CString}
    (hb : Holds s.buffer p) (es : List EdgeEvent) :
    (((morseDecoderTask cfg).state s es).toLocals.phase = (marks cfg).state s.toLocals.phase es ∧
      Holds ((morseDecoderTask cfg).state s es).buffer
        (Segment.segmenter.state p ((marks cfg).out s.toLocals.phase es))) ∧
      shown id ((morseDecoderTask cfg).out s es) =
        (Segment.segmenter.out p ((marks cfg).out s.toLocals.phase es)).flatMap
          (groupShown (List.take 9)) := by
  rcases s with ⟨l, b⟩
  have hrel := related_run cfg (related_mk l hb) es
  have hlist := marks_run (List.take 9) cfg { toLocals := l, buffer := p } es
  refine ⟨⟨?_, ?_⟩, hrel.2.trans hlist.2⟩
  · rw [hrel.1.locals]
    exact hlist.1.1
  · have hbuf := hrel.1.holds
    rw [hlist.1.2] at hbuf
    exact hbuf

/-- The text that the array task prints: the closed groups, decoded. -/
theorem array_text (cfg : Timing) {s : Decoder CharBuffer} {p : CString}
    (hb : Holds s.buffer p) (es : List EdgeEvent) :
    text ((morseDecoderTask cfg).out s es) =
      (Segment.segmenter.out p ((marks cfg).out s.toLocals.phase es)).flatMap printed := by
  rw [← text_shown id, (array_run cfg hb es).2, text_groups]

/-- After a falling edge the task knows its time. -/
theorem state_lastFalling (cfg : Timing) (junk : Vector UInt8 10) (hist : List EdgeEvent)
    {f : EdgeEvent} (hf : f.level ≠ 1) :
    ((morseDecoderTask cfg).state (start junk) (hist ++ [f])).lastFallingEdge =
      f.timestampUs := by
  have hrun := array_run cfg (s := start junk) (holds_start junk) (hist ++ [f])
  have hlast := congrArg Phase.lastFalling hrun.1.1
  rw [Transducer.state_append (marks cfg)] at hlast
  simpa [marks, hf, Locals.phase] using hlast

/-- In a reachable state the array holds some list of symbols. -/
theorem Reachable.holds {cfg : Timing} {s : Decoder CharBuffer} (h : Reachable cfg s) :
    ∃ p, Holds s.buffer p := by
  rcases h with ⟨junk, es, rfl⟩
  exact ⟨_, (related_run cfg (related_start junk) es).1.holds⟩

/-- In a reachable state without pending symbols the array holds nothing. -/
theorem Reachable.holds_nil {cfg : Timing} {s : Decoder CharBuffer} (h : Reachable cfg s)
    (hidle : s.buffer.morseIdx = 0) : Holds s.buffer [] := by
  rcases h.holds with ⟨p, hp⟩
  exact hp.idx_zero.1 hidle ▸ hp

end Cse121.Lab53.Receiver
