import Cse121.Lib.Segment
import Cse121.Morse.Buffer

/-! # The sampled receiver of lab 5.2

`lab5_2/main/lab5_2.c`: `morse_receiver_task` reads the photodiode every turn of
its loop. A turn first checks the idle timeout, then looks for a change of the
light. As in lab 5.3, the task refines a timing front end (`marks`) followed by
the segmenter; here the front end also produces the breaks of the timeout.
-/

namespace Cse121.Lab52

def dotDuration : Int := 100
def dashMinDuration : Int := 250
def letterGapMin : Int := 250
def wordGapMin : Int := 600
def timeoutMs : Int := 1000
def lightThreshold : Int := 22

/-- What one turn of the loop reads: the ADC and `esp_timer_get_time`. -/
structure Sample where
  adcValue : Int
  timerUs : Int
deriving DecidableEq, Repr

/-- `esp_timer_get_time() / 1000`, a C division. -/
def Sample.currentTime (x : Sample) : Int := x.timerUs.tdiv 1000

/-- `adc_value > LIGHT_THRESHOLD`. -/
def Sample.lit (x : Sample) : Bool := decide (x.adcValue > lightThreshold)

/-- The variables of `morse_receiver_task` besides the buffer. -/
structure Locals where
  lightOn : Bool := false
  lightStartTime : Int := 0
  gapStartTime : Int := 0
  lastActivityTime : Int := 0
deriving DecidableEq, Repr

/-- The state of `morse_receiver_task` over a buffer. -/
structure Receiver (β : Type) extends Locals where
  buffer : β
deriving DecidableEq, Repr

variable {β : Type} [SymbolBuffer β]

/-- Decode the buffered symbols, print the character and `sep`. -/
def Receiver.flush (s : Receiver β) (sep : CString) : Receiver β × List Obs :=
  let f := flushLetter decodeMorse s.buffer sep
  ({ s with buffer := f.2.1 }, f.2.2)

/-- Record a symbol. -/
def Receiver.record (s : Receiver β) (c : UInt8) : Receiver β × List Obs :=
  let r := push s.buffer c
  ({ s with buffer := r.1 }, r.2)

/-- The timeout check at the start of a turn. -/
def checkTimeout (s : Receiver β) (currentTime : Int) : Receiver β × List Obs :=
  if morseIdx s.buffer > 0 ∧ s.lastActivityTime > 0 then
    let idleTime := currentTime - s.lastActivityTime
    if idleTime > timeoutMs then
      let f := s.flush [newline]
      ({ f.1 with lastActivityTime := 0 }, f.2)
    else (s, [])
  else (s, [])

/-- Light turned ON. -/
def lightTurnedOn (s : Receiver β) (currentTime : Int) : Receiver β × List Obs :=
  let s := { s with lightOn := true
                    lightStartTime := currentTime
                    lastActivityTime := currentTime }
  if s.gapStartTime > 0 then
    let gapDuration := toInt (currentTime - s.gapStartTime)
    if gapDuration > wordGapMin ∧ morseIdx s.buffer > 0 then s.flush [space]
    else if gapDuration > letterGapMin ∧ morseIdx s.buffer > 0 then s.flush []
    else (s, [])
  else (s, [])

/-- Light turned OFF. -/
def lightTurnedOff (s : Receiver β) (currentTime : Int) : Receiver β × List Obs :=
  let s := { s with lightOn := false
                    gapStartTime := currentTime
                    lastActivityTime := currentTime }
  let pulseDuration := toInt (currentTime - s.lightStartTime)
  if pulseDuration ≥ dashMinDuration then s.record dash
  else if pulseDuration ≥ dotDuration / 2 then s.record dot
  else (s, [])

/-- The second half of a turn: a change of the light. -/
def checkLight (s : Receiver β) (x : Sample) : Receiver β × List Obs :=
  if x.adcValue > lightThreshold ∧ s.lightOn = false then lightTurnedOn s x.currentTime
  else if x.adcValue ≤ lightThreshold ∧ s.lightOn = true then lightTurnedOff s x.currentTime
  else (s, [])

/-- One turn of the loop. -/
def onSample (s : Receiver β) (x : Sample) : Receiver β × List Obs :=
  let t := checkTimeout s x.currentTime
  let r := checkLight t.1 x
  (r.1, t.2 ++ r.2)

/-- `morse_receiver_task`. -/
def morseReceiverTask : Transducer (Receiver β) Sample Obs where
  step := onSample

/-- The task when it starts, with whatever is in the buffer's memory. -/
def start (junk : Vector UInt8 10) : Receiver CharBuffer := { buffer := .start junk }

/-- The same task with an unbounded list of symbols when it starts. -/
def startList : Receiver CString := { buffer := [] }

/-- The reachable states of the task. -/
def Reachable (s : Receiver CharBuffer) : Prop :=
  ∃ junk xs, s = morseReceiverTask.state (start junk) xs

/-! ## The array task and the list task -/

/-- The two tasks agree on all variables, and the array holds the list's symbols. -/
structure Related (s : Receiver CharBuffer) (t : Receiver CString) : Prop where
  locals : s.toLocals = t.toLocals
  holds : Holds s.buffer t.buffer

theorem related_mk (l : Locals) {b : CharBuffer} {p : CString} (h : Holds b p) :
    Related { toLocals := l, buffer := b } { toLocals := l, buffer := p } := ⟨rfl, h⟩

theorem related_start (junk : Vector UInt8 10) : Related (start junk) startList :=
  related_mk {} (holds_start junk)

theorem related_flush {s : Receiver CharBuffer} {t : Receiver CString} (h : Related s t)
    (sep : CString) :
    Related (s.flush sep).1 (t.flush sep).1 ∧
      shown id (s.flush sep).2 = shown (List.take 9) (t.flush sep).2 := by
  have hf := holds_flush decodeMorse sep h.holds
  have hdec : decodeMorse (t.buffer.take 9) = decodeMorse t.buffer := decodeMorse_take t.buffer
  rw [hdec] at hf
  simp only [Receiver.flush, hf.1, flush_list]
  exact ⟨⟨h.locals, hf.2⟩, rfl⟩

theorem related_record {s : Receiver CharBuffer} {t : Receiver CString} (h : Related s t)
    {c : UInt8} (hc : c ≠ 0) :
    Related (s.record c).1 (t.record c).1 ∧
      shown id (s.record c).2 = shown (List.take 9) (t.record c).2 := by
  refine ⟨⟨h.locals, holds_push h.holds hc⟩, ?_⟩
  simp only [Receiver.record, (push_safe s.buffer c id).2, push_list, shown_nil]

theorem related_timeout {s : Receiver CharBuffer} {t : Receiver CString} (h : Related s t)
    (now : Int) :
    Related (checkTimeout s now).1 (checkTimeout t now).1 ∧
      shown id (checkTimeout s now).2 = shown (List.take 9) (checkTimeout t now).2 := by
  rcases s with ⟨l, b⟩
  rcases t with ⟨l', p⟩
  rcases h with ⟨rfl, hb⟩
  have hidx : morseIdx b > 0 ↔ morseIdx p > 0 := hb.idx_pos
  simp only [checkTimeout, hidx]
  split
  · split
    · have hf := related_flush (related_mk l hb) [newline]
      refine ⟨⟨?_, hf.1.holds⟩, hf.2⟩
      simp only [hf.1.locals]
    · exact ⟨related_mk l hb, rfl⟩
  · exact ⟨related_mk l hb, rfl⟩

theorem related_light {s : Receiver CharBuffer} {t : Receiver CString} (h : Related s t)
    (x : Sample) :
    Related (checkLight s x).1 (checkLight t x).1 ∧
      shown id (checkLight s x).2 = shown (List.take 9) (checkLight t x).2 := by
  rcases s with ⟨l, b⟩
  rcases t with ⟨l', p⟩
  rcases h with ⟨rfl, hb⟩
  have hidx : morseIdx b > 0 ↔ morseIdx p > 0 := hb.idx_pos
  have hdash : dash ≠ 0 := by decide
  have hdot : dot ≠ 0 := by decide
  simp only [checkLight]
  split
  · -- light turned ON: both flush or both do not
    simp only [lightTurnedOn, hidx]
    split
    · split
      · exact related_flush (related_mk _ hb) [space]
      · split
        · exact related_flush (related_mk _ hb) []
        · exact ⟨related_mk _ hb, rfl⟩
    · exact ⟨related_mk _ hb, rfl⟩
  · split
    · -- light turned OFF: both record the same symbol or none
      simp only [lightTurnedOff]
      split
      · exact related_record (related_mk _ hb) hdash
      · split
        · exact related_record (related_mk _ hb) hdot
        · exact ⟨related_mk _ hb, rfl⟩
    · exact ⟨related_mk _ hb, rfl⟩

/-- One turn takes related states to related states and shows the same. -/
theorem related_step {s : Receiver CharBuffer} {t : Receiver CString} (x : Sample)
    (h : Related s t) :
    Related (onSample s x).1 (onSample t x).1 ∧
      shown id (onSample s x).2 = shown (List.take 9) (onSample t x).2 := by
  have ht := related_timeout h x.currentTime
  have hl := related_light ht.1 x
  refine ⟨hl.1, ?_⟩
  simp only [onSample, shown_append, ht.2, hl.2]

/-- The array task shows what the list task shows, its patterns cut to nine symbols, on any
samples. -/
theorem related_run {s : Receiver CharBuffer} {t : Receiver CString} (h : Related s t)
    (xs : List Sample) :
    Related (morseReceiverTask.state s xs) (morseReceiverTask.state t xs) ∧
      shown id (morseReceiverTask.out s xs) = shown (List.take 9) (morseReceiverTask.out t xs) :=
  Transducer.lockstep (M := morseReceiverTask) (N := morseReceiverTask) Related
    (fun _ => True) (Obs.shown id) (Obs.shown (List.take 9)) (fun _ _ x hR _ => related_step x hR)
    h (fun _ _ => trivial)

/-! ## The timing front end -/

variable (cut : CString → CString)

/-- The break of an idle time. -/
def timeoutBreak (idleTime : Int) : Option CString :=
  if idleTime > timeoutMs then some [newline] else none

/-- What a dark gap means for the letters when the light comes back. -/
def gapBreak (gapDuration : Int) : Option CString :=
  if gapDuration > wordGapMin then some [space]
  else if gapDuration > letterGapMin then some []
  else none

/-- What a pulse of the light means. -/
def pulseSymbol (pulseDuration : Int) : Option UInt8 :=
  if pulseDuration ≥ dashMinDuration then some dash
  else if pulseDuration ≥ dotDuration / 2 then some dot
  else none

/-- The light as the task sees it: its state and the time of its last change. -/
structure Phase where
  lit : Bool
  since : Int
deriving DecidableEq, Repr

/-- The phase after a sample. -/
def Phase.next (φ : Phase) (x : Sample) : Phase :=
  if x.lit = φ.lit then φ else ⟨x.lit, x.currentTime⟩

/-- The tokens of a change of the light at `t`. -/
def Phase.change (φ : Phase) (t : Int) : List (Token UInt8 CString) :=
  if φ.lit then (pulseSymbol (toInt (t - φ.since))).toList.map .sym
  else Segment.optBrk (gapBreak (toInt (t - φ.since)))

/-- The tokens of the samples: the break of a timeout, then those of a change. -/
def marks : Transducer Phase Sample (Token UInt8 CString) where
  step φ x :=
    (φ.next x, Segment.optBrk (timeoutBreak (x.currentTime - φ.since)) ++
      if x.lit = φ.lit then [] else φ.change x.currentTime)

/-- The variables follow the phase; `lastActivityTime` and `gapStartTime` do so as
far as they matter, that is while symbols are pending. -/
structure Follows (l : Locals) (φ : Phase) (p : CString) : Prop where
  lit : l.lightOn = φ.lit
  start : φ.lit = true → l.lightStartTime = φ.since
  gap : φ.lit = false → p ≠ [] → l.gapStartTime = φ.since
  activity : p ≠ [] → l.lastActivityTime = φ.since ∧ 0 < φ.since

/-- A dark state without pending symbols follows any dark phase. -/
theorem follows_dark {l : Locals} (h : l.lightOn = false) (t : Int) :
    Follows l ⟨false, t⟩ [] := by
  refine ⟨h, ?_, ?_, ?_⟩ <;> simp

theorem flush_shown (s : Receiver CString) (sep : CString) :
    shown cut (s.flush sep).2 = groupShown cut (s.buffer, sep) := rfl

/-- The timeout check does what the break of the idle time does. -/
theorem timeout_step {l : Locals} {φ : Phase} {p : CString} (h : Follows l φ p) (t : Int) :
    ∃ l' p', (checkTimeout { toLocals := l, buffer := p } t).1 =
        { toLocals := l', buffer := p' } ∧ Follows l' φ p' ∧
      p' = Segment.segmenter.state p (Segment.optBrk (timeoutBreak (t - φ.since))) ∧
      shown cut (checkTimeout { toLocals := l, buffer := p } t).2 =
        (Segment.segmenter.out p (Segment.optBrk (timeoutBreak (t - φ.since)))).flatMap
          (groupShown cut) := by
  by_cases hp : p = []
  · refine ⟨l, [], by simp [checkTimeout, hp], hp ▸ h, ?_⟩
    subst hp
    cases timeoutBreak (t - φ.since) <;> exact ⟨rfl, rfl⟩
  · have hact := h.activity hp
    have hlen : 0 < p.length := List.length_pos_iff.2 hp
    simp only [checkTimeout, morseIdx_list, hact.1, hact.2, gt_iff_lt, hlen, and_self, if_true,
      timeoutBreak]
    by_cases hidle : timeoutMs < t - φ.since
    · simp only [if_pos hidle, Segment.optBrk_some, Transducer.state_cons,
        Transducer.out_cons, Segment.step_brk hp, flush_shown]
      refine ⟨{ l with lastActivityTime := 0 }, [], rfl, ?_, rfl, by simp⟩
      exact ⟨h.lit, h.start, by simp, by simp⟩
    · simp only [if_neg hidle]
      exact ⟨l, p, rfl, h, rfl, rfl⟩

theorem checkLight_eq (s : Receiver β) (x : Sample) :
    checkLight s x =
      if x.lit = s.lightOn then (s, [])
      else if x.lit then lightTurnedOn s x.currentTime else lightTurnedOff s x.currentTime := by
  by_cases hx : x.adcValue > lightThreshold
  · have hle : ¬ x.adcValue ≤ lightThreshold := by omega
    cases hs : s.lightOn <;> simp [checkLight, Sample.lit, hx, hs, hle]
  · have hle : x.adcValue ≤ lightThreshold := by omega
    cases hs : s.lightOn <;> simp [checkLight, Sample.lit, hx, hs, hle]

/-- The light coming back flushes what is pending exactly when its gap is a break. -/
theorem lightTurnedOn_spec (l : Locals) (p : CString) (t : Int) (hp : p ≠ [])
    (hgap : 0 < l.gapStartTime) :
    lightTurnedOn { toLocals := l, buffer := p } t =
      match gapBreak (toInt (t - l.gapStartTime)) with
      | none =>
          ({ toLocals := { l with lightOn := true, lightStartTime := t, lastActivityTime := t },
             buffer := p }, [])
      | some sep =>
          ({ toLocals := { l with lightOn := true, lightStartTime := t, lastActivityTime := t },
             buffer := [] }, [.decode p, .printf (printed (p, sep))]) := by
  have hlen : 0 < p.length := List.length_pos_iff.2 hp
  simp only [lightTurnedOn, morseIdx_list, gapBreak, gt_iff_lt, hlen, and_true, if_pos hgap]
  by_cases hw : wordGapMin < toInt (t - l.gapStartTime)
  · simp only [if_pos hw]
    rfl
  · by_cases hl : letterGapMin < toInt (t - l.gapStartTime)
    · simp only [if_neg hw, if_pos hl]
      rfl
    · simp only [if_neg hw, if_neg hl]

/-- The light going away records the symbol of its pulse. -/
theorem lightTurnedOff_spec (l : Locals) (p : CString) (t : Int) :
    (lightTurnedOff { toLocals := l, buffer := p } t).1 =
        { toLocals := { l with lightOn := false, gapStartTime := t, lastActivityTime := t },
          buffer := p ++ (pulseSymbol (toInt (t - l.lightStartTime))).toList } ∧
      shown cut (lightTurnedOff { toLocals := l, buffer := p } t).2 = [] := by
  simp only [lightTurnedOff, pulseSymbol]
  split
  · exact ⟨rfl, rfl⟩
  · split
    · exact ⟨rfl, rfl⟩
    · exact ⟨by simp, rfl⟩

/-- A change of the light does what its tokens do. -/
theorem light_step {l : Locals} {φ : Phase} {p : CString} (h : Follows l φ p) {x : Sample}
    (hx : Segment.segmenter.state p (if x.lit = φ.lit then [] else φ.change x.currentTime) ≠ [] →
      0 < x.currentTime) :
    ∃ l' p', (checkLight { toLocals := l, buffer := p } x).1 =
        { toLocals := l', buffer := p' } ∧ Follows l' (φ.next x) p' ∧
      p' = Segment.segmenter.state p (if x.lit = φ.lit then [] else φ.change x.currentTime) ∧
      shown cut (checkLight { toLocals := l, buffer := p } x).2 =
        (Segment.segmenter.out p
          (if x.lit = φ.lit then [] else φ.change x.currentTime)).flatMap (groupShown cut) := by
  rw [checkLight_eq]
  simp only [h.lit]
  by_cases hsame : x.lit = φ.lit
  · simp only [if_pos hsame, Phase.next]
    exact ⟨l, p, rfl, h, rfl, rfl⟩
  simp only [if_neg hsame, Phase.next, Phase.change] at hx ⊢
  cases hlit : φ.lit with
  | false =>
      -- light turned ON
      have hxl : x.lit = true := by simpa [hlit] using hsame
      simp only [hxl, if_true, Bool.false_eq_true, if_false]
      by_cases hp : p = []
      · subst hp
        refine ⟨{ l with lightOn := true, lightStartTime := x.currentTime,
                         lastActivityTime := x.currentTime }, [], ?_, ?_, ?_⟩
        · simp [lightTurnedOn]
        · exact ⟨rfl, fun _ => rfl, by simp, by simp⟩
        · cases gapBreak (toInt (x.currentTime - φ.since)) <;> simp [lightTurnedOn]
      · have hgap := h.gap hlit hp
        have hpos := (h.activity hp).2
        rw [lightTurnedOn_spec l p x.currentTime hp (by omega), hgap]
        simp only [hlit, Bool.false_eq_true, if_false] at hx
        cases hbreak : gapBreak (toInt (x.currentTime - φ.since)) with
        | none =>
            rw [hbreak] at hx
            refine ⟨_, p, rfl, ?_, rfl, rfl⟩
            exact ⟨rfl, fun _ => rfl, by simp, fun hp => ⟨rfl, hx hp⟩⟩
        | some sep =>
            simp only [Segment.optBrk_some, Transducer.state_cons, Transducer.out_cons,
              Segment.step_brk hp]
            refine ⟨_, [], rfl, ?_, rfl, rfl⟩
            exact ⟨rfl, fun _ => rfl, by simp, by simp⟩
  | true =>
      -- light turned OFF
      have hxl : x.lit = false := by simpa [hlit] using hsame
      have hspec := lightTurnedOff_spec cut l p x.currentTime
      simp only [hlit, if_true, Segment.state_syms] at hx
      simp only [hxl, Bool.false_eq_true, if_false, if_true, hspec.2, Segment.state_syms,
        Segment.out_syms]
      rw [hspec.1, h.start hlit]
      refine ⟨_, _, rfl, ?_, rfl, rfl⟩
      exact ⟨rfl, by simp, fun _ _ => rfl, fun hp => ⟨rfl, hx hp⟩⟩

/-- One turn does what the segmenter does with the sample's tokens, unless it leaves
symbols pending with a time stamp that is taken for the sentinel 0. -/
theorem marks_step {l : Locals} {φ : Phase} {p : CString} (h : Follows l φ p) {x : Sample}
    (hx : Segment.segmenter.state p (marks.step φ x).2 ≠ [] → 0 < x.currentTime) :
    ∃ l' p', (onSample { toLocals := l, buffer := p } x).1 = { toLocals := l', buffer := p' } ∧
      Follows l' (marks.step φ x).1 p' ∧
      p' = Segment.segmenter.state p (marks.step φ x).2 ∧
      shown cut (onSample { toLocals := l, buffer := p } x).2 =
        (Segment.segmenter.out p (marks.step φ x).2).flatMap (groupShown cut) := by
  rcases timeout_step cut h x.currentTime with ⟨l₁, p₁, hs₁, h₁, hp₁, ht₁⟩
  simp only [marks, Transducer.state_append, ← hp₁] at hx
  rcases light_step cut h₁ hx with ⟨l₂, p₂, hs₂, h₂, hp₂, ht₂⟩
  refine ⟨l₂, p₂, ?_, h₂, ?_, ?_⟩
  · simp only [onSample, hs₁, hs₂]
  · simp only [marks, Transducer.state_append, ← hp₁, hp₂]
  · simp only [onSample, hs₁, shown_append, ht₁, ht₂, marks, Transducer.out_append,
      List.flatMap_append, ← hp₁]

/-! ## Runs -/

/-- Under the invariant `I`, samples that satisfy `P` leave symbols pending only with a
positive time stamp: no time stamp is taken for the sentinel 0. -/
structure Stamped (I : Phase → CString → Prop) (P : Sample → Prop) : Prop where
  keep : ∀ φ p x, I φ p → P x →
    I (marks.step φ x).1 (Segment.segmenter.state p (marks.step φ x).2)
  pos : ∀ φ p x, I φ p → P x →
    Segment.segmenter.state p (marks.step φ x).2 ≠ [] → 0 < x.currentTime

/-- After the first millisecond since the boot there is nothing to check. -/
theorem stamped_later : Stamped (fun _ _ => True) (fun x => 0 < x.currentTime) where
  keep := fun _ _ _ _ _ => trivial
  pos := fun _ _ _ _ hx _ => hx

/-- Within the first millisecond since the boot no pulse is long enough for a symbol. -/
theorem stamped_early :
    Stamped (fun φ p => p = [] ∧ φ.since = 0) (fun x => x.currentTime = 0) := by
  have hnone : ∀ (φ : Phase) (x : Sample), φ.since = 0 → x.currentTime = 0 →
      Segment.segmenter.state [] (marks.step φ x).2 = ([] : CString) := by
    intro φ x hφ hx
    have hlate : timeoutBreak 0 = none := rfl
    have hgap : gapBreak (toInt 0) = none := rfl
    have hpulse : pulseSymbol (toInt 0) = none := rfl
    simp only [marks, Phase.change, hφ, hx, sub_self, hlate, hgap, hpulse]
    split
    · rfl
    · split <;> rfl
  constructor
  · rintro φ p x ⟨rfl, hφ⟩ hx
    refine ⟨hnone φ x hφ hx, ?_⟩
    simp only [marks, Phase.next]
    split
    · exact hφ
    · exact hx
  · rintro φ p x ⟨rfl, hφ⟩ hx hne
    exact absurd (hnone φ x hφ hx) hne

section Run

variable {I : Phase → CString → Prop} {P : Sample → Prop}

/-- From a state that follows a phase the list task is the timing front end followed by
the segmenter. -/
theorem marks_run (hst : Stamped I P) {s : Receiver CString} {φ : Phase}
    (h : Follows s.toLocals φ s.buffer) (hI : I φ s.buffer) {xs : List Sample}
    (hxs : ∀ x ∈ xs, P x) :
    ((Follows (morseReceiverTask.state s xs).toLocals (marks.state φ xs)
        (morseReceiverTask.state s xs).buffer ∧
      I (marks.state φ xs) (morseReceiverTask.state s xs).buffer) ∧
      (morseReceiverTask.state s xs).buffer =
        Segment.segmenter.state s.buffer (marks.out φ xs)) ∧
      shown cut (morseReceiverTask.out s xs) =
        (Segment.segmenter.out s.buffer (marks.out φ xs)).flatMap (groupShown cut) := by
  have hrun := Transducer.refines_cascade (M := morseReceiverTask) (F := marks)
    (N := Segment.segmenter) (fun s φ p => (Follows s.toLocals φ p ∧ I φ p) ∧ s.buffer = p)
    P (Obs.shown cut) (groupShown cut) ?_ ⟨⟨h, hI⟩, rfl⟩ hxs
  · exact ⟨⟨hrun.1.2 ▸ hrun.1.1, hrun.1.2⟩, hrun.2⟩
  · rintro ⟨l, p⟩ φ _ x ⟨⟨hf, hφ⟩, rfl⟩ hx
    rcases marks_step cut hf (hst.pos φ p x hφ hx) with ⟨l', p', hs, hf', hp, ht⟩
    refine ⟨?_, ht⟩
    change (Follows (onSample _ x).1.toLocals _ _ ∧ _) ∧ (onSample _ x).1.buffer = _
    rw [hs]
    exact ⟨⟨hp ▸ hf', hst.keep φ p x hφ hx⟩, hp⟩

/-- The array task, from an array that holds `p`, shows the groups that the segmenter
closes, their patterns cut to nine symbols. -/
theorem array_stamped (hst : Stamped I P) {s : Receiver CharBuffer} {φ : Phase} {p : CString}
    (hb : Holds s.buffer p) (hf : Follows s.toLocals φ p) (hI : I φ p) {xs : List Sample}
    (hxs : ∀ x ∈ xs, P x) :
    ((Holds (morseReceiverTask.state s xs).buffer (Segment.segmenter.state p (marks.out φ xs)) ∧
      Follows (morseReceiverTask.state s xs).toLocals (marks.state φ xs)
        (Segment.segmenter.state p (marks.out φ xs))) ∧
      I (marks.state φ xs) (Segment.segmenter.state p (marks.out φ xs))) ∧
      shown id (morseReceiverTask.out s xs) =
        (Segment.segmenter.out p (marks.out φ xs)).flatMap (groupShown (List.take 9)) := by
  rcases s with ⟨l, b⟩
  have hrel := related_run (related_mk l hb) xs
  have hlist := marks_run (List.take 9) hst (s := { toLocals := l, buffer := p }) hf hI hxs
  have hbuf := hrel.1.holds
  have hfol := hlist.1.1
  rw [hlist.1.2] at hbuf hfol
  refine ⟨⟨⟨hbuf, ?_⟩, hfol.2⟩, hrel.2.trans hlist.2⟩
  rw [hrel.1.locals]
  exact hfol.1

end Run

/-- The run of the array task after the first millisecond. -/
theorem array_run {s : Receiver CharBuffer} {φ : Phase} {p : CString} (hb : Holds s.buffer p)
    (hf : Follows s.toLocals φ p) {xs : List Sample} (hxs : ∀ x ∈ xs, 0 < x.currentTime) :
    (Holds (morseReceiverTask.state s xs).buffer (Segment.segmenter.state p (marks.out φ xs)) ∧
      Follows (morseReceiverTask.state s xs).toLocals (marks.state φ xs)
        (Segment.segmenter.state p (marks.out φ xs))) ∧
      shown id (morseReceiverTask.out s xs) =
        (Segment.segmenter.out p (marks.out φ xs)).flatMap (groupShown (List.take 9)) := by
  have hrun := array_stamped stamped_later hb hf trivial hxs
  exact ⟨hrun.1.1, hrun.2⟩

/-- Truncated times of samples after the start. -/
theorem currentTime_of_nonneg {x : Sample} (h : 0 ≤ x.timerUs) :
    x.currentTime = x.timerUs / 1000 :=
  Int.tdiv_eq_ediv_of_nonneg h

/-- The samples of a run since the boot: the clock is not negative and does not go back. -/
structure Run (xs : List Sample) : Prop where
  inOrder : (xs.map Sample.timerUs).Pairwise (· ≤ ·)
  nonneg : ∀ x ∈ xs, 0 ≤ x.timerUs

theorem Run.left {xs ys : List Sample} (h : Run (xs ++ ys)) : Run xs := by
  have horder := h.inOrder
  rw [List.map_append] at horder
  exact ⟨(List.pairwise_append.1 horder).1, fun x hx => h.nonneg x (List.mem_append_left ys hx)⟩

/-- A run is a part in the first millisecond and a part after it. -/
theorem Run.split {xs : List Sample} (h : Run xs) :
    ∃ early later, xs = early ++ later ∧ (∀ x ∈ early, x.currentTime = 0) ∧
      ∀ x ∈ later, 0 < x.currentTime := by
  induction xs with
  | nil => exact ⟨[], [], rfl, by simp, by simp⟩
  | cons u xs ih =>
      have hu := h.nonneg u List.mem_cons_self
      have horder := List.pairwise_cons.1 h.inOrder
      have hrest : Run xs := ⟨horder.2, fun x hx => h.nonneg x (List.mem_cons_of_mem u hx)⟩
      by_cases hearly : u.timerUs < 1000
      · rcases ih hrest with ⟨early, later, rfl, hzero, hlater⟩
        refine ⟨u :: early, later, rfl, ?_, hlater⟩
        intro x hx
        rcases List.mem_cons.1 hx with rfl | hx
        · rw [currentTime_of_nonneg hu]
          omega
        · exact hzero x hx
      · refine ⟨[], u :: xs, rfl, by simp, ?_⟩
        intro x hx
        have hx' : u.timerUs ≤ x.timerUs := by
          rcases List.mem_cons.1 hx with rfl | hx
          · exact le_refl _
          · exact horder.1 _ (List.mem_map_of_mem hx)
        rw [currentTime_of_nonneg (by omega)]
        omega

/-- The run of the array task since the boot, from the dark with nothing pending. -/
theorem boot_run {s : Receiver CharBuffer} (hb : Holds s.buffer []) (hdark : s.lightOn = false)
    {xs : List Sample} (hxs : Run xs) :
    (Holds (morseReceiverTask.state s xs).buffer
        (Segment.segmenter.state [] (marks.out ⟨false, 0⟩ xs)) ∧
      Follows (morseReceiverTask.state s xs).toLocals (marks.state ⟨false, 0⟩ xs)
        (Segment.segmenter.state [] (marks.out ⟨false, 0⟩ xs))) ∧
      shown id (morseReceiverTask.out s xs) =
        (Segment.segmenter.out [] (marks.out ⟨false, 0⟩ xs)).flatMap
          (groupShown (List.take 9)) := by
  rcases hxs.split with ⟨early, later, rfl, hearly, hlater⟩
  have h := array_stamped stamped_early hb (follows_dark hdark 0) ⟨rfl, rfl⟩ hearly
  have h' := array_run h.1.1.1 h.1.1.2 hlater
  simp only [Transducer.state_append, Transducer.out_append, List.flatMap_append, shown_append,
    h.2, h'.2]
  exact ⟨h'.1, trivial⟩

/-- The text that the array task prints: the closed groups, decoded. -/
theorem boot_text {s : Receiver CharBuffer} (hb : Holds s.buffer []) (hdark : s.lightOn = false)
    {xs : List Sample} (hxs : Run xs) :
    text (morseReceiverTask.out s xs) =
      (Segment.segmenter.out [] (marks.out ⟨false, 0⟩ xs)).flatMap printed := by
  rw [← text_shown id, (boot_run hb hdark hxs).2, text_groups]

/-- In a reachable state the array holds some list of symbols. -/
theorem Reachable.holds {s : Receiver CharBuffer} (h : Reachable s) : ∃ p, Holds s.buffer p := by
  rcases h with ⟨junk, xs, rfl⟩
  exact ⟨_, (related_run (related_start junk) xs).1.holds⟩

/-- In a reachable state without pending symbols the array holds nothing. -/
theorem Reachable.holds_nil {s : Receiver CharBuffer} (h : Reachable s)
    (hidle : s.buffer.morseIdx = 0) : Holds s.buffer [] := by
  rcases h.holds with ⟨p, hp⟩
  exact hp.idx_zero.1 hidle ▸ hp

end Cse121.Lab52
