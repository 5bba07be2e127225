import Cse121.Morse.Receiver52
import Cse121.Morse.Text

/-! # The link from lab 5.1 to lab 5.2

The receiver looks at the light at its sampling instants and truncates their times to
milliseconds. Dark runs and pulses are measured with an error below the sampling
distance and a millisecond; with that error the letters of a transmission are read
back, and the idle timeout prints the last one.
-/

namespace Cse121.Lab52

open PulseTrain

/-- The samples see the light of a train that starts at time `t`. -/
def Sees (t : Int) (ps : List Pulse) (xs : List Sample) : Prop :=
  ∀ x ∈ xs, x.lit = lit t ps x.timerUs

/-! ## The front end on steady light -/

/-- What a dark run means in the end: the timeout first, then the gap. -/
def gapSep (d : Int) : Option CString := (timeoutBreak d).or (gapBreak (toInt d))

/-- The symbol of a pulse as the task computes it. -/
def widthSymbol (d : Int) : Option UInt8 := pulseSymbol (toInt d)

/-- The timeouts of samples that see no change of the light since `τ`. -/
def timeouts (τ : Int) (xs : List Sample) : List CString :=
  xs.flatMap fun x => (timeoutBreak (x.currentTime - τ)).toList

/-- All timeouts are the same. -/
theorem timeouts_newline (τ : Int) (xs : List Sample) : ∀ b ∈ timeouts τ xs, b = [newline] := by
  intro b hb
  rcases List.mem_flatMap.1 hb with ⟨x, -, hb⟩
  simp only [timeoutBreak] at hb
  split at hb
  · simpa using hb
  · simp at hb

theorem marks_step_dark (τ : Int) {x : Sample} (hx : x.lit = false) :
    marks.step ⟨false, τ⟩ x =
      (⟨false, τ⟩, Segment.optBrk (timeoutBreak (x.currentTime - τ))) := by
  simp [marks, Phase.next, hx]

/-- The breaks of a sample that sees the light come back. -/
def riseBreaks (τ : Int) (a : Sample) : List CString :=
  (timeoutBreak (a.currentTime - τ)).toList ++ (gapBreak (toInt (a.currentTime - τ))).toList

theorem marks_step_rise (τ : Int) {a : Sample} (ha : a.lit = true) :
    marks.step ⟨false, τ⟩ a = (⟨true, a.currentTime⟩, (riseBreaks τ a).map .brk) := by
  simp [marks, Phase.next, Phase.change, Segment.optBrk, riseBreaks, ha]

/-- Dark samples in the dark: only timeouts. -/
theorem marks_dark (τ : Int) {xs : List Sample} (hxs : ∀ x ∈ xs, x.lit = false) :
    marks.state ⟨false, τ⟩ xs = ⟨false, τ⟩ ∧
      marks.out ⟨false, τ⟩ xs = (timeouts τ xs).map .brk := by
  induction xs with
  | nil => exact ⟨rfl, rfl⟩
  | cons x xs ih =>
      have hx := hxs x List.mem_cons_self
      have hrest := ih fun y hy => hxs y (List.mem_cons_of_mem x hy)
      rw [Transducer.state_cons, Transducer.out_cons, marks_step_dark τ hx]
      refine ⟨hrest.1, ?_⟩
      rw [hrest.2]
      simp only [timeouts, List.flatMap_cons, List.map_append]
      rfl

/-- The first of the timeouts of samples up to a time, and of the break at that time. -/
theorem timeout_first {τ t : Int} {xs : List Sample} (hxs : ∀ x ∈ xs, x.currentTime ≤ t)
    (o : Option CString) :
    (timeouts τ xs ++ ((timeoutBreak (t - τ)).toList ++ o.toList)).head? =
      (timeoutBreak (t - τ)).or o := by
  by_cases hlate : t - τ > timeoutMs
  · -- some timeout comes first, and all are the same
    have hall := timeouts_newline τ xs
    rw [timeoutBreak, if_pos hlate]
    cases hbs : timeouts τ xs with
    | nil => rfl
    | cons b bs =>
        rw [hbs] at hall
        simp [hall b List.mem_cons_self]
  · -- no timeout yet
    have hnone : timeouts τ xs = [] := by
      rw [timeouts, List.flatMap_eq_nil_iff]
      intro x hx
      have := hxs x hx
      rw [timeoutBreak, if_neg (by omega)]
      rfl
    rw [hnone, timeoutBreak, if_neg hlate]
    cases o <;> rfl

/-- A dark run that ends with the light coming back. -/
theorem marks_rise (τ : Int) {xs : List Sample} (hxs : ∀ x ∈ xs, x.lit = false) {a : Sample}
    (ha : a.lit = true) (htime : ∀ x ∈ xs, x.currentTime ≤ a.currentTime) :
    marks.state ⟨false, τ⟩ (xs ++ [a]) = ⟨true, a.currentTime⟩ ∧
      Segment.Same (marks.out ⟨false, τ⟩ (xs ++ [a]))
        (Segment.optBrk (gapSep (a.currentTime - τ))) := by
  have hdark := marks_dark τ hxs
  rw [Transducer.state_append, Transducer.out_append, hdark.1, hdark.2, Transducer.state_cons,
    Transducer.out_cons, marks_step_rise τ ha]
  refine ⟨rfl, ?_⟩
  rw [Transducer.out_nil, List.append_nil, ← List.map_append]
  have hbrks := Segment.same_brks (α := UInt8) (timeouts τ xs ++ riseBreaks τ a)
  rw [riseBreaks, timeout_first htime] at hbrks
  exact hbrks

/-- A pulse that is over within the timeout: its symbol. -/
theorem marks_fall (τ : Int) {xs : List Sample} (hxs : ∀ x ∈ xs, x.lit = true) {b : Sample}
    (hb : b.lit = false) (htime : ∀ x ∈ xs, x.currentTime - τ ≤ timeoutMs)
    (hbtime : b.currentTime - τ ≤ timeoutMs) :
    marks.state ⟨true, τ⟩ (xs ++ [b]) = ⟨false, b.currentTime⟩ ∧
      marks.out ⟨true, τ⟩ (xs ++ [b]) =
        (widthSymbol (b.currentTime - τ)).toList.map .sym := by
  induction xs with
  | nil =>
      have hnone : timeoutBreak (b.currentTime - τ) = none := if_neg (by omega)
      simp [marks, Phase.next, Phase.change, hb, hnone, widthSymbol]
  | cons x xs ih =>
      have hx := hxs x List.mem_cons_self
      have hrest := ih (fun y hy => hxs y (List.mem_cons_of_mem x hy))
        (fun y hy => htime y (List.mem_cons_of_mem x hy))
      have hnone : timeoutBreak (x.currentTime - τ) = none :=
        if_neg (by have := htime x List.mem_cons_self; omega)
      have hstep : marks.step ⟨true, τ⟩ x = (⟨true, τ⟩, []) := by
        simp [marks, Phase.next, hx, hnone]
      rw [List.cons_append, Transducer.state_cons, Transducer.out_cons, hstep]
      exact hrest

/-- Enough darkness ends the line. -/
theorem marks_end (τ : Int) {xs : List Sample} (hxs : ∀ x ∈ xs, x.lit = false) {z : Sample}
    (hz : z ∈ xs) (hlate : timeoutMs < z.currentTime - τ) :
    Segment.Same (marks.out ⟨false, τ⟩ xs) [.brk [newline]] := by
  have hmem : [newline] ∈ timeouts τ xs := by
    refine List.mem_flatMap.2 ⟨z, hz, ?_⟩
    rw [timeoutBreak, if_pos hlate]
    exact List.mem_singleton_self [newline]
  have hall := timeouts_newline τ xs
  rw [(marks_dark τ hxs).2]
  cases hbs : timeouts τ xs with
  | nil => simp [hbs] at hmem
  | cons b bs =>
      rw [hbs] at hall
      obtain rfl : b = [newline] := hall b List.mem_cons_self
      exact Segment.same_brks (α := UInt8) ([newline] :: bs)

/-! ## One pulse -/

/-- A sample later than `b` comes after it. -/
theorem mem_later {before rest : List Sample} {z b : Sample} (hz : z ∈ before ++ b :: rest)
    (hbefore : ∀ x ∈ before, x.timerUs ≤ b.timerUs) (hlate : b.timerUs < z.timerUs) :
    z ∈ rest := by
  rcases List.mem_append.1 hz with hz | hz
  · have := hbefore z hz
    omega
  · rcases List.mem_cons.1 hz with rfl | hz
    · omega
    · exact hz

/-- Sampling finds a pulse: samples up to its first one, that one, the other lit ones,
and the first dark one, each within the sampling distance of its edge. -/
theorem sampled_pulse {P t : Int} {p : Pulse} {ps : List Pulse} {u : Sample} {xs : List Sample}
    (hw : 0 < p.width) (hP : P ≤ p.width) (hps : ∀ q ∈ ps.head?, P ≤ q.gap)
    (hproper : Proper ps)
    (hxs : Sampled Sample.timerUs P (u :: xs)) (hu : u.timerUs < t + p.gap)
    (hsees : Sees t (p :: ps) xs) (hlast : ∃ z ∈ xs, t + p.gap + p.width ≤ z.timerUs) :
    ∃ dark a on b rest, xs = dark ++ a :: (on ++ b :: rest) ∧
      (t + p.gap ≤ a.timerUs ∧ a.timerUs < t + p.gap + P) ∧
      (t + p.gap + p.width ≤ b.timerUs ∧ b.timerUs < t + p.gap + p.width + P) ∧
      (∀ x ∈ dark, x.lit = false ∧ u.timerUs ≤ x.timerUs ∧ x.timerUs ≤ a.timerUs) ∧
      a.lit = true ∧ (∀ x ∈ on, x.lit = true ∧ a.timerUs ≤ x.timerUs ∧ x.timerUs ≤ b.timerUs) ∧
      b.lit = false ∧ Sampled Sample.timerUs P (b :: rest) ∧
      Sees (t + p.gap + p.width) ps rest := by
  rcases hlast with ⟨z, hz, hzlast⟩
  rcases sampled_first hxs hu ⟨z, hz, by omega⟩ with
    ⟨dark, a, after, rfl, hdark, ha, hafter⟩
  have hzafter : z ∈ after := by
    refine mem_later hz ?_ (by omega)
    intro x hx
    have := (hdark x hx).2
    omega
  rcases sampled_first hafter (X := t + p.gap + p.width) (by omega) ⟨z, hzafter, hzlast⟩ with
    ⟨on, b, rest, rfl, hon, hb, hrest⟩
  have hbrest := sampled_le hrest
  -- where each part lies in the train says what it sees
  refine ⟨dark, a, on, b, rest, rfl, ha, hb, ?_, ?_, ?_, ?_, hrest, ?_⟩
  · intro x hx
    have hbefore := hdark x hx
    rw [hsees x (List.mem_append_left _ hx), lit_gap hproper (by omega) hbefore.2]
    exact ⟨rfl, hbefore.1, by omega⟩
  · rw [hsees a (by simp), lit_pulse ha.1 (by omega)]
  · intro x hx
    have hbetween := hon x hx
    rw [hsees x (by simp [hx]), lit_pulse (by omega) hbetween.2]
    exact ⟨rfl, hbetween.1, by omega⟩
  · rw [hsees b (by simp), lit_after hb.1]
    cases ps with
    | nil => rfl
    | cons q ps =>
        -- the next pulse is farther away than the sampling distance
        have hq := hproper q List.mem_cons_self
        have hgap := hps q rfl
        exact lit_gap (fun r hr => hproper r (List.mem_cons_of_mem q hr)) (by omega) (by omega)
  · intro x hx
    have := hbrest x hx
    rw [hsees x (by simp [hx]), lit_after (by omega)]

/-- The tokens of a sampled pulse: the break of the dark run before it, and the symbol
of its width, both measured in milliseconds. -/
theorem marks_sampled_pulse {P t τ : Int} {p : Pulse} {ps : List Pulse} {u : Sample}
    {xs : List Sample} (hw : 0 < p.width) (hP : P ≤ p.width) (hwidth : p.width + P ≤ 1000000)
    (hps : ∀ q ∈ ps.head?, P ≤ q.gap) (hproper : Proper ps)
    (hxs : Sampled Sample.timerUs P (u :: xs)) (hu : u.timerUs < t + p.gap) (hpos : 0 ≤ u.timerUs)
    (hsees : Sees t (p :: ps) xs) (hlast : ∃ z ∈ xs, t + p.gap + p.width ≤ z.timerUs) :
    ∃ (a b : Sample) (before rest : List Sample), xs = before ++ b :: rest ∧
      (t + p.gap ≤ a.timerUs ∧ a.timerUs < t + p.gap + P ∧ 0 ≤ a.timerUs) ∧
      (t + p.gap + p.width ≤ b.timerUs ∧ b.timerUs < t + p.gap + p.width + P) ∧
      Sampled Sample.timerUs P (b :: rest) ∧ (∀ x ∈ before, x.timerUs ≤ b.timerUs) ∧
      Sees (t + p.gap + p.width) ps rest ∧
      marks.state ⟨false, τ⟩ (before ++ [b]) = ⟨false, b.currentTime⟩ ∧
      Segment.Same (marks.out ⟨false, τ⟩ (before ++ [b]))
        (Segment.optBrk (gapSep (a.currentTime - τ)) ++
          (widthSymbol (b.currentTime - a.currentTime)).toList.map .sym) := by
  rcases sampled_pulse hw hP hps hproper hxs hu hsees hlast with
    ⟨dark, a, on, b, rest, rfl, ha, hb, hdark, halit, hon, hblit, hrest, hsees'⟩
  have hapos : 0 ≤ a.timerUs := le_trans hpos (sampled_le hxs a (by simp))
  -- the pulse is too short for the timeout, which the code checks before the edges
  have htime : ∀ x : Sample, a.timerUs ≤ x.timerUs → x.timerUs ≤ b.timerUs →
      x.currentTime - a.currentTime ≤ timeoutMs := by
    intro x hax hxb
    rw [currentTime_of_nonneg hapos, currentTime_of_nonneg (by omega), timeoutMs]
    omega
  have hrise := marks_rise τ (fun x hx => (hdark x hx).1) halit (by
    intro x hx
    have hx' := (hdark x hx).2
    rw [currentTime_of_nonneg hapos, currentTime_of_nonneg (by omega)]
    omega)
  have hfall := marks_fall a.currentTime (fun x hx => (hon x hx).1) hblit
    (fun x hx => htime x (hon x hx).2.1 (hon x hx).2.2) (htime b (by omega) (le_refl _))
  have hbefore : ∀ x ∈ dark ++ a :: on, x.timerUs ≤ b.timerUs := by
    intro x hx
    rcases List.mem_append.1 hx with hx | hx
    · have := (hdark x hx).2.2
      omega
    · rcases List.mem_cons.1 hx with rfl | hx
      · omega
      · exact (hon x hx).2.2
  refine ⟨a, b, dark ++ a :: on, rest, by simp, ⟨ha.1, ha.2, hapos⟩, hb, hrest, hbefore,
    hsees', ?_⟩
  have hsplit : dark ++ a :: on ++ [b] = (dark ++ [a]) ++ (on ++ [b]) := by simp
  rw [hsplit, Transducer.state_append, Transducer.out_append, hrise.1, hfall.1, hfall.2]
  exact ⟨rfl, hrise.2.append (.refl _)⟩

/-! ## A train -/

/-- A length in microseconds and its measure in milliseconds, with sampling distance
`P`. -/
def Measured (P g d : Int) : Prop := -(P + 1000) < 1000 * d - g ∧ 1000 * d - g < P + 1000

/-- Times of samples close to two edges measure the run between them. -/
theorem measured_of_times {P X Y : Int} {a b : Sample} (ha : X ≤ a.timerUs ∧ a.timerUs < X + P)
    (hb : Y ≤ b.timerUs ∧ b.timerUs < Y + P) (hapos : 0 ≤ a.timerUs) (hbpos : 0 ≤ b.timerUs) :
    Measured P (Y - X) (b.currentTime - a.currentTime) := by
  rw [currentTime_of_nonneg hapos, currentTime_of_nonneg hbpos, Measured]
  omega

/-- Pulses and dark runs that the sampling distance does not miss. -/
def Visible (P : Int) (ps : List Pulse) : Prop :=
  (∀ p ∈ ps, 0 < p.width ∧ P ≤ p.width ∧ p.width + P ≤ 1000000) ∧
    ∀ p ∈ ps.tail, 0 < p.gap ∧ P ≤ p.gap

/-- The first pulse is over when the train is. -/
theorem Visible.le_endTime {P t : Int} {p : Pulse} {ps : List Pulse} (h : Visible P (p :: ps)) :
    t + p.gap + p.width ≤ endTime t (p :: ps) := by
  apply PulseTrain.le_endTime
  intro q hq
  exact ⟨(h.2 q hq).1.le, (h.1 q (List.mem_cons_of_mem p hq)).1.le⟩

/-- What sampling a train comes to: samples `rest` after the one, `v`, that saw the
train's last falling edge, and a measured train. -/
def SampledTrain (P : Int) (τ : Int) (xs : List Sample) (z v : Sample) (X : Int)
    (qs : List Pulse) : Prop :=
  ∃ before rest, xs = before ++ rest ∧ z ∈ rest ∧
    (X ≤ v.timerUs ∧ v.timerUs < X + P ∧ 0 ≤ v.timerUs) ∧
    (∀ x ∈ rest, x.lit = false) ∧ marks.state ⟨false, τ⟩ before = ⟨false, v.currentTime⟩ ∧
    Segment.Same (marks.out ⟨false, τ⟩ before) (trainTokens gapSep widthSymbol qs)

/-- A sampled pulse in front of a sampled train. -/
theorem SampledTrain.cons {P τ X gap width : Int} {before rest : List Sample} {z v b : Sample}
    {qs : List Pulse} (hstate : marks.state ⟨false, τ⟩ (before ++ [b]) = ⟨false, b.currentTime⟩)
    (htoks : Segment.Same (marks.out ⟨false, τ⟩ (before ++ [b]))
      (Segment.optBrk (gapSep gap) ++ (widthSymbol width).toList.map .sym))
    (h : SampledTrain P b.currentTime rest z v X qs) :
    SampledTrain P τ (before ++ b :: rest) z v X (⟨gap, width⟩ :: qs) := by
  rcases h with ⟨before', rest', rfl, hz, hv, hdark, hstate', htoks'⟩
  refine ⟨before ++ b :: before', rest', by simp, hz, hv, hdark, ?_, ?_⟩
  · rw [List.append_cons, Transducer.state_append, hstate, hstate']
  · rw [List.append_cons, Transducer.out_append, hstate]
    exact htoks.append htoks'

/-- The samples of a train whose first gap starts at the time of a falling edge. -/
theorem marks_sampled_train {P t : Int} {ps : List Pulse} {u z : Sample} {xs : List Sample}
    (hwidth : ∀ p ∈ ps, 0 < p.width ∧ P ≤ p.width ∧ p.width + P ≤ 1000000)
    (hgap : ∀ p ∈ ps, 0 < p.gap ∧ P ≤ p.gap) (hxs : Sampled Sample.timerUs P (u :: xs))
    (hu : t ≤ u.timerUs ∧ u.timerUs < t + P) (hpos : 0 ≤ u.timerUs) (hsees : Sees t ps xs)
    (hz : z ∈ xs) (hlast : endTime t ps + P ≤ z.timerUs) :
    ∃ v qs, List.Forall₂ (Alike (Measured P)) ps qs ∧
      SampledTrain P u.currentTime xs z v (endTime t ps) qs := by
  induction ps generalizing t u xs with
  | nil => exact ⟨u, [], .nil, [], xs, rfl, hz, ⟨hu.1, hu.2, hpos⟩, hsees, rfl, .refl _⟩
  | cons p ps ih =>
      have hp := hwidth p List.mem_cons_self
      have hg := hgap p List.mem_cons_self
      have hwidth' := fun q (hq : q ∈ ps) => hwidth q (List.mem_cons_of_mem p hq)
      have hgap' := fun q (hq : q ∈ ps) => hgap q (List.mem_cons_of_mem p hq)
      have hproper : Proper ps := fun q hq => ⟨(hgap' q hq).1, (hwidth' q hq).1⟩
      have hend : t + p.gap + p.width ≤ endTime (t + p.gap + p.width) ps :=
        le_endTime fun q hq => ⟨(hproper q hq).1.le, (hproper q hq).2.le⟩
      simp only [endTime] at hlast ⊢
      rcases marks_sampled_pulse (τ := u.currentTime) hp.1 hp.2.1 hp.2.2
        (fun q hq => (hgap' q (List.mem_of_mem_head? hq)).2) hproper hxs (by omega) hpos hsees
        ⟨z, hz, by omega⟩ with
        ⟨a, b, before, rest, rfl, ha, hb, hrest, hbefore, hsees', hstate, htoks⟩
      have hzrest := mem_later hz hbefore (by omega)
      have hbpos : 0 ≤ b.timerUs := by omega
      -- `b` sees the falling edge, and the next gap is measured from it
      rcases ih hwidth' hgap' hrest hb hbpos hsees' hzrest hlast with ⟨v, qs, hqs, hsampled⟩
      have hgapm := measured_of_times hu ⟨ha.1, ha.2.1⟩ hpos ha.2.2
      have hwidthm := measured_of_times ⟨ha.1, ha.2.1⟩ hb ha.2.2 hbpos
      have hX : t + p.gap - t = p.gap := by omega
      have hY : t + p.gap + p.width - (t + p.gap) = p.width := by omega
      rw [hX] at hgapm
      rw [hY] at hwidthm
      exact ⟨v, _, .cons ⟨hgapm, hwidthm⟩ hqs, hsampled.cons hstate htoks⟩

/-- The samples of a train that starts in the dark: its first gap is not measured. -/
theorem marks_sampled_first {P t τ : Int} {p : Pulse} {ps : List Pulse} {u z : Sample}
    {xs : List Sample} (hvis : Visible P (p :: ps)) (hxs : Sampled Sample.timerUs P (u :: xs))
    (hu : u.timerUs < t + p.gap) (hpos : 0 ≤ u.timerUs) (hsees : Sees t (p :: ps) xs)
    (hz : z ∈ xs) (hlast : endTime t (p :: ps) + P ≤ z.timerUs) :
    ∃ v qs, AlikeTrain (Measured P) (p :: ps) qs ∧
      SampledTrain P τ xs z v (endTime t (p :: ps)) qs := by
  have hp := hvis.1 p List.mem_cons_self
  have hwidth' := fun q (hq : q ∈ ps) => hvis.1 q (List.mem_cons_of_mem p hq)
  have hgap' := hvis.2
  have hproper : Proper ps := fun q hq => ⟨(hgap' q hq).1, (hwidth' q hq).1⟩
  have hend : t + p.gap + p.width ≤ endTime (t + p.gap + p.width) ps :=
    le_endTime fun q hq => ⟨(hproper q hq).1.le, (hproper q hq).2.le⟩
  have hP : 0 ≤ P := by
    cases xs with
    | nil => simp at hz
    | cons x xs =>
        have := (List.isChain_cons_cons.1 hxs).1
        omega
  simp only [endTime] at hlast ⊢
  rcases marks_sampled_pulse (τ := τ) hp.1 hp.2.1 hp.2.2
    (fun q hq => (hgap' q (List.mem_of_mem_head? hq)).2) hproper hxs hu hpos hsees
    ⟨z, hz, by omega⟩ with
    ⟨a, b, before, rest, rfl, ha, hb, hrest, hbefore, hsees', hstate, htoks⟩
  have hzrest := mem_later hz hbefore (by omega)
  have hbpos : 0 ≤ b.timerUs := by omega
  rcases marks_sampled_train hwidth' hgap' hrest hb hbpos hsees' hzrest hlast with
    ⟨v, qs, hqs, hsampled⟩
  have hwidthm := measured_of_times ⟨ha.1, ha.2.1⟩ hb ha.2.2 hbpos
  have hY : t + p.gap + p.width - (t + p.gap) = p.width := by omega
  rw [hY] at hwidthm
  exact ⟨v, ⟨a.currentTime - τ, b.currentTime - a.currentTime⟩ :: qs, ⟨hwidthm, hqs⟩,
    hsampled.cons hstate htoks⟩

/-! ## Telling lengths apart -/

/-- A nominal length in microseconds and a measure in milliseconds that is less than
half a unit off. -/
def Coarse (g d : Int) : Prop := -50000 < 1000 * d - g ∧ 1000 * d - g < 50000

/-- The separator that a dark run of `g` units prints. A run of ten units is at the
timeout, and prints this one or a space. -/
def turnSep (g : Int) : CString := if g = 3 then [] else if g ≤ 7 then [space] else [newline]

/-- The separators that a dark run of `g` units may print. -/
def TurnSep (g : Int) (sep : CString) : Prop := sep = turnSep g ∨ (g = 10 ∧ sep = [space])

/-- Ten units or more print a space or a newline. -/
theorem turnSep_cases {g : Int} {sep : CString} (hg : 10 ≤ g) (h : TurnSep g sep) :
    sep = [space] ∨ sep = [newline] := by
  rcases h with rfl | ⟨-, rfl⟩
  · right
    rw [turnSep, if_neg (by omega), if_neg (by omega)]
  · left
    rfl

theorem gapSep_early {d : Int} (hlo : -1000 ≤ d) (hhi : d ≤ timeoutMs) :
    gapSep d = gapBreak d := by
  have hint : toInt d = d := by
    simp only [timeoutMs] at hhi
    exact toInt_of_range (by omega) (by omega)
  rw [gapSep, timeoutBreak, if_neg (by omega), hint]
  rfl

theorem gapSep_late {d : Int} (h : timeoutMs < d) : gapSep d = some [newline] := by
  rw [gapSep, timeoutBreak, if_pos h]
  rfl

/-- Dots, dashes and symbol gaps are told apart. -/
theorem coarse_reads : Reads Coarse Lab51.dotDuration gapSep widthSymbol := by
  have hint : ∀ d : Int, -1000 ≤ d → d ≤ 1000 → toInt d = d :=
    fun d hlo hhi => toInt_of_range (by omega) (by omega)
  refine ⟨?_, ?_, ?_⟩
  · rintro d ⟨hlo, hhi⟩
    simp only [Lab51.dotDuration] at hlo hhi
    rw [widthSymbol, hint d (by omega) (by omega), pulseSymbol, dashMinDuration, dotDuration,
      if_neg (by omega), if_pos (by omega)]
  · rintro d ⟨hlo, hhi⟩
    simp only [Lab51.dotDuration] at hlo hhi
    rw [widthSymbol, hint d (by omega) (by omega), pulseSymbol, dashMinDuration,
      if_pos (by omega)]
  · rintro d ⟨hlo, hhi⟩
    simp only [Lab51.dotDuration] at hlo hhi
    rw [gapSep_early (by omega) (by simp only [timeoutMs]; omega), gapBreak, wordGapMin,
      letterGapMin, if_neg (by omega), if_neg (by omega)]

/-- Letter gaps, word gaps and longer gaps are told apart, except for ten units. -/
theorem coarse_separates {g : Int} (hg : g = 3 ∨ g = 7 ∨ 10 ≤ g) {d : Int}
    (hd : Coarse (g * Lab51.dotDuration) d) : ∃ b, gapSep d = some b ∧ TurnSep g b := by
  rcases hd with ⟨hlo, hhi⟩
  simp only [Lab51.dotDuration] at hlo hhi
  rcases hg with rfl | rfl | hg
  · refine ⟨[], ?_, Or.inl rfl⟩
    rw [gapSep_early (by omega) (by simp only [timeoutMs]; omega), gapBreak, wordGapMin,
      letterGapMin, if_neg (by omega), if_pos (by omega)]
  · refine ⟨[space], ?_, Or.inl rfl⟩
    rw [gapSep_early (by omega) (by simp only [timeoutMs]; omega), gapBreak, wordGapMin,
      if_pos (by omega)]
  · have hturn : turnSep g = [newline] := by
      rw [turnSep, if_neg (by omega), if_neg (by omega)]
    by_cases hlate : timeoutMs < d
    · exact ⟨[newline], gapSep_late hlate, Or.inl hturn.symm⟩
    · -- only ten units are short enough for a space
      simp only [timeoutMs] at hlate
      refine ⟨[space], ?_, Or.inr ⟨by omega, rfl⟩⟩
      rw [gapSep_early (by omega) (by simp only [timeoutMs]; omega), gapBreak, wordGapMin,
        if_pos (by omega)]

/-! ## What is printed -/

/-- The samples watch a transmission: the first one is before its light, they are at
most `P` apart, and the last one is `idle` after its end. -/
structure Watches (P t idle : Int) (ps : List Pulse) (xs : List Sample) : Prop where
  sampled : Sampled Sample.timerUs P xs
  first : ∀ x ∈ xs.head?, 0 ≤ x.timerUs ∧ ∀ p ∈ ps.head?, x.timerUs < t + p.gap
  sees : Sees t ps xs
  last : ∃ z ∈ xs, endTime t ps + idle ≤ z.timerUs

/-- Samples at bounded distances are a run. -/
theorem run_sampled {P : Int} {xs : List Sample} (h : Sampled Sample.timerUs P xs)
    (hfirst : ∀ x ∈ xs.head?, 0 ≤ x.timerUs) : Run xs := by
  have horder : (xs.map Sample.timerUs).Pairwise (· ≤ ·) := by
    rw [← List.isChain_iff_pairwise, List.isChain_map]
    exact h.imp fun _ _ hab => hab.1
  refine ⟨horder, ?_⟩
  cases xs with
  | nil => simp
  | cons u xs =>
      have hu := hfirst u rfl
      intro x hx
      rcases List.mem_cons.1 hx with rfl | hx
      · exact hu
      · exact le_trans hu (sampled_le h x hx)

theorem Watches.run {P t idle : Int} {ps : List Pulse} {xs : List Sample}
    (h : Watches P t idle ps xs) : Run xs :=
  run_sampled h.sampled fun x hx => (h.first x hx).1

/-- Watching for longer is watching. -/
theorem Watches.mono {P t idle idle' : Int} {ps : List Pulse} {xs : List Sample}
    (h : Watches P t idle ps xs) (hidle : idle' ≤ idle) : Watches P t idle' ps xs := by
  rcases h.last with ⟨z, hz, hlate⟩
  exact ⟨h.sampled, h.first, h.sees, z, hz, by omega⟩

/-- The line of text of one copy of a message. -/
def lineText (message : CString) : CString :=
  match letters 0 message with
  | [] => []
  | l :: ls => toupper l.char :: spelled turnSep ls

/-- The light close to a train of lab 5.1 is visible to the samples. -/
theorem visible_train {e P : Int} (heP : e + P ≤ 49000) (hP : 0 ≤ P) {l : Letter}
    {ls : List Letter} (hl : isLetter l.char = true) (hls : ∀ l' ∈ ls, 1 ≤ l'.gap)
    {ps : List Pulse} (hps : AlikeTrain (Within e) (train Lab51.dotDuration (l :: ls)) ps) :
    Visible P ps := by
  have hwidth := train_width (u := Lab51.dotDuration) (by decide) (l :: ls)
  have hgap := train_gap (u := Lab51.dotDuration) (by decide) hl hls
  simp only [Lab51.dotDuration] at hwidth hgap hps
  cases ps with
  | nil => exact ⟨by simp, by simp⟩
  | cons q qs =>
      cases htrain : train 100000 (l :: ls) with
      | nil =>
          rw [htrain] at hps
          exact hps.elim
      | cons p ps =>
          rw [htrain] at hps hwidth hgap
          -- every later pulse is close to one of the train
          rcases List.forall₂_iff_get.1 hps.2 with ⟨hlen, hget⟩
          have hrest : ∀ q' ∈ qs, ∃ p' ∈ ps, Alike (Within e) p' q' := by
            intro q' hq'
            rcases List.get_of_mem hq' with ⟨⟨i, hi⟩, rfl⟩
            exact ⟨_, List.get_mem ps ⟨i, hlen ▸ hi⟩, hget i (hlen ▸ hi) hi⟩
          constructor
          · intro q' hq'
            rcases List.mem_cons.1 hq' with rfl | hq'
            · have hp := hwidth p List.mem_cons_self
              have hwithin := hps.1
              simp only [Within] at hwithin
              omega
            · rcases hrest q' hq' with ⟨p', hp', -, hwithin⟩
              have hp := hwidth p' (List.mem_cons_of_mem p hp')
              simp only [Within] at hwithin
              omega
          · intro q' hq'
            rcases hrest q' hq' with ⟨p', hp', hwithin, -⟩
            have hp := hgap p' hp'
            simp only [Within] at hwithin
            omega

/-- A measured train and a late sample in the dark: the tokens of the train, and the
break of the timeout. -/
theorem marks_watched {P t : Int} (hP : 0 ≤ P) {ps : List Pulse} (hne : ps ≠ [])
    (hvis : Visible P ps) {xs : List Sample} (hxs : Watches P t (1002000 + 2 * P) ps xs) :
    ∃ qs, AlikeTrain (Measured P) ps qs ∧
      Segment.Same (marks.out ⟨false, 0⟩ xs)
        (trainTokens gapSep widthSymbol qs ++ [.brk [newline]]) := by
  rcases hxs.last with ⟨z, hz, hzlast⟩
  obtain ⟨u, xs, rfl⟩ := List.exists_cons_of_ne_nil (List.ne_nil_of_mem hz)
  obtain ⟨p, ps, rfl⟩ := List.exists_cons_of_ne_nil hne
  have hu := hxs.first u rfl
  -- the first sample may be taken for the one before it
  have hsampled : Sampled Sample.timerUs P (u :: u :: xs) :=
    List.isChain_cons_cons.2 ⟨⟨le_refl _, by omega⟩, hxs.sampled⟩
  rcases marks_sampled_first (τ := 0) hvis hsampled (hu.2 p rfl) (by omega) hxs.sees hz
    (by omega) with
    ⟨v, qs, hqs, before, rest, hsplit, hzrest, hv, hdark, hstate, htoks⟩
  have hzpos : 0 ≤ z.timerUs := by omega
  have hlate : timeoutMs < z.currentTime - v.currentTime := by
    rw [currentTime_of_nonneg hzpos, currentTime_of_nonneg hv.2.2, timeoutMs]
    omega
  refine ⟨qs, hqs, ?_⟩
  rw [hsplit, Transducer.out_append, hstate]
  exact htoks.append (marks_end v.currentTime hdark hzrest hlate)

/-- The state of the task when it waits for a transmission. -/
def Waiting (s : Receiver CharBuffer) : Prop :=
  Reachable s ∧ s.lightOn = false ∧ s.buffer.morseIdx = 0

/-- The task starts waiting. -/
theorem waiting_start (junk : Vector UInt8 10) : Waiting (start junk) :=
  ⟨⟨junk, [], rfl⟩, rfl, rfl⟩

/-- A measured train of letters and a break print the letters, each closed by its
separator. -/
theorem closed_letters {l : Letter} {ls : List Letter} (hl : isLetter l.char = true)
    (hls : ∀ l' ∈ ls, isLetter l'.char = true ∧ (l'.gap = 3 ∨ l'.gap = 7 ∨ 10 ≤ l'.gap))
    {qs : List Pulse} (hqs : AlikeTrain Coarse (train Lab51.dotDuration (l :: ls)) qs)
    {s : Receiver CharBuffer} (hs : Waiting s) {xs : List Sample}
    (hrun : Run xs) {sep : CString}
    (hsame : Segment.Same (marks.out ⟨false, 0⟩ xs)
      (trainTokens gapSep widthSymbol qs ++ [.brk sep])) :
    ∃ ks, List.Forall₂ (fun l k => TurnSep l.gap k.1 ∧ k.2 = codeOf l.char) ls ks ∧
      text (morseReceiverTask.out s xs) = toupper l.char :: printedLetters ks ++ sep := by
  rcases hs with ⟨hreach, hdark, hidle⟩
  have hall : ∀ l' ∈ l :: ls, isLetter l'.char = true := by
    intro l' hl'
    rcases List.mem_cons.1 hl' with rfl | hl'
    · exact hl
    · exact (hls l' hl').1
  rcases coarse_reads.train TurnSep hall
    (fun l' hl' d hd => coarse_separates (hls l' hl').2 hd) hqs with
    ⟨q, qs', ks, rfl, htoks, hrel⟩
  refine ⟨ks, hrel, ?_⟩
  have htext := boot_text (hreach.holds_nil hidle) hdark hrun
  have hread := letters_text TurnSep hl (fun l' hl' => (hls l' hl').1) hrel
  -- with nothing pending, the break before the first letter does nothing
  have hbrk : Segment.segmenter.state [] (Segment.optBrk (gapSep q.gap)) = ([] : CString) ∧
      Segment.segmenter.out [] (Segment.optBrk (gapSep q.gap)) =
        ([] : List (CString × CString)) := by
    cases gapSep q.gap <;> exact ⟨rfl, rfl⟩
  rw [htext, (hsame []).1, htoks, Transducer.out_append, Transducer.out_append, hbrk.2,
    Transducer.state_append, hbrk.1, List.nil_append, Transducer.out_cons, Transducer.out_nil,
    Segment.step_brk hread.1, List.flatMap_append, ← hread.2]
  simp [printed]

/-- Jitter of the light and error of the sampling together. -/
theorem coarse_of_measured {e P : Int} (heP : e + P ≤ 49000) {ns ps qs : List Pulse}
    (hps : AlikeTrain (Within e) ns ps) (hqs : AlikeTrain (Measured P) ps qs) :
    AlikeTrain Coarse ns qs := by
  refine alikeTrain_comp ?_ hps hqs
  rintro g b d ⟨hlo, hhi⟩ ⟨hlo', hhi'⟩
  exact ⟨by omega, by omega⟩

/-- The run of the task on samples that watch letters: the last letter is closed by a
newline. -/
theorem watched_letters {e P t : Int} (heP : e + P ≤ 49000) (hP : 0 ≤ P) {l : Letter}
    {ls : List Letter} (hl : isLetter l.char = true)
    (hls : ∀ l' ∈ ls, isLetter l'.char = true ∧ (l'.gap = 3 ∨ l'.gap = 7 ∨ 10 ≤ l'.gap))
    {ps : List Pulse} (hps : AlikeTrain (Within e) (train Lab51.dotDuration (l :: ls)) ps)
    {xs : List Sample} (hxs : Watches P t (1002000 + 2 * P) ps xs) {s : Receiver CharBuffer}
    (hs : Waiting s) :
    ∃ ks, List.Forall₂ (fun l k => TurnSep l.gap k.1 ∧ k.2 = codeOf l.char) ls ks ∧
      text (morseReceiverTask.out s xs) = toupper l.char :: printedLetters ks ++ [newline] := by
  have hgaps : ∀ l' ∈ ls, 1 ≤ l'.gap := by
    intro l' hl'
    have := (hls l' hl').2
    omega
  have hne : ps ≠ [] := by
    rintro rfl
    cases htrain : train Lab51.dotDuration (l :: ls) with
    | nil => exact train_ne_nil hl ls htrain
    | cons p ps =>
        rw [htrain] at hps
        exact hps
  rcases marks_watched hP hne (visible_train heP hP hl hgaps hps) hxs with ⟨qs, hqs, hsame⟩
  exact closed_letters hl hls (coarse_of_measured heP hps hqs) hs hxs.run hsame

/-! ## Copies of a message -/

/-- Apart from runs of ten units, what is printed is fixed. -/
theorem turnSep_spelled {ls : List Letter} (hls : ∀ l ∈ ls, isLetter l.char = true ∧ l.gap ≠ 10)
    {ks : List (CString × CString)}
    (h : List.Forall₂ (fun l k => TurnSep l.gap k.1 ∧ k.2 = codeOf l.char) ls ks) :
    printedLetters ks = spelled turnSep ls := by
  apply printedLetters_spelled
  · intro l hl
    exact (hls l hl).1
  · refine List.Forall₂.imp ?_ ((List.forall₂_and_left ls ks).2 ⟨hls, h⟩)
    rintro l k ⟨⟨-, hne⟩, hsep, hcode⟩
    rcases hsep with hsep | ⟨hten, -⟩
    · exact ⟨hsep, hcode⟩
    · exact absurd hten hne

/-- Copies of the letters of a message are printed as copies of its line, each closed by
a separator that its gap allows. -/
theorem copies_text {g : Int} {c : UInt8} (hc : isLetter c = true) {inner : List Letter}
    (hinner : ∀ l ∈ inner, isLetter l.char = true ∧ l.gap ≠ 10) {body : CString}
    (hbody : toupper c :: spelled turnSep inner = body) {n : Nat} {ks : List (CString × CString)}
    (h : List.Forall₂ (fun l k => TurnSep l.gap k.1 ∧ k.2 = codeOf l.char)
      (inner ++ (List.replicate n (⟨g, c⟩ :: inner)).flatten) ks) :
    ∃ seps : List CString, seps.length = n ∧ (∀ sep ∈ seps, TurnSep g sep) ∧
      toupper c :: printedLetters ks ++ [newline] =
        (seps ++ [[newline]]).flatMap fun sep => body ++ sep := by
  induction n generalizing ks with
  | zero =>
      rw [List.replicate_zero, List.flatten_nil, List.append_nil] at h
      refine ⟨[], rfl, by simp, ?_⟩
      simp [turnSep_spelled hinner h, ← hbody]
  | succ n ih =>
      rw [List.replicate_succ, List.flatten_cons] at h
      rcases forall₂_append h with ⟨ks₁, ks₂, rfl, h₁, h₂⟩
      rw [List.cons_append] at h₂
      rcases List.forall₂_cons_left_iff.1 h₂ with ⟨k, ks₃, ⟨hsep, hcode⟩, h₃, rfl⟩
      rcases ih h₃ with ⟨seps, hlen, hseps, htext⟩
      refine ⟨k.1 :: seps, by simp [hlen], ?_, ?_⟩
      · intro sep hs
        rcases List.mem_cons.1 hs with rfl | hs
        · exact hsep
        · exact hseps sep hs
      · -- the gap before a copy closes the copy before it
        have hdec : Lab52.decodeMorse k.2 = toupper c := hcode ▸ (codeOf_spec c hc).2.2.2.2
        have hprinted : printedLetters (ks₁ ++ k :: ks₃) =
            spelled turnSep inner ++ k.1 ++ toupper c :: printedLetters ks₃ := by
          rw [← turnSep_spelled hinner h₁, ← hdec]
          simp [printedLetters]
        rw [hprinted]
        change _ = (k.1 :: (seps ++ [[newline]])).flatMap fun sep => body ++ sep
        rw [List.flatMap_cons, ← htext, ← hbody]
        simp

/-- The units of darkness between two copies of a message. -/
def copyGap (message : CString) : Int :=
  gapAfter 3 message + 7 + ((letters 0 message).head?.map Letter.gap).getD 0

/-- Whatever the jitter of the light and the phase of the sampling within the margins,
copies of a message are printed as copies of one line of text. -/
theorem watched_copies {message : CString} (hletter : HasLetter message) {n : Nat} {e P t : Int}
    (heP : e + P ≤ 49000) (hP : 0 ≤ P) {ps : List Pulse}
    (hps : AlikeTrain (Within e) (pulses 0 (Lab51.main (n + 1) message)) ps) {xs : List Sample}
    (hxs : Watches P t (1002000 + 2 * P) ps xs) {s : Receiver CharBuffer} (hs : Waiting s) :
    ∃ seps : List CString, seps.length = n ∧ (∀ sep ∈ seps, TurnSep (copyGap message) sep) ∧
      text (morseReceiverTask.out s xs) =
        (seps ++ [[newline]]).flatMap fun sep => lineText message ++ sep := by
  rcases transmission_shape hletter with ⟨k, c, inner, hk, hc, hls, hinner, htrans⟩
  have hzero : letters 0 message = ⟨k, c⟩ :: inner := by rw [hls 0, Int.zero_add]
  have hgap : copyGap message = gapAfter 3 message + 7 + k := by simp [copyGap, hzero]
  have hbody : toupper c :: spelled turnSep inner = lineText message := by
    rw [lineText, hzero]
  have hmin := gapAfter_min message
  rw [Lab51.main_pulses, htrans] at hps
  have hcopies := copies_forall
    (fun l => isLetter l.char = true ∧ (l.gap = 3 ∨ l.gap = 7 ∨ 10 ≤ l.gap))
    ⟨gapAfter 3 message + 7 + k, c⟩ ⟨hc, by simp only; omega⟩
    (fun l hl => ⟨(hinner l hl).1, by have := (hinner l hl).2; omega⟩) n
  rcases watched_letters heP hP (l := ⟨k, c⟩) hc hcopies hps hxs hs with
    ⟨ks, hks, htext⟩
  have hfixed : ∀ l ∈ inner, isLetter l.char = true ∧ l.gap ≠ 10 := by
    intro l hl
    have := hinner l hl
    exact ⟨this.1, by omega⟩
  rcases copies_text hc hfixed hbody hks with ⟨seps, hlen, hseps, hprinted⟩
  exact ⟨seps, hlen, hgap ▸ hseps, htext.trans hprinted⟩

/-- At least ten units of darkness come between two copies. -/
theorem copyGap_min {message : CString} (h : HasLetter message) : 10 ≤ copyGap message := by
  rcases letters_shape h with ⟨k, c, inner, hk, -, hls, -⟩
  have hmin := gapAfter_min message
  simp only [copyGap, hls, List.head?_cons, Option.map_some, Option.getD_some]
  omega

/-- A message with single spaces between its letters, sent `n` times by lab 5.1, is
printed by lab 5.2 as `n` copies of its trimmed text, each followed by one separator, a
space or a newline, and the last one by a newline: for every light close to the
sender's, and every sampling that is not too coarse and goes on after the end. -/
theorem sampled_link {message : CString} (hletter : HasLetter message)
    (hsingle : SingleSpaced message) {n : Nat} (hn : 1 ≤ n) {e P t : Int} (heP : e + P ≤ 49000)
    (hP : 0 ≤ P) {ps : List Pulse}
    (hps : AlikeTrain (Within e) (pulses 0 (Lab51.main n message)) ps) {xs : List Sample}
    (hxs : Watches P t (timeoutMs * 1000 + 2 * P + 2000) ps xs) {s : Receiver CharBuffer}
    (hs : Waiting s) :
    ∃ seps : List CString, seps.length = n ∧ (∀ sep ∈ seps, sep = [space] ∨ sep = [newline]) ∧
      seps.getLast? = some [newline] ∧
      text (morseReceiverTask.out s xs) = seps.flatMap fun sep => trimmed message ++ sep := by
  obtain ⟨n, rfl⟩ : ∃ m, n = m + 1 := ⟨n - 1, by omega⟩
  have hidle : timeoutMs * 1000 + 2 * P + 2000 = 1002000 + 2 * P := by
    simp only [timeoutMs]
    omega
  rw [hidle] at hxs
  rcases watched_copies hletter heP hP hps hxs hs with ⟨seps, hlen, hseps, htext⟩
  have hline : lineText message = trimmed message := by
    rcases letters_shape hletter with ⟨k, c, inner, -, -, hls, -⟩
    have h3 : turnSep 3 = [] := rfl
    have h7 : turnSep 7 = [space] := rfl
    rw [lineText, hls 0]
    exact (spelled_trimmed h3 h7 hsingle hls).1
  have hmin := copyGap_min hletter
  refine ⟨seps ++ [[newline]], by simp [hlen], ?_, by simp, hline ▸ htext⟩
  intro sep hsep
  rcases List.mem_append.1 hsep with hsep | hsep
  · exact turnSep_cases hmin (hseps sep hsep)
  · exact Or.inr (List.mem_singleton.1 hsep)

/-- What the task sees of a light at a distance of 48.5 ms. -/
def watch (t : Int) (ps : List Pulse) (n : Nat) : List Sample :=
  (List.range n).map fun i => ⟨if lit 0 ps (t + 48500 * i) then 40 else 0, t + 48500 * i⟩

/-- `A E` twice, by a light that is up to half a millisecond off. -/
def lightAE : List Pulse :=
  [⟨2050000, 100400⟩, ⟨99800, 300300⟩, ⟨700500, 99600⟩, ⟨1000100, 100000⟩, ⟨100000, 299900⟩,
    ⟨700000, 100000⟩]

/-- The task has seen an `E` before. -/
theorem sampled_link_ae :
    ∃ seps : List CString, seps.length = 2 ∧ (∀ sep ∈ seps, sep = [space] ∨ sep = [newline]) ∧
      seps.getLast? = some [newline] ∧
      text (morseReceiverTask.out
          (morseReceiverTask.state (start (Vector.replicate 10 0))
            (watch 1000 [⟨50000, 100000⟩] 30))
          (watch 2000000 lightAE 100)) =
        seps.flatMap fun sep => bytes "A E" ++ sep := by
  have hpulses : pulses 0 (Lab51.main 2 (bytes "a e")) =
      [⟨0, 100000⟩, ⟨100000, 300000⟩, ⟨700000, 100000⟩, ⟨1000000, 100000⟩, ⟨100000, 300000⟩,
        ⟨700000, 100000⟩] := by decide
  have hclose : AlikeTrain (Within 500) (pulses 0 (Lab51.main 2 (bytes "a e"))) lightAE := by
    rw [hpulses]
    unfold AlikeTrain lightAE Alike Within
    decide
  have hwatches : Watches 48500 0 (timeoutMs * 1000 + 2 * 48500 + 2000) lightAE
      (watch 2000000 lightAE 100) := by
    refine ⟨?_, ?_, ?_, ?_⟩
    · unfold Sampled
      decide +kernel
    · rintro x ⟨⟩
      exact ⟨by decide, by rintro p ⟨⟩; decide⟩
    · unfold Sees
      decide +kernel
    · decide +kernel
  have hwaiting : Waiting (morseReceiverTask.state (start (Vector.replicate 10 0))
      (watch 1000 [⟨50000, 100000⟩] 30)) :=
    ⟨⟨_, _, rfl⟩, by decide +kernel, by decide +kernel⟩
  have htrimmed : trimmed (bytes "a e") = bytes "A E" := by decide
  rw [← htrimmed]
  exact sampled_link (by decide) (by decide) (by decide) (by decide) (by decide) hclose hwatches
    hwaiting

end Cse121.Lab52
