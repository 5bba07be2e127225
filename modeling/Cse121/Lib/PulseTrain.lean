import Cse121.Lib.Transducer
import Mathlib.Data.List.Chain
import Mathlib.Tactic.Ring

/-! # Pulse trains

A line that is on or off is described by its ON runs, each with the OFF run
before it. A keyer (a program that sets the line and waits) produces a train; an
observer sees it as edges with some jitter, or by looking at the line at sampling
instants. Times are integers in any fixed unit.
-/

/-- One ON run of a line, with the OFF run before it. -/
structure Pulse where
  gap : Int
  width : Int
deriving DecidableEq, Repr

/-- An instant at which a line changes. -/
structure Edge where
  time : Int
  rising : Bool
deriving DecidableEq, Repr

/-- What a program does to a line: set it, or wait. -/
inductive Key where
  | set (on : Bool)
  | wait (d : Int)
deriving DecidableEq, Repr

/-- The same on a line with the levels exchanged. -/
def Key.flip : Key → Key
  | .set on => .set !on
  | .wait d => .wait d

namespace PulseTrain

/-! ## Keying a line -/

/-- A line being keyed: its level, the time spent at that level, and (while it is
on) the length of the OFF run before. -/
structure Line where
  on : Bool
  elapsed : Int
  gap : Int
deriving DecidableEq, Repr

/-- A line that has been off for `g`. -/
def Line.off (g : Int) : Line := ⟨false, g, 0⟩

/-- The keyer: a pulse is emitted when it ends. Setting the line to the level it
has changes nothing, so the runs are maximal. -/
def keyer : Transducer Line Key Pulse where
  step
    | s, .wait d => ({ s with elapsed := s.elapsed + d }, [])
    | ⟨false, t, _⟩, .set true => (⟨true, 0, t⟩, [])
    | ⟨true, t, g⟩, .set false => (⟨false, 0, 0⟩, [⟨g, t⟩])
    | s, .set _ => (s, [])

/-- One pulse: on, wait, off, wait. -/
theorem keyer_pulse (g w d : Int) :
    keyer.out (.off g) [.set true, .wait w, .set false, .wait d] = [⟨g, w⟩] ∧
      keyer.state (.off g) [.set true, .wait w, .set false, .wait d] = .off d := by
  constructor <;> simp [keyer, Line.off]

/-- Waiting with the line off only makes the gap longer. -/
theorem keyer_wait (g d : Int) :
    keyer.out (.off g) [.wait d] = [] ∧ keyer.state (.off g) [.wait d] = .off (g + d) :=
  ⟨rfl, rfl⟩

/-- Switching a line off that is off does nothing. -/
theorem keyer_off (g : Int) :
    keyer.out (.off g) [.set false] = [] ∧ keyer.state (.off g) [.set false] = .off g :=
  ⟨rfl, rfl⟩

/-! ## Level runs -/

/-- The runs of a line that has been at level `on` for `d`: each level and how long it
lasts, equal levels in a row merged. A level counts also where nobody waits on it. -/
def runsFrom : Bool → Int → List Key → List (Bool × Int)
  | on, d, [] => [(on, d)]
  | on, d, .wait d' :: ks => runsFrom on (d + d') ks
  | on, d, .set on' :: ks =>
    if on' = on then runsFrom on d ks else (on, d) :: runsFrom on' 0 ks

/-- The runs of a keyed line, from where it is first set. -/
def runs : List Key → List (Bool × Int)
  | [] => []
  | .set on :: ks => runsFrom on 0 ks
  | .wait _ :: ks => runs ks

/-- A line begins at the level that it is at. -/
theorem runsFrom_head (on : Bool) (d : Int) (ks : List Key) :
    ((runsFrom on d ks).map Prod.fst).head? = some on := by
  induction ks generalizing d with
  | nil => rfl
  | cons k ks ih =>
      cases k with
      | wait d' => exact ih (d + d')
      | set on' =>
          rw [runsFrom]
          split
          · exact ih d
          · rfl

theorem runsFrom_flip (on : Bool) (d : Int) (ks : List Key) :
    runsFrom (!on) d (ks.map Key.flip) = (runsFrom on d ks).map fun r => (!r.1, r.2) := by
  induction ks generalizing on d with
  | nil => rfl
  | cons k ks ih =>
      cases k with
      | wait d' => exact ih on (d + d')
      | set on' =>
          have hlevel : (!on') = (!on) ↔ on' = on := Bool.not_inj_iff
          simp only [List.map_cons, Key.flip, runsFrom, hlevel]
          split
          · exact ih on d
          · rw [List.map_cons, ih]

/-- A line keyed the other way round has the opposite runs. -/
theorem runs_flip (ks : List Key) :
    runs (ks.map Key.flip) = (runs ks).map fun r => (!r.1, r.2) := by
  induction ks with
  | nil => rfl
  | cons k ks ih =>
      cases k with
      | set on => exact runsFrom_flip on 0 ks
      | wait d => exact ih

/-! ## Edges and jitter -/

/-- The edges of a train that starts, with its first gap, at time `t`. -/
def edges : Int → List Pulse → List Edge
  | _, [] => []
  | t, p :: ps =>
      ⟨t + p.gap, true⟩ :: ⟨t + p.gap + p.width, false⟩ :: edges (t + p.gap + p.width) ps

/-- The time of the last falling edge of a train that starts at time `t`. -/
def endTime : Int → List Pulse → Int
  | t, [] => t
  | t, p :: ps => endTime (t + p.gap + p.width) ps

/-- A train does not end before it starts. -/
theorem le_endTime {t : Int} {ps : List Pulse} (hps : ∀ p ∈ ps, 0 ≤ p.gap ∧ 0 ≤ p.width) :
    t ≤ endTime t ps := by
  induction ps generalizing t with
  | nil => exact le_refl t
  | cons p ps ih =>
      have hp := hps p List.mem_cons_self
      have hrest := ih (t := t + p.gap + p.width) fun q hq => hps q (List.mem_cons_of_mem p hq)
      simp only [endTime]
      omega

/-- Two lengths that differ by at most `d`. -/
def Within (d a b : Int) : Prop := -d ≤ b - a ∧ b - a ≤ d

/-- Two pulses whose runs are related by `R`. -/
def Alike (R : Int → Int → Prop) (p q : Pulse) : Prop := R p.gap q.gap ∧ R p.width q.width

/-- Two trains whose runs are related by `R`, the gap before the first pulse left
free. -/
def AlikeTrain (R : Int → Int → Prop) : List Pulse → List Pulse → Prop
  | [], [] => True
  | p :: ps, q :: qs => R p.width q.width ∧ List.Forall₂ (Alike R) ps qs
  | _, _ => False

/-- A list related to two lists in a row falls into two parts. -/
theorem forall₂_append {α β : Type*} {R : α → β → Prop} {xs ys : List α} {zs : List β}
    (h : List.Forall₂ R (xs ++ ys) zs) :
    ∃ zs₁ zs₂, zs = zs₁ ++ zs₂ ∧ List.Forall₂ R xs zs₁ ∧ List.Forall₂ R ys zs₂ := by
  refine ⟨zs.take xs.length, zs.drop xs.length, (List.take_append_drop _ zs).symm, ?_, ?_⟩
  · simpa using List.forall₂_take xs.length h
  · simpa using List.forall₂_drop xs.length h

theorem alikeTrain_of_forall₂ {R : Int → Int → Prop} {ps qs : List Pulse}
    (h : List.Forall₂ (Alike R) ps qs) : AlikeTrain R ps qs := by
  cases h with
  | nil => trivial
  | cons hp hps => exact ⟨hp.2, hps⟩

/-- Every train is within any distance of itself. -/
theorem alikeTrain_refl {d : Int} (hd : 0 ≤ d) (ps : List Pulse) : AlikeTrain (Within d) ps ps := by
  have hself : ∀ a : Int, Within d a a := by
    intro a
    unfold Within
    omega
  cases ps with
  | nil => trivial
  | cons p ps =>
      constructor
      · exact hself p.width
      · exact List.forall₂_same.2 fun q _ => ⟨hself q.gap, hself q.width⟩

theorem alike_comp {R S T : Int → Int → Prop} (hT : ∀ a b c, R a b → S b c → T a c)
    {ps qs rs : List Pulse} (h : List.Forall₂ (Alike R) ps qs)
    (h' : List.Forall₂ (Alike S) qs rs) : List.Forall₂ (Alike T) ps rs := by
  induction h generalizing rs with
  | nil =>
      cases h'
      exact .nil
  | cons hp _ ih =>
      rcases List.forall₂_cons_left_iff.1 h' with ⟨r, rs, hr, hrs, rfl⟩
      exact .cons ⟨hT _ _ _ hp.1 hr.1, hT _ _ _ hp.2 hr.2⟩ (ih hrs)

/-- Relations between trains compose. -/
theorem alikeTrain_comp {R S T : Int → Int → Prop} (hT : ∀ a b c, R a b → S b c → T a c)
    {ps qs rs : List Pulse} (h : AlikeTrain R ps qs) (h' : AlikeTrain S qs rs) :
    AlikeTrain T ps rs := by
  cases ps with
  | nil =>
      cases qs with
      | nil =>
          cases rs with
          | nil => trivial
          | cons r rs => exact h'.elim
      | cons q qs => exact h.elim
  | cons p ps =>
      cases qs with
      | nil => exact h.elim
      | cons q qs =>
          cases rs with
          | nil => exact h'.elim
          | cons r rs => exact ⟨hT _ _ _ h.1 h'.1, alike_comp hT h.2 h'.2⟩

/-- `es` is `ideal` with every edge moved by at most `j`. -/
def Jittered (j : Int) (ideal es : List Edge) : Prop :=
  List.Forall₂ (fun e e' => e'.rising = e.rising ∧ -j ≤ e'.time - e.time ∧ e'.time - e.time ≤ j)
    ideal es

/-- Whether the line of a train that starts at time `t` is on at instant `u`. -/
def lit : Int → List Pulse → Int → Bool
  | _, [], _ => false
  | t, p :: ps, u =>
      (decide (t + p.gap ≤ u) && decide (u < t + p.gap + p.width)) ||
        lit (t + p.gap + p.width) ps u

/-- Trains whose runs all have a length. -/
def Proper (ps : List Pulse) : Prop := ∀ p ∈ ps, 0 < p.gap ∧ 0 < p.width

/-- Before the first pulse the line is off. -/
theorem lit_before {t u : Int} {ps : List Pulse} (hps : Proper ps) (hu : u ≤ t) :
    lit t ps u = false := by
  induction ps generalizing t with
  | nil => rfl
  | cons p ps ih =>
      have hp := hps p List.mem_cons_self
      have hrest : lit (t + p.gap + p.width) ps u = false :=
        ih (fun q hq => hps q (List.mem_cons_of_mem p hq)) (by omega)
      simp only [lit, hrest, Bool.or_false, Bool.and_eq_false_iff, decide_eq_false_iff_not]
      omega

theorem lit_gap {t u : Int} {p : Pulse} {ps : List Pulse} (hps : Proper ps) (hw : 0 ≤ p.width)
    (hu : u < t + p.gap) : lit t (p :: ps) u = false := by
  have hrest : lit (t + p.gap + p.width) ps u = false := lit_before hps (by omega)
  simp only [lit, hrest, Bool.or_false, Bool.and_eq_false_iff, decide_eq_false_iff_not]
  omega

theorem lit_pulse {t u : Int} {p : Pulse} {ps : List Pulse} (hlo : t + p.gap ≤ u)
    (hhi : u < t + p.gap + p.width) : lit t (p :: ps) u = true := by
  simp [lit, hlo, hhi]

theorem lit_after {t u : Int} {p : Pulse} {ps : List Pulse} (hu : t + p.gap + p.width ≤ u) :
    lit t (p :: ps) u = lit (t + p.gap + p.width) ps u := by
  have hlt : ¬ u < t + p.gap + p.width := by omega
  simp [lit, hlt]

theorem endTime_append (t : Int) (ps qs : List Pulse) :
    endTime t (ps ++ qs) = endTime (endTime t ps) qs := by
  induction ps generalizing t with
  | nil => rfl
  | cons p ps ih => exact ih (t + p.gap + p.width)

/-- Two trains in a row are lit when one of them is. -/
theorem lit_append (t u : Int) (ps qs : List Pulse) :
    lit t (ps ++ qs) u = (lit t ps u || lit (endTime t ps) qs u) := by
  induction ps generalizing t with
  | nil => rfl
  | cons p ps ih => simp only [List.cons_append, lit, endTime, ih, Bool.or_assoc]

/-! ## Sampling -/

section Sampling

variable {α : Type*} (time : α → Int)

/-- Samples in order of time, each at most `P` after the one before. -/
def Sampled (P : Int) (xs : List α) : Prop :=
  xs.IsChain fun a b => time a ≤ time b ∧ time b ≤ time a + P

variable {time}

/-- Samples never go back in time. -/
theorem sampled_le {P : Int} {u : α} {xs : List α} (h : Sampled time P (u :: xs)) :
    ∀ x ∈ xs, time u ≤ time x := by
  induction xs generalizing u with
  | nil => simp
  | cons a xs ih =>
      have hcons := List.isChain_cons_cons.1 h
      intro x hx
      rcases List.mem_cons.1 hx with rfl | hx
      · exact hcons.1.1
      · exact le_trans hcons.1.1 (ih hcons.2 x hx)

/-- The first sample that is not before `X` comes less than `P` after `X`. -/
theorem sampled_first {P X : Int} {u : α} {xs : List α} (h : Sampled time P (u :: xs))
    (hu : time u < X) (hlast : ∃ z ∈ xs, X ≤ time z) :
    ∃ before a after, xs = before ++ a :: after ∧
      (∀ x ∈ before, time u ≤ time x ∧ time x < X) ∧ (X ≤ time a ∧ time a < X + P) ∧
      Sampled time P (a :: after) := by
  induction xs generalizing u with
  | nil =>
      rcases hlast with ⟨z, hz, -⟩
      simp at hz
  | cons a xs ih =>
      have hcons := List.isChain_cons_cons.1 h
      rcases lt_or_ge (time a) X with haX | haX
      · have hlast' : ∃ z ∈ xs, X ≤ time z := by
          rcases hlast with ⟨z, hz, hXz⟩
          rcases List.mem_cons.1 hz with rfl | hz
          · omega
          · exact ⟨z, hz, hXz⟩
        rcases ih hcons.2 haX hlast' with ⟨before, b, after, rfl, hbefore, hb, hafter⟩
        refine ⟨a :: before, b, after, rfl, ?_, hb, hafter⟩
        intro x hx
        rcases List.mem_cons.1 hx with rfl | hx
        · exact ⟨hcons.1.1, haX⟩
        · exact ⟨le_trans hcons.1.1 (hbefore x hx).1, (hbefore x hx).2⟩
      · exact ⟨[], a, xs, rfl, by simp, ⟨haX, by omega⟩, hcons.2⟩

end Sampling

end PulseTrain
