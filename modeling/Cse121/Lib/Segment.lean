import Cse121.Lib.Transducer
import Mathlib.Data.List.Flatten

/-! # Cutting a stream of symbols into groups

A stream of symbols and breaks is cut into groups: a break closes the group of
symbols collected so far, and a break with nothing collected does nothing. This
is what a receiver does that collects marks until the line tells it that a
letter is over, whatever the symbols and the kinds of break are.
-/

universe u v

/-- One token of the stream: a symbol, or a break of some kind. -/
inductive Token (α : Type u) (β : Type v) where
  | sym (a : α)
  | brk (b : β)
deriving DecidableEq, Repr

namespace Segment

variable {α β γ : Type*}

/-- The segmenter: its state is the group being collected, its outputs are the
closed groups with the break that closed them. -/
def segmenter : Transducer (List α) (Token α β) (List α × β) where
  step
    | p, .sym a => (p ++ [a], [])
    | [], .brk _ => ([], [])
    | a :: p, .brk b => ([], [(a :: p, b)])

/-- The symbols of a token stream. -/
def syms (ts : List (Token α β)) : List α :=
  ts.flatMap fun
    | .sym a => [a]
    | .brk _ => []

@[simp] theorem step_sym (p : List α) (a : α) :
    (segmenter (β := β)).step p (.sym a) = (p ++ [a], []) := by
  cases p <;> rfl

@[simp] theorem step_brk_nil (b : β) :
    (segmenter (α := α)).step [] (.brk b) = ([], []) := rfl

theorem step_brk {p : List α} (hp : p ≠ []) (b : β) :
    segmenter.step p (.brk b) = ([], [(p, b)]) := by
  cases p with
  | nil => exact absurd rfl hp
  | cons a p => rfl

/-- A break leaves nothing collected. -/
@[simp] theorem step_brk_fst (p : List α) (b : β) :
    (segmenter.step p (.brk b)).1 = [] := by
  cases p <;> rfl

/-! ## Conservation -/

@[simp] theorem syms_nil : syms ([] : List (Token α β)) = [] := rfl

@[simp] theorem syms_sym (a : α) (ts : List (Token α β)) :
    syms (.sym a :: ts) = a :: syms ts := rfl

@[simp] theorem syms_brk (b : β) (ts : List (Token α β)) :
    syms (.brk b :: ts) = syms ts := rfl

theorem syms_append (xs ys : List (Token α β)) : syms (xs ++ ys) = syms xs ++ syms ys := by
  simp [syms]

/-- No symbol is lost, doubled or reordered: the closed groups followed by the
collected one are exactly the symbols of the stream, cut into pieces. -/
theorem conservation (p : List α) (ts : List (Token α β)) :
    ((segmenter.out p ts).map Prod.fst).flatten ++ segmenter.state p ts = p ++ syms ts := by
  induction ts generalizing p with
  | nil => simp
  | cons t ts ih =>
      cases t with
      | sym a => simpa [List.append_assoc] using ih (p ++ [a])
      | brk b =>
          have hrest := ih []
          cases p with
          | nil => simpa using hrest
          | cons a p =>
              rw [Transducer.out_cons, Transducer.state_cons, step_brk (List.cons_ne_nil a p)]
              simpa [List.append_assoc] using hrest

/-- Closed groups are never empty. -/
theorem groups_ne_nil (p : List α) (ts : List (Token α β)) :
    ∀ g ∈ segmenter.out p ts, g.1 ≠ [] := by
  refine Transducer.out_invariant segmenter (fun _ => True) (fun _ => True) (fun g => g.1 ≠ [])
    (fun _ _ _ _ => trivial) ?_ (fun _ _ => trivial) trivial
  rintro s (a | b) - - g hg
  · simp at hg
  · cases s with
    | nil => simp at hg
    | cons a p =>
        rw [step_brk (List.cons_ne_nil a p)] at hg
        simp only [List.mem_singleton] at hg
        simp [hg]

/-- Groups are closed by breaks of the stream. -/
theorem groups_brk (p : List α) (ts : List (Token α β)) :
    ∀ g ∈ segmenter.out p ts, .brk g.2 ∈ ts := by
  refine Transducer.out_invariant segmenter (fun _ => True) (· ∈ ts) (fun g => .brk g.2 ∈ ts)
    (fun _ _ _ _ => trivial) ?_ (fun _ h => h) trivial
  rintro s (a | b) ht - g hg
  · simp at hg
  · cases s with
    | nil => simp at hg
    | cons a p =>
        rw [step_brk (List.cons_ne_nil a p)] at hg
        rw [List.mem_singleton.1 hg]
        exact ht

/-! ## Runs of symbols and runs of breaks -/

@[simp] theorem state_syms (p c : List α) :
    (segmenter (β := β)).state p (c.map .sym) = p ++ c := by
  induction c generalizing p with
  | nil => simp
  | cons a c ih => simp [ih]

@[simp] theorem out_syms (p c : List α) :
    (segmenter (β := β)).out p (c.map .sym) = [] := by
  induction c generalizing p with
  | nil => rfl
  | cons a c ih => simp [ih]

/-- Two streams that do the same to any group. -/
def Same (xs ys : List (Token α β)) : Prop :=
  ∀ p, segmenter.out p xs = segmenter.out p ys ∧ segmenter.state p xs = segmenter.state p ys

theorem Same.refl (xs : List (Token α β)) : Same xs xs := fun _ => ⟨rfl, rfl⟩

theorem Same.trans {xs ys zs : List (Token α β)} (h : Same xs ys) (h' : Same ys zs) :
    Same xs zs :=
  fun p => ⟨(h p).1.trans (h' p).1, (h p).2.trans (h' p).2⟩

theorem Same.append {xs ys xs' ys' : List (Token α β)} (h : Same xs ys) (h' : Same xs' ys') :
    Same (xs ++ xs') (ys ++ ys') := by
  intro p
  simp only [Transducer.out_append, Transducer.state_append, (h p).1, (h p).2,
    (h' (segmenter.state p ys)).1, (h' (segmenter.state p ys)).2, and_self]

/-- With nothing collected, breaks do nothing. -/
theorem out_brks_nil (bs : List β) :
    (segmenter (α := α)).out [] (bs.map .brk) = [] ∧
      (segmenter (α := α)).state [] (bs.map .brk) = [] := by
  induction bs with
  | nil => exact ⟨rfl, rfl⟩
  | cons b bs ih => simpa using ih

/-- The tokens of a break that may be absent. -/
def optBrk (o : Option β) : List (Token α β) := o.toList.map .brk

@[simp] theorem optBrk_none : (optBrk none : List (Token α β)) = [] := rfl

@[simp] theorem optBrk_some (b : β) : (optBrk (some b) : List (Token α β)) = [.brk b] := rfl

/-- Only the first of several breaks counts. -/
theorem same_brks (bs : List β) : Same (α := α) (bs.map .brk) (optBrk bs.head?) := by
  intro p
  cases bs with
  | nil => exact ⟨rfl, rfl⟩
  | cons b bs =>
      have hrest := out_brks_nil (α := α) bs
      simp [hrest.1, hrest.2]

/-! ## Streams of letters -/

/-- The stream of a sequence of letters, each introduced by a break. -/
def letterTokens (ls : List (β × List α)) : List (Token α β) :=
  ls.flatMap fun l => .brk l.1 :: l.2.map .sym

@[simp] theorem letterTokens_nil : letterTokens ([] : List (β × List α)) = [] := rfl

@[simp] theorem letterTokens_cons (l : β × List α) (ls : List (β × List α)) :
    letterTokens (l :: ls) = .brk l.1 :: (l.2.map .sym ++ letterTokens ls) := rfl

/-- What is read off closed groups: each group decoded, then its break. -/
def reading (dec : List α → γ) (sep : β → List γ) (gs : List (List α × β)) : List γ :=
  gs.flatMap fun g => dec g.1 :: sep g.2

@[simp] theorem reading_nil (dec : List α → γ) (sep : β → List γ) :
    reading dec sep [] = [] := rfl

@[simp] theorem reading_cons (dec : List α → γ) (sep : β → List γ) (g : List α × β)
    (gs : List (List α × β)) :
    reading dec sep (g :: gs) = dec g.1 :: (sep g.2 ++ reading dec sep gs) := rfl

/-- The letters of a stream are read back one by one: each closes the one before
it, and the last one stays collected. -/
theorem reading_letters (dec : List α → γ) (sep : β → List γ) {p : List α} (hp : p ≠ [])
    (ls : List (β × List α)) (hls : ∀ l ∈ ls, l.2 ≠ []) :
    reading dec sep (segmenter.out p (letterTokens ls)) ++
        [dec (segmenter.state p (letterTokens ls))] =
      dec p :: ls.flatMap fun l => sep l.1 ++ [dec l.2] := by
  induction ls generalizing p with
  | nil => simp
  | cons l ls ih =>
      have hl : l.2 ≠ [] := hls l List.mem_cons_self
      have hrest := ih hl fun k hk => hls k (List.mem_cons_of_mem l hk)
      simp only [letterTokens_cons, Transducer.out_cons, Transducer.state_cons, step_brk hp,
        Transducer.out_append, Transducer.state_append, out_syms, state_syms, List.nil_append,
        List.cons_append, reading_cons, List.flatMap_cons, List.append_assoc, hrest]

/-- After letters one of them is collected. -/
theorem state_letters {p : List α} (hp : p ≠ []) (ls : List (β × List α))
    (hls : ∀ l ∈ ls, l.2 ≠ []) : segmenter.state p (letterTokens ls) ≠ [] := by
  induction ls generalizing p with
  | nil => exact hp
  | cons l ls ih =>
      have hrest := ih (hls l List.mem_cons_self) fun k hk => hls k (List.mem_cons_of_mem l hk)
      rwa [letterTokens_cons, Transducer.state_cons, Transducer.state_append, step_brk_fst,
        state_syms, List.nil_append]

/-! ## Different breaks in front of one stream -/

/-- The break that closes what is collected, if no symbol comes before it. -/
def firstBreak : List (Token α β) → Option β
  | .brk b :: _ => some b
  | _ => none

theorem firstBreak_brks (bs : List β) (ts : List (Token α β)) :
    firstBreak (bs.map .brk ++ ts) = bs.head?.or (firstBreak ts) := by
  cases bs <;> rfl

/-- What is collected does not change which breaks close groups. -/
theorem out_breaks {p q : List α} (hp : p ≠ []) (hq : q ≠ []) (ts : List (Token α β)) :
    (segmenter.out p ts).map Prod.snd = (segmenter.out q ts).map Prod.snd := by
  induction ts generalizing p q with
  | nil => rfl
  | cons t ts ih =>
      cases t with
      | sym a =>
          have hp' : p ++ [a] ≠ [] := by simp
          have hq' : q ++ [a] ≠ [] := by simp
          simpa using ih hp' hq'
      | brk b => simp [step_brk hp, step_brk hq]

/-- The length of a reading depends on the breaks alone. -/
theorem reading_length (dec : List α → γ) (sep : β → List γ) {gs gs' : List (List α × β)}
    (h : gs.map Prod.snd = gs'.map Prod.snd) :
    (reading dec sep gs).length = (reading dec sep gs').length := by
  induction gs generalizing gs' with
  | nil =>
      obtain rfl : gs' = [] := by simpa using h.symm
      rfl
  | cons g gs ih =>
      cases gs' with
      | nil => simp at h
      | cons g' gs' =>
          simp only [List.map_cons, List.cons.injEq] at h
          simp only [reading_cons, List.length_cons, List.length_append, h.1, ih h.2]

section Reading

variable (dec : List α → γ) {sep : β → List γ} (hsep : Function.Injective sep)

include hsep

/-- Closing a group at once or leaving it open is the same only if the same break comes
anyway. -/
theorem reading_open_iff {p : List α} (hp : p ≠ []) (b : β) (ts : List (Token α β)) :
    reading dec sep (segmenter.out p ts) =
        reading dec sep ((p, b) :: segmenter.out [] ts) ↔ firstBreak ts = some b := by
  cases ts with
  | nil => simp [firstBreak]
  | cons t ts =>
      cases t with
      | sym a =>
          -- the open group swallows the symbol, and its reading is shorter
          have hlen := reading_length dec sep
            (@out_breaks _ _ (p ++ [a]) [a] (by simp) (by simp) ts)
          have hne : reading dec sep (segmenter.out (p ++ [a]) ts) ≠
              reading dec sep ((p, b) :: segmenter.out [a] ts) := by
            intro heq
            rw [heq, reading_cons, List.length_cons, List.length_append] at hlen
            omega
          simpa [firstBreak] using hne
      | brk c =>
          have hstep : segmenter.out p (.brk c :: ts) = (p, c) :: segmenter.out [] ts := by
            simp [step_brk hp]
          have hnil : segmenter.out ([] : List α) (.brk c :: ts) = segmenter.out [] ts := rfl
          simp only [hstep, hnil, reading_cons, List.cons.injEq, true_and,
            List.append_left_inj, hsep.eq_iff, firstBreak, Option.some.injEq]

theorem reading_optBrk_iff {p : List α} (hp : p ≠ []) (o o' : Option β)
    (ts : List (Token α β)) :
    reading dec sep (segmenter.out p (optBrk o ++ ts)) =
        reading dec sep (segmenter.out p (optBrk o' ++ ts)) ↔
      o.or (firstBreak ts) = o'.or (firstBreak ts) := by
  have hclose : ∀ b : β, segmenter.out p (optBrk (some b) ++ ts) =
      (p, b) :: segmenter.out [] ts := by
    intro b
    simp [step_brk hp]
  cases o with
  | none =>
      cases o' with
      | none => simp
      | some b =>
          rw [hclose, optBrk_none, List.nil_append, reading_open_iff dec hsep hp]
          simp
  | some b =>
      cases o' with
      | none =>
          rw [hclose, optBrk_none, List.nil_append, eq_comm, reading_open_iff dec hsep hp]
          simp [eq_comm]
      | some b' =>
          simp only [hclose, reading_cons, List.cons.injEq, true_and, List.append_left_inj,
            hsep.eq_iff, Option.some_or, Option.some.injEq]

/-- Breaks in front of a stream matter only through the first break before any symbol,
and only if something is collected. -/
theorem reading_brks_iff (p : List α) (bs bs' : List β) (ts : List (Token α β)) :
    reading dec sep (segmenter.out p (bs.map .brk ++ ts)) =
        reading dec sep (segmenter.out p (bs'.map .brk ++ ts)) ↔
      p = [] ∨ firstBreak (bs.map .brk ++ ts) = firstBreak (bs'.map .brk ++ ts) := by
  by_cases hp : p = []
  · subst hp
    have h := out_brks_nil (α := α) bs
    have h' := out_brks_nil (α := α) bs'
    simp [Transducer.out_append, h.1, h.2, h'.1, h'.2]
  · have hsame : ∀ cs : List β, segmenter.out p (cs.map .brk ++ ts) =
        segmenter.out p (optBrk cs.head? ++ ts) :=
      fun cs => ((same_brks cs).append (.refl ts) p).1
    rw [hsame bs, hsame bs', reading_optBrk_iff dec hsep hp, firstBreak_brks, firstBreak_brks]
    simp [hp]

end Reading

end Segment
