import Cse121.Lib.Segment
import Cse121.Morse.Sender

/-! # The light of a transmission

What the senders key is a train of pulses: letter after letter, each with a number
of dark units before it. A receiver that classifies every dark run and every pulse
of a measured train gets the tokens of these letters back.
-/

namespace Cse121

/-- A letter of a transmission and the units of darkness before it. -/
structure Letter where
  gap : Int
  char : UInt8
deriving DecidableEq, Repr

/-- The letters of a message; `g` units of darkness come before the message. -/
def letters (g : Int) : CString → List Letter
  | [] => []
  | c :: cs =>
      if isLetter c then ⟨g, c⟩ :: letters 3 cs
      else if c = space then letters (g + 4) cs
      else letters g cs

/-- The units of darkness since the last letter, after a message. -/
def gapAfter (g : Int) : CString → Int
  | [] => g
  | c :: cs =>
      if isLetter c then gapAfter 3 cs
      else if c = space then gapAfter (g + 4) cs
      else gapAfter g cs

/-- The letters of a message sent `n` times with a pause of `r` units. -/
def transmission (r g : Int) (message : CString) : Nat → List Letter
  | 0 => []
  | n + 1 => letters g message ++ transmission r (gapAfter g message + r) message n

/-- The pulses of a code; `g` units of darkness come before it. -/
def codePulses (u g : Int) : CString → List Pulse
  | [] => []
  | s :: code => ⟨g * u, units s * u⟩ :: codePulses u 1 code

/-- The pulses of a sequence of letters. -/
def train (u : Int) (ls : List Letter) : List Pulse :=
  ls.flatMap fun l => codePulses u l.gap (codeOf l.char)

@[simp] theorem train_cons (u : Int) (l : Letter) (ls : List Letter) :
    train u (l :: ls) = codePulses u l.gap (codeOf l.char) ++ train u ls := rfl

theorem train_append (u : Int) (xs ys : List Letter) :
    train u (xs ++ ys) = train u xs ++ train u ys := by
  simp [train]

/-! ## The keyer on a message -/

open PulseTrain

theorem keyer_symbol (u g : Int) (s : UInt8) :
    keyer.out (.off g) (symbolKeys u s) = [⟨g, units s * u⟩] ∧
      keyer.state (.off g) (symbolKeys u s) = .off u :=
  keyer_pulse g (units s * u) u

theorem keyer_code (u g : Int) (code : CString) :
    keyer.out (.off (g * u)) (code.flatMap (symbolKeys u)) = codePulses u g code ∧
      keyer.state (.off (g * u)) (code.flatMap (symbolKeys u)) =
        .off ((if code = [] then g else 1) * u) := by
  induction code generalizing g with
  | nil => exact ⟨rfl, rfl⟩
  | cons s code ih =>
      have hsym := keyer_symbol u (g * u) s
      have hrest := ih 1
      rw [Int.one_mul, ite_self] at hrest
      simp only [List.flatMap_cons, Transducer.out_append, Transducer.state_append, hsym, hrest,
        codePulses, List.cons_append, List.nil_append, List.cons_ne_nil, if_false, and_self]

theorem keyer_char (u g : Int) (c : UInt8) :
    keyer.out (.off (g * u)) (charKeys u c) = train u (letters g [c]) ∧
      keyer.state (.off (g * u)) (charKeys u c) = .off (gapAfter g [c] * u) := by
  by_cases hc : isLetter c = true
  · have hcode := keyer_code u g (codeOf c)
    have hne : codeOf c ≠ [] := (codeOf_spec c hc).2.1
    have hwait := keyer_wait u (2 * u)
    have h3 : u + 2 * u = 3 * u := by omega
    simp only [hne, if_false, Int.one_mul] at hcode
    simp only [charKeys, letters, gapAfter, hc, if_true, Transducer.out_append,
      Transducer.state_append, hcode, hwait, h3]
    exact ⟨by simp [train], trivial⟩
  · by_cases hs : c = space
    · have hwait := keyer_wait (g * u) (4 * u)
      simp only [charKeys, letters, gapAfter, if_neg hc, if_pos hs, hwait, Int.add_mul]
      exact ⟨rfl, trivial⟩
    · simp only [charKeys, letters, gapAfter, if_neg hc, if_neg hs]
      exact ⟨rfl, rfl⟩

theorem letters_cons (g : Int) (c : UInt8) (cs : CString) :
    letters g (c :: cs) = letters g [c] ++ letters (gapAfter g [c]) cs := by
  simp only [letters, gapAfter]
  split
  · rfl
  · split <;> rfl

theorem gapAfter_cons (g : Int) (c : UInt8) (cs : CString) :
    gapAfter g (c :: cs) = gapAfter (gapAfter g [c]) cs := by
  simp only [gapAfter]
  split
  · rfl
  · split <;> rfl

theorem letters_append (g : Int) (xs ys : CString) :
    letters g (xs ++ ys) = letters g xs ++ letters (gapAfter g xs) ys := by
  induction xs generalizing g with
  | nil => rfl
  | cons x xs ih =>
      rw [List.cons_append, letters_cons, ih, letters_cons g x xs, gapAfter_cons g x xs,
        List.append_assoc]

theorem gapAfter_append (g : Int) (xs ys : CString) :
    gapAfter g (xs ++ ys) = gapAfter (gapAfter g xs) ys := by
  induction xs generalizing g with
  | nil => rfl
  | cons x xs ih =>
      simp only [List.cons_append, gapAfter, ih]
      split
      · rfl
      · split <;> rfl

theorem keyer_message (u g : Int) (message : CString) :
    keyer.out (.off (g * u)) (messageKeys u message) = train u (letters g message) ∧
      keyer.state (.off (g * u)) (messageKeys u message) = .off (gapAfter g message * u) := by
  induction message generalizing g with
  | nil => exact ⟨rfl, rfl⟩
  | cons c cs ih =>
      have hchar := keyer_char u g c
      have hrest := ih (gapAfter g [c])
      rw [letters_cons, gapAfter_cons g c cs, train_append]
      simp only [messageKeys, List.flatMap_cons, Transducer.out_append, Transducer.state_append,
        hchar] at hrest ⊢
      exact ⟨congrArg _ hrest.1, hrest.2⟩

theorem keyer_repeated (r u g : Int) (message : CString) (n : Nat) :
    keyer.out (.off (g * u)) (repeatedKeys r u message n) =
        train u (transmission r g message n) ∧
      ∃ t, keyer.state (.off (g * u)) (repeatedKeys r u message n) = .off t := by
  induction n generalizing g with
  | zero => exact ⟨rfl, g * u, rfl⟩
  | succ n ih =>
      have hmsg := keyer_message u g message
      cases n with
      | zero => exact ⟨by simpa [transmission, repeatedKeys] using hmsg.1, _, hmsg.2⟩
      | succ n =>
          have hwait := keyer_wait (gapAfter g message * u) (r * u)
          have hrest := ih (gapAfter g message + r)
          rw [Int.add_mul] at hrest
          rw [repeatedKeys, transmission, train_append, ← hrest.1, Transducer.out_append,
            Transducer.state_append, hmsg.1, hmsg.2, Transducer.out_cons, Transducer.state_cons]
          exact ⟨rfl, hrest.2⟩

/-- The pulses of a run of a sender on a line that is on at level `on`. -/
def pulses (on : Int) (acts : List Act) : List Pulse := keyer.out (.off 0) (keysOf on acts)

theorem pulses_repeated (r u : Int) (message : CString) (n : Nat) :
    keyer.out (.off 0) (.set false :: .set false :: (repeatedKeys r u message n ++ [.set false])) =
      train u (transmission r 0 message n) := by
  have hrep := keyer_repeated r u 0 message n
  have hoff := keyer_off 0
  rw [Int.zero_mul] at hrep
  rcases hrep with ⟨hout, t, hstate⟩
  have hend := keyer_off t
  change keyer.out (.off 0) (repeatedKeys r u message n ++ [.set false]) = _
  rw [Transducer.out_append, hstate, hout, hend.1, List.append_nil]

/-- The light of `main` of lab 5.1. -/
theorem Lab51.main_pulses (repetitions : Nat) (message : CString) :
    pulses 0 (Lab51.main repetitions message) =
      train Lab51.dotDuration (transmission 7 0 message repetitions) := by
  rw [pulses, Lab51.main_keys, pulses_repeated]

/-- The light of `main` of lab 5.3. -/
theorem Lab53.Sender.main_pulses {d : Int} (hd : 0 ≤ d) (repetitions : Nat) (message : CString) :
    pulses 1 (Lab53.Sender.main (Lab53.Sender.timingOfDot d) repetitions message) =
      train d (transmission 14 0 message repetitions) := by
  rw [pulses, Lab53.Sender.main_keys hd, pulses_repeated]

/-! ## The letters of a message -/

/-- Only letters are sent. -/
theorem letters_isLetter (g : Int) (message : CString) :
    ∀ l ∈ letters g message, isLetter l.char = true := by
  induction message generalizing g with
  | nil => simp [letters]
  | cons c cs ih =>
      simp only [letters]
      split
      · rename_i hc
        intro l hl
        rcases List.mem_cons.1 hl with rfl | hl
        · exact hc
        · exact ih 3 l hl
      · split
        · exact ih (g + 4)
        · exact ih g

/-- The letters and digits of a message are sent, in their order. -/
theorem letters_chars (g : Int) (message : CString) :
    (letters g message).map Letter.char = message.filter isLetter := by
  induction message generalizing g with
  | nil => rfl
  | cons c cs ih =>
      by_cases hc : isLetter c = true
      · simp [letters, hc, ih]
      · by_cases hs : c = space
        · simp only [letters, if_neg hc, if_pos hs, List.filter_cons, ih]
        · simp only [letters, if_neg hc, if_neg hs, List.filter_cons, ih]

/-- Every gap of a message is three units, or the gap before it, and four more for
each space. -/
theorem letters_gap {P : Int → Prop} (h3 : P 3) (h4 : ∀ g, P g → P (g + 4)) {g : Int} (hg : P g)
    (message : CString) : (∀ l ∈ letters g message, P l.gap) ∧ P (gapAfter g message) := by
  induction message generalizing g with
  | nil => exact ⟨by simp [letters], hg⟩
  | cons c cs ih =>
      simp only [letters, gapAfter]
      split
      · refine ⟨?_, (ih h3).2⟩
        intro l hl
        rcases List.mem_cons.1 hl with rfl | hl
        · exact hg
        · exact (ih h3).1 l hl
      · split
        · exact ih (h4 g hg)
        · exact ih hg

/-- Whether a message has something to send. -/
def HasLetter (message : CString) : Prop := ∃ c ∈ message, isLetter c = true

instance (message : CString) : Decidable (HasLetter message) :=
  inferInstanceAs (Decidable (∃ c ∈ message, isLetter c = true))

/-- Without letters nothing is sent. -/
theorem letters_empty {message : CString} (h : ¬ HasLetter message) (g : Int) :
    letters g message = [] := by
  induction message generalizing g with
  | nil => rfl
  | cons c cs ih =>
      have hc : ¬ isLetter c = true := fun hc => h ⟨c, List.mem_cons_self, hc⟩
      have hcs : ¬ HasLetter cs :=
        fun ⟨x, hx, hxl⟩ => h ⟨x, List.mem_cons_of_mem c hx, hxl⟩
      simp only [letters, if_neg hc, ih hcs, ite_self]

/-- The darkness before a message delays its first letter and nothing else. -/
theorem letters_shape {message : CString} (h : HasLetter message) :
    ∃ k c inner, 0 ≤ k ∧ isLetter c = true ∧
      (∀ g, letters g message = ⟨g + k, c⟩ :: inner) ∧
      ∀ g, gapAfter g message = gapAfter 3 message := by
  induction message with
  | nil =>
      rcases h with ⟨c, hc, -⟩
      simp at hc
  | cons c cs ih =>
      by_cases hc : isLetter c = true
      · exact ⟨0, c, letters 3 cs, le_refl 0, hc, by simp [letters, hc], by simp [gapAfter, hc]⟩
      · have hcs : HasLetter cs := by
          rcases h with ⟨x, hx, hxl⟩
          rcases List.mem_cons.1 hx with rfl | hx
          · exact absurd hxl hc
          · exact ⟨x, hx, hxl⟩
        rcases ih hcs with ⟨k, c', inner, hk, hc', hls, hgap⟩
        by_cases hs : c = space
        · refine ⟨k + 4, c', inner, by omega, hc', ?_, ?_⟩
          · intro g
            simp only [letters, if_neg hc, if_pos hs, hls]
            congr 2
            omega
          · intro g
            simp only [gapAfter, if_neg hc, if_pos hs]
            rw [hgap (g + 4), hgap (3 + 4)]
        · exact ⟨k, c', inner, hk, hc', by simpa [letters, hc, hs] using hls,
            by simpa [gapAfter, hc, hs] using hgap⟩

/-- At least the three units after its last letter come after a message. -/
theorem gapAfter_min (message : CString) : 3 ≤ gapAfter 3 message :=
  (letters_gap (P := fun g => 3 ≤ g) (le_refl 3) (fun g hg => by omega) (le_refl 3) message).2

/-- The letters of `n + 1` copies: those of the first one, and `n` times the same with
the gap between copies in front. -/
theorem transmission_shape {message : CString} (h : HasLetter message) :
    ∃ k c inner, 0 ≤ k ∧ isLetter c = true ∧
      (∀ g, letters g message = ⟨g + k, c⟩ :: inner) ∧
      (∀ l ∈ inner, isLetter l.char = true ∧ (l.gap = 3 ∨ l.gap = 7 ∨ 11 ≤ l.gap)) ∧
      ∀ (r : Int) (n : Nat), transmission r 0 message (n + 1) = ⟨k, c⟩ ::
        (inner ++ (List.replicate n (⟨gapAfter 3 message + r + k, c⟩ :: inner)).flatten) := by
  rcases letters_shape h with ⟨k, c, inner, hk, hc, hls, hgap⟩
  have hclosed : ∀ g : Int, g = 3 ∨ g = 7 ∨ 11 ≤ g → g + 4 = 3 ∨ g + 4 = 7 ∨ 11 ≤ g + 4 := by
    omega
  have hthree := (letters_gap (P := fun g => g = 3 ∨ g = 7 ∨ 11 ≤ g) (by omega) hclosed
    (g := 3) (by omega) message).1
  have hrep : ∀ (r g : Int) (n : Nat), transmission r g message (n + 1) = letters g message ++
      (List.replicate n (letters (gapAfter 3 message + r) message)).flatten := by
    intro r g n
    induction n generalizing g with
    | zero => simp [transmission]
    | succ n ih => rw [transmission, hgap g, ih, List.replicate_succ, List.flatten_cons]
  refine ⟨k, c, inner, hk, hc, hls, ?_, ?_⟩
  · intro l hl
    have hmem : l ∈ letters 3 message := by
      rw [hls 3]
      exact List.mem_cons_of_mem _ hl
    exact ⟨letters_isLetter 3 message l hmem, hthree l hmem⟩
  · intro r n
    rw [hrep, hls, hls, Int.zero_add, List.cons_append]

/-- What holds of the letters of a copy and of the first letter after a pause holds of
all letters of a transmission after the first one. -/
theorem copies_forall (Q : Letter → Prop) (first : Letter) {inner : List Letter}
    (hfirst : Q first) (hinner : ∀ l ∈ inner, Q l) (n : Nat) :
    ∀ l ∈ inner ++ (List.replicate n (first :: inner)).flatten, Q l := by
  intro l hl
  rcases List.mem_append.1 hl with hl | hl
  · exact hinner l hl
  · rcases List.mem_flatten.1 hl with ⟨copy, hcopy, hl⟩
    rw [List.eq_of_mem_replicate hcopy] at hl
    rcases List.mem_cons.1 hl with rfl | hl
    · exact hfirst
    · exact hinner l hl

theorem transmission_empty {message : CString} (h : ¬ HasLetter message) (r g : Int) (n : Nat) :
    transmission r g message n = [] := by
  induction n generalizing g with
  | zero => rfl
  | succ n ih => rw [transmission, letters_empty h, ih, List.append_nil]

/-! ## The lengths of a train -/

theorem units_cases (s : UInt8) : units s = 1 ∨ units s = 3 := by
  unfold units
  split <;> simp

theorem codePulses_lengths {u : Int} (hu : 0 ≤ u) (g : Int) (code : CString) :
    (∀ p ∈ codePulses u g code, u ≤ p.width ∧ p.width ≤ 3 * u) ∧
      ((1 ≤ g → ∀ p ∈ codePulses u g code, u ≤ p.gap) ∧
        ∀ p ∈ (codePulses u g code).tail, u ≤ p.gap) := by
  induction code generalizing g with
  | nil => simp [codePulses]
  | cons s code ih =>
      have hrest := ih 1
      have hgaps := hrest.2.1 (le_refl 1)
      refine ⟨?_, ?_, hgaps⟩
      · intro p hp
        rcases List.mem_cons.1 hp with rfl | hp
        · rcases units_cases s with h | h <;> simp only [h] <;> omega
        · exact hrest.1 p hp
      · intro hg p hp
        rcases List.mem_cons.1 hp with rfl | hp
        · have hmul : 1 * u ≤ g * u := Int.mul_le_mul_of_nonneg_right hg hu
          simp only
          omega
        · exact hgaps p hp

/-- The pulses of letters are those of the symbols of their codes. -/
theorem train_widths (u : Int) (ls : List Letter) :
    (train u ls).map Pulse.width =
      ((ls.map Letter.char).flatMap codeOf).map fun s => units s * u := by
  have hcode : ∀ (g : Int) (code : CString),
      (codePulses u g code).map Pulse.width = code.map fun s => units s * u := by
    intro g code
    induction code generalizing g with
    | nil => rfl
    | cons s code ih => rw [codePulses, List.map_cons, List.map_cons, ih]
  induction ls with
  | nil => rfl
  | cons l ls ih => rw [train_cons, List.map_append, hcode, ih, List.map_cons, List.flatMap_cons,
      List.map_append]

/-- Pulses last one to three units. -/
theorem train_width {u : Int} (hu : 0 ≤ u) (ls : List Letter) :
    ∀ p ∈ train u ls, u ≤ p.width ∧ p.width ≤ 3 * u := by
  intro p hp
  rcases List.mem_flatMap.1 hp with ⟨l, -, hp⟩
  exact (codePulses_lengths hu l.gap (codeOf l.char)).1 p hp

/-- Letters have pulses. -/
theorem codePulses_ne_nil (u g : Int) {c : UInt8} (hc : isLetter c = true) :
    codePulses u g (codeOf c) ≠ [] := by
  cases hcode : codeOf c with
  | nil => exact absurd hcode (codeOf_spec c hc).2.1
  | cons s code => simp [codePulses]

theorem train_ne_nil {u : Int} {l : Letter} (hl : isLetter l.char = true) (ls : List Letter) :
    train u (l :: ls) ≠ [] := by
  rw [train_cons]
  exact List.append_ne_nil_of_left_ne_nil (codePulses_ne_nil u l.gap hl) _

/-- Dark runs after the first pulse last a unit at least. -/
theorem train_gap {u : Int} (hu : 0 ≤ u) {l : Letter} {ls : List Letter}
    (hl : isLetter l.char = true) (hls : ∀ l' ∈ ls, 1 ≤ l'.gap) :
    ∀ p ∈ (train u (l :: ls)).tail, u ≤ p.gap := by
  intro p hp
  rw [train_cons, List.tail_append_of_ne_nil (codePulses_ne_nil u l.gap hl)] at hp
  rcases List.mem_append.1 hp with hp | hp
  · exact (codePulses_lengths hu l.gap (codeOf l.char)).2.2 p hp
  · rcases List.mem_flatMap.1 hp with ⟨l', hl', hp⟩
    exact (codePulses_lengths hu l'.gap (codeOf l'.char)).2.1 (hls l' hl') p hp

/-! ## Reading a measured train -/

/-- The tokens of a measured train, for a receiver that takes a dark run `d` for the
break `brk d` and a pulse `d` for the symbol `sym d`. -/
def trainTokens (brk : Int → Option CString) (sym : Int → Option UInt8) (qs : List Pulse) :
    List (Token UInt8 CString) :=
  qs.flatMap fun q => Segment.optBrk (brk q.gap) ++ (sym q.width).toList.map .sym

theorem trainTokens_append (brk : Int → Option CString) (sym : Int → Option UInt8)
    (xs ys : List Pulse) :
    trainTokens brk sym (xs ++ ys) = trainTokens brk sym xs ++ trainTokens brk sym ys := by
  simp [trainTokens]

/-- The symbols of a measured train are those of its pulses. -/
theorem syms_trainTokens (brk : Int → Option CString) (sym : Int → Option UInt8)
    (qs : List Pulse) :
    Segment.syms (trainTokens brk sym qs) = (qs.map Pulse.width).filterMap sym := by
  induction qs with
  | nil => rfl
  | cons q qs ih =>
      have hcons : trainTokens brk sym (q :: qs) = Segment.optBrk (brk q.gap) ++
          ((sym q.width).toList.map .sym ++ trainTokens brk sym qs) := by
        simp [trainTokens]
      rw [hcons, Segment.syms_append, Segment.syms_append, ih, List.map_cons, List.filterMap_cons]
      cases brk q.gap <;> cases sym q.width <;> rfl

/-- The measured lengths, related to the nominal ones by `R`, keep dots, dashes and
symbol gaps apart. -/
structure Reads (R : Int → Int → Prop) (u : Int) (brk : Int → Option CString)
    (sym : Int → Option UInt8) : Prop where
  dot : ∀ d, R u d → sym d = some dot
  dash : ∀ d, R (3 * u) d → sym d = some dash
  symbolGap : ∀ d, R u d → brk d = none

variable {R : Int → Int → Prop} {u : Int} {brk : Int → Option CString} {sym : Int → Option UInt8}

/-- A pulse of a symbol is read as the symbol. -/
theorem Reads.symbol (h : Reads R u brk sym) {s : UInt8} (hs : s = Cse121.dot ∨ s = Cse121.dash)
    {d : Int} (hd : R (units s * u) d) : sym d = some s := by
  rcases hs with rfl | rfl
  · have hunits : units Cse121.dot = 1 := rfl
    rw [hunits, Int.one_mul] at hd
    exact h.dot d hd
  · have hunits : units Cse121.dash = 3 := by decide
    rw [hunits] at hd
    exact h.dash d hd

/-- The symbols of a code after its first one are read without a break. -/
theorem Reads.code (h : Reads R u brk sym) {code : CString}
    (hcode : ∀ s ∈ code, s = Cse121.dot ∨ s = Cse121.dash) {qs : List Pulse}
    (hqs : List.Forall₂ (Alike R) (codePulses u 1 code) qs) :
    trainTokens brk sym qs = code.map .sym := by
  induction code generalizing qs with
  | nil =>
      cases hqs
      rfl
  | cons s code ih =>
      rcases List.forall₂_cons_left_iff.1 hqs with ⟨q, qs, ⟨hgap, hwidth⟩, hrest, rfl⟩
      rw [Int.one_mul] at hgap
      have hsym := h.symbol (hcode s List.mem_cons_self) hwidth
      have htail := ih (fun s' hs' => hcode s' (List.mem_cons_of_mem s hs')) hrest
      simp only [trainTokens, List.flatMap_cons, List.map_cons] at htail ⊢
      rw [h.symbolGap _ hgap, hsym, htail]
      rfl

/-- A letter is read as a break, if its gap is one, and its code. -/
theorem Reads.letter (h : Reads R u brk sym) {l : Letter} (hl : isLetter l.char = true)
    {qs : List Pulse} (hqs : AlikeTrain R (codePulses u l.gap (codeOf l.char)) qs) :
    ∃ q qs', qs = q :: qs' ∧
      trainTokens brk sym qs = Segment.optBrk (brk q.gap) ++ (codeOf l.char).map .sym := by
  have hspec := codeOf_spec l.char hl
  cases hcode : codeOf l.char with
  | nil => exact absurd hcode hspec.2.1
  | cons s code =>
      have hsyms : ∀ x ∈ s :: code, x = Cse121.dot ∨ x = Cse121.dash := hcode ▸ hspec.2.2.2.1
      rw [hcode] at hqs
      cases qs with
      | nil => exact hqs.elim
      | cons q qs =>
          have hsym := h.symbol (hsyms s List.mem_cons_self) hqs.1
          have htail := h.code (fun x hx => hsyms x (List.mem_cons_of_mem s hx)) hqs.2
          refine ⟨q, qs, rfl, ?_⟩
          simp only [trainTokens, List.flatMap_cons, List.map_cons] at htail ⊢
          rw [hsym, htail, List.append_assoc]
          rfl

/-- Letters are read one by one, when each gap between letters is read as a break that
`Sep` allows. -/
theorem Reads.letters (h : Reads R u brk sym) (Sep : Int → CString → Prop) {ls : List Letter}
    (hls : ∀ l ∈ ls, isLetter l.char = true)
    (hsep : ∀ l ∈ ls, ∀ d, R (l.gap * u) d → ∃ b, brk d = some b ∧ Sep l.gap b)
    {qs : List Pulse} (hqs : List.Forall₂ (Alike R) (train u ls) qs) :
    ∃ ks : List (CString × CString), trainTokens brk sym qs = Segment.letterTokens ks ∧
      List.Forall₂ (fun l k => Sep l.gap k.1 ∧ k.2 = codeOf l.char) ls ks := by
  induction ls generalizing qs with
  | nil =>
      cases hqs
      exact ⟨[], rfl, .nil⟩
  | cons l ls ih =>
      rw [train_cons] at hqs
      rcases forall₂_append hqs with ⟨qs₁, qs₂, rfl, hhead, htail⟩
      have hl := hls l List.mem_cons_self
      rcases ih (fun l' hl' => hls l' (List.mem_cons_of_mem l hl'))
        (fun l' hl' => hsep l' (List.mem_cons_of_mem l hl')) htail with ⟨ks, hks, hrel⟩
      rcases h.letter hl (alikeTrain_of_forall₂ hhead) with ⟨q, qs', rfl, htoks⟩
      -- the first pulse of the letter has the gap of the letter
      have hgap : R (l.gap * u) q.gap := by
        cases hcode : codeOf l.char with
        | nil => exact absurd hcode (codeOf_spec l.char hl).2.1
        | cons s code =>
            rw [hcode] at hhead
            exact (List.forall₂_cons.1 hhead).1.1
      rcases hsep l List.mem_cons_self q.gap hgap with ⟨b, hb, hsepb⟩
      refine ⟨(b, codeOf l.char) :: ks, ?_, .cons ⟨hsepb, rfl⟩ hrel⟩
      rw [trainTokens_append, htoks, hks, hb]
      rfl

/-- The first gap of a train is free: it makes a break or not. -/
theorem Reads.train (h : Reads R u brk sym) (Sep : Int → CString → Prop) {l : Letter}
    {ls : List Letter} (hls : ∀ l' ∈ l :: ls, isLetter l'.char = true)
    (hsep : ∀ l' ∈ ls, ∀ d, R (l'.gap * u) d → ∃ b, brk d = some b ∧ Sep l'.gap b)
    {qs : List Pulse} (hqs : AlikeTrain R (train u (l :: ls)) qs) :
    ∃ q qs' ks, qs = q :: qs' ∧ trainTokens brk sym qs = Segment.optBrk (brk q.gap) ++
        ((codeOf l.char).map .sym ++ Segment.letterTokens ks) ∧
      List.Forall₂ (fun l k => Sep l.gap k.1 ∧ k.2 = codeOf l.char) ls ks := by
  have hl := hls l List.mem_cons_self
  rw [train_cons] at hqs
  cases hcode : codeOf l.char with
  | nil => exact absurd hcode (codeOf_spec l.char hl).2.1
  | cons s code =>
      rw [hcode] at hqs
      cases qs with
      | nil => exact hqs.elim
      | cons q qs =>
          rcases forall₂_append hqs.2 with ⟨qs₁, qs₂, rfl, hhead, htail⟩
          have hfirst : AlikeTrain R (codePulses u l.gap (codeOf l.char)) (q :: qs₁) := by
            rw [hcode]
            exact ⟨hqs.1, hhead⟩
          rcases h.letter hl hfirst with ⟨q', qs', hq', htoks⟩
          rcases h.letters Sep (fun l' hl' => hls l' (List.mem_cons_of_mem l hl')) hsep htail with
            ⟨ks, hks, hrel⟩
          obtain ⟨rfl, -⟩ := List.cons.inj hq'
          refine ⟨q, qs₁ ++ qs₂, ks, rfl, ?_, hrel⟩
          rw [← List.cons_append, trainTokens_append, htoks, hks, hcode, List.append_assoc]

end Cse121
