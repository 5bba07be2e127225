import Cse121.Morse.Buffer
import Cse121.Morse.Waveform
import Mathlib.Data.List.DropRight

/-! # The text of a transmission

What a receiver should print for a message, said about the message alone, and that
it is what the letters of the transmission spell.
-/

namespace Cse121

/-- Letters, digits and the space are supported. -/
def supported (c : UInt8) : Bool := isLetter c || c == space

/-- The supported characters in upper case. -/
def supportedText (message : CString) : CString := (message.filter supported).map toupper

/-- The words of a message: its supported text, split at the spaces. -/
def words (message : CString) : List CString :=
  ((supportedText message).splitOn space).filter (· ≠ [])

/-- The words of a message with one space between them. -/
def normalise (message : CString) : CString := [space].intercalate (words message)

/-- The supported text without the spaces at its ends. -/
def trimmed (message : CString) : CString :=
  ((supportedText message).dropWhile (· == space)).rdropWhile (· == space)

/-- What letters spell, with a separator before each. -/
def spelled (sep : Int → CString) (ls : List Letter) : CString :=
  ls.flatMap fun l => sep l.gap ++ [toupper l.char]

@[simp] theorem spelled_nil (sep : Int → CString) : spelled sep [] = [] := rfl

@[simp] theorem spelled_cons (sep : Int → CString) (l : Letter) (ls : List Letter) :
    spelled sep (l :: ls) = sep l.gap ++ toupper l.char :: spelled sep ls := by
  simp [spelled]

/-- A gap of three units separates letters, a longer one words. -/
def wordSep (g : Int) : CString := if g = 3 then [] else [space]

theorem wordSep_cases (g : Int) : wordSep g = [] ∨ wordSep g = [space] := by
  unfold wordSep
  split <;> simp

/-- What letters with the separators before them print. -/
def printedLetters (ks : List (CString × CString)) : CString :=
  ks.flatMap fun k => k.1 ++ [Lab52.decodeMorse k.2]

/-- Letters are printed as they are spelled. -/
theorem printedLetters_spelled {sep : Int → CString} {ls : List Letter}
    (hls : ∀ l ∈ ls, isLetter l.char = true) {ks : List (CString × CString)}
    (h : List.Forall₂ (fun l k => k.1 = sep l.gap ∧ k.2 = codeOf l.char) ls ks) :
    printedLetters ks = spelled sep ls := by
  induction h with
  | nil => rfl
  | cons hlk _ ih =>
      rename_i l k ls ks _
      have hl := codeOf_spec l.char (hls l List.mem_cons_self)
      have hrest := ih fun l' hl' => hls l' (List.mem_cons_of_mem l hl')
      rw [printedLetters, List.flatMap_cons, ← printedLetters, hrest, hlk.1, hlk.2, hl.2.2.2.2]
      simp

/-- The segmenter reads letters back: what it prints and the letter still pending are
the letters with their separators. -/
theorem letters_text (Sep : Int → CString → Prop) {c : UInt8} (hc : isLetter c = true)
    {ls : List Letter} (hls : ∀ l ∈ ls, isLetter l.char = true) {ks : List (CString × CString)}
    (h : List.Forall₂ (fun l k => Sep l.gap k.1 ∧ k.2 = codeOf l.char) ls ks) :
    Segment.segmenter.state [] ((codeOf c).map .sym ++ Segment.letterTokens ks) ≠ [] ∧
      (Segment.segmenter.out [] ((codeOf c).map .sym ++ Segment.letterTokens ks)).flatMap
          printed ++
        [Lab52.decodeMorse (Segment.segmenter.state []
          ((codeOf c).map .sym ++ Segment.letterTokens ks))] =
      toupper c :: printedLetters ks := by
  have hspec := codeOf_spec c hc
  have hks : ∀ k ∈ ks, k.2 ≠ [] := by
    intro k hk
    rcases List.mem_iff_get.1 hk with ⟨⟨i, hi⟩, rfl⟩
    rcases List.forall₂_iff_get.1 h with ⟨hlen, hget⟩
    rw [(hget i (hlen ▸ hi) hi).2]
    exact (codeOf_spec _ (hls _ (List.get_mem ls _))).2.1
  have hread := Segment.reading_letters Lab52.decodeMorse id hspec.2.1 ks hks
  rw [hspec.2.2.2.2] at hread
  simp only [Transducer.out_append, Transducer.state_append, Segment.out_syms,
    Segment.state_syms, List.nil_append]
  exact ⟨Segment.state_letters hspec.2.1 ks hks, hread⟩

/-- Separators that are empty or a space can be told from the text. -/
theorem spelled_inj {sep sep' : Int → CString} {ls : List Letter}
    (hls : ∀ l ∈ ls, isLetter l.char = true)
    (hsep : ∀ l ∈ ls, sep l.gap = [] ∨ sep l.gap = [space])
    (hsep' : ∀ l ∈ ls, sep' l.gap = [] ∨ sep' l.gap = [space]) :
    spelled sep ls = spelled sep' ls ↔ ∀ l ∈ ls, sep l.gap = sep' l.gap := by
  induction ls with
  | nil => simp
  | cons l ls ih =>
      have hrest := ih (fun k hk => hls k (List.mem_cons_of_mem l hk))
        (fun k hk => hsep k (List.mem_cons_of_mem l hk))
        (fun k hk => hsep' k (List.mem_cons_of_mem l hk))
      have hne := (isLetter_ne_space l.char (hls l List.mem_cons_self)).2
      rw [spelled_cons, spelled_cons, List.forall_mem_cons]
      rcases hsep l List.mem_cons_self with h | h <;>
        rcases hsep' l List.mem_cons_self with h' | h' <;>
        simp [h, h', hrest, hne, Ne.symm hne]

/-- Without the spaces, letters spell their characters in upper case. -/
theorem spelled_letters {sep : Int → CString} {ls : List Letter}
    (hls : ∀ l ∈ ls, isLetter l.char = true)
    (hsep : ∀ l ∈ ls, sep l.gap = [] ∨ sep l.gap = [space]) :
    (spelled sep ls).filter (· != space) = ls.map fun l => toupper l.char := by
  induction ls with
  | nil => rfl
  | cons l ls ih =>
      have hrest := ih (fun k hk => hls k (List.mem_cons_of_mem l hk))
        (fun k hk => hsep k (List.mem_cons_of_mem l hk))
      have hne := (isLetter_ne_space l.char (hls l List.mem_cons_self)).2
      rcases hsep l List.mem_cons_self with h | h <;> simp [h, hne, hrest]

/-- Without the spaces, closed groups show what their patterns are read as. -/
theorem printed_letters {gs : List (CString × CString)}
    (hgs : ∀ g ∈ gs, g.2 = [] ∨ g.2 = [space]) :
    (gs.flatMap printed).filter (· != space) = (gs.map Prod.fst).map Lab52.decodeMorse := by
  induction gs with
  | nil => rfl
  | cons g gs ih =>
      have hrest := ih fun k hk => hgs k (List.mem_cons_of_mem g hk)
      have hne := decodeMorse_ne_space g.1
      rcases hgs g List.mem_cons_self with h | h <;> simp [printed, h, hne, hrest]

/-- Patterns that are read as letters are their codes. -/
theorem codes_of_decoded {ps : List CString} {cs : CString}
    (hcs : ∀ c ∈ cs, isLetter c = true) (h : ps.map Lab52.decodeMorse = cs.map toupper) :
    ps = cs.map codeOf := by
  induction cs generalizing ps with
  | nil => simpa using h
  | cons c cs ih =>
      rw [List.map_cons] at h
      rcases List.map_eq_cons_iff.1 h with ⟨p, ps, rfl, hp, hps⟩
      have hrest := ih (fun d hd => hcs d (List.mem_cons_of_mem c hd)) hps
      rw [eq_codeOf_of_decodeMorse (hcs c List.mem_cons_self) hp, hrest, List.map_cons]

/-- If closed groups and the letter still pending show what letters spell, then their
patterns are the codes of these letters. -/
theorem codes_of_text {gs : List (CString × CString)}
    (hgs : ∀ g ∈ gs, g.2 = [] ∨ g.2 = [space]) {p : CString} {sep : Int → CString} {c : UInt8}
    (hc : isLetter c = true) {ls : List Letter} (hls : ∀ l ∈ ls, isLetter l.char = true)
    (hsep : ∀ l ∈ ls, sep l.gap = [] ∨ sep l.gap = [space])
    (h : gs.flatMap printed ++ [Lab52.decodeMorse p] = toupper c :: spelled sep ls) :
    (gs.map Prod.fst).flatten ++ p = (c :: ls.map Letter.char).flatMap codeOf := by
  have hne := (isLetter_ne_space c hc).2
  have hp := decodeMorse_ne_space p
  have hfilter := congrArg (List.filter (· != space)) h
  simp only [List.filter_append, printed_letters hgs, List.filter_cons, List.filter_nil,
    spelled_letters hls hsep, bne_iff_ne, ne_eq, hp, hne, not_false_eq_true, if_true] at hfilter
  have hcodes := @codes_of_decoded (gs.map Prod.fst ++ [p]) (c :: ls.map Letter.char)
    (by
      intro d hd
      rcases List.mem_cons.1 hd with rfl | hd
      · exact hc
      · rcases List.mem_map.1 hd with ⟨l, hl, rfl⟩
        exact hls l hl)
    (by simpa [Function.comp_def] using hfilter)
  rw [List.flatMap, ← hcodes]
  simp

/-! ## Joining -/

/-- Joining with a separator puts it before every part but the first. -/
theorem intercalate_cons (sep : CString) (w : CString) (ws : List CString) :
    sep.intercalate (w :: ws) = w ++ ws.flatMap fun x => sep ++ x := by
  induction ws generalizing w with
  | nil => simp
  | cons v ws ih => rw [List.intercalate_cons_cons, ih]; simp

theorem supportedText_cons (c : UInt8) (cs : CString) :
    supportedText (c :: cs) =
      if supported c then toupper c :: supportedText cs else supportedText cs := by
  simp only [supportedText, List.filter_cons]
  split <;> rfl

/-- The text split at its spaces: the first part goes on, after a space a new one
starts. -/
theorem spelled_splitOn (message : CString) :
    spelled wordSep (letters 3 message) =
        ((supportedText message).splitOn space).headD [] ++
          (((supportedText message).splitOn space).tail.filter (· ≠ [])).flatMap (space :: ·) ∧
      ∀ g, 3 < g → spelled wordSep (letters g message) = (words message).flatMap (space :: ·) := by
  have hspace : toupper space = space := by decide
  induction message with
  | nil => exact ⟨rfl, fun _ _ => rfl⟩
  | cons c cs ih =>
      by_cases hc : isLetter c = true
      · -- a letter joins the first part
        have hne := (isLetter_ne_space c hc).2
        obtain ⟨w, ws, hsplit⟩ := List.exists_cons_of_ne_nil
          (List.splitOn_ne_nil space (supportedText cs))
        have hcons : (supportedText (c :: cs)).splitOn space = (toupper c :: w) :: ws := by
          rw [supportedText_cons, if_pos (by simp [supported, hc]),
            List.splitOn_cons_eq_if_modifyHead, hsplit]
          simp [hne]
        rw [hsplit] at ih
        simp only [letters, hc, if_true, spelled_cons, ih.1, words, hcons]
        refine ⟨by simp [wordSep], ?_⟩
        intro g hg
        simp [wordSep, show g ≠ 3 by omega]
      · by_cases hs : c = space
        · -- a space starts a new part
          subst hs
          have hcons : (supportedText (space :: cs)).splitOn space =
              [] :: (supportedText cs).splitOn space := by
            rw [supportedText_cons, if_pos (by simp [supported]), hspace,
              List.splitOn_cons_eq_if_modifyHead]
            simp
          simp only [letters, hc, if_false, if_true, Bool.false_eq_true, words, hcons]
          constructor
          · simpa [words] using ih.2 (3 + 4) (by omega)
          · intro g hg
            simpa [words] using ih.2 (g + 4) (by omega)
        · -- anything else is not there
          have hcons : supportedText (c :: cs) = supportedText cs := by
            rw [supportedText_cons, if_neg (by simp [supported, hc, hs])]
          simp only [letters, hc, if_false, Bool.false_eq_true, if_neg hs, words, hcons]
          exact ih

/-- The letters of a message spell its normal form. -/
theorem spelled_normalise {message : CString} {k : Int} {c : UInt8} {inner : List Letter}
    (hk : 0 ≤ k) (hls : ∀ g, letters g message = ⟨g + k, c⟩ :: inner) :
    toupper c :: spelled wordSep inner = normalise message := by
  have hwords := (spelled_splitOn message).2 7 (by omega)
  rw [hls 7, spelled_cons] at hwords
  have hsep : wordSep (7 + k) = [space] := if_neg (by omega)
  rw [hsep] at hwords
  cases hw : words message with
  | nil =>
      rw [hw] at hwords
      simp at hwords
  | cons w ws =>
      rw [hw, List.flatMap_cons] at hwords
      rw [normalise, hw, intercalate_cons]
      simpa using hwords

/-! ## Single spaces -/

/-- At most one space between any two letters. -/
def SingleSpaced (message : CString) : Prop := ¬ [space, space] <:+: trimmed message

instance (message : CString) : Decidable (SingleSpaced message) :=
  inferInstanceAs (Decidable (¬ _))

theorem toupper_toupper : ∀ c : UInt8, toupper (toupper c) = toupper c ∧
    isLetter (toupper c) = isLetter c ∧ supported (toupper c) = supported c := by
  refine forall_byte ?_
  decide +kernel

/-- A letter in upper case. -/
def Letter.upper (l : Letter) : Letter := { l with char := toupper l.char }

theorem spelled_upper (sep : Int → CString) (ls : List Letter) :
    spelled sep (ls.map Letter.upper) = spelled sep ls := by
  induction ls with
  | nil => rfl
  | cons l ls ih => simp [Letter.upper, ih, (toupper_toupper l.char).1]

/-- The letters of the supported text are those of the message, in upper case. -/
theorem letters_supportedText (g : Int) (message : CString) :
    letters g (supportedText message) = (letters g message).map Letter.upper := by
  induction message generalizing g with
  | nil => rfl
  | cons c cs ih =>
      have hup := toupper_toupper c
      rw [supportedText_cons]
      by_cases hc : isLetter c = true
      · rw [if_pos (by simp [supported, hc])]
        simp only [letters, hup.2.1, hc, if_true, List.map_cons, ih]
        rfl
      · by_cases hs : c = space
        · subst hs
          rw [if_pos (by simp [supported])]
          have hspace : toupper space = space := by decide
          simp only [hspace, letters, hc, if_false, Bool.false_eq_true, if_true, ih]
        · rw [if_neg (by simp [supported, hc, hs])]
          simp only [letters, hc, if_false, Bool.false_eq_true, if_neg hs, ih]

/-- Two letters with one space between them are seven units apart. -/
theorem word_gap {message : CString} {a b : UInt8} (ha : isLetter a = true)
    (hb : isLetter b = true) (hpair : [a, space, b] <:+: supportedText message) {l : Letter}
    {ls : List Letter} (hls : letters 0 message = l :: ls) : ∃ l' ∈ ls, l'.gap = 7 := by
  rcases hpair with ⟨xs, ys, htext⟩
  have hspace : isLetter space = false := by decide
  have hpairs : ∀ g, letters g ([a, space, b] ++ ys) = ⟨g, a⟩ :: ⟨7, b⟩ :: letters 3 ys := by
    intro g
    simp [letters, ha, hb, hspace]
  have hall : letters 0 xs ++ ⟨gapAfter 0 xs, a⟩ :: ⟨7, b⟩ :: letters 3 ys =
      l.upper :: ls.map Letter.upper := by
    rw [← List.map_cons, ← hls, ← letters_supportedText, ← htext, List.append_assoc,
      letters_append, hpairs]
  have hmem : ⟨7, b⟩ ∈ ls.map Letter.upper := by
    cases hxs : letters 0 xs with
    | nil =>
        rw [hxs] at hall
        rw [← (List.cons.inj hall).2]
        exact List.mem_cons_self
    | cons x xs' =>
        rw [hxs] at hall
        rw [← (List.cons.inj hall).2]
        simp
  rcases List.mem_map.1 hmem with ⟨l', hl', heq⟩
  exact ⟨l', hl', congrArg Letter.gap heq⟩

/-- Spaces in front only make the gap longer. -/
theorem letters_lead {lead : CString} (h : ∀ c ∈ lead, c = space) (g : Int) (cs : CString) :
    letters g (lead ++ cs) = letters (g + 4 * lead.length) cs := by
  induction lead generalizing g with
  | nil => simp
  | cons c lead ih =>
      have hspace : isLetter space = false := by decide
      rw [h c List.mem_cons_self, List.cons_append]
      simp only [letters, hspace, Bool.false_eq_true, if_false, if_true,
        ih fun x hx => h x (List.mem_cons_of_mem c hx), List.length_cons]
      congr 1
      push_cast
      omega

/-- Spaces at the end are not seen. -/
theorem letters_trail {trail : CString} (h : ∀ c ∈ trail, c = space) (g : Int) (cs : CString) :
    letters g (cs ++ trail) = letters g cs := by
  induction cs generalizing g with
  | nil =>
      have hlead := letters_lead h g []
      rw [List.append_nil] at hlead
      rw [List.nil_append, hlead]
      rfl
  | cons c cs ih => simp only [List.cons_append, letters, ih]

/-- A text of letters with single spaces between them is spelled as it stands. -/
theorem spelled_single {sep : Int → CString} (h3 : sep 3 = []) (h7 : sep 7 = [space])
    {cs : CString} (hcs : ∀ c ∈ cs, supported c = true ∧ toupper c = c)
    (hsingle : ¬ [space, space] <:+: cs) (hlast : cs.getLast? ≠ some space) :
    (spelled sep (letters 3 cs) = cs ∧ ∀ l ∈ letters 3 cs, l.gap = 3 ∨ l.gap = 7) ∧
      (cs ≠ [] → cs.head? ≠ some space → spelled sep (letters 7 cs) = space :: cs ∧
        ∀ l ∈ letters 7 cs, l.gap = 3 ∨ l.gap = 7) := by
  induction cs with
  | nil => exact ⟨⟨rfl, by simp [letters]⟩, by simp⟩
  | cons c cs ih =>
      have hc := hcs c List.mem_cons_self
      have hlast' : cs.getLast? ≠ some space := by
        cases cs with
        | nil => simp
        | cons d cs => rwa [List.getLast?_cons_cons] at hlast
      have hrest := ih (fun x hx => hcs x (List.mem_cons_of_mem c hx))
        (fun hin => hsingle (hin.trans (List.suffix_cons c cs).isInfix)) hlast'
      by_cases hlet : isLetter c = true
      · simp only [letters, hlet, if_true, spelled_cons, hrest.1.1, hc.2, h3, h7,
          List.forall_mem_cons]
        exact ⟨⟨rfl, by simp, hrest.1.2⟩, fun _ _ => ⟨rfl, by simp, hrest.1.2⟩⟩
      · have hspace : c = space := by
          have := hc.1
          simpa [supported, hlet] using this
        subst hspace
        -- after a space comes a letter
        have hne : cs ≠ [] := by
          rintro rfl
          simp at hlast
        have hhead : cs.head? ≠ some space := by
          intro hhead
          obtain ⟨d, ds, rfl⟩ := List.exists_cons_of_ne_nil hne
          have hd : d = space := by simpa using hhead
          subst hd
          exact hsingle ⟨[], ds, rfl⟩
        have hseven := hrest.2 hne hhead
        refine ⟨?_, by simp⟩
        simp only [letters, hlet, if_false, Bool.false_eq_true, if_true]
        exact hseven

/-- What is left after trimming: supported characters in upper case, with a letter at
both ends. -/
theorem trimmed_spec (message : CString) :
    (∀ c ∈ trimmed message, supported c = true ∧ toupper c = c) ∧
      (trimmed message).head? ≠ some space ∧ (trimmed message).getLast? ≠ some space := by
  refine ⟨?_, ?_, ?_⟩
  · intro c hc
    have hmem : c ∈ supportedText message :=
      (List.dropWhile_sublist _).subset (List.rdropWhile_prefix _ _ |>.subset hc)
    rcases List.mem_map.1 hmem with ⟨b, hb, rfl⟩
    have hup := toupper_toupper b
    exact ⟨hup.2.2.trans (List.mem_filter.1 hb).2, hup.1⟩
  · intro hhead
    have hpre : trimmed message <+: (supportedText message).dropWhile (· == space) :=
      List.rdropWhile_prefix _ _
    rcases hpre with ⟨rest, hrest⟩
    have hnot := List.head?_dropWhile_not (· == space) (supportedText message)
    rw [← hrest, List.head?_append, hhead] at hnot
    simp at hnot
  · intro hlast
    have hne : trimmed message ≠ [] := by
      intro h
      simp [h] at hlast
    have hnot := List.rdropWhile_last_not _ _ hne
    rw [List.getLast?_eq_some_getLast hne] at hlast
    simp only [trimmed, Option.some.injEq] at hlast
    simp [hlast] at hnot

/-- The letters of a message are those of its trimmed text, after the spaces in front. -/
theorem letters_trimmed (message : CString) :
    ∃ m : Int, letters m (trimmed message) = (letters 0 message).map Letter.upper := by
  have hlead : ∀ c ∈ (supportedText message).takeWhile (· == space), c = space := by
    intro c hc
    simpa using List.mem_takeWhile_imp hc
  have htrail : ∀ c ∈ ((supportedText message).dropWhile (· == space)).rtakeWhile (· == space),
      c = space := by
    intro c hc
    simpa using List.mem_rtakeWhile_imp hc
  have hsplit : supportedText message =
      (supportedText message).takeWhile (· == space) ++ (trimmed message ++
        ((supportedText message).dropWhile (· == space)).rtakeWhile (· == space)) := by
    rw [trimmed, List.rdropWhile_append_rtakeWhile, List.takeWhile_append_dropWhile]
  refine ⟨0 + 4 * ((supportedText message).takeWhile (· == space)).length, ?_⟩
  rw [← letters_supportedText]
  conv_rhs => rw [hsplit, letters_lead hlead, letters_trail htrail]

/-- The letters of a message with single spaces spell its trimmed text, and its gaps
are those of letters and words. -/
theorem spelled_trimmed {sep : Int → CString} (h3 : sep 3 = []) (h7 : sep 7 = [space])
    {message : CString} (hsingle : SingleSpaced message) {k : Int} {c : UInt8}
    {inner : List Letter} (hls : ∀ g, letters g message = ⟨g + k, c⟩ :: inner) :
    toupper c :: spelled sep inner = trimmed message ∧ ∀ l ∈ inner, l.gap = 3 ∨ l.gap = 7 := by
  rcases trimmed_spec message with ⟨hchars, hhead, hlast⟩
  rcases letters_trimmed message with ⟨m, hm⟩
  rw [hls 0] at hm
  cases ht : trimmed message with
  | nil => simp [ht, letters] at hm
  | cons d ds =>
      rw [ht] at hm hchars hhead hlast
      have hd := hchars d List.mem_cons_self
      have hlet : isLetter d = true := by
        have hne : d ≠ space := by simpa using hhead
        simpa [supported, hne] using hd.1
      simp only [letters, hlet, if_true, List.map_cons, List.cons.injEq] at hm
      have hlast' : ds.getLast? ≠ some space := by
        cases ds with
        | nil => simp
        | cons e ds => rwa [List.getLast?_cons_cons] at hlast
      -- single spaces are still single in what comes after the first letter
      have hsp : ¬ [space, space] <:+: ds := by
        intro hin
        exact hsingle (ht ▸ hin.trans (List.suffix_cons d ds).isInfix)
      have hone := (spelled_single h3 h7 (fun x hx => hchars x (List.mem_cons_of_mem d hx))
        hsp hlast').1
      rw [hm.2] at hone
      constructor
      · rw [← spelled_upper, hone.1]
        have hdc : d = toupper c := congrArg Letter.char hm.1
        rw [hdc]
      · intro l hl
        exact hone.2 l.upper (List.mem_map_of_mem hl)

end Cse121
