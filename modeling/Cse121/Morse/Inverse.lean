import Cse121.Morse.Code
import Mathlib.Data.List.Nodup

/-! # Reading undoes coding

`decode_morse` scans the table that `get_morse_code` indexes. Over any table of
36 different codes the one is the partial inverse of the other, the copies of
the table only have to pass that test.
-/

namespace Cse121

/-- `tolower` of the "C" locale. -/
def tolower (c : UInt8) : UInt8 :=
  if chr 'A' ≤ c ∧ c ≤ chr 'Z' then c + 32 else c

/-- The characters a code is read as: a capital letter or a digit. -/
def isCodeChar (c : UInt8) : Bool :=
  (chr 'A' ≤ c && c ≤ chr 'Z') || (chr '0' ≤ c && c ≤ chr '9')

/-- `decode` is the exact partial inverse of `encode`. -/
structure Inverts (decode : CString → UInt8) (encode : UInt8 → Option CString) : Prop where
  char : ∀ p c, isCodeChar c = true → (decode p = c ↔ encode c = some p)
  lower : ∀ c, encode (tolower c) = encode c
  nul : ∀ p, decode p = 0 ↔ p = []
  unknown : ∀ p, decode p = chr '?' ↔
    p ≠ [] ∧ ∀ c, isCodeChar c = true → encode c ≠ some p

/-! ## Code tables -/

/-- What the scans rely on: a code for each letter and digit, none of them empty,
no two of them alike. -/
structure CodeTable (table : List CString) : Prop where
  length : table.length = 36
  nodup : table.Nodup
  nonempty : [] ∉ table

/-- The character whose code is at index `i`. -/
def charAt (i : Nat) : UInt8 :=
  if i < 26 then chr 'A' + UInt8.ofNat i else chr '0' + UInt8.ofNat (i - 26)

/-- The place of a letter or digit in the table. -/
theorem exists_charAt : ∀ c, isCodeChar c = true → ∃ i < 36, charAt i = c := by
  refine forall_byte ?_
  decide +kernel

/-- A character of the table is none of NUL, `?` and the space. -/
theorem charAt_spec : ∀ i < 36, isCodeChar (charAt i) = true ∧ charAt i ≠ 0 ∧
    charAt i ≠ chr '?' ∧ charAt i ≠ space := by decide

/-- The letters are their own upper case and index the first half. -/
theorem letter_index : ∀ i < 26,
    toupper (charAt i) = charAt i ∧ chr 'A' ≤ charAt i ∧ charAt i ≤ chr 'Z' ∧
      (charAt i - chr 'A').toNat = i := by decide

/-- The digits index the second half. -/
theorem digit_index : ∀ i < 10,
    toupper (charAt (26 + i)) = charAt (26 + i) ∧ ¬ chr 'A' ≤ charAt (26 + i) ∧
      chr '0' ≤ charAt (26 + i) ∧ charAt (26 + i) ≤ chr '9' ∧
      (charAt (26 + i) - chr '0').toNat = i := by decide

/-- The code of a character is the entry at its index, in both halves. -/
theorem getMorseCodeIn_charAt (table : List CString) {i : Nat} (hi : i < 36) :
    getMorseCodeIn table (charAt i) = table[i]? := by
  rcases Nat.lt_or_ge i 26 with hlt | hge
  · rcases letter_index i hlt with ⟨hup, hA, hZ, hidx⟩
    simp only [getMorseCodeIn, hup, hA, hZ, and_self, if_true, hidx]
  · rcases Nat.exists_eq_add_of_le hge with ⟨k, rfl⟩
    rcases digit_index k (by omega) with ⟨hup, hA, h0, h9, hidx⟩
    simp only [getMorseCodeIn, hup, hA, h0, h9, false_and, if_false, and_self, if_true, hidx]

/-- Codes are looked up in either case. -/
theorem getMorseCodeIn_tolower (table : List CString) (c : UInt8) :
    getMorseCodeIn table (tolower c) = getMorseCodeIn table c := by
  have hup : ∀ c, toupper (tolower c) = toupper c := by
    refine forall_byte ?_
    decide +kernel
  simp only [getMorseCodeIn, hup]

/-! ## The scans -/

variable {table : List CString} {pattern : CString}

/-- Where the entries differ, a scan stops at the one entry that matches. -/
theorem find_entry (hnodup : table.Nodup) {n k i : Nat} (hi : i < n)
    (h : table[k + i]? = some pattern) :
    (List.range n).find? (fun i => table[k + i]? = some pattern) = some i := by
  rcases List.getElem?_eq_some_iff.1 h with ⟨hlt, hget⟩
  cases hf : (List.range n).find? (fun i => table[k + i]? = some pattern) with
  | none =>
    have := List.find?_eq_none.1 hf i (List.mem_range.2 hi)
    simp [h] at this
  | some j =>
    have hj : table[k + j]? = some pattern := by simpa using List.find?_some hf
    rcases List.getElem?_eq_some_iff.1 hj with ⟨hlt', hget'⟩
    have hkj : k + j = k + i := (hnodup.getElem_inj_iff).1 (hget'.trans hget.symm)
    rw [show j = i by omega]

/-- A scan passes over the half that does not hold the pattern. -/
theorem find_entry_none (hnodup : table.Nodup) {n k i : Nat} (hi : i < k ∨ k + n ≤ i)
    (h : table[i]? = some pattern) :
    (List.range n).find? (fun i => table[k + i]? = some pattern) = none := by
  rcases List.getElem?_eq_some_iff.1 h with ⟨hlt, hget⟩
  refine List.find?_eq_none.2 fun j hj => ?_
  have hj := List.mem_range.1 hj
  intro hp
  rcases List.getElem?_eq_some_iff.1 (by simpa using hp) with ⟨hlt', hget'⟩
  have hkj : k + j = i := (hnodup.getElem_inj_iff).1 (hget'.trans hget.symm)
  omega

/-- The entry at `i` is read as the character at `i`. -/
theorem decodeMorseIn_entry (ht : CodeTable table) {i : Nat} (h : table[i]? = some pattern) :
    decodeMorseIn table pattern = charAt i := by
  have hi : i < 36 := by
    have := (List.getElem?_eq_some_iff.1 h).1
    rwa [ht.length] at this
  have hne : ¬ pattern.length = 0 := by
    rintro h0
    rw [List.length_eq_zero_iff.1 h0] at h
    exact ht.nonempty (List.mem_of_getElem? h)
  rcases Nat.lt_or_ge i 26 with hlt | hge
  · -- a letter: the first scan finds it
    have hfind := find_entry (k := 0) ht.nodup hlt (by simpa using h)
    simp only [Nat.zero_add] at hfind
    simp only [decodeMorseIn, if_neg hne, hfind, charAt, if_pos hlt]
  · -- a digit: the first scan passes it over, the second finds it
    rcases Nat.exists_eq_add_of_le hge with ⟨k, rfl⟩
    have hpass := find_entry_none (k := 0) (n := 26) ht.nodup (by omega) h
    simp only [Nat.zero_add] at hpass
    have hfind := find_entry ht.nodup (n := 10) (by omega) h
    have hge : ¬ 26 + k < 26 := by omega
    simp only [decodeMorseIn, if_neg hne, hpass, hfind, charAt, if_neg hge,
      Nat.add_sub_cancel_left]

/-- What is not in the table is unknown: neither scan finds it. -/
theorem decodeMorseIn_not_mem (hne : pattern ≠ []) (h : pattern ∉ table) :
    decodeMorseIn table pattern = chr '?' := by
  have hlen : ¬ pattern.length = 0 := by simpa using hne
  have hscan : ∀ n k, (List.range n).find? (fun i => table[k + i]? = some pattern) = none := by
    intro n k
    refine List.find?_eq_none.2 fun i _ hi => h ?_
    exact List.mem_of_getElem? (by simpa using hi)
  have hfirst := hscan 26 0
  simp only [Nat.zero_add] at hfirst
  simp only [decodeMorseIn, if_neg hlen, hfirst, hscan]

/-- The three readings: nothing, a character of the table by its own code, or unknown. -/
theorem decodeMorseIn_readings (ht : CodeTable table) (pattern : CString) :
    (pattern = [] ∧ decodeMorseIn table pattern = 0) ∨
    (pattern ≠ [] ∧ ∃ i < 36, table[i]? = some pattern ∧
      decodeMorseIn table pattern = charAt i) ∨
    (pattern ≠ [] ∧ pattern ∉ table ∧ decodeMorseIn table pattern = chr '?') := by
  by_cases hnil : pattern = []
  · exact Or.inl ⟨hnil, by simp [decodeMorseIn, hnil]⟩
  by_cases hmem : pattern ∈ table
  · rcases List.mem_iff_getElem?.1 hmem with ⟨i, hi⟩
    have hlt := (List.getElem?_eq_some_iff.1 hi).1
    rw [ht.length] at hlt
    exact Or.inr (Or.inl ⟨hnil, i, hlt, hi, decodeMorseIn_entry ht hi⟩)
  · exact Or.inr (Or.inr ⟨hnil, hmem, decodeMorseIn_not_mem hnil hmem⟩)

/-! ## The inverse -/

/-- Over a good table, reading is the partial inverse of coding. -/
theorem CodeTable.inverts (ht : CodeTable table) :
    Inverts (decodeMorseIn table) (getMorseCodeIn table) where
  char := by
    intro p c hc
    rcases exists_charAt c hc with ⟨i, hi, rfl⟩
    rw [getMorseCodeIn_charAt table hi]
    constructor
    · intro h
      rcases charAt_spec i hi with ⟨-, h0, hq, -⟩
      rcases decodeMorseIn_readings ht p with ⟨-, hp⟩ | ⟨-, j, hj, hp, hd⟩ | ⟨-, -, hp⟩
      · exact absurd (h.symm.trans hp) h0
      · rw [← getMorseCodeIn_charAt table hi, ← h, hd, getMorseCodeIn_charAt table hj, hp]
      · exact absurd (h.symm.trans hp) hq
    · exact decodeMorseIn_entry ht
  lower := getMorseCodeIn_tolower table
  nul := by
    intro p
    rcases decodeMorseIn_readings ht p with ⟨hnil, hp⟩ | ⟨hne, j, hj, -, hd⟩ | ⟨hne, -, hp⟩
    · exact iff_of_true hp hnil
    · exact iff_of_false (hd ▸ (charAt_spec j hj).2.1) hne
    · exact iff_of_false (hp ▸ by decide) hne
  unknown := by
    intro p
    rcases decodeMorseIn_readings ht p with ⟨hnil, hp⟩ | ⟨hne, j, hj, hp, hd⟩ | ⟨hne, hmem, hp⟩
    · exact iff_of_false (hp ▸ by decide) fun h => h.1 hnil
    · refine iff_of_false (hd ▸ (charAt_spec j hj).2.2.1) fun h => ?_
      exact h.2 (charAt j) (charAt_spec j hj).1 ((getMorseCodeIn_charAt table hj).trans hp)
    · refine iff_of_true hp ⟨hne, fun c hc hcode => hmem ?_⟩
      rcases exists_charAt c hc with ⟨i, hi, rfl⟩
      rw [getMorseCodeIn_charAt table hi] at hcode
      exact List.mem_of_getElem? hcode

/-- The table of the programs is good. -/
theorem morseTable_codeTable : CodeTable Lab51.morseTable where
  length := rfl
  nodup := by decide +kernel
  nonempty := by decide

theorem decodeMorse_inverts : Inverts Lab52.decodeMorse Lab51.getMorseCode :=
  morseTable_codeTable.inverts

/-- Every receiver reads exactly what every sender codes. -/
theorem decodeMorse_inverts_getMorseCode :
    Inverts Lab52.decodeMorse Lab51.getMorseCode ∧
    Inverts Lab52.decodeMorse Lab53.Sender.getMorseCode ∧
    Inverts Lab53.Receiver.decodeMorse Lab51.getMorseCode ∧
    Inverts Lab53.Receiver.decodeMorse Lab53.Sender.getMorseCode := by
  have h := decodeMorse_inverts
  rw [sender_codes_agree, receiver_codes_agree]
  exact ⟨h, h, h, h⟩

/-! ## What the links read -/

/-- No code is longer than five symbols. -/
theorem morseTable_length : ∀ code ∈ Lab52.morseTable, code.length ≤ 5 := by decide

/-- A pattern longer than every code is unknown. -/
theorem decodeMorse_long {pattern : CString} (h : 5 < pattern.length) :
    Lab52.decodeMorse pattern = chr '?' := by
  refine decodeMorseIn_not_mem ?_ fun hmem => ?_
  · rintro rfl
    simp at h
  · have := morseTable_length pattern hmem
    omega

/-- Cutting a pattern to nine symbols does not change what is read. -/
theorem decodeMorse_take (pattern : CString) :
    Lab52.decodeMorse (pattern.take 9) = Lab52.decodeMorse pattern := by
  rcases Nat.lt_or_ge 9 pattern.length with h | h
  · have hcut : (pattern.take 9).length = 9 := by simp; omega
    rw [decodeMorse_long (by omega), decodeMorse_long (by omega)]
  · rw [List.take_of_length_le h]

/-- NUL is read only from the empty pattern. -/
theorem decodeMorse_ne_zero {pattern : CString} (h : pattern ≠ []) :
    Lab52.decodeMorse pattern ≠ 0 :=
  fun h0 => h ((decodeMorse_inverts.nul pattern).1 h0)

/-- A space is never read. -/
theorem decodeMorse_ne_space (pattern : CString) : Lab52.decodeMorse pattern ≠ space := by
  unfold Lab52.decodeMorse
  rcases decodeMorseIn_readings morseTable_codeTable pattern with
    ⟨-, hp⟩ | ⟨-, i, hi, -, hp⟩ | ⟨-, -, hp⟩
  · exact fun hs => absurd (hp.symm.trans hs) (by decide)
  · exact fun hs => (charAt_spec i hi).2.2.2 (hp.symm.trans hs)
  · exact fun hs => absurd (hp.symm.trans hs) (by decide)

/-- A letter is read from its code only. -/
theorem eq_codeOf_of_decodeMorse {pattern : CString} {c : UInt8} (hc : isLetter c = true)
    (h : Lab52.decodeMorse pattern = toupper c) : pattern = codeOf c := by
  have hread := (codeOf_spec c hc).2.2.2.2
  have hcode := (decodeMorse_inverts.char (codeOf c) (toupper c) hc).1 hread
  have hpattern := (decodeMorse_inverts.char pattern (toupper c) hc).1 h
  exact Option.some.inj (hpattern.symm.trans hcode)

/-- The code of a character of the table is the entry that it is read from. -/
theorem codeOf_charAt {pattern : CString} {i : Nat} (hi : i < 36)
    (h : Lab51.morseTable[i]? = some pattern) : codeOf (charAt i) = pattern := by
  rw [codeOf, Lab51.getMorseCode, getMorseCodeIn_charAt _ hi, h]
  rfl

end Cse121
