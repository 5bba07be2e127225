import Cse121.CString
import Mathlib.Data.List.Basic
import Mathlib.Data.UInt

/-! # The Morse code of the four programs

`morse_table` is copied by hand into `lab5_1/send.c`, `lab5_2/main/lab5_2.c`,
`lab5_3/receiver/main/lab5_3.c` and `lab5_3/sender/send.c`; the senders look
characters up in it and the receivers scan it. Each copy is kept here under its
program's name, the functions that use it are written once over a table.
-/

namespace Cse121

def dot : UInt8 := chr '.'
def dash : UInt8 := chr '-'

/-- `toupper` of the "C" locale. -/
def toupper (c : UInt8) : UInt8 :=
  if chr 'a' ≤ c ∧ c ≤ chr 'z' then c - 32 else c

/-- `get_morse_code` over a table; `none` is the null pointer. -/
def getMorseCodeIn (table : List CString) (c : UInt8) : Option CString :=
  let c := toupper c
  if chr 'A' ≤ c ∧ c ≤ chr 'Z' then table[(c - chr 'A').toNat]?
  else if chr '0' ≤ c ∧ c ≤ chr '9' then table[26 + (c - chr '0').toNat]?
  else if c = space then some (bytes "/")
  else none

/-- `decode_morse` over a table: two first-match scans. -/
def decodeMorseIn (table : List CString) (pattern : CString) : UInt8 :=
  if pattern.length = 0 then 0
  else
    match (List.range 26).find? fun i => table[i]? = some pattern with
    | some i => chr 'A' + UInt8.ofNat i
    | none =>
      match (List.range 10).find? fun i => table[26 + i]? = some pattern with
      | some i => chr '0' + UInt8.ofNat i
      | none => chr '?'

namespace Lab51

/-- `morse_table` of `lab5_1/send.c`. -/
def morseTable : List CString :=
  [ -- A to M
   ".-", "-...", "-.-.", "-..", ".", "..-.", "--.", "....", "..", ".---", "-.-", ".-..", "--",
   -- N to Z
   "-.", "---", ".--.", "--.-", ".-.", "...", "-", "..-", "...-", ".--", "-..-", "-.--", "--..",
   -- 0 to 9
   "-----", ".----", "..---", "...--", "....-", ".....", "-....", "--...", "---..",
   "----."].map bytes

def getMorseCode : UInt8 → Option CString := getMorseCodeIn morseTable

end Lab51

namespace Lab52

/-- `morse_table` of `lab5_2/main/lab5_2.c`. -/
def morseTable : List CString :=
  [ -- A to M
   ".-", "-...", "-.-.", "-..", ".", "..-.", "--.", "....", "..", ".---", "-.-", ".-..", "--",
   -- N to Z
   "-.", "---", ".--.", "--.-", ".-.", "...", "-", "..-", "...-", ".--", "-..-", "-.--", "--..",
   -- 0 to 9
   "-----", ".----", "..---", "...--", "....-", ".....", "-....", "--...", "---..",
   "----."].map bytes

def decodeMorse : CString → UInt8 := decodeMorseIn morseTable

end Lab52

namespace Lab53.Receiver

/-- `morse_table` of `lab5_3/receiver/main/lab5_3.c`. -/
def morseTable : List CString :=
  [ -- A to M
   ".-", "-...", "-.-.", "-..", ".", "..-.", "--.", "....", "..", ".---", "-.-", ".-..", "--",
   -- N to Z
   "-.", "---", ".--.", "--.-", ".-.", "...", "-", "..-", "...-", ".--", "-..-", "-.--", "--..",
   -- 0 to 9
   "-----", ".----", "..---", "...--", "....-", ".....", "-....", "--...", "---..",
   "----."].map bytes

def decodeMorse : CString → UInt8 := decodeMorseIn morseTable

end Lab53.Receiver

namespace Lab53.Sender

/-- `morse_table` of `lab5_3/sender/send.c`. -/
def morseTable : List CString :=
  [ -- A to M
   ".-", "-...", "-.-.", "-..", ".", "..-.", "--.", "....", "..", ".---", "-.-", ".-..", "--",
   -- N to Z
   "-.", "---", ".--.", "--.-", ".-.", "...", "-", "..-", "...-", ".--", "-..-", "-.--", "--..",
   -- 0 to 9
   "-----", ".----", "..---", "...--", "....-", ".....", "-....", "--...", "---..",
   "----."].map bytes

def getMorseCode : UInt8 → Option CString := getMorseCodeIn morseTable

end Lab53.Sender

/-! ## The copies agree -/

/-- The two senders look up the same codes. -/
theorem sender_codes_agree : Lab53.Sender.getMorseCode = Lab51.getMorseCode := rfl

/-- The two receivers decode alike. -/
theorem receiver_codes_agree : Lab53.Receiver.decodeMorse = Lab52.decodeMorse := rfl

/-! ## Letters and digits -/

/-- The characters that have a code of their own, in either case. -/
def isLetter (c : UInt8) : Bool :=
  (chr 'A' ≤ toupper c && toupper c ≤ chr 'Z') || (chr '0' ≤ toupper c && toupper c ≤ chr '9')

/-- The code of a letter or digit. -/
def codeOf (c : UInt8) : CString := (Lab51.getMorseCode c).getD []

/-- A statement about all bytes is a statement about 256 numbers. -/
theorem forall_byte {P : UInt8 → Prop} (h : ∀ n : Fin 256, P (UInt8.ofNat n)) (c : UInt8) :
    P c := by
  have hc := h ⟨c.toNat, c.toNat_lt⟩
  simpa using hc

/-- A letter has a code of dots and dashes, at most five, which is read back as
the letter in upper case. -/
theorem codeOf_spec : ∀ c : UInt8, isLetter c = true →
    Lab51.getMorseCode c = some (codeOf c) ∧ codeOf c ≠ [] ∧ (codeOf c).length ≤ 5 ∧
      (∀ s ∈ codeOf c, s = dot ∨ s = dash) ∧ Lab52.decodeMorse (codeOf c) = toupper c := by
  refine forall_byte ?_
  decide +kernel

/-- A space is sent as a word separator. -/
theorem getMorseCode_space : Lab51.getMorseCode space = some (bytes "/") := by decide

/-- Nothing else is sent. -/
theorem getMorseCode_other : ∀ c : UInt8, isLetter c = false → c ≠ space →
    Lab51.getMorseCode c = none := by
  refine forall_byte ?_
  decide +kernel

/-- A letter is not a space, and neither is its upper case. -/
theorem isLetter_ne_space : ∀ c : UInt8, isLetter c = true → c ≠ space ∧ toupper c ≠ space := by
  refine forall_byte ?_
  decide +kernel

end Cse121
