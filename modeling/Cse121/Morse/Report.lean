import Cse121.Morse.Text
import Mathlib.Algebra.Order.Field.Rat

/-! # What the sender of lab 5.3 reports

After its first loop `send_message` of `lab5_3/sender/send.c` counts the characters of
the message again and prints the count as the characters sent, and the speed that it
makes. The first loop leaves out what has no code; the second counts all but the space.
The times are in exact arithmetic; a message is a program argument, too short for the
`int` that counts it to overflow.
-/

namespace Cse121.Lab53.Sender

/-- `struct timespec` -/
structure Timespec where
  tvSec : Int
  tvNsec : Int
deriving DecidableEq, Repr

/-- `elapsed` of `send_message` -/
def elapsed (start stop : Timespec) : ℚ :=
  (stop.tvSec - start.tvSec) + (stop.tvNsec - start.tvNsec) / 1000000000

/-- The second loop of `send_message`. -/
def charCount (message : CString) : Nat :=
  message.foldl (fun charCount c => if c ≠ space then charCount + 1 else charCount) 0

/-- The values of the last three lines that `send_message` prints. -/
structure Report where
  elapsed : ℚ
  charCount : Nat
  actualSpeed : ℚ

/-- `send_message` from its second `clock_gettime` on. -/
def report (start stop : Timespec) (message : CString) : Report :=
  { elapsed := elapsed start stop
    charCount := charCount message
    actualSpeed := charCount message / elapsed start stop }

/-- The first loop transmits a character whose code is not the word separator. -/
def isTransmitted (c : UInt8) : Bool :=
  match getMorseCode c with
  | some morse => morse ≠ bytes "/"
  | none => false

/-- The characters that the first loop transmits. -/
def transmitted (message : CString) : CString := message.filter isTransmitted

/-- The report is about what was sent. -/
def Report.OfSent (r : Report) (message : CString) : Prop :=
  r.charCount = (transmitted message).length ∧
    r.actualSpeed = (transmitted message).length / r.elapsed

/-! ## The two loops -/

/-- The letters and digits are transmitted. -/
theorem isTransmitted_eq (c : UInt8) : isTransmitted c = isLetter c := by
  by_cases hc : isLetter c = true
  · have hcode : getMorseCode c = some (codeOf c) := (codeOf_spec c hc).1
    simp only [isTransmitted, hcode, hc, codeOf_ne_separator c hc, ne_eq, not_false_eq_true,
      decide_true]
  · have hc' : isLetter c = false := by simpa using hc
    by_cases hs : c = space
    · have hcode : getMorseCode c = some (bytes "/") := hs ▸ getMorseCode_space
      simp only [isTransmitted, hcode, hc', ne_eq, not_true_eq_false, decide_false]
    · have hcode : getMorseCode c = none := getMorseCode_other c hc' hs
      simp only [isTransmitted, hcode, hc']

/-- What is transmitted are the letters of the pulse train. -/
theorem letters_transmitted (g : Int) (message : CString) :
    (letters g message).map Letter.char = transmitted message := by
  rw [letters_chars, transmitted, funext isTransmitted_eq]

/-- A letter is transmitted and counted, a space neither, anything else only counted. -/
theorem charCount_append (xs : CString) (c : UInt8) :
    charCount (xs ++ [c]) = if c ≠ space then charCount xs + 1 else charCount xs := by
  simp only [charCount, List.foldl_append, List.foldl_cons, List.foldl_nil]

/-- The count is what was transmitted and what was left out. -/
theorem charCount_eq (message : CString) :
    charCount message =
      (transmitted message).length + (message.filter fun c => ¬ supported c).length := by
  induction message using List.reverseRecOn with
  | nil => rfl
  | append_singleton xs c ih =>
      rw [charCount_append, ih]
      simp only [transmitted, List.filter_append, List.length_append, List.filter_singleton,
        isTransmitted_eq, supported]
      by_cases hc : isLetter c = true
      · simp [hc, (isLetter_ne_space c hc).1]
        omega
      · by_cases hs : c = space
        · have hspace : isLetter space = false := by decide
          simp [hs, hspace]
        · simp [hc, hs]
          omega

/-! ## The report -/

/-- The report is about what was sent exactly for messages of letters, digits and
spaces. -/
theorem report_ofSent_iff (start stop : Timespec) (message : CString) :
    (report start stop message).OfSent message ↔ ∀ c ∈ message, supported c = true := by
  have hcount : charCount message = (transmitted message).length ↔
      ∀ c ∈ message, supported c = true := by
    rw [charCount_eq, Nat.add_eq_left, List.length_eq_zero_iff, List.filter_eq_nil_iff]
    simp
  rw [← hcount]
  constructor
  · intro h
    exact h.1
  · intro h
    exact ⟨h, by simp only [report, h]⟩

/-- A comma is counted, not sent. -/
theorem comma_counted :
    ¬ ∀ start stop message, (report start stop message).OfSent message := by
  intro h
  have hcount : charCount (bytes "a,b") = 3 := by decide
  have hsent : transmitted (bytes "a,b") = bytes "ab" := by decide
  have := (h ⟨0, 0⟩ ⟨1, 0⟩ (bytes "a,b")).1
  rw [hsent] at this
  exact absurd (hcount.symm.trans this) (by decide)

end Cse121.Lab53.Sender
