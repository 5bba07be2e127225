import Mathlib.Data.List.Basic

/-! # C strings

A C string is the list of the bytes before its terminator.
-/

namespace Cse121

/-- A C string: its bytes, without the terminating NUL. -/
abbrev CString := List UInt8

/-- A C character constant. -/
def chr (c : Char) : UInt8 := c.toUInt8

/-- A C string literal. -/
def bytes (s : String) : CString := s.toList.map chr

def space : UInt8 := chr ' '
def newline : UInt8 := chr '\n'

end Cse121
