import Cse121.CString
import Mathlib.Logic.Function.Basic

/-! # The character display

`lab3_3/components/lcd/DFRobot_lcd.cpp`: the calls of `DFRobot_LCD` that `app_main` makes,
on a display with two rows of 40 cells, at addresses from 0x00 and from 0x40. A transaction
that fails has no effect.
-/

namespace Cse121.Lab33

/-- The memory of the display and its address counter. -/
structure Lcd where
  ddram : Nat → UInt8
  ac : Nat

namespace Lcd

/-- The address counter runs through both rows in turn. -/
def advance (a : Nat) : Nat :=
  if a = 0x27 then 0x40 else if a = 0x67 then 0x00 else (a + 1) % 0x80

/-- A display after the clear command. -/
def cleared : Lcd := ⟨fun _ => space, 0⟩

/-- A data byte goes to the cell of the address counter. -/
def writeData (l : Lcd) (c : UInt8) : Lcd := ⟨Function.update l.ddram l.ac c, advance l.ac⟩

/-- `sendData`, when it succeeds. -/
def sendData (l : Lcd) (data : CString) : Lcd := data.foldl writeData l

/-- `sendCommand`, when it succeeds, of "set DDRAM address". -/
def sendCommand (l : Lcd) (cmd : UInt8) : Lcd := { l with ac := (cmd &&& 0x7F).toNat }

/-- `setCursor`. -/
def setCursor (l : Lcd) (col row : UInt8) (ok : Bool) : Lcd :=
  let addr := if row = 0 then 0x00 + col else 0x40 + col
  if ok then l.sendCommand (0x80 ||| addr) else l

/-- `printstr`. -/
def printstr (l : Lcd) (s : CString) (ok : Bool) : Lcd :=
  if ok then l.sendData s else l

/-- What is seen: the first 16 cells of each row. -/
def window (l : Lcd) : CString × CString :=
  ((List.range 16).map l.ddram, (List.range 16).map fun col => l.ddram (0x40 + col))

/-! ## Writing within a row -/

/-- A text that does not reach the end of a row goes to the cells from the address counter
on, and nowhere else. -/
theorem sendData_cell (s : CString) (l : Lcd) (hs : l.ac + s.length ≤ 0x27 ∨
    0x40 ≤ l.ac ∧ l.ac + s.length ≤ 0x67) (a : Nat) :
    (l.sendData s).ddram a =
      if l.ac ≤ a ∧ a < l.ac + s.length then s.getD (a - l.ac) space else l.ddram a := by
  induction s generalizing l with
  | nil =>
      have hno : ¬ (l.ac ≤ a ∧ a < l.ac + 0) := by omega
      rw [List.length_nil, if_neg hno]
      rfl
  | cons c s ih =>
      rw [List.length_cons] at hs
      have hnext : (l.writeData c).ac = l.ac + 1 := by
        simp only [writeData, advance]
        rw [if_neg (by omega), if_neg (by omega), Nat.mod_eq_of_lt (by omega)]
      have hrest := ih (l.writeData c) (by omega)
      have hstep : l.sendData (c :: s) = (l.writeData c).sendData s := rfl
      rw [hstep, hrest, hnext, List.length_cons]
      by_cases ha : a = l.ac
      · -- the cell of the first byte
        subst ha
        rw [if_neg (by omega), if_pos (by omega)]
        simp [writeData]
      · have hkept : (l.writeData c).ddram a = l.ddram a := Function.update_of_ne ha _ _
        by_cases hin : l.ac + 1 ≤ a ∧ a < l.ac + 1 + s.length
        · rw [if_pos hin, if_pos (by omega)]
          have hidx : a - l.ac = (a - (l.ac + 1)) + 1 := by omega
          rw [hidx, List.getD_cons_succ]
        · rw [if_neg hin, if_neg (by omega), hkept]

end Lcd

end Cse121.Lab33
