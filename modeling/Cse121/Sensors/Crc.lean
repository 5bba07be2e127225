import Cse121.CString

/-! # The checksum of the Sensirion sensors

`crc_ok` of `lab2_2/main/main.c` and `crc_sensirion_2b` of `lab3_3/main/main.cpp`: two data
bytes go through a shift register that starts at 0xFF. The two are written alike.
-/

namespace Cse121

/-- One turn of the inner loop. -/
def crcStep (c : UInt8) : UInt8 := if c &&& 0x80 ≠ 0 then (c <<< 1) ^^^ 0x31 else c <<< 1

/-- The register after two data bytes. -/
def crcRegister (d0 d1 : UInt8) : UInt8 :=
  [d0, d1].foldl (fun c d => Nat.repeat crcStep 8 (c ^^^ d)) 0xFF

/-- `crc_ok` -/
def Lab22.crcOk (d0 d1 crc8 : UInt8) : Bool := crcRegister d0 d1 == crc8

/-- `crc_sensirion_2b` -/
def Lab33.crcSensirion2b (d0 d1 crc8 : UInt8) : Bool := crcRegister d0 d1 == crc8

example : Lab22.crcOk 0xBE 0xEF 0x92 = true := by decide +kernel

end Cse121
