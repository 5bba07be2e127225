import Mathlib.Data.List.Basic
import Mathlib.Data.Nat.Bitwise

/-! # Reports of human interface devices

A device of this class tells its host what its reports look like by a report descriptor, a
list of short items. Global items set what all later fields share, local items what the
next field has, and a main item declares a field. A report is its fields one after the
other, the lowest bit of each first; the host reads from it which usage has which value.
-/

namespace Hid

/-! ## Short items -/

/-- A short item, its data lowest byte first. -/
structure Item where
  type : Nat
  tag : Nat
  data : List UInt8
deriving DecidableEq, Repr

/-- How many bytes of data follow a prefix. -/
def dataSize (pre : UInt8) : Nat :=
  if pre.toNat % 4 = 3 then 4 else pre.toNat % 4

/-- The items of a descriptor; every item has a byte at least, so its length is enough fuel. -/
def itemsFuel : Nat → List UInt8 → Option (List Item)
  | _, [] => some []
  | 0, _ :: _ => none
  | fuel + 1, pre :: rest =>
      if rest.length < dataSize pre then none
      else do
        let more ← itemsFuel fuel (rest.drop (dataSize pre))
        return ⟨pre.toNat / 4 % 4, pre.toNat / 16, rest.take (dataSize pre)⟩ :: more

def items (descriptor : List UInt8) : Option (List Item) :=
  itemsFuel descriptor.length descriptor

/-- The data as an unsigned number. -/
def Item.unsigned (i : Item) : Nat :=
  i.data.foldr (fun b n => b.toNat + 256 * n) 0

/-- The data as a signed number. -/
def Item.signed (i : Item) : Int :=
  if 2 * i.unsigned < 256 ^ i.data.length then i.unsigned
  else i.unsigned - 256 ^ i.data.length

/-! ## Fields -/

structure Usage where
  page : Nat
  id : Nat
deriving DecidableEq, Repr

inductive Direction where
  | input
  | output
  | feature
deriving DecidableEq, Repr

/-- What a main item declares. -/
structure Field where
  direction : Direction
  reportId : Nat
  isConstant : Bool
  isVariable : Bool
  isRelative : Bool
  usages : List Usage
  logicalMin : Int
  logicalMax : Int
  size : Nat
  count : Nat
deriving DecidableEq, Repr

/-- What the global items have set. -/
structure Globals where
  usagePage : Nat := 0
  logicalMin : Int := 0
  logicalMax : Int := 0
  size : Nat := 0
  count : Nat := 0
  reportId : Nat := 0
deriving DecidableEq, Repr

/-- What the local items have set since the last main item. -/
structure Locals where
  usages : List Usage := []
  usageMin : Nat := 0
deriving DecidableEq, Repr

/-- The reader of a descriptor. -/
structure Reader where
  globals : Globals := {}
  pushed : List Globals := []
  locals : Locals := {}
  depth : Nat := 0
  fields : List Field := []
deriving DecidableEq, Repr

/-- The field of a main item; bits 0 to 2 of its data are its flags. -/
def Reader.declare (r : Reader) (i : Item) (d : Direction) : Reader :=
  { r with
    locals := {}
    fields := r.fields ++
      [{ direction := d
         reportId := r.globals.reportId
         isConstant := i.unsigned.testBit 0
         isVariable := i.unsigned.testBit 1
         isRelative := i.unsigned.testBit 2
         usages := r.locals.usages
         logicalMin := r.globals.logicalMin
         logicalMax := r.globals.logicalMax
         size := r.globals.size
         count := r.globals.count }] }

def Reader.mainItem (r : Reader) (i : Item) : Option Reader :=
  match i.tag with
  | 8 => some (r.declare i .input)
  | 9 => some (r.declare i .output)
  | 11 => some (r.declare i .feature)
  | 10 => some { r with locals := {}, depth := r.depth + 1 }
  | 12 => if r.depth = 0 then none else some { r with locals := {}, depth := r.depth - 1 }
  | _ => none

/-- Units and physical bounds say nothing about where a field is. -/
def Reader.globalItem (r : Reader) (i : Item) : Option Reader :=
  match i.tag with
  | 0 => some { r with globals := { r.globals with usagePage := i.unsigned } }
  | 1 => some { r with globals := { r.globals with logicalMin := i.signed } }
  | 2 => some { r with globals := { r.globals with logicalMax := i.signed } }
  | 7 => some { r with globals := { r.globals with size := i.unsigned } }
  | 8 => some { r with globals := { r.globals with reportId := i.unsigned } }
  | 9 => some { r with globals := { r.globals with count := i.unsigned } }
  | 10 => some { r with pushed := r.globals :: r.pushed }
  | 11 => match r.pushed with
    | [] => none
    | g :: pushed => some { r with globals := g, pushed := pushed }
  | _ => some r

def Reader.localItem (r : Reader) (i : Item) : Option Reader :=
  let page := r.globals.usagePage
  match i.tag with
  | 0 => some { r with locals.usages := r.locals.usages ++ [⟨page, i.unsigned⟩] }
  | 1 => some { r with locals.usageMin := i.unsigned }
  | 2 => some { r with
      locals.usages := r.locals.usages ++
        (List.range (i.unsigned + 1 - r.locals.usageMin)).map
          fun k => ⟨page, r.locals.usageMin + k⟩ }
  | _ => some r

def Reader.item (r : Reader) (i : Item) : Option Reader :=
  match i.type with
  | 0 => r.mainItem i
  | 1 => r.globalItem i
  | 2 => r.localItem i
  | _ => none

/-- The fields that a descriptor declares, when its collections are closed. -/
def fields (descriptor : List UInt8) : Option (List Field) := do
  let is ← items descriptor
  let r ← is.foldlM Reader.item {}
  if r.depth = 0 then return r.fields else none

/-- The fields of a report, in order. -/
def inputs (fs : List Field) (reportId : Nat) : List Field :=
  fs.filter fun f => f.direction = .input ∧ f.reportId = reportId

/-! ## Bits -/

/-- The bits of a byte, lowest first. -/
def byteBits (b : UInt8) : List Bool := (List.range 8).map b.toNat.testBit

/-- The bits of a report, in the order of its fields. -/
def bits (report : List UInt8) : List Bool := report.flatMap byteBits

/-- The number with the given bits, lowest first. -/
def ofBits : List Bool → Nat
  | [] => 0
  | b :: bs => b.toNat + 2 * ofBits bs

theorem ofBits_testBit (x n : Nat) : ofBits ((List.range n).map x.testBit) = x % 2 ^ n := by
  induction n generalizing x with
  | zero => simp [ofBits, Nat.mod_one]
  | succ n ih =>
      have htail : (List.range n).map (x.testBit ∘ Nat.succ) =
          (List.range n).map (x / 2).testBit := by
        apply List.map_congr_left
        intro i _
        exact Nat.testBit_succ x i
      have hhead : (x.testBit 0).toNat = x % 2 := by
        rw [Nat.testBit_zero]
        rcases Nat.mod_two_eq_zero_or_one x with h | h <;> simp [h]
      rw [List.range_succ_eq_map, List.map_cons, List.map_map, ofBits, htail, ih, hhead,
        Nat.pow_succ', Nat.mod_mul]

@[simp] theorem ofBits_byteBits (b : UInt8) : ofBits (byteBits b) = b.toNat := by
  rw [byteBits, ofBits_testBit]
  exact Nat.mod_eq_of_lt b.toNat_lt

@[simp] theorem length_byteBits (b : UInt8) : (byteBits b).length = 8 := by
  simp [byteBits]

theorem length_bits (report : List UInt8) : (bits report).length = 8 * report.length := by
  induction report with
  | nil => rfl
  | cons b report ih =>
      simp only [bits, List.flatMap_cons, List.length_append, length_byteBits,
        List.length_cons] at ih ⊢
      omega

theorem byteBits_and (a b : UInt8) :
    byteBits (a &&& b) = List.zipWith and (byteBits a) (byteBits b) := by
  simp [byteBits, List.zipWith_map, List.zipWith_self, Nat.testBit_and]

theorem byteBits_or (a b : UInt8) :
    byteBits (a ||| b) = List.zipWith or (byteBits a) (byteBits b) := by
  simp [byteBits, List.zipWith_map, List.zipWith_self, Nat.testBit_or]

theorem mask_keep {xs : List Bool} {n : Nat} (h : xs.length = n) :
    List.zipWith or (List.zipWith and xs (List.replicate n true)) (List.replicate n false) =
      xs := by
  subst h
  induction xs with
  | nil => rfl
  | cons x xs ih => simpa [List.replicate_succ] using ih

theorem mask_set {xs v : List Bool} {n : Nat} (h : xs.length = n) (hv : v.length = n) :
    List.zipWith or (List.zipWith and xs (List.replicate n false)) v = v := by
  induction xs generalizing v n with
  | nil =>
      obtain rfl : v = [] := by rw [← List.length_eq_zero_iff, hv, ← h, List.length_nil]
      rfl
  | cons x xs ih =>
      cases v with
      | nil =>
          rw [← hv] at h
          exact absurd h (by simp)
      | cons y v =>
          subst h
          simpa [List.replicate_succ] using ih rfl (by simpa using hv)

/-- The bits under the ones of a mask stay; those under its zeros are set. -/
theorem byteBits_insert (b : UInt8) {mask x : UInt8} {lo n hi : Nat} {v : List Bool}
    (hv : v.length = n)
    (hmask : byteBits mask =
      List.replicate lo true ++ (List.replicate n false ++ List.replicate hi true))
    (hx : byteBits x = List.replicate lo false ++ (v ++ List.replicate hi false)) :
    byteBits ((b &&& mask) ||| x) =
      (byteBits b).take lo ++ (v ++ ((byteBits b).drop lo).drop n) := by
  have hlen : lo + (n + hi) = 8 := by
    have hlen := congrArg List.length hmask
    simp only [length_byteBits, List.length_append, List.length_replicate] at hlen
    exact hlen.symm
  have hsplit : byteBits b = (byteBits b).take lo ++
      (((byteBits b).drop lo).take n ++ ((byteBits b).drop lo).drop n) := by
    rw [List.take_append_drop, List.take_append_drop]
  have hlo : ((byteBits b).take lo).length = lo := by simp; omega
  have hmid : (((byteBits b).drop lo).take n).length = n := by simp; omega
  have hhi : (((byteBits b).drop lo).drop n).length = hi := by simp; omega
  rw [byteBits_or, byteBits_and, hmask, hx]
  generalize (byteBits b).take lo = p, ((byteBits b).drop lo).take n = q,
    ((byteBits b).drop lo).drop n = r at hsplit hlo hmid hhi ⊢
  rw [hsplit, List.zipWith_append (by simp [hlo]), List.zipWith_append (by simp [hlo]),
    List.zipWith_append (by simp [hmid]), List.zipWith_append (by simp [hmid, hv]),
    mask_keep hlo, mask_set hmid hv, mask_keep hhi]

/-! ## Reading -/

/-- How many bits a field takes. -/
def Field.width (f : Field) : Nat := f.size * f.count

/-- The value in the bits of one element, in two's complement if it may be negative. -/
def Field.value (f : Field) (bs : List Bool) : Int :=
  if f.logicalMin < 0 ∧ 2 ^ f.size ≤ 2 * ofBits bs then ofBits bs - 2 ^ f.size
  else ofBits bs

def Field.InRange (f : Field) (v : Int) : Prop := f.logicalMin ≤ v ∧ v ≤ f.logicalMax

instance (f : Field) (v : Int) : Decidable (f.InRange v) :=
  inferInstanceAs (Decidable (_ ∧ _))

/-- The usage of element `k`; the last one is that of all further elements. -/
def Field.usage (f : Field) (k : Nat) : Option Usage :=
  f.usages[k]? <|> f.usages.getLast?

/-- What element `k` tells. A value out of range is no value; that of a variable is the
value of its usage, that of an array element the number of the usage that is on. -/
def Field.element (f : Field) (k : Nat) (bs : List Bool) : Option (Usage × Int) :=
  let v := f.value bs
  if ¬ f.InRange v then none
  else if f.isVariable then (f.usage k).map (·, v)
  else f.usages[(v - f.logicalMin).toNat]?.map (·, 1)

theorem Field.element_variable {f : Field} (hvar : f.isVariable = true) {k : Nat} {u : Usage}
    (hu : f.usage k = some u) {bs : List Bool} {v : Int} (hv : f.value bs = v) :
    f.element k bs = if f.InRange v then some (u, v) else none := by
  unfold Field.element
  simp only [hv, hvar, hu, if_true, Option.map_some]
  by_cases h : f.InRange v <;> simp [h]

theorem Field.element_array {f : Field} (hvar : f.isVariable = false) (k : Nat)
    {bs : List Bool} {v : Int} (hv : f.value bs = v) :
    f.element k bs =
      if f.InRange v then f.usages[(v - f.logicalMin).toNat]?.map (·, 1) else none := by
  unfold Field.element
  simp only [hv, hvar]
  by_cases h : f.InRange v <;> simp [h]

/-- What a field tells. -/
def Field.read (f : Field) (bs : List Bool) : List (Usage × Int) :=
  if f.isConstant then []
  else (List.range f.count).filterMap fun k => f.element k ((bs.drop (k * f.size)).take f.size)

/-- A byte that may be negative. -/
theorem Field.value_int8 {f : Field} (hsize : f.size = 8) (hmin : f.logicalMin < 0) (x : Int8) :
    f.value (byteBits x.toUInt8) = x.toInt := by
  have hx : x.toInt = if 2 * x.toUInt8.toNat < 2 ^ 8 then (x.toUInt8.toNat : Int)
      else x.toUInt8.toNat - 2 ^ 8 := BitVec.toInt_eq_toNat_cond x.toBitVec
  rw [hx, Field.value, ofBits_byteBits, hsize]
  by_cases h : 2 * x.toUInt8.toNat < 2 ^ 8
  · rw [if_neg (by omega), if_pos h]
  · rw [if_pos (by omega), if_neg h]

/-- Reading a list of bits a byte at a time. -/
theorem filterMap_bits {α : Type*} (g : Nat → List Bool → Option α) (report : List UInt8) :
    ((List.range report.length).filterMap fun k => g k (((bits report).drop (k * 8)).take 8)) =
      report.zipIdx.filterMap fun p => g p.2 (byteBits p.1) := by
  induction report generalizing g with
  | nil => rfl
  | cons b report ih =>
      have hbits : bits (b :: report) = byteBits b ++ bits report := rfl
      have hfirst : (bits (b :: report)).take 8 = byteBits b := by
        rw [hbits, List.take_append_of_le_length (by simp)]
        exact List.take_of_length_le (by simp)
      have hrest : ∀ k, (bits (b :: report)).drop ((k + 1) * 8) = (bits report).drop (k * 8) := by
        intro k
        rw [hbits, List.drop_append, length_byteBits,
          List.drop_of_length_le (by rw [length_byteBits]; omega)]
        simp [Nat.add_mul]
      have hih := ih fun k => g (k + 1)
      rw [List.length_cons, List.range_succ_eq_map, List.zipIdx_cons, List.zipIdx_succ]
      simp only [List.filterMap_cons, List.filterMap_map, Function.comp_def, Nat.zero_mul,
        List.drop_zero, hfirst, hrest, Nat.succ_eq_add_one]
      rw [hih]

/-- A field of bytes is read byte by byte. -/
theorem Field.read_bits {f : Field} (hconst : f.isConstant = false) (hsize : f.size = 8)
    {report : List UInt8} (hcount : f.count = report.length) :
    f.read (bits report) = report.zipIdx.filterMap fun p => f.element p.2 (byteBits p.1) := by
  rw [Field.read, hconst, if_neg Bool.false_ne_true, hcount, hsize]
  exact filterMap_bits f.element report

/-- An array of bytes is read byte by byte. -/
theorem Field.read_array {f : Field} (hconst : f.isConstant = false) (hsize : f.size = 8)
    {report : List UInt8} (hcount : f.count = report.length) {g : UInt8 → Option (Usage × Int)}
    (hg : ∀ k b, f.element k (byteBits b) = g b) :
    f.read (bits report) = report.filterMap g := by
  have hfun : (fun p : UInt8 × Nat => f.element p.2 (byteBits p.1)) = g ∘ Prod.fst := by
    funext p
    exact hg p.2 p.1
  rw [Field.read_bits hconst hsize hcount, hfun, ← List.filterMap_map, List.zipIdx_map_fst]

/-- A field of flags, one for each of its usages. -/
theorem Field.read_flags {f : Field} (hconst : f.isConstant = false) (hvar : f.isVariable = true)
    (hsize : f.size = 1) (hmin : f.logicalMin = 0) (hmax : f.logicalMax = 1)
    (hcount : f.usages.length = f.count) {bs : List Bool} (hbs : bs.length = f.count) :
    f.read bs = List.zipWith (fun u b => (u, (b.toNat : Int))) f.usages bs := by
  have helement : ∀ k (hk : k < f.count), f.element k ((bs.drop (k * f.size)).take f.size) =
      some (f.usages[k], ((bs[k]).toNat : Int)) := by
    intro k hk
    have hone : (bs.drop (k * f.size)).take f.size = [bs[k]] := by
      rw [hsize, Nat.mul_one, List.drop_eq_getElem_cons (by omega)]
      rfl
    have hvalue : f.value [bs[k]] = ((bs[k]).toNat : Int) := by
      rw [Field.value, if_neg (by omega)]
      simp [ofBits]
    have husage : f.usage k = some f.usages[k] := by
      simp [Field.usage, List.getElem?_eq_getElem (show k < f.usages.length by omega)]
    have hflag : ((bs[k]).toNat : Int) ≤ 1 := by
      cases bs[k] <;> decide
    rw [hone, Field.element_variable hvar husage hvalue, if_pos]
    constructor
    · omega
    · omega
  rw [Field.read, hconst, if_neg Bool.false_ne_true]
  have hmap : ((List.range f.count).filterMap fun k =>
      f.element k ((bs.drop (k * f.size)).take f.size)) = (List.range f.count).map fun k =>
        (f.usages.getD k ⟨0, 0⟩, ((bs.getD k false).toNat : Int)) := by
    rw [← List.filterMap_eq_map]
    apply List.filterMap_congr
    intro k hk
    have hk : k < f.count := List.mem_range.1 hk
    rw [helement k hk]
    simp [hcount, hbs, hk]
  rw [hmap]
  apply List.ext_getElem (by simp [hcount, hbs])
  intro k hk hk'
  have hk : k < f.count := by simpa using hk
  simp [hcount, hbs, hk]

/-- What each of the fields tells. -/
def readings : List Field → List Bool → List (List (Usage × Int))
  | [], _ => []
  | f :: fs, bs => f.read (bs.take f.width) :: readings fs (bs.drop f.width)

theorem readings_append (f : Field) (fs : List Field) {a b : List Bool}
    (ha : a.length = f.width) : readings (f :: fs) (a ++ b) = f.read a :: readings fs b := by
  rw [readings, ← ha, List.take_left, List.drop_left]

/-- What a report tells, if it is long enough for its fields. -/
def read (fs : List Field) (report : List UInt8) : Option (List (List (Usage × Int))) :=
  if (bits report).length < (fs.map Field.width).sum then none
  else some (readings fs (bits report))

end Hid
