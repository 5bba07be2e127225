import Cse121.Display.Lcd
import Cse121.Lib.Printf
import Mathlib.Data.List.GetD
import Mathlib.Data.List.Induction
import Mathlib.Tactic.NormNum

/-! # The display loop

`lab3_3/main/main.cpp`: every iteration of `app_main` writes the labels again, and the two
fields if the sensor could be read. The results of the display calls are not looked at.
-/

namespace Cse121.Lab33

/-! ## The fields -/

/-- A text at a width, filled with blanks on the right. -/
def padRight (width : Nat) (text : CString) : CString :=
  text.take width ++ List.replicate (width - text.length) space

/-- The texts of a reading, in `buf[16]` and `rhval[8]`. -/
structure Fields where
  buf : CString
  buf_le : buf.length ≤ 15
  rhval : CString
  rhval_le : rhval.length ≤ 7

/-- `rhfield`: the value at the start of nine blanks. -/
def Fields.rhfield (f : Fields) : CString :=
  let n := if f.rhval.length > 9 then 9 else f.rhval.length
  f.rhval.take n ++ (List.replicate 9 space).drop n

/-- `roundf`: the nearest integer, away from zero of two. -/
def roundf (x : ℚ) : Int := if 0 ≤ x then ⌊x + 1 / 2⌋ else -⌊-x + 1 / 2⌋

/-- The fields of a temperature and a humidity, in exact arithmetic. A temperature that is
rounded to zero keeps its sign. -/
def fields (tC rh : ℚ) : Fields where
  buf := (Printf.padLeft 5 (Printf.fixed 1 (decide (tC - 2 < 0))
    (|roundf ((tC - 2) * 10)| / 10)) ++ bytes "C ").take 15
  buf_le := List.length_take_le _ _
  rhval := (Printf.padLeft 3 (Printf.signed (roundf rh)) ++ bytes "%").take 7
  rhval_le := List.length_take_le _ _

example : (fields 23 45).buf = bytes " 21.0C " ∧ (fields 23 45).rhval = bytes " 45%" ∧
    (fields (199 / 100) 100).buf = bytes " -0.0C " ∧
    (fields (199 / 100) 100).rhval = bytes "100%" := by
  decide +kernel

/-! ## The loop -/

/-- One iteration: which display calls succeed, and what the sensor gives. -/
structure Turn where
  tempCursor : Bool
  tempLabel : Bool
  humCursor : Bool
  humLabel : Bool
  reading : Option Fields
  tCursor : Bool
  tField : Bool
  rhCursor : Bool
  rhField : Bool

/-- An iteration without a failure. -/
def Turn.clean (f : Fields) : Turn := ⟨true, true, true, true, some f, true, true, true, true⟩

def colVal : UInt8 := 7

/-- `setCursor` and then `printstr`. -/
def Lcd.put (l : Lcd) (col row : UInt8) (s : CString) (cursorOk printOk : Bool) : Lcd :=
  (l.setCursor col row cursorOk).printstr s printOk

/-- The body of the loop of `app_main`. -/
def iteration (l : Lcd) (t : Turn) : Lcd :=
  let l := l.put 0 0 (bytes "Temp:") t.tempCursor t.tempLabel
  let l := l.put 0 1 (bytes "Hum :") t.humCursor t.humLabel
  match t.reading with
  | none => l
  | some f =>
    let l := l.put colVal 0 f.buf t.tCursor t.tField
    l.put colVal 1 f.rhfield t.rhCursor t.rhField

/-- The display after some iterations, from a cleared one on. -/
def appMain (ts : List Turn) : Lcd := ts.foldl iteration Lcd.cleared

/-- What the display should show: in each row the label, two blanks and the field. -/
def shown (f : Fields) : CString × CString :=
  (bytes "Temp:" ++ bytes "  " ++ padRight 9 f.buf,
   bytes "Hum :" ++ bytes "  " ++ padRight 9 f.rhval)

/-! ## One call -/

/-- The address that `setCursor` sets. -/
def start (col row : UInt8) : Nat :=
  ((0x80 ||| if row = 0 then 0x00 + col else 0x40 + col) &&& 0x7F).toNat

/-- The text stays in the row it starts in. -/
def Fits (col row : UInt8) (s : CString) : Prop :=
  start col row + s.length ≤ 0x27 ∨ 0x40 ≤ start col row ∧ start col row + s.length ≤ 0x67

theorem put_cell (l : Lcd) {col row : UInt8} {s : CString} (hs : Fits col row s) (a : Nat) :
    (l.put col row s true true).ddram a =
      if start col row ≤ a ∧ a < start col row + s.length then s.getD (a - start col row) space
      else l.ddram a :=
  Lcd.sendData_cell s (l.setCursor col row true) hs a

/-- A text that is only printed after its cursor was set leaves the other cells. -/
theorem put_other (l : Lcd) {col row : UInt8} {s : CString} (hs : Fits col row s)
    {cursorOk printOk : Bool} (hok : printOk = true → cursorOk = true) {a : Nat}
    (ha : ¬ (start col row ≤ a ∧ a < start col row + s.length)) :
    (l.put col row s cursorOk printOk).ddram a = l.ddram a := by
  cases printOk with
  | false =>
      cases cursorOk with
      | false => rfl
      | true => rfl
  | true =>
      obtain rfl := hok rfl
      rw [put_cell l hs, if_neg ha]

theorem fits_temp : Fits 0 0 (bytes "Temp:") := by
  unfold Fits
  decide

theorem fits_hum : Fits 0 1 (bytes "Hum :") := by
  unfold Fits
  decide

theorem fits_buf (f : Fields) : Fits colVal 0 f.buf := by
  have hstart : start colVal 0 = 7 := by decide
  have hle := f.buf_le
  unfold Fits
  omega

@[simp] theorem rhfield_length (f : Fields) : f.rhfield.length = 9 := by
  have hle := f.rhval_le
  unfold Fields.rhfield
  rw [if_neg (by omega)]
  simp
  omega

theorem fits_rhfield (f : Fields) : Fits colVal 1 f.rhfield := by
  have hstart : start colVal 1 = 0x47 := by decide
  have hlen := rhfield_length f
  unfold Fits
  omega

/-! ## An iteration without a failure -/

theorem padRight_getD (width : Nat) (s : CString) {i : Nat} (hi : i < width) :
    (padRight width s).getD i space = s.getD i space := by
  unfold padRight
  by_cases h : i < s.length
  · rw [List.getD_append _ _ _ _ (by simp; omega), List.getD_eq_getElem _ _ (by simp; omega),
      List.getElem_take, List.getD_eq_getElem _ _ h]
  · rw [List.getD_append_right _ _ _ _ (by simp; omega), List.getD_eq_default s _ (by omega)]
    exact List.getD_replicate space (by simp; omega)

theorem rhfield_eq (f : Fields) : f.rhfield = padRight 9 f.rhval := by
  have hle := f.rhval_le
  unfold Fields.rhfield padRight
  rw [if_neg (by omega : ¬ f.rhval.length > 9)]
  simp only [List.drop_replicate]
  rw [List.take_of_length_le le_rfl, List.take_of_length_le (by omega : f.rhval.length ≤ 9)]

/-- What an iteration without a failure leaves in each cell. -/
theorem clean_cell (l : Lcd) (f : Fields) (a : Nat) :
    (iteration l (.clean f)).ddram a =
      if 0x47 ≤ a ∧ a < 0x50 then f.rhval.getD (a - 0x47) space
      else if 7 ≤ a ∧ a < 7 + f.buf.length then f.buf.getD (a - 7) space
      else if 0x40 ≤ a ∧ a < 0x45 then (bytes "Hum :").getD (a - 0x40) space
      else if a < 5 then (bytes "Temp:").getD a space
      else l.ddram a := by
  have htemp : start 0 0 = 0 := by decide
  have hhum : start 0 1 = 0x40 := by decide
  have hbuf : start colVal 0 = 7 := by decide
  have hrh : start colVal 1 = 0x47 := by decide
  have hlabels : (bytes "Temp:").length = 5 ∧ (bytes "Hum :").length = 5 := by decide
  have hrhval : ∀ i < 9, f.rhfield.getD i space = f.rhval.getD i space := by
    intro i hi
    rw [rhfield_eq]
    exact padRight_getD 9 f.rhval hi
  simp only [iteration, Turn.clean]
  rw [put_cell _ (fits_rhfield f), put_cell _ (fits_buf f), put_cell _ fits_hum,
    put_cell _ fits_temp, htemp, hhum, hbuf, hrh, rhfield_length, hlabels.1, hlabels.2]
  by_cases h1 : 0x47 ≤ a ∧ a < 0x50
  · rw [if_pos h1, if_pos (by omega : 0x47 ≤ a ∧ a < 0x47 + 9), hrhval _ (by omega)]
  · rw [if_neg h1, if_neg (by omega : ¬ (0x47 ≤ a ∧ a < 0x47 + 9))]
    simp

theorem clean_row0 (l : Lcd) (f : Fields) {i : Nat} (hi : i < 16) :
    (iteration l (.clean f)).ddram i =
      if i < 5 then (bytes "Temp:").getD i space
      else if 7 ≤ i ∧ i < 7 + f.buf.length then f.buf.getD (i - 7) space
      else l.ddram i := by
  rw [clean_cell, if_neg (by omega)]
  by_cases h5 : i < 5
  · rw [if_neg (by omega), if_neg (by omega), if_pos h5, if_pos h5]
  · simp only [if_neg h5]
    by_cases hbuf : 7 ≤ i ∧ i < 7 + f.buf.length
    · rw [if_pos hbuf, if_pos hbuf]
    · rw [if_neg hbuf, if_neg hbuf, if_neg (by omega)]

theorem clean_row1 (l : Lcd) (f : Fields) {i : Nat} (hi : i < 16) :
    (iteration l (.clean f)).ddram (0x40 + i) =
      if i < 5 then (bytes "Hum :").getD i space
      else if 7 ≤ i ∧ i < 7 + 9 then f.rhval.getD (i - 7) space
      else l.ddram (0x40 + i) := by
  have hle := f.buf_le
  rw [clean_cell]
  by_cases h5 : i < 5
  · rw [if_pos h5, if_neg (by omega), if_neg (by omega), if_pos (by omega),
      Nat.add_sub_cancel_left]
  · rw [if_neg h5]
    by_cases h7 : 7 ≤ i ∧ i < 7 + 9
    · rw [if_pos h7, if_pos (by omega)]
      congr 1
      omega
    · rw [if_neg h7, if_neg (by omega), if_neg (by omega), if_neg (by omega), if_neg (by omega)]

/-- The cells that no iteration without a failure writes are blank: two after each label,
and those after the temperature. -/
structure Blank (l : Lcd) (f : Fields) : Prop where
  afterTemp : l.ddram 5 = space ∧ l.ddram 6 = space
  afterHum : l.ddram 0x45 = space ∧ l.ddram 0x46 = space
  afterField : ∀ a, 7 + f.buf.length ≤ a → a < 16 → l.ddram a = space

/-- A row is a label, two blanks and a field, cell by cell. -/
theorem row_getD {label : CString} (hlabel : label.length = 5) (s : CString) {i : Nat}
    (hi : i < 16) : (label ++ bytes "  " ++ padRight 9 s).getD i space =
      if i < 5 then label.getD i space else if i < 7 then space else s.getD (i - 7) space := by
  have hblanks : bytes "  " = [space, space] := by decide
  rw [hblanks]
  by_cases h5 : i < 5
  · rw [if_pos h5, List.append_assoc, List.getD_append _ _ _ _ (by omega)]
  · rw [if_neg h5]
    by_cases h7 : i < 7
    · rw [if_pos h7, List.getD_append _ _ _ _ (by simp; omega),
        List.getD_append_right _ _ _ _ (by omega), hlabel]
      obtain rfl | rfl : i = 5 ∨ i = 6 := by omega
      · rfl
      · rfl
    · rw [if_neg h7, List.getD_append_right _ _ _ _ (by simp; omega),
        padRight_getD _ _ (by simp; omega)]
      simp [hlabel]

theorem map_range_eq {row : CString} {n : Nat} (hrow : row.length = n) (g : Nat → UInt8) :
    (List.range n).map g = row ↔ ∀ i < n, g i = row.getD i space := by
  constructor
  · rintro rfl i hi
    simp [hi]
  · intro h
    refine List.ext_getElem (by simp [hrow]) ?_
    intro i hi hi'
    rw [List.getElem_map, List.getElem_range, h i (by simpa using hi),
      List.getD_eq_getElem _ _ hi']

theorem row_length {label : CString} (hlabel : label.length = 5) (s : CString) :
    (label ++ bytes "  " ++ padRight 9 s).length = 16 := by
  have hblanks : (bytes "  ").length = 2 := by decide
  simp only [List.length_append, padRight, List.length_take, List.length_replicate, hlabel,
    hblanks]
  omega

/-- A row that holds its label and `k` characters of its field, up to the end of the text,
and is otherwise what it was, is right exactly if the other cells were blank. -/
theorem row_iff {label text : CString} (hlabel : label.length = 5) {k : Nat}
    (hk : ∀ i, 7 + k ≤ i → i < 16 → text.getD (i - 7) space = space) {cells old : Nat → UInt8}
    (hcells : ∀ i < 16, cells i =
      if i < 5 then label.getD i space
      else if 7 ≤ i ∧ i < 7 + k then text.getD (i - 7) space
      else old i) :
    (List.range 16).map cells = label ++ bytes "  " ++ padRight 9 text ↔
      (old 5 = space ∧ old 6 = space) ∧ ∀ i, 7 + k ≤ i → i < 16 → old i = space := by
  rw [map_range_eq (row_length hlabel text)]
  constructor
  · intro h
    -- an iteration writes neither of these cells, so they are what they were
    have hgap : ∀ i, 5 ≤ i → i < 7 → old i = space := by
      intro i h5 h7
      have hcell := h i (by omega)
      rw [hcells i (by omega), row_getD hlabel _ (by omega)] at hcell
      rwa [if_neg (by omega), if_neg (by omega), if_neg (by omega), if_pos h7] at hcell
    refine ⟨⟨hgap 5 (by omega) (by omega), hgap 6 (by omega) (by omega)⟩, ?_⟩
    intro i hfield hi
    have hcell := h i hi
    rw [hcells i hi, row_getD hlabel _ hi] at hcell
    rwa [if_neg (by omega), if_neg (by omega), if_neg (by omega), if_neg (by omega),
      hk i hfield hi] at hcell
  · rintro ⟨⟨hfive, hsix⟩, hfield⟩ i hi
    rw [hcells i hi, row_getD hlabel _ hi]
    by_cases h5 : i < 5
    · rw [if_pos h5, if_pos h5]
    · rw [if_neg h5, if_neg h5]
      by_cases h7 : i < 7
      · rw [if_pos h7, if_neg (by omega)]
        obtain rfl | rfl : i = 5 ∨ i = 6 := by omega
        · exact hfive
        · exact hsix
      · rw [if_neg h7]
        by_cases htext : i < 7 + k
        · rw [if_pos (by omega)]
        · rw [if_neg (by omega), hk i (by omega) hi]
          exact hfield i (by omega) hi

/-- Row 0 shows the temperature exactly if the two cells behind the label and those behind
the text were blank. -/
theorem clean_row0_iff (l : Lcd) (f : Fields) :
    (List.range 16).map (iteration l (.clean f)).ddram =
        bytes "Temp:" ++ bytes "  " ++ padRight 9 f.buf ↔
      (l.ddram 5 = space ∧ l.ddram 6 = space) ∧
        ∀ a, 7 + f.buf.length ≤ a → a < 16 → l.ddram a = space := by
  refine row_iff (by decide) (fun i hfield _ => ?_) fun i hi => clean_row0 l f hi
  exact List.getD_eq_default _ _ (by omega)

/-- Row 1 shows the humidity exactly if the two cells behind the label were blank: its
field reaches the last column. -/
theorem clean_row1_iff (l : Lcd) (f : Fields) :
    ((List.range 16).map fun col => (iteration l (.clean f)).ddram (0x40 + col)) =
        bytes "Hum :" ++ bytes "  " ++ padRight 9 f.rhval ↔
      l.ddram 0x45 = space ∧ l.ddram 0x46 = space := by
  have hfull : ∀ i, 7 + 9 ≤ i → ¬ i < 16 := by
    intro i hfield
    omega
  have hrow := row_iff (by decide) (fun i hfield hi => absurd hi (hfull i hfield))
    fun i hi => clean_row1 l f hi
  exact hrow.trans (and_iff_left fun i hfield hi => absurd hi (hfull i hfield))

/-- An iteration without a failure shows the fields exactly if the cells that it does not
write were blank. -/
theorem window_clean_iff (l : Lcd) (f : Fields) :
    (iteration l (.clean f)).window = shown f ↔ Blank l f := by
  unfold Lcd.window shown
  rw [Prod.mk.injEq, clean_row0_iff, clean_row1_iff]
  constructor
  · rintro ⟨⟨htemp, hfield⟩, hhum⟩
    exact ⟨htemp, hhum, hfield⟩
  · intro h
    exact ⟨⟨h.afterTemp, h.afterField⟩, h.afterHum⟩

/-! ## After bus errors -/

theorem appMain_concat (ts : List Turn) (t : Turn) :
    appMain (ts ++ [t]) = iteration (appMain ts) t :=
  List.foldl_concat _ _ _ _

/-- Every text is printed only after its cursor was set. -/
structure Turn.Placed (t : Turn) : Prop where
  temp : t.tempLabel = true → t.tempCursor = true
  hum : t.humLabel = true → t.humCursor = true
  tField : t.tField = true → t.tCursor = true
  rhField : t.rhField = true → t.rhCursor = true

/-- An iteration that misplaces nothing leaves the cells outside its texts. -/
theorem placed_other (l : Lcd) {t : Turn} (ht : t.Placed) {n : Nat}
    (hn : ∀ f ∈ t.reading, f.buf.length ≤ n) {a : Nat}
    (ha : (5 ≤ a ∧ a < 7) ∨ (0x45 ≤ a ∧ a < 0x47) ∨ (7 + n ≤ a ∧ a < 16)) :
    (iteration l t).ddram a = l.ddram a := by
  have htemp : start 0 0 = 0 ∧ (bytes "Temp:").length = 5 := by decide
  have hhum : start 0 1 = 0x40 ∧ (bytes "Hum :").length = 5 := by decide
  have hbuf : start colVal 0 = 7 := by decide
  have hrh : start colVal 1 = 0x47 := by decide
  have hlabels : ((l.put 0 0 (bytes "Temp:") t.tempCursor t.tempLabel).put 0 1 (bytes "Hum :")
      t.humCursor t.humLabel).ddram a = l.ddram a := by
    rw [put_other _ fits_hum ht.hum (by omega), put_other _ fits_temp ht.temp (by omega)]
  unfold iteration
  rcases hreading : t.reading with _ | f
  · exact hlabels
  · have hle := hn f hreading
    have hlong := f.buf_le
    have hlen := rhfield_length f
    simp only
    rw [put_other _ (fits_rhfield f) ht.rhField (by omega),
      put_other _ (fits_buf f) ht.tField (by omega)]
    exact hlabels

/-- If no text was misplaced, and no temperature was longer than the last, the cells that
an iteration without a failure does not write are still blank. -/
theorem blank_of_placed {ts : List Turn} {f : Fields} (hts : ∀ t ∈ ts, t.Placed)
    (hlong : ∀ t ∈ ts, ∀ f' ∈ t.reading, f'.buf.length ≤ f.buf.length) :
    Blank (appMain ts) f := by
  have hkept : ∀ a, ((5 ≤ a ∧ a < 7) ∨ (0x45 ≤ a ∧ a < 0x47) ∨
      (7 + f.buf.length ≤ a ∧ a < 16)) → (appMain ts).ddram a = space := by
    intro a ha
    induction ts using List.reverseRecOn with
    | nil => rfl
    | append_singleton ts t ih =>
        rw [appMain_concat, placed_other _ (hts t (by simp)) (hlong t (by simp)) ha]
        exact ih (fun t' ht' => hts t' (by simp [ht'])) (fun t' ht' => hlong t' (by simp [ht']))
  refine ⟨⟨hkept 5 (by omega), hkept 6 (by omega)⟩, ⟨hkept 0x45 (by omega),
    hkept 0x46 (by omega)⟩, ?_⟩
  intro a hfield ha
  exact hkept a (by omega)

/-- After any iterations, one without a failure shows the fields exactly if the cells that
it does not write are blank by then. They are if no text was misplaced, and no temperature
was longer than the last. -/
theorem heals_iff (ts : List Turn) (f : Fields) :
    ((appMain (ts ++ [.clean f])).window = shown f ↔ Blank (appMain ts) f) ∧
    ((∀ t ∈ ts, t.Placed) → (∀ t ∈ ts, ∀ f' ∈ t.reading, f'.buf.length ≤ f.buf.length) →
      (appMain (ts ++ [.clean f])).window = shown f) := by
  rw [appMain_concat, window_clean_iff]
  refine ⟨Iff.rfl, ?_⟩
  intro hts hlong
  exact blank_of_placed hts hlong

/-- One `setCursor` fails, and 21.0 degrees are written where the humidity label ends. -/
theorem misplaced_stays :
    ¬ ∀ ts f, (appMain (ts ++ [.clean f])).window = shown f := by
  intro h
  have hblank := (window_clean_iff _ _).1 ((appMain_concat _ _) ▸
    h [{ Turn.clean (fields 23 45) with tCursor := false }] (fields 23 45))
  exact absurd hblank.afterHum.2 (by decide +kernel)

end Cse121.Lab33
