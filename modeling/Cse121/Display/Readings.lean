import Cse121.Display.AppMain
import Cse121.Sensors.Drivers
import Mathlib.Tactic.Linarith

/-! # The readings on the display

Whatever frame a driver accepts, the texts of its reading have one width: each iteration
writes the same cells, and nothing of an earlier reading stays.
-/

namespace Cse121.Lab33

/-- A reading that `read_sensor` can give, from any sensor and whatever is received. -/
def IsReading (x : Reading) : Prop :=
  ∃ (σ : Type) (b : Bus σ) (s : σ) (g : Globals) (out : Reading),
    ((readSensor g out).run b s).1 = (true, x)

/-- The text of a temperature, before it is cut to the size of `buf`. -/
def tempText (tC : ℚ) : CString :=
  Printf.padLeft 5 (Printf.fixed 1 (decide (tC - 2 < 0)) (|roundf ((tC - 2) * 10)| / 10)) ++
    bytes "C "

/-- The text of a humidity, before it is cut to the size of `rhval`. -/
def humText (rh : ℚ) : CString := Printf.padLeft 3 (Printf.signed (roundf rh)) ++ bytes "%"

/-- The fields of a reading are written in full, at their widths, into the columns 7 to 15 of
their rows and nowhere else. -/
structure FitsRow (x : Reading) : Prop where
  temp : (tempText x.tC).length = 7
  buf : (fields x.tC x.rh).buf = tempText x.tC
  rhval : (fields x.tC x.rh).rhval = humText x.rh
  hum : (fields x.tC x.rh).rhfield.length = 9
  rhfield : (fields x.tC x.rh).rhfield = padRight 9 (humText x.rh)
  row0 : ∀ (l : Lcd) a, (l.put colVal 0 (fields x.tC x.rh).buf true true).ddram a =
    if 7 ≤ a ∧ a < 7 + 7 then (tempText x.tC).getD (a - 7) space else l.ddram a
  row1 : ∀ (l : Lcd) a, (l.put colVal 1 (fields x.tC x.rh).rhfield true true).ddram a =
    if 0x40 + 7 ≤ a ∧ a ≤ 0x40 + 15 then (fields x.tC x.rh).rhfield.getD (a - 0x47) space
    else l.ddram a

/-! ## What the drivers give -/

/-- The values that the four sensors can give. -/
structure InRange (x : Reading) : Prop where
  tC : -50 ≤ x.tC ∧ x.tC ≤ 150
  rh : -6 ≤ x.rh ∧ x.rh ≤ 119

theorem raw16_le (hi lo : UInt8) : (raw16 hi lo : ℚ) ≤ 65535 := by
  have hhi := hi.toNat_lt
  have hlo := lo.toNat_lt
  have hle : raw16 hi lo ≤ 65535 := by
    unfold raw16
    omega
  exact_mod_cast hle

theorem inRange_sensirion (rx : Vector UInt8 6) : InRange (sensirion rx) := by
  have ht := raw16_le rx[0] rx[1]
  have hh := raw16_le rx[3] rx[4]
  have ht0 : (0 : ℚ) ≤ raw16 rx[0] rx[1] := Nat.cast_nonneg _
  have hh0 : (0 : ℚ) ≤ raw16 rx[3] rx[4] := Nat.cast_nonneg _
  unfold sensirion
  refine ⟨⟨?_, ?_⟩, ⟨?_, ?_⟩⟩ <;> dsimp only <;> linarith

theorem inRange_aht20 (rx : Vector UInt8 6) : InRange (aht20 rx) := by
  have ht : (aht20RawT rx : ℚ) ≤ 1048575 := by
    have hle : aht20RawT rx ≤ 1048575 := by
      have h4 := rx[4].toNat_lt
      have h5 := rx[5].toNat_lt
      unfold aht20RawT
      omega
    exact_mod_cast hle
  have hh : (aht20RawH rx : ℚ) ≤ 1048575 := by
    have hle : aht20RawH rx ≤ 1048575 := by
      have h1 := rx[1].toNat_lt
      have h2 := rx[2].toNat_lt
      have h3 := rx[3].toNat_lt
      unfold aht20RawH
      omega
    exact_mod_cast hle
  have ht0 : (0 : ℚ) ≤ aht20RawT rx := Nat.cast_nonneg _
  have hh0 : (0 : ℚ) ≤ aht20RawH rx := Nat.cast_nonneg _
  unfold aht20
  refine ⟨⟨?_, ?_⟩, ⟨?_, ?_⟩⟩ <;> dsimp only <;> linarith

theorem inRange_si7021 (rh2 t2 : Vector UInt8 2) : InRange ⟨si7021T t2, si7021RH rh2⟩ := by
  have ht := raw16_le t2[0] t2[1]
  have hh := raw16_le rh2[0] rh2[1]
  have ht0 : (0 : ℚ) ≤ raw16 t2[0] t2[1] := Nat.cast_nonneg _
  have hh0 : (0 : ℚ) ≤ raw16 rh2[0] rh2[1] := Nat.cast_nonneg _
  refine ⟨⟨?_, ?_⟩, ⟨?_, ?_⟩⟩ <;> simp only [si7021T, si7021RH] <;> norm_num <;> linarith

section Drivers

variable {σ : Type} {b : Bus σ} {s : σ} {out x : Reading}

theorem measure_inRange {g : Globals} (h : ((measure g out).run b s).1 = (true, x)) :
    InRange x := by
  unfold measure at h
  split at h
  · rcases (converts_shtc3 out).value h with ⟨rx, rfl⟩
    exact inRange_sensirion rx
  · rcases (converts_sht3x out g.addr).value h with ⟨rx, rfl⟩
    exact inRange_sensirion rx
  · rcases (converts_aht20 out g.addr).value h with ⟨rx, rfl⟩
    exact inRange_aht20 rx
  · have hends := (ends_si7021 out).run b s
    rw [h] at hends
    rcases hends rfl with ⟨rh2, t2, rfl⟩
    exact inRange_si7021 rh2 t2
  · cases h

end Drivers

theorem IsReading.inRange {x : Reading} (h : IsReading x) : InRange x := by
  rcases h with ⟨σ, b, s, g, out, h⟩
  unfold readSensor at h
  split at h
  · unfold tcaSelect at h
    rw [Dialog.run_write] at h
    split at h
    · cases h
    · exact measure_inRange h
  · exact measure_inRange h

/-! ## Widths -/

theorem roundf_le {x : ℚ} {n : Int} (hx : x ≤ n) : roundf x ≤ n := by
  unfold roundf
  split
  · rw [← Int.lt_add_one_iff, Int.floor_lt]
    push_cast
    linarith
  · rw [neg_le, Int.le_floor]
    push_cast
    linarith

theorem le_roundf {x : ℚ} {n : Int} (hx : n ≤ x) : n ≤ roundf x := by
  unfold roundf
  split
  · rw [Int.le_floor]
    linarith
  · rw [le_neg, ← Int.lt_add_one_iff, Int.floor_lt]
    push_cast
    linarith

/-- A temperature takes five characters, the sign among them. -/
theorem tempText_length {x : Reading} (h : InRange x) : (tempText x.tC).length = 7 := by
  rcases h.tC with ⟨hlo, hhi⟩
  have hunit : (bytes "C ").length = 2 := by decide
  -- a minus sign leaves room for two digits, and no temperature below zero needs three
  have hfixed : (Printf.fixed 1 (decide (x.tC - 2 < 0))
      (|roundf ((x.tC - 2) * 10)| / 10)).length ≤ 5 := by
    by_cases hneg : x.tC - 2 < 0
    · have hle : roundf ((x.tC - 2) * 10) ≤ 0 := roundf_le (by push_cast; linarith)
      have hge : -520 ≤ roundf ((x.tC - 2) * 10) := le_roundf (by push_cast; linarith)
      have habs : |(roundf ((x.tC - 2) * 10) : ℚ)| / 10 ≤ (52 : Nat) := by
        have hle' : (roundf ((x.tC - 2) * 10) : ℚ) ≤ 0 := by exact_mod_cast hle
        have hge' : (-520 : ℚ) ≤ roundf ((x.tC - 2) * 10) := by exact_mod_cast hge
        rw [abs_of_nonpos hle']
        push_cast
        linarith
      have hlen : (Printf.fixed 1 true (|(roundf ((x.tC - 2) * 10) : ℚ)| / 10)).length ≤
          1 + 2 + 1 + 1 :=
        Printf.fixed_length_signed (k := 2) (by decide) (by decide) (by decide) habs
      simpa [hneg] using hlen
    · have hge : 0 ≤ roundf ((x.tC - 2) * 10) := le_roundf (by push_cast; linarith)
      have hle : roundf ((x.tC - 2) * 10) ≤ 1480 := roundf_le (by push_cast; linarith)
      have habs : |(roundf ((x.tC - 2) * 10) : ℚ)| / 10 ≤ (148 : Nat) := by
        have hge' : (0 : ℚ) ≤ roundf ((x.tC - 2) * 10) := by exact_mod_cast hge
        have hle' : (roundf ((x.tC - 2) * 10) : ℚ) ≤ 1480 := by exact_mod_cast hle
        rw [abs_of_nonneg hge']
        push_cast
        linarith
      have hlen : (Printf.fixed 1 false (|(roundf ((x.tC - 2) * 10) : ℚ)| / 10)).length ≤
          0 + 3 + 1 + 1 :=
        Printf.fixed_length_signed (k := 3) (by decide) (by decide) (by decide) habs
      simpa [hneg] using hlen
  unfold tempText
  rw [List.length_append, Printf.padLeft_length hfixed, hunit]

theorem humText_length {x : Reading} (h : InRange x) : (humText x.rh).length = 4 := by
  rcases h.rh with ⟨hlo, hhi⟩
  have hunit : (bytes "%").length = 1 := by decide
  have hlo' : -6 ≤ roundf x.rh := le_roundf (by exact_mod_cast hlo)
  have hhi' : roundf x.rh ≤ 119 := roundf_le (by exact_mod_cast hhi)
  unfold humText
  rw [List.length_append, Printf.padLeft_length (Printf.signed_length (by omega) (by omega)), hunit]

theorem InRange.buf_eq {x : Reading} (h : InRange x) :
    (fields x.tC x.rh).buf = tempText x.tC :=
  List.take_of_length_le (by
    have hlen := tempText_length h
    unfold tempText at hlen
    omega)

theorem InRange.rhval_eq {x : Reading} (h : InRange x) :
    (fields x.tC x.rh).rhval = humText x.rh :=
  List.take_of_length_le (by
    have hlen := humText_length h
    unfold humText at hlen
    omega)

/-- The fields of a reading fit their row. -/
theorem InRange.fitsRow {x : Reading} (h : InRange x) : FitsRow x := by
  have hbuf : (fields x.tC x.rh).buf.length = 7 := by
    rw [h.buf_eq, tempText_length h]
  have hhum := rhfield_length (fields x.tC x.rh)
  have htStart : start colVal 0 = 7 := by decide
  have hhStart : start colVal 1 = 0x47 := by decide
  refine ⟨tempText_length h, h.buf_eq, h.rhval_eq, hhum, ?_, ?_, ?_⟩
  · rw [rhfield_eq, h.rhval_eq]
  · intro l a
    rw [put_cell l (fits_buf _), htStart, hbuf, h.buf_eq]
  · intro l a
    rw [put_cell l (fits_rhfield _), hhStart, hhum]
    exact if_congr (by omega) rfl rfl

/-! ## The display after any readings -/

/-- An iteration without an error of the display. -/
def turn (r : Option Reading) : Turn where
  tempCursor := true
  tempLabel := true
  humCursor := true
  humLabel := true
  reading := r.map fun x => fields x.tC x.rh
  tCursor := true
  tField := true
  rhCursor := true
  rhField := true

/-- The most recent reading that succeeded. -/
def lastReading (rs : List (Option Reading)) : Option Reading := (rs.filterMap id).getLast?

/-- What the display holds: the labels, and the fields of a reading once there is one. -/
def content (r : Option Reading) (a : Nat) : UInt8 :=
  if 0x47 ≤ a ∧ a < 0x50 then (r.elim [] fun x => humText x.rh).getD (a - 0x47) space
  else if 7 ≤ a ∧ a < 14 then (r.elim [] fun x => tempText x.tC).getD (a - 7) space
  else if 0x40 ≤ a ∧ a < 0x45 then (bytes "Hum :").getD (a - 0x40) space
  else if a < 5 then (bytes "Temp:").getD a space
  else space

/-- The cells that no iteration writes, and the fields as long as there is no reading. -/
def Untouched (l : Lcd) : Prop :=
  ∀ a, ¬ (a < 5 ∨ 7 ≤ a ∧ a < 14 ∨ 0x40 ≤ a ∧ a < 0x45 ∨ 0x47 ≤ a ∧ a < 0x50) →
    l.ddram a = space

theorem untouched_of_content {l : Lcd} {r : Option Reading} (h : l.ddram = content r) :
    Untouched l := by
  intro a ha
  rw [h]
  unfold content
  rw [if_neg (by omega), if_neg (by omega), if_neg (by omega), if_neg (by omega)]

/-- A reading fills the same cells whatever was in them. -/
theorem iteration_some {l : Lcd} (hl : Untouched l) {x : Reading} (hx : InRange x) :
    (iteration l (turn (some x))).ddram = content (some x) := by
  have hbuf : (fields x.tC x.rh).buf.length = 7 := by
    rw [hx.buf_eq, tempText_length hx]
  have hclean : turn (some x) = .clean (fields x.tC x.rh) := rfl
  funext a
  rw [hclean, clean_cell, hbuf, hx.buf_eq, hx.rhval_eq]
  unfold content
  simp only [Option.elim_some, Nat.reduceAdd]
  split_ifs
  · rfl
  · rfl
  · rfl
  · rfl
  · exact hl a (by omega)

/-- Without a reading only the labels are written. -/
theorem iteration_none_cell (l : Lcd) (a : Nat) : (iteration l (turn none)).ddram a =
    if 0x40 ≤ a ∧ a < 0x45 then (bytes "Hum :").getD (a - 0x40) space
    else if a < 5 then (bytes "Temp:").getD a space
    else l.ddram a := by
  have htemp : start 0 0 = 0 ∧ (bytes "Temp:").length = 5 := by decide
  have hhum : start 0 1 = 0x40 ∧ (bytes "Hum :").length = 5 := by decide
  change ((l.put 0 0 (bytes "Temp:") true true).put 0 1 (bytes "Hum :") true true).ddram a = _
  rw [put_cell _ fits_hum, put_cell _ fits_temp, htemp.1, htemp.2, hhum.1, hhum.2]
  simp

theorem iteration_none {l : Lcd} {r : Option Reading} (h : l.ddram = content r) :
    (iteration l (turn none)).ddram = content r := by
  funext a
  rw [iteration_none_cell, h]
  unfold content
  split_ifs
  · omega
  · omega
  · rfl
  · omega
  · omega
  · rfl
  · rfl
  · rfl
  · rfl

theorem iteration_none_cleared : (iteration Lcd.cleared (turn none)).ddram = content none := by
  have hblank : ∀ n, ([] : CString).getD n space = space := fun n => List.getD_nil
  funext a
  rw [iteration_none_cell]
  unfold content
  simp only [Option.elim_none, hblank]
  split_ifs
  · omega
  · omega
  · rfl
  · omega
  · omega
  · rfl
  · rfl
  · rfl
  · rfl

theorem lastReading_concat (rs : List (Option Reading)) (r : Option Reading) :
    lastReading (rs ++ [r]) = r.or (lastReading rs) := by
  unfold lastReading
  rcases r with _ | x
  · simp
  · simp

/-- After any iterations the display holds the most recent reading, and no other. -/
theorem appMain_content (rs : List (Option Reading)) (hrs : ∀ r ∈ rs, ∀ x ∈ r, InRange x) :
    Untouched (appMain (rs.map turn)) ∧
      (rs ≠ [] → (appMain (rs.map turn)).ddram = content (lastReading rs)) := by
  induction rs using List.reverseRecOn with
  | nil => exact ⟨fun _ _ => rfl, fun h => absurd rfl h⟩
  | append_singleton rs r ih =>
      rcases ih fun r' hr' => hrs r' (List.mem_append_left _ hr') with ⟨huntouched, hcontent⟩
      have hnext : (appMain ((rs ++ [r]).map turn)).ddram = content (lastReading (rs ++ [r])) := by
        rw [List.map_append, List.map_singleton, appMain_concat, lastReading_concat]
        rcases r with _ | x
        · -- a failed read keeps the fields, which are blank before the first reading
          rcases rs with _ | ⟨r', rs⟩
          · exact iteration_none_cleared
          · exact iteration_none (hcontent (by simp))
        · exact iteration_some huntouched (hrs _ (by simp) x rfl)
      exact ⟨untouched_of_content hnext, fun _ => hnext⟩

/-- Then it shows the labels and both texts. -/
theorem window_of_content {l : Lcd} {x : Reading} (hx : InRange x)
    (h : l.ddram = content (some x)) : l.window = shown (fields x.tC x.rh) := by
  have hclean : turn (some x) = .clean (fields x.tC x.rh) := rfl
  have hblank : Blank Lcd.cleared (fields x.tC x.rh) :=
    ⟨⟨rfl, rfl⟩, ⟨rfl, rfl⟩, fun _ _ _ => rfl⟩
  have hshown := (window_clean_iff Lcd.cleared (fields x.tC x.rh)).2 hblank
  rw [← hshown, ← hclean]
  unfold Lcd.window
  rw [h, iteration_some (fun _ _ => rfl) hx]

theorem lastReading_mem {rs : List (Option Reading)} {x : Reading} (h : x ∈ lastReading rs) :
    ∃ r ∈ rs, x ∈ r := by
  rcases List.mem_filterMap.1 (List.mem_of_mem_getLast? h) with ⟨r, hr, hx⟩
  exact ⟨r, hr, hx⟩

/-- The texts of every reading fit their fields. After any iterations without an error of the
display it holds the labels and the two texts of the most recent reading that succeeded, and
so depends on that reading alone. -/
theorem fields_fit : (∀ x, IsReading x → FitsRow x) ∧
    (∀ rs : List (Option Reading), rs ≠ [] → (∀ r ∈ rs, ∀ x ∈ r, IsReading x) →
      (appMain (rs.map turn)).ddram = content (lastReading rs) ∧
      ∀ x ∈ lastReading rs, (appMain (rs.map turn)).window = shown (fields x.tC x.rh)) ∧
    ∀ rs rs' : List (Option Reading), rs ≠ [] → rs' ≠ [] →
      (∀ r ∈ rs ++ rs', ∀ x ∈ r, IsReading x) → lastReading rs = lastReading rs' →
      (appMain (rs.map turn)).ddram = (appMain (rs'.map turn)).ddram := by
  refine ⟨fun x hx => hx.inRange.fitsRow, ?_, ?_⟩
  · intro rs hrs hreadings
    have hcontent := (appMain_content rs fun r hr x hx => (hreadings r hr x hx).inRange).2 hrs
    refine ⟨hcontent, fun x hx => ?_⟩
    rcases lastReading_mem hx with ⟨r, hr, hxr⟩
    exact window_of_content (hreadings r hr x hxr).inRange
      (hcontent.trans (congrArg content hx))
  intro rs rs' hrs hrs' hreadings hlast
  have hcontent := (appMain_content rs fun r hr x hx =>
    (hreadings r (List.mem_append_left _ hr) x hx).inRange).2 hrs
  have hcontent' := (appMain_content rs' fun r hr x hx =>
    (hreadings r (List.mem_append_right _ hr) x hx).inRange).2 hrs'
  rw [hcontent, hcontent', hlast]

/-- The highest temperature of the SHT3x, then its lowest, and then a read that fails. -/
theorem fields_fit_coldest : ∃ x y : Reading, x.tC = 130 ∧ y.tC = -45 ∧ FitsRow y ∧
    (appMain ([some x, some y, none].map turn)).window =
      (bytes "Temp:  -47.0C   ", bytes "Hum :    0%     ") := by
  have hreading : ∀ (rx : List UInt8) (x : Reading),
      ((readSensor ⟨.sht3x, addrSht3x1, none⟩ ⟨0, 0⟩).run
        (.script fun _ => some fun i => rx.getD i 0) 0).1 = (true, x) → IsReading x :=
    fun rx x h => ⟨Nat, .script fun _ => some fun i => rx.getD i 0, 0,
      ⟨.sht3x, addrSht3x1, none⟩, ⟨0, 0⟩, h⟩
  have hhot : IsReading ⟨130, 100⟩ :=
    hreading [0xFF, 0xFF, 0xAC, 0xFF, 0xFF, 0xAC] _ (by decide +kernel)
  have hcold : IsReading ⟨-45, 0⟩ :=
    hreading [0x00, 0x00, 0x81, 0x00, 0x00, 0x81] _ (by decide +kernel)
  have hall : ∀ r ∈ [some (⟨130, 100⟩ : Reading), some ⟨-45, 0⟩, none], ∀ x ∈ r, IsReading x := by
    intro r hr x hx
    simp only [List.mem_cons, List.not_mem_nil, or_false] at hr
    rcases hr with rfl | rfl | rfl
    · exact Option.some.inj hx ▸ hhot
    · exact Option.some.inj hx ▸ hcold
    · cases hx
  refine ⟨⟨130, 100⟩, ⟨-45, 0⟩, rfl, rfl, fields_fit.1 _ hcold, ?_⟩
  have hshown := (fields_fit.2.1 _ (by simp) hall).2 ⟨-45, 0⟩ rfl
  rw [hshown]
  decide +kernel

end Cse121.Lab33
