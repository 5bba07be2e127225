import Cse121.Lib.Utf8
import Cse121.Weather.Posts
import Cse121.Weather.Responses
import Mathlib.Data.Bool.AllAny

/-! # The text of a report

`do_POST` decodes the payload as UTF-8 and knows no other. The station cuts what it is sent
after a number of bytes: the report is a text as long as no character is cut in two.
-/

namespace Cse121.Lab73

/-- `do_POST`: the text of the payload. -/
def doPostText (request : CString) : Option String := (doPost request).bind Utf8.decode

/-- What is sent back, of any length. -/
def response (x : Exchange) : CString := if x.Sent then stream x.reads else []

/-- The body of a response is a text. -/
def BodyIsText (r : CString) : Prop :=
  ∀ i ∈ CBuffer.strstr blankLine r, Utf8.Valid (r.drop (i + 4))

instance (r : CString) : Decidable (BodyIsText r) :=
  inferInstanceAs (Decidable (∀ i ∈ CBuffer.strstr blankLine r, Utf8.Valid (r.drop (i + 4))))

/-- Where the body of a response starts. A NUL ends the response. -/
def bodyStart (r : CString) : Option Nat :=
  (CBuffer.strstr blankLine (r.takeWhile (· ≠ 0))).map (· + 4)

def firstLine (body : CString) : CString :=
  body.takeWhile fun c => c ≠ 0 ∧ c ≠ newline ∧ c ≠ carriageReturn

/-- The first line of the body is not cut inside a character: neither where the array of `n`
bytes is full nor where the response is, with its 2047 bytes. -/
def CutBetweenCharacters (n : Nat) (r : CString) : Prop :=
  ∀ off ∈ bodyStart r, off ≤ 2047 →
    Utf8.StartsCharacter ((firstLine (r.drop off)).drop (min (n - 1) (2047 - off)))

instance (n : Nat) (r : CString) : Decidable (CutBetweenCharacters n r) :=
  inferInstanceAs (Decidable (∀ off ∈ bodyStart r, off ≤ 2047 →
    Utf8.StartsCharacter ((firstLine (r.drop off)).drop (min (n - 1) (2047 - off)))))

/-! ## The line that is used -/

theorem received_eq (n : Nat) (x : Exchange) : received n x = (response x).take (n - 1) := by
  unfold received response
  split
  · rfl
  · rw [List.take_nil]

/-- What is left of the beginning of a string is the beginning of what is left. -/
theorem drop_takeWhile {p : UInt8 → Bool} {s : CString} {k : Nat}
    (hk : k ≤ (s.takeWhile p).length) : (s.takeWhile p).drop k = (s.drop k).takeWhile p := by
  induction s generalizing k with
  | nil => simp
  | cons c s ih =>
      rcases k with _ | k
      · rfl
      · by_cases hc : p c
        · rw [List.takeWhile_cons_of_pos hc] at hk ⊢
          exact ih (Nat.le_of_succ_le_succ hk)
        · rw [List.takeWhile_cons_of_neg hc] at hk
          cases hk

/-- The body of what is kept of a response is what is kept of its body. -/
theorem bodyOf_take {r body : CString} : body ∈ bodyOf (r.take 2047) ↔
    ∃ off ∈ bodyStart r, off ≤ 2047 ∧
      ((r.drop off).takeWhile (· ≠ 0)).take (2047 - off) = body := by
  obtain ⟨s, hs⟩ : ∃ s, s = r.takeWhile (· ≠ 0) := ⟨_, rfl⟩
  have hblank : blankLine.length = 4 := by decide
  have hfound : ∀ i, CBuffer.strstr blankLine (s.take 2047) = some i ↔
      CBuffer.strstr blankLine s = some i ∧ i + 4 ≤ 2047 := by
    intro i
    rw [CBuffer.strstr_append_iff (s.drop 2047), List.take_append_drop, hblank, List.length_take]
    refine and_congr_right fun h => ?_
    have hfits := CBuffer.strstr_fits h
    omega
  have hkept : ∀ i, CBuffer.strstr blankLine s = some i →
      (s.take 2047).drop (i + 4) = ((r.drop (i + 4)).takeWhile (· ≠ 0)).take (2047 - (i + 4)) := by
    intro i hi
    have hfits := CBuffer.strstr_fits hi
    rw [List.drop_take, hs, drop_takeWhile (by rw [← hs]; omega)]
  unfold bodyOf bodyStart
  rw [← List.take_takeWhile, ← hs]
  simp only [Option.mem_def, Option.map_eq_some_iff, hfound]
  constructor
  · rintro ⟨i, ⟨hi, hle⟩, rfl⟩
    exact ⟨i + 4, ⟨i, hi, rfl⟩, hle, (hkept i hi).symm⟩
  · rintro ⟨-, ⟨i, hi, rfl⟩, hle, rfl⟩
    exact ⟨i, ⟨hi, hle⟩, hkept i hi⟩

theorem lineOf_take (n k : Nat) (body : CString) :
    lineOf n ((body.takeWhile (· ≠ 0)).take k) = (firstLine body).take (min (n - 1) k) := by
  have hline : (body.takeWhile (· ≠ 0)).takeWhile
      (fun c => c ≠ newline ∧ c ≠ carriageReturn) = firstLine body := by
    rw [List.takeWhile_takeWhile]
    unfold firstLine
    congr 1
    funext c
    simp only [decide_eq_true_eq]
    exact decide_eq_decide.2 (and_comm)
  unfold lineOf
  rw [← List.take_takeWhile, hline, List.take_take]

/-- The line that an exchange brings is the first line of the body, up to where it is
cut. -/
theorem mem_lineFrom_iff {n : Nat} {x : Exchange} {L : CString} : L ∈ lineFrom n x ↔
    ∃ off ∈ bodyStart (response x), off ≤ 2047 ∧
      (firstLine ((response x).drop off)).take (min (n - 1) (2047 - off)) = L := by
  unfold lineFrom
  rw [received_eq, Option.mem_def, Option.map_eq_some_iff]
  constructor
  · rintro ⟨body, hbody, rfl⟩
    rcases bodyOf_take.1 hbody with ⟨off, hoff, hle, rfl⟩
    exact ⟨off, hoff, hle, (lineOf_take n _ _).symm⟩
  · rintro ⟨off, hoff, hle, rfl⟩
    exact ⟨_, bodyOf_take.2 ⟨off, hoff, hle, rfl⟩, lineOf_take n _ _⟩

/-! ## Texts -/

/-- The first line of a text is a text: where it ends, an ASCII character begins. -/
theorem valid_firstLine {body : CString} (h : Utf8.Valid body) : Utf8.Valid (firstLine body) := by
  unfold firstLine
  obtain ⟨p, hp⟩ : ∃ p : UInt8 → Bool, p = fun c => c ≠ 0 ∧ c ≠ newline ∧ c ≠ carriageReturn :=
    ⟨_, rfl⟩
  -- behind the line comes a NUL, a line end or nothing
  rw [← hp]
  rw [← List.takeWhile_append_dropWhile (p := p) (l := body)] at h
  refine h.left_iff.2 ?_
  rcases hrest : body.dropWhile p with _ | ⟨c, rest⟩
  · intro c hc
    cases hc
  · have hstop : p c = false := by
      have hhead := List.head?_dropWhile_not p body
      rw [hrest] at hhead
      exact hhead
    have hc : Utf8.IsAscii c := by
      simp only [hp, decide_eq_false_iff_not, not_and_or, not_not] at hstop
      rcases hstop with rfl | rfl | rfl <;> decide
    exact hc.startsCharacter rest

/-- The body of a response that is a text is one from where it starts. -/
theorem BodyIsText.valid_drop {r : CString} (h : BodyIsText r) {off : Nat}
    (hoff : off ∈ bodyStart r) : Utf8.Valid (r.drop off) := by
  rcases Option.map_eq_some_iff.1 hoff with ⟨i, hi, rfl⟩
  refine h i ?_
  rw [← List.takeWhile_append_dropWhile (p := fun c => decide (c ≠ 0)) (l := r)]
  exact ((CBuffer.strstr_append_iff _).1 hi).1

/-- The line that is used of a text is a text exactly if it is not cut inside a
character. -/
theorem valid_lineFrom_iff {n : Nat} {x : Exchange} (h : BodyIsText (response x)) :
    (∀ L ∈ lineFrom n x, Utf8.Valid L) ↔ CutBetweenCharacters n (response x) := by
  have hcut : ∀ off ∈ bodyStart (response x),
      Utf8.Valid ((firstLine ((response x).drop off)).take (min (n - 1) (2047 - off))) ↔
        Utf8.StartsCharacter
          ((firstLine ((response x).drop off)).drop (min (n - 1) (2047 - off))) := by
    intro off hoff
    have hline := valid_firstLine (h.valid_drop hoff)
    rw [← List.take_append_drop (min (n - 1) (2047 - off)) (firstLine _)] at hline
    exact hline.left_iff
  constructor
  · intro hall off hoff hle
    exact (hcut off hoff).1 (hall _ (mem_lineFrom_iff.2 ⟨off, hoff, hle, rfl⟩))
  · intro hcuts L hL
    rcases mem_lineFrom_iff.1 hL with ⟨off, hoff, hle, rfl⟩
    exact (hcut off hoff).2 (hcuts off hoff hle)

theorem isAscii_text (f : Float32) : ∀ c ∈ f.text, Utf8.IsAscii c := by
  intro c hc
  rcases Printf.mem_fixed hc with ⟨-, hhi⟩ | rfl | rfl
  · exact UInt8.lt_of_le_of_lt hhi (by decide : '9'.toUInt8 < 0x80)
  · decide
  · decide

/-- A payload is a text exactly if the location and the temperature are. -/
theorem valid_payloadText_iff {L T : CString} (f : Float32) :
    Utf8.Valid (payloadText L T f) ↔ Utf8.Valid L ∧ Utf8.Valid T := by
  have hlocation : bytes "Location: " = bytes "Location:" ++ [space] := by decide
  have houtdoor : bytes "Outdoor Temperature: " = bytes "Outdoor Temperature:" ++ [space] := by
    decide
  have hnewline : bytes "\n" = [newline] := by decide
  have hlines : payloadText L T f = bytes "Location:" ++ space :: (L ++ newline ::
      (bytes "Outdoor Temperature:" ++ space :: (T ++ newline ::
        (bytes "ESP32 Sensor Temperature: " ++ f.text ++ bytes " C")))) := by
    unfold payloadText
    rw [hlocation, houtdoor, hnewline]
    simp only [List.append_assoc, List.cons_append, List.nil_append]
  have hlabels : (∀ c ∈ bytes "Location:", Utf8.IsAscii c) ∧
      (∀ c ∈ bytes "Outdoor Temperature:", Utf8.IsAscii c) ∧
      (∀ c ∈ bytes "ESP32 Sensor Temperature: ", Utf8.IsAscii c) ∧
      ∀ c ∈ bytes " C", Utf8.IsAscii c := by
    refine ⟨?_, ?_, ?_, ?_⟩
    all_goals exact List.all_iff_forall_prop.1 (by decide)
  have hsensor : Utf8.Valid (bytes "ESP32 Sensor Temperature: " ++ f.text ++ bytes " C") := by
    refine Utf8.valid_of_ascii ?_
    intro c hc
    rcases List.mem_append.1 hc with hc | hc
    · exact (List.mem_append.1 hc).elim (hlabels.2.2.1 c) (isAscii_text f c)
    · exact hlabels.2.2.2 c hc
  have hends : Utf8.IsAscii space ∧ Utf8.IsAscii newline := by decide
  -- every part ends with an ASCII byte, at which a text comes apart into texts
  rw [hlines, Utf8.valid_append_cons_iff hends.1, Utf8.valid_append_cons_iff hends.2,
    Utf8.valid_append_cons_iff hends.1, Utf8.valid_append_cons_iff hends.2]
  simp only [Utf8.valid_of_ascii hlabels.1, Utf8.valid_of_ascii hlabels.2.1, hsensor, true_and,
    and_true]

/-! ## What is posted -/

/-- What is posted is a text exactly if neither line that it is made of is cut inside a
character. -/
theorem valid_postedIn_iff {io : CycleIo} (hlocation : BodyIsText (response io.getLocation))
    (hweather : BodyIsText (response io.getWeather)) {p : CString} (hp : p ∈ postedIn io) :
    Utf8.Valid p ↔ CutBetweenCharacters 128 (response io.getLocation) ∧
      CutBetweenCharacters 64 (response io.getWeather) := by
  unfold postedIn at hp
  rcases Option.map_eq_some_iff.1 hp with ⟨L, hline, rfl⟩
  have hL : Utf8.Valid L ↔ CutBetweenCharacters 128 (response io.getLocation) := by
    rw [← valid_lineFrom_iff hlocation, hline]
    simp
  have hT : Utf8.Valid (outdoorOf io.getWeather) ↔
      CutBetweenCharacters 64 (response io.getWeather) := by
    have hna : Utf8.Valid (bytes "N/A") :=
      Utf8.valid_of_ascii (List.all_iff_forall_prop.1 (by decide))
    rw [← valid_lineFrom_iff hweather]
    unfold outdoorOf
    rcases lineFrom 64 io.getWeather with _ | T
    · simp [hna]
    · simp
  rw [valid_payloadText_iff, hL, hT]

/-- Of two responses that are texts the server gets a report that it can decode exactly if
neither line that it is made of is cut inside a character. -/
theorem report_is_text_iff (s : Station) (io : CycleIo)
    (hlocation : BodyIsText (response io.getLocation))
    (hweather : BodyIsText (response io.getWeather)) : ∃ c, cycle s io = some c ∧
    (∀ p, c.posted = some p → (Utf8.Valid p ↔
      CutBetweenCharacters 128 (response io.getLocation) ∧
        CutBetweenCharacters 64 (response io.getWeather))) ∧
    ∀ data ok, .write data ok ∈ c.calls → bytes "POST " <+: data → ((doPostText data).isSome ↔
      CutBetweenCharacters 128 (response io.getLocation) ∧
        CutBetweenCharacters 64 (response io.getWeather)) := by
  rcases cycle_eq io with ⟨calls, hwrites, hcycle⟩
  rcases hcycle s with ⟨s', hs', -, -⟩
  refine ⟨_, hs', fun p hp => valid_postedIn_iff hlocation hweather hp, ?_⟩
  intro data ok hmem hpost
  rcases postRequest_of_mem hwrites hmem hpost with ⟨p, hp, rfl⟩
  -- the server reads the payload back by its length, and then decodes it
  have hserver : doPostText (postRequest p) = Utf8.decode p := by
    unfold doPostText
    rw [postRequest_eq (postedIn_length hp), doPost_eq]
    rfl
  rw [hserver, Utf8.isSome_decode]
  exact valid_postedIn_iff hlocation hweather hp

/-- A location, and 15 degrees with a degree sign of two bytes. -/
theorem report_is_text_santaCruz :
    let p := bytes "Location: Santa-Cruz\nOutdoor Temperature: +15" ++ [0xC2, 0xB0] ++
      bytes "C\nESP32 Sensor Temperature: 0.00 C"
    ∃ c, cycle .zero ⟨
        answered (bytes "HTTP/1.0 200 OK\r\n\r\nSanta-Cruz"),
        answered (bytes "HTTP/1.0 200 OK\r\n\r\n+15" ++ [0xC2, 0xB0] ++ bytes "C"),
        none, answered []⟩ = some c ∧ c.posted = some p ∧ Utf8.Valid p := by
  intro p
  obtain ⟨io, hio⟩ : ∃ io : CycleIo, io = ⟨
      answered (bytes "HTTP/1.0 200 OK\r\n\r\nSanta-Cruz"),
      answered (bytes "HTTP/1.0 200 OK\r\n\r\n+15" ++ [0xC2, 0xB0] ++ bytes "C"),
      none, answered []⟩ := ⟨_, rfl⟩
  rw [← hio]
  rcases report_is_text_iff .zero io (by rw [hio]; decide +kernel)
    (by rw [hio]; decide +kernel) with ⟨c, hc, hvalid, -⟩
  have hposted : c.posted = some p := by
    rcases cycle_eq io with ⟨calls, -, hcycle⟩
    rcases hcycle .zero with ⟨s', hs', -⟩
    obtain rfl := Option.some.inj (hc.symm.trans hs')
    show postedIn io = some p
    rw [hio]
    decide +kernel
  refine ⟨c, hc, hposted, (hvalid p hposted).2 ⟨?_, ?_⟩⟩
  · rw [hio]
    decide +kernel
  · rw [hio]
    decide +kernel

/-- A location of 128 bytes whose last character takes two: the first of them is posted. -/
theorem character_cut_in_two : ¬ ∀ s io c p, BodyIsText (response io.getLocation) →
    BodyIsText (response io.getWeather) → cycle s io = some c → c.posted = some p →
    Utf8.Valid p := by
  intro h
  obtain ⟨io, hio⟩ : ∃ io : CycleIo, io = ⟨answered (bytes "HTTP/1.0 200 OK\r\n\r\n" ++
    List.replicate 126 (chr 'a') ++ [0xC3, 0xA9]), answered [], none, answered []⟩ := ⟨_, rfl⟩
  have hlocation : BodyIsText (response io.getLocation) := by
    rw [hio]
    decide +kernel
  have hweather : BodyIsText (response io.getWeather) := by
    rw [hio]
    decide +kernel
  have hcut : ¬ CutBetweenCharacters 128 (response io.getLocation) := by
    rw [hio]
    decide +kernel
  rcases cycle_eq io with ⟨calls, -, hcycle⟩
  rcases hcycle .zero with ⟨s', hs', -⟩
  obtain ⟨p, hp⟩ : ∃ p, postedIn io = some p := by
    rw [← Option.isSome_iff_exists, hio]
    unfold postedIn
    rw [Option.isSome_map]
    decide +kernel
  have hvalid := h _ io _ p hlocation hweather hs' hp
  exact hcut ((valid_postedIn_iff hlocation hweather hp).1 hvalid).1

end Cse121.Lab73
