import Cse121.Weather.Http

/-! # The weather station

`lab7_3/main/http_request_example_main.c`: a cycle of `weather_station_task` asks the server
for a location and `wttr.in` for its temperature, reads the sensor and posts the three. The
arrays of the task live across the cycles.
-/

namespace Cse121.Lab73

def carriageReturn : UInt8 := chr '\r'

/-- `SERVER_IP` -/
def serverIp : CString := bytes "192.168.43.1"

/-- `SERVER_PORT` -/
def serverPort : CString := bytes "1234"

/-- A finite `float`: its sign, and `mantissa * 2 ^ exponent`. -/
structure Float32 where
  negative : Bool
  mantissa : Nat
  exponent : Int
  mantissa_lt : mantissa < 2 ^ 24
  exponent_ge : -149 ≤ exponent
  exponent_le : exponent ≤ 104
deriving DecidableEq, Repr

namespace Float32

def zero : Float32 := ⟨false, 0, 0, by decide, by decide, by decide⟩

def magnitude (f : Float32) : ℚ := f.mantissa * (2 : ℚ) ^ f.exponent

/-- `%.2f`. -/
def text (f : Float32) : CString := Printf.fixed 2 f.negative f.magnitude

end Float32

/-- The arrays of `weather_station_task`. -/
structure Station where
  response : CBuffer 2048
  location : CBuffer 128
  weatherPath : CBuffer 256
  outdoorTemp : CBuffer 64
  payload : CBuffer 512

/-- Arrays full of zeros. -/
def Station.zero : Station := ⟨.zero _, .zero _, .zero _, .zero _, .zero _⟩

/-- What the calls of a cycle return, had they been made. -/
structure CycleIo where
  getLocation : Exchange
  getWeather : Exchange
  /-- `temperature_sensor_get_celsius`, if it returns `ESP_OK` -/
  sensor : Option Float32
  post : Exchange

/-- The copy loops: up to a NUL or the end of the line, as far as there is room. -/
def copyLine {n : Nat} (dst : CBuffer n) (i : Nat) : CString → Option (CBuffer n)
  | [] => none
  | c :: body =>
    if c ≠ 0 ∧ c ≠ newline ∧ c ≠ carriageReturn ∧ i < n - 1 then do
      let dst ← dst.write i [c]
      copyLine dst (i + 1) body
    else dst.write i [0]

/-- Step 1: `false` restarts the cycle. -/
def getLocation (s : Station) (x : Exchange) : Option (Bool × Station × List Call) := do
  let (r, response, calls) ← httpGet serverIp serverPort (bytes "/location") s.response x
  let s := { s with response := response }
  if r > 0 then
    match ← extractBody response with
    | some body => do
      let location ← copyLine s.location 0 (response.bytes.drop body)
      return (true, { s with location := location }, calls)
    | none => return (false, s, calls)
  else return (false, s, calls)

/-- The text of `weather_path`. -/
def weatherPathText (location : CString) : CString :=
  bytes "/" ++ location ++ bytes "?format=%t"

/-- Step 2. -/
def getWeather (s : Station) (x : Exchange) : Option (Station × List Call) := do
  let weatherPath ← s.weatherPath.snprintf (weatherPathText (← s.location.str))
  let (r, response, calls) ←
    httpGet (bytes "wttr.in") (bytes "80") (← weatherPath.str) s.response x
  let s := { s with weatherPath := weatherPath, response := response }
  if r > 0 then
    match ← extractBody response with
    | some body => do
      let outdoorTemp ← copyLine s.outdoorTemp 0 (response.bytes.drop body)
      return ({ s with outdoorTemp := outdoorTemp }, calls)
    | none => do
      let outdoorTemp ← s.outdoorTemp.write 0 (bytes "N/A" ++ [0])
      return ({ s with outdoorTemp := outdoorTemp }, calls)
  else do
    let outdoorTemp ← s.outdoorTemp.write 0 (bytes "N/A" ++ [0])
    return ({ s with outdoorTemp := outdoorTemp }, calls)

/-- The text of `payload`. -/
def payloadText (location outdoorTemp : CString) (sensorTemp : Float32) : CString :=
  bytes "Location: " ++ location ++ bytes "\n" ++
  bytes "Outdoor Temperature: " ++ outdoorTemp ++ bytes "\n" ++
  bytes "ESP32 Sensor Temperature: " ++ sensorTemp.text ++ bytes " C"

/-- Steps 3 and 4. Beside the calls, the string that is passed to `http_post`. -/
def postData (s : Station) (sensor : Option Float32) (x : Exchange) :
    Option (Station × List Call × CString) := do
  let sensorTemp := sensor.getD .zero
  let payload ← s.payload.snprintf
    (payloadText (← s.location.str) (← s.outdoorTemp.str) sensorTemp)
  let posted ← payload.str
  let (_, response, calls) ← httpPost serverIp serverPort (bytes "/") posted s.response x
  return ({ s with payload := payload, response := response }, calls, posted)

/-- What a cycle leaves and does; `posted` is the payload, if the cycle comes that far. -/
structure Cycle where
  station : Station
  calls : List Call
  posted : Option CString

/-- A cycle of `weather_station_task`. -/
def cycle (s : Station) (io : CycleIo) : Option Cycle := do
  let (ok, s, calls) ← getLocation s io.getLocation
  if ok then do
    let (s, weatherCalls) ← getWeather s io.getWeather
    let (s, postCalls, posted) ← postData s io.sensor io.post
    return ⟨s, calls ++ weatherCalls ++ postCalls, some posted⟩
  else return ⟨s, calls, none⟩

/-! ## The copy loops -/

/-- The line that is copied out of a body into an array of `n` bytes. -/
def lineOf (n : Nat) (body : CString) : CString :=
  (body.takeWhile fun c => c ≠ newline ∧ c ≠ carriageReturn).take (n - 1)

/-- Where the loop ends, it writes the terminator. -/
theorem copyLine_end {n : Nat} (hn : 0 < n) {dst : CBuffer n} {pre : CString} (hpre : 0 ∉ pre)
    (hlen : pre.length ≤ n - 1) (hdst : dst.bytes.take pre.length = pre) {c : UInt8}
    (body : CString)
    (hc : ¬ (c ≠ 0 ∧ c ≠ newline ∧ c ≠ carriageReturn ∧ pre.length < n - 1)) :
    ∃ dst', copyLine dst pre.length (c :: body) = some dst' ∧ dst'.Holds pre := by
  rcases CBuffer.write_eq dst pre.length [0] (by simp; omega) with
    ⟨dst', hwrite, hbytes⟩
  refine ⟨dst', ?_, hpre, dst.bytes.drop (pre.length + 1), ?_⟩
  · unfold copyLine
    rw [if_neg hc, hwrite]
  · rw [hbytes, hdst]
    simp

/-- Any other byte is copied. -/
theorem copyLine_step {n : Nat} {dst : CBuffer n} {pre : CString}
    (hdst : dst.bytes.take pre.length = pre) {c : UInt8} (body : CString)
    (hc : c ≠ 0 ∧ c ≠ newline ∧ c ≠ carriageReturn ∧ pre.length < n - 1) :
    ∃ dst' : CBuffer n, dst'.bytes.take (pre ++ [c]).length = pre ++ [c] ∧
      copyLine dst pre.length (c :: body) = copyLine dst' (pre ++ [c]).length body := by
  rcases CBuffer.write_eq dst pre.length [c] (by simp; omega) with
    ⟨dst', hwrite, hbytes⟩
  refine ⟨dst', ?_, ?_⟩
  · rw [hbytes, hdst, List.take_left' rfl]
  · conv_lhs => unfold copyLine
    rw [if_pos hc, hwrite, List.length_append]
    rfl

/-- The copy loop leaves the first line of a terminated body, and never leaves the
arrays. -/
theorem copyLine_holds {n : Nat} (hn : 0 < n) {body : CString} (hbody : 0 ∉ body)
    (rest : CString) (dst : CBuffer n) (pre : CString) (hpre : 0 ∉ pre)
    (hlen : pre.length ≤ n - 1) (hdst : dst.bytes.take pre.length = pre) :
    ∃ dst', copyLine dst pre.length (body ++ 0 :: rest) = some dst' ∧
      dst'.Holds (pre ++ (body.takeWhile fun c => c ≠ newline ∧ c ≠ carriageReturn).take
        (n - 1 - pre.length)) := by
  induction body generalizing dst pre with
  | nil => simpa using copyLine_end hn hpre hlen hdst rest (c := 0) (by simp)
  | cons c body ih =>
      have hc0 : c ≠ 0 := fun h => hbody (by simp [h])
      by_cases hc : c ≠ newline ∧ c ≠ carriageReturn
      · by_cases hroom : pre.length < n - 1
        · rcases copyLine_step hdst (body ++ 0 :: rest) ⟨hc0, hc.1, hc.2, hroom⟩ with
            ⟨dst', hdst', hstep⟩
          have hpre' : 0 ∉ pre ++ [c] := by
            simp [hpre, Ne.symm hc0]
          have hlen' : (pre ++ [c]).length ≤ n - 1 := by
            simp only [List.length_append, List.length_singleton]
            omega
          rcases ih (fun h => hbody (List.mem_cons_of_mem c h)) dst' _ hpre' hlen' hdst' with
            ⟨dst'', hrest, hholds⟩
          refine ⟨dst'', hstep.trans hrest, ?_⟩
          have hleft : n - 1 - pre.length = (n - 1 - (pre ++ [c]).length) + 1 := by
            simp only [List.length_append, List.length_singleton]
            omega
          rw [List.takeWhile_cons_of_pos (by simpa using hc), hleft, List.take_succ_cons]
          rwa [List.append_assoc] at hholds
        · -- the array is full before the line is at its end
          have hfull : n - 1 - pre.length = 0 := by omega
          rw [hfull, List.take_zero, List.append_nil]
          exact copyLine_end hn hpre hlen hdst _ fun h => hroom h.2.2.2
      · rw [List.takeWhile_cons_of_neg (by simpa using hc), List.take_nil, List.append_nil]
        exact copyLine_end hn hpre hlen hdst _ fun h => hc ⟨h.2.1, h.2.2.1⟩

/-- From the start of the array on. -/
theorem copyLine_eq {n : Nat} (hn : 0 < n) {body : CString} (hbody : 0 ∉ body) (rest : CString)
    (dst : CBuffer n) : ∃ dst', copyLine dst 0 (body ++ 0 :: rest) = some dst' ∧
      dst'.Holds (lineOf n body) :=
  copyLine_holds hn hbody rest dst [] (by simp) (by simp) (by simp)

/-! ## Lines -/

/-- No byte of a line ends it. -/
structure IsLine (s : CString) : Prop where
  nul : 0 ∉ s
  newline : newline ∉ s
  carriageReturn : carriageReturn ∉ s

theorem isLine_lineOf {n : Nat} {body : CString} (hbody : 0 ∉ body) : IsLine (lineOf n body) := by
  have hmem : ∀ c ∈ lineOf n body, c ∈ body ∧ c ≠ newline ∧ c ≠ carriageReturn := by
    intro c hc
    have hwhile := List.mem_of_mem_take hc
    exact ⟨(List.takeWhile_sublist _).subset hwhile, by simpa using List.mem_takeWhile_imp hwhile⟩
  refine ⟨fun h => hbody (hmem 0 h).1, fun h => ?_, fun h => ?_⟩
  · exact (hmem _ h).2.1 rfl
  · exact (hmem _ h).2.2 rfl

theorem lineOf_length (n : Nat) (body : CString) : (lineOf n body).length ≤ n - 1 :=
  List.length_take_le _ _

/-- The line that an exchange brings for an array of `n` bytes. -/
def lineFrom (n : Nat) (x : Exchange) : Option CString :=
  (bodyOf (received 2048 x)).map (lineOf n)

/-- The outdoor temperature of a cycle. -/
def outdoorOf (x : Exchange) : CString := (lineFrom 64 x).getD (bytes "N/A")

theorem bodyOf_nul {r body : CString} (h : bodyOf r = some body) : 0 ∉ body := by
  unfold bodyOf at h
  simp only [Option.map_eq_some_iff] at h
  rcases h with ⟨i, -, rfl⟩
  intro hmem
  simpa using List.mem_takeWhile_imp (List.mem_of_mem_drop hmem)

theorem isLine_lineFrom {n : Nat} {x : Exchange} {L : CString} (h : L ∈ lineFrom n x) :
    IsLine L ∧ L.length ≤ n - 1 := by
  unfold lineFrom at h
  rcases Option.map_eq_some_iff.1 h with ⟨body, hbody, rfl⟩
  exact ⟨isLine_lineOf (bodyOf_nul hbody), lineOf_length n body⟩

theorem isLine_outdoorOf (x : Exchange) : IsLine (outdoorOf x) ∧ (outdoorOf x).length ≤ 63 := by
  unfold outdoorOf
  rcases hline : lineFrom 64 x with _ | L
  · refine ⟨⟨?_, ?_, ?_⟩, ?_⟩ <;> decide
  · exact isLine_lineFrom hline

/-! ## The steps -/

/-- The request for the location. -/
def locationRequest : CString :=
  snprintf 512 (getText serverIp serverPort (bytes "/location"))

/-- The request for the weather of a location. -/
def weatherRequest (location : CString) : CString :=
  snprintf 512 (getText (bytes "wttr.in") (bytes "80") (weatherPathText location))

/-- The request that posts a payload. -/
def postRequest (payload : CString) : CString :=
  snprintf 1024 (postText serverIp serverPort (bytes "/") payload)

/-- Step 1 succeeds exactly when a line was brought, and leaves it; otherwise the location
stays as it was. -/
theorem getLocation_eq (x : Exchange) : ∃ calls, writes calls = x.written locationRequest ∧
    ∀ s, ∃ s', getLocation s x = some ((lineFrom 128 x).isSome, s', calls) ∧
      (∀ L ∈ lineFrom 128 x, s'.location.Holds L) ∧
      (lineFrom 128 x = none → s'.location = s.location) := by
  rcases httpGet_cases (n := 2048) (by decide) serverIp serverPort (bytes "/location") x with
    ⟨r, calls, hwrites, hget⟩
  refine ⟨calls, hwrites, fun s => ?_⟩
  rcases hget s.response with ⟨response, hresponse, hcases⟩
  unfold getLocation lineFrom
  rw [hresponse]
  rcases hcases with ⟨hr, hbody⟩ | ⟨hr, hextract, hbody⟩ |
    ⟨hr, off, body, rest, hextract, hbody, hdrop, hnul⟩
  · refine ⟨{ s with response := response }, ?_, ?_, fun _ => rfl⟩
    · simp [hr, hbody]
    · simp [hbody]
  · refine ⟨{ s with response := response }, ?_, ?_, fun _ => rfl⟩
    · simp [hr, hbody, hextract]
    · simp [hbody]
  · rcases copyLine_eq (n := 128) (by decide) hnul rest s.location with ⟨location, hcopy, hholds⟩
    refine ⟨{ s with response := response, location := location }, ?_, ?_, ?_⟩
    · simp [hr, hbody, hextract, hdrop, hcopy]
    · simpa [hbody] using hholds
    · simp [hbody]

/-- The path of a location that fits its array fits its own. -/
theorem weatherPath_fits {L : CString} (hL : IsLine L) (hlen : L.length ≤ 127) :
    0 ∉ weatherPathText L ∧ (weatherPathText L).length < 256 := by
  have hslash : (bytes "/").length = 1 ∧ 0 ∉ bytes "/" := by decide
  have hformat : (bytes "?format=%t").length = 10 ∧ 0 ∉ bytes "?format=%t" := by decide
  unfold weatherPathText
  constructor
  · simp [hslash.2, hformat.2, hL.nul]
  · simp only [List.length_append, hslash.1, hformat.1]
    omega

/-- Step 2 leaves the line that was brought, or that there is none. -/
theorem getWeather_eq (x : Exchange) {L : CString} (hL : IsLine L) (hlen : L.length ≤ 127) :
    ∃ calls, writes calls = x.written (weatherRequest L) ∧ ∀ s, s.location.Holds L →
      ∃ s', getWeather s x = some (s', calls) ∧ s'.location = s.location ∧
        s'.outdoorTemp.Holds (outdoorOf x) := by
  rcases httpGet_cases (n := 2048) (by decide) (bytes "wttr.in") (bytes "80")
    (weatherPathText L) x with ⟨r, calls, hwrites, hget⟩
  refine ⟨calls, hwrites, fun s hs => ?_⟩
  rcases hget s.response with ⟨response, hresponse, hcases⟩
  rcases CBuffer.snprintf_holds s.weatherPath (weatherPath_fits hL hlen).1
    (weatherPath_fits hL hlen).2 with ⟨weatherPath, hpath, hpathHolds⟩
  -- without a line the temperature is "N/A"
  rcases @CBuffer.write_holds 64 s.outdoorTemp (bytes "N/A") (by decide) (by decide) with
    ⟨unknown, hunknown, hunknownHolds⟩
  unfold getWeather outdoorOf lineFrom
  rw [hs.str_eq]
  rcases hcases with ⟨hr, hbody⟩ | ⟨hr, hextract, hbody⟩ |
    ⟨hr, off, body, rest, hextract, hbody, hdrop, hnul⟩
  · refine ⟨{ s with weatherPath := weatherPath, response := response, outdoorTemp := unknown },
      ?_, rfl, ?_⟩
    · simp [hpath, hpathHolds.str_eq, hresponse, hr, hunknown]
    · simpa [hbody] using hunknownHolds
  · refine ⟨{ s with weatherPath := weatherPath, response := response, outdoorTemp := unknown },
      ?_, rfl, ?_⟩
    · simp [hpath, hpathHolds.str_eq, hresponse, hr, hextract, hunknown]
    · simpa [hbody] using hunknownHolds
  · rcases copyLine_eq (n := 64) (by decide) hnul rest s.outdoorTemp with
      ⟨outdoorTemp, hcopy, hholds⟩
    refine ⟨{ s with weatherPath := weatherPath, response := response,
                     outdoorTemp := outdoorTemp }, ?_, rfl, ?_⟩
    · simp [hpath, hpathHolds.str_eq, hresponse, hr, hextract, hdrop, hcopy]
    · simpa [hbody] using hholds

/-- The calls of step 2 are those of `http_get`, for the path that is made of the location. -/
theorem getWeather_get {s s' : Station} {x : Exchange} {calls : List Call}
    (h : getWeather s x = some (s', calls)) : ∃ location weatherPath path r response',
      s.location.str = some location ∧
      s.weatherPath.snprintf (weatherPathText location) = some weatherPath ∧
      weatherPath.str = some path ∧
      httpGet (bytes "wttr.in") (bytes "80") path s.response x =
        some (r, response', calls) := by
  rcases Option.bind_eq_some_iff.1 h with ⟨location, hlocation, hmake⟩
  rcases Option.bind_eq_some_iff.1 hmake with ⟨weatherPath, hweatherPath, hread⟩
  rcases Option.bind_eq_some_iff.1 hread with ⟨path, hpath, hrequest⟩
  rcases Option.bind_eq_some_iff.1 hrequest with ⟨⟨r, response', calls'⟩, hget, hrest⟩
  refine ⟨location, weatherPath, path, r, response', hlocation, hweatherPath, hpath, ?_⟩
  have hcalls : calls = calls' := by
    simp only at hrest
    split at hrest
    · rcases Option.bind_eq_some_iff.1 hrest with ⟨body, -, hbody⟩
      rcases body with _ | body
      all_goals
        rcases Option.bind_eq_some_iff.1 hbody with ⟨_, -, hresult⟩
        exact (congrArg Prod.snd (Option.some.inj hresult)).symm
    · rcases Option.bind_eq_some_iff.1 hrest with ⟨_, -, hresult⟩
      exact (congrArg Prod.snd (Option.some.inj hresult)).symm
  rw [hget, hcalls]

/-! ## The payload -/

theorem Float32.magnitude_le (f : Float32) : f.magnitude ≤ (2 ^ 128 : Nat) := by
  have hmantissa : (f.mantissa : ℚ) ≤ 2 ^ 24 := by
    exact_mod_cast f.mantissa_lt.le
  have hexponent : (2 : ℚ) ^ f.exponent ≤ 2 ^ (104 : Int) :=
    zpow_le_zpow_right₀ (by norm_num) f.exponent_le
  calc f.magnitude ≤ 2 ^ 24 * 2 ^ (104 : Int) :=
        mul_le_mul hmantissa hexponent (zpow_nonneg (by norm_num) _) (by norm_num)
    _ = (2 ^ 128 : Nat) := by norm_num

/-- The text of a temperature has at most 43 characters, and none that ends a line. -/
theorem Float32.text_length (f : Float32) : f.text.length ≤ 43 :=
  Printf.fixed_length (k := 39) (by decide) (by decide) (by decide +kernel) f.magnitude_le

theorem Float32.isLine_text (f : Float32) : IsLine f.text := by
  have hmem : ∀ c ∈ f.text, c ≠ 0 ∧ c ≠ Cse121.newline ∧ c ≠ Lab73.carriageReturn := by
    intro c hc
    rcases Printf.mem_fixed hc with ⟨hlo, hhi⟩ | rfl | rfl
    · refine ⟨?_, ?_, ?_⟩ <;> rintro rfl <;> exact absurd hlo (by decide)
    · decide
    · decide
  exact ⟨fun h => (hmem _ h).1 rfl, fun h => (hmem _ h).2.1 rfl, fun h => (hmem _ h).2.2 rfl⟩

theorem payload_length {L T : CString} (hL : L.length ≤ 127) (hT : T.length ≤ 63)
    (f : Float32) : (payloadText L T f).length ≤ 294 := by
  have htexts : (bytes "Location: ").length = 10 ∧ (bytes "\n").length = 1 ∧
      (bytes "Outdoor Temperature: ").length = 21 ∧
      (bytes "ESP32 Sensor Temperature: ").length = 26 ∧ (bytes " C").length = 2 := by decide
  have hf := f.text_length
  unfold payloadText
  simp only [List.length_append, htexts]
  omega

theorem payload_nul {L T : CString} (hL : IsLine L) (hT : IsLine T) (f : Float32) :
    0 ∉ payloadText L T f := by
  have htexts : 0 ∉ bytes "Location: " ∧ 0 ∉ bytes "\n" ∧ 0 ∉ bytes "Outdoor Temperature: " ∧
      0 ∉ bytes "ESP32 Sensor Temperature: " ∧ 0 ∉ bytes " C" := by decide
  have hf := f.isLine_text
  unfold payloadText
  simp [htexts, hL.nul, hT.nul, hf.nul]

/-- Steps 3 and 4 post what steps 1 and 2 have left. -/
theorem postData_eq (sensor : Option Float32) (x : Exchange) {L T : CString} (hL : IsLine L)
    (hLlen : L.length ≤ 127) (hT : IsLine T) (hTlen : T.length ≤ 63) :
    let p := payloadText L T (sensor.getD .zero)
    ∃ calls, writes calls = x.written (postRequest p) ∧
      ∀ s, s.location.Holds L → s.outdoorTemp.Holds T →
      ∃ s', postData s sensor x = some (s', calls, p) ∧ s'.location = s.location ∧
        s'.outdoorTemp = s.outdoorTemp ∧ s'.payload.Holds p := by
  intro p
  have hlen : p.length < 512 := by
    have hle := payload_length hLlen hTlen (sensor.getD .zero)
    change (payloadText L T (sensor.getD .zero)).length < 512
    omega
  -- the calls come before the array: they do not depend on what it holds
  have hpost : ∃ r calls, writes calls = x.written (postRequest p) ∧ ∀ response : CBuffer 2048,
      ∃ response', httpPost serverIp serverPort (bytes "/") p response x =
        some (r, response', calls) := by
    by_cases hx : x.Sent
    · rcases httpPost_sent (n := 2048) (by decide) hx with ⟨response', heq⟩
      refine ⟨_, _, ?_, fun response => ⟨response', heq response⟩⟩
      rw [writes_append, sendRequest_writes]
      exact List.append_nil _
    · exact ⟨_, _, sendRequest_writes _ _ _ _,
        fun response => ⟨response, httpPost_failed hx response⟩⟩
  rcases hpost with ⟨r, calls, hwrites, hpost⟩
  refine ⟨calls, hwrites, fun s hs hs' => ?_⟩
  rcases hpost s.response with ⟨response, hresponse⟩
  rcases CBuffer.snprintf_holds s.payload (payload_nul hL hT (sensor.getD .zero)) hlen with
    ⟨payload, hsnprintf, hholds⟩
  refine ⟨{ s with payload := payload, response := response }, ?_, rfl, rfl, hholds⟩
  unfold postData
  rw [hs.str_eq, hs'.str_eq]
  simp only [Option.bind_eq_bind, Option.bind_some, hsnprintf, hholds.str_eq]
  change ((httpPost serverIp serverPort (bytes "/") p s.response x).bind _) = _
  rw [hresponse]
  rfl

/-! ## The cycle -/

/-- What a cycle posts: nothing without a location. -/
def postedIn (io : CycleIo) : Option CString :=
  (lineFrom 128 io.getLocation).map fun location =>
    payloadText location (outdoorOf io.getWeather) (io.sensor.getD .zero)

/-- What a cycle writes: its requests, as far as their exchanges come. -/
def writtenIn (io : CycleIo) : List (CString × Bool) :=
  io.getLocation.written locationRequest ++ match lineFrom 128 io.getLocation with
    | none => []
    | some location => io.getWeather.written (weatherRequest location) ++ io.post.written
        (postRequest (payloadText location (outdoorOf io.getWeather) (io.sensor.getD .zero)))

/-- A cycle stays inside its arrays. What it does is told by what its own calls return:
the arrays as they were before have no part in it. -/
theorem cycle_eq (io : CycleIo) : ∃ calls,
    writes calls = writtenIn io ∧
    ∀ s, ∃ s', cycle s io = some ⟨s', calls, postedIn io⟩ ∧
      (lineFrom 128 io.getLocation = none → s'.location = s.location) ∧
      ∀ location ∈ lineFrom 128 io.getLocation, s'.location.Holds location ∧
        s'.outdoorTemp.Holds (outdoorOf io.getWeather) ∧
        ∀ p ∈ postedIn io, s'.payload.Holds p := by
  rcases getLocation_eq io.getLocation with ⟨calls, hwrites, hlocation⟩
  unfold cycle postedIn writtenIn
  rcases hline : lineFrom 128 io.getLocation with _ | L
  · rw [hline] at hlocation
    refine ⟨calls, hwrites.trans (List.append_nil _).symm, fun s => ?_⟩
    · rcases hlocation s with ⟨s', hs', -, hkept⟩
      refine ⟨s', ?_, hkept, by simp⟩
      rw [hs']
      rfl
  · rw [hline] at hlocation
    -- each step finds in the arrays what the one before it has left there
    rcases isLine_lineFrom hline with ⟨hL, hLlen⟩
    rcases isLine_outdoorOf io.getWeather with ⟨hT, hTlen⟩
    rcases getWeather_eq io.getWeather hL hLlen with ⟨calls', hwrites', hweather⟩
    rcases postData_eq io.sensor io.post hL hLlen hT hTlen with ⟨calls'', hwrites'', hpost⟩
    refine ⟨calls ++ calls' ++ calls'', ?_, fun s => ?_⟩
    · rw [writes_append, writes_append, hwrites, hwrites', hwrites'', List.append_assoc]
    · rcases hlocation s with ⟨s₁, hs₁, hholds₁, -⟩
      rcases hweather s₁ (hholds₁ L rfl) with ⟨s₂, hs₂, hloc₂, hholds₂⟩
      rcases hpost s₂ (hloc₂ ▸ hholds₁ L rfl) hholds₂ with ⟨s₃, hs₃, hloc₃, hout₃, hholds₃⟩
      refine ⟨s₃, ?_, by simp, ?_⟩
      · rw [hs₁]
        simp only [Option.bind_eq_bind, Option.bind_some, Option.isSome_some, if_true, hs₂, hs₃]
        rfl
      · intro L' hL'
        obtain rfl := Option.some.inj hL'
        refine ⟨?_, ?_, ?_⟩
        · rw [hloc₃, hloc₂]
          exact hholds₁ L rfl
        · rw [hout₃]
          exact hholds₂
        · intro p hp
          obtain rfl := Option.some.inj hp
          exact hholds₃

/-! ## The task -/

/-- The cycles of `weather_station_task`, one after the other. -/
def weatherStationTask (s : Station) : List CycleIo → Option (List Cycle)
  | [] => some []
  | io :: ios => do
    let c ← cycle s io
    let cs ← weatherStationTask c.station ios
    return c :: cs

/-- The last cycle of a run starts from some contents of the arrays. -/
theorem weatherStationTask_concat (s : Station) (ios : List CycleIo) (io : CycleIo) :
    ∃ s' cs c, cycle s' io = some c ∧ weatherStationTask s (ios ++ [io]) = some (cs ++ [c]) := by
  induction ios generalizing s with
  | nil =>
      rcases cycle_eq io with ⟨calls, -, hcycle⟩
      rcases hcycle s with ⟨s', hs', -⟩
      refine ⟨s, [], _, hs', ?_⟩
      simp [weatherStationTask, hs']
  | cons io' ios ih =>
      rcases cycle_eq io' with ⟨calls, -, hcycle⟩
      rcases hcycle s with ⟨s₁, hs₁, -⟩
      rcases ih s₁ with ⟨s', cs, c, hc, hcs⟩
      refine ⟨s', ⟨s₁, calls, postedIn io'⟩ :: cs, c, hc, ?_⟩
      simp [weatherStationTask, hs₁, hcs]

/-- After any two histories, from any contents of the arrays, a cycle whose calls return
the same makes the same calls and posts the same. -/
theorem no_stale_data (s₁ s₂ : Station) (ios₁ ios₂ : List CycleIo) (io : CycleIo) :
    ∃ cs₁ c₁ cs₂ c₂, weatherStationTask s₁ (ios₁ ++ [io]) = some (cs₁ ++ [c₁]) ∧
      weatherStationTask s₂ (ios₂ ++ [io]) = some (cs₂ ++ [c₂]) ∧
      c₁.posted = c₂.posted ∧ c₁.calls = c₂.calls := by
  rcases weatherStationTask_concat s₁ ios₁ io with ⟨s₁', cs₁, c₁, hc₁, hcs₁⟩
  rcases weatherStationTask_concat s₂ ios₂ io with ⟨s₂', cs₂, c₂, hc₂, hcs₂⟩
  rcases cycle_eq io with ⟨calls, -, hcycle⟩
  rcases hcycle s₁' with ⟨s₁'', hs₁, -⟩
  rcases hcycle s₂' with ⟨s₂'', hs₂, -⟩
  obtain rfl := Option.some.inj (hc₁.symm.trans hs₁)
  obtain rfl := Option.some.inj (hc₂.symm.trans hs₂)
  exact ⟨cs₁, _, cs₂, _, hcs₁, hcs₂, rfl, rfl⟩

end Cse121.Lab73
