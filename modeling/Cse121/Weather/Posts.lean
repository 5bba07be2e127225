import Cse121.Weather.Station

/-! # What the weather station posts

The request of `http_post` is a header that the network has no part in, an empty line and
the payload. `do_POST` of `lab7_3/server.py` reads the payload back, and the three lines of
the payload give back the location and the outdoor temperature.
-/

namespace Cse121.Lab73

/-! ## The server -/

/-- The value of the `Content-Length` header; 0 without one. -/
def contentLength (head : CString) : Nat :=
  match (head.splitOn newline).find? fun line => bytes "Content-Length: " <+: line with
  | none => 0
  | some line => Printf.value ((line.drop 16).takeWhile fun c => Printf.IsDigit c)

/-- `do_POST`: the bytes behind the header, as many as it announces. With fewer the server
waits. -/
def doPost (request : CString) : Option CString := do
  let i ← CBuffer.strstr blankLine request
  let content := request.drop (i + 4)
  let length := contentLength (request.take i)
  if length ≤ content.length then some (content.take length) else none

/-- The location and the outdoor temperature in the lines of a payload. -/
def reported (payload : CString) : Option (CString × CString) :=
  match payload.splitOn newline with
  | [location, outdoor, sensor] =>
    if bytes "Location: " <+: location ∧ bytes "Outdoor Temperature: " <+: outdoor ∧
        bytes "ESP32 Sensor Temperature: " <+: sensor then
      some (location.drop 10, outdoor.drop 21)
    else none
  | _ => none

/-! ## The header -/

/-- The header of a request for a payload of `n` bytes. -/
def postHead (n : Nat) : CString :=
  bytes "POST / HTTP/1.1\r\n" ++ bytes "Host: 192.168.43.1:1234\r\n" ++
  bytes "Content-Type: text/plain\r\n" ++ bytes "Content-Length: " ++ Printf.decimal n

/-- The request is the header, an empty line and the payload. -/
theorem postText_eq (p : CString) :
    postText serverIp serverPort (bytes "/") p = postHead p.length ++ blankLine ++ p := by
  have hfirst : bytes "POST " ++ bytes "/" ++ bytes " HTTP/1.1\r\n" =
      bytes "POST / HTTP/1.1\r\n" := by decide
  have hhost : bytes "Host: " ++ serverIp ++ bytes ":" ++ serverPort ++ bytes "\r\n" =
      bytes "Host: 192.168.43.1:1234\r\n" := by decide
  have hblank : bytes "\r\n" ++ bytes "\r\n" = blankLine := by decide
  unfold postText postHead
  rw [Printf.signed_natCast, ← hfirst, ← hhost, ← hblank]
  simp only [List.append_assoc]

theorem carriageReturn_notMem_decimal (n : Nat) : carriageReturn ∉ Printf.decimal n := by
  intro h
  exact absurd (Printf.isDigit_decimal h) (by decide)

theorem newline_notMem_decimal (n : Nat) : newline ∉ Printf.decimal n := by
  intro h
  exact absurd (Printf.isDigit_decimal h) (by decide)

/-- Where an empty line begins, a carriage return stands, and another two bytes on. -/
theorem blankLine_prefix {s : CString} {k : Nat} (h : blankLine <+: s.drop k) :
    s[k]? = some carriageReturn ∧ s[k + 2]? = some carriageReturn := by
  rcases h with ⟨rest, hrest⟩
  have hget : ∀ i, s[k + i]? = (blankLine ++ rest)[i]? := by
    intro i
    rw [hrest, List.getElem?_drop]
  refine ⟨(hget 0).trans ?_, (hget 2).trans ?_⟩
  · rfl
  · rfl

/-- The first empty line of the request is behind the header. -/
theorem strstr_postHead (n : Nat) (p : CString) :
    CBuffer.strstr blankLine (postHead n ++ blankLine ++ p) = some (postHead n).length := by
  obtain ⟨fixed, hfixed⟩ : ∃ fixed, fixed = bytes "POST / HTTP/1.1\r\n" ++
      bytes "Host: 192.168.43.1:1234\r\n" ++ bytes "Content-Type: text/plain\r\n" ++
      bytes "Content-Length: " := ⟨_, rfl⟩
  have hhead : postHead n = fixed ++ Printf.decimal n := by
    rw [hfixed]
    rfl
  -- in the fixed part every carriage return ends a line that is followed by another
  have hcr : ∀ k < fixed.length, fixed[k]? = some carriageReturn →
      k + 2 < fixed.length ∧ fixed[k + 2]? ≠ some carriageReturn := by
    rw [hfixed]
    decide +kernel
  refine CBuffer.strstr_eq_some_iff.2 ⟨?_, ?_, ?_⟩
  · simp only [List.length_append]
    omega
  · rw [List.append_assoc, List.drop_left' rfl]
    exact List.prefix_append _ _
  · intro k hk hprefix
    rcases blankLine_prefix hprefix with ⟨hk0, hk2⟩
    rw [List.append_assoc, List.getElem?_append_left hk] at hk0
    rw [hhead] at hk0 hk hk2
    by_cases hkfixed : k < fixed.length
    · rw [List.getElem?_append_left hkfixed] at hk0
      rcases hcr k hkfixed hk0 with ⟨hlt, hne⟩
      rw [List.append_assoc, List.append_assoc, List.getElem?_append_left hlt] at hk2
      exact hne hk2
    · rw [List.getElem?_append_right (by omega)] at hk0
      exact carriageReturn_notMem_decimal n (List.mem_of_getElem? hk0)

/-- The server finds the number that the header announces. -/
theorem contentLength_postHead (n : Nat) : contentLength (postHead n) = n := by
  have hsplit : postHead n = bytes "POST / HTTP/1.1\r" ++ newline ::
      (bytes "Host: 192.168.43.1:1234\r" ++ newline :: (bytes "Content-Type: text/plain\r" ++
        newline :: (bytes "Content-Length: " ++ Printf.decimal n))) := by
    have hpost : bytes "POST / HTTP/1.1\r\n" = bytes "POST / HTTP/1.1\r" ++ [newline] := by decide
    have hhost : bytes "Host: 192.168.43.1:1234\r\n" =
        bytes "Host: 192.168.43.1:1234\r" ++ [newline] := by decide
    have htype : bytes "Content-Type: text/plain\r\n" =
        bytes "Content-Type: text/plain\r" ++ [newline] := by decide
    unfold postHead
    rw [hpost, hhost, htype]
    simp only [List.append_assoc, List.cons_append, List.nil_append]
  -- the number ends its line, which is the last one of the header
  have hlast : newline ∉ bytes "Content-Length: " ++ Printf.decimal n := by
    rw [List.mem_append, not_or]
    exact ⟨by decide, newline_notMem_decimal n⟩
  have hdigits : (Printf.decimal n).takeWhile (fun c => Printf.IsDigit c) = Printf.decimal n := by
    refine List.takeWhile_eq_self_iff.2 ?_
    intro c hc
    exact decide_eq_true (Printf.isDigit_decimal hc)
  have hlength : (bytes "Content-Length: ").length = 16 := by decide
  unfold contentLength
  rw [hsplit, List.splitOn_append_cons_self_of_not_mem (by decide),
    List.splitOn_append_cons_self_of_not_mem (by decide),
    List.splitOn_append_cons_self_of_not_mem (by decide), List.splitOn_eq_singleton hlast,
    List.find?_cons_of_neg (by decide), List.find?_cons_of_neg (by decide),
    List.find?_cons_of_neg (by decide),
    List.find?_cons_of_pos (p := fun line => decide (bytes "Content-Length: " <+: line))
      (decide_eq_true (List.prefix_append _ _))]
  simp only
  rw [List.drop_left' hlength, hdigits, Printf.value_decimal]

/-- The server reads the payload of the request. -/
theorem doPost_eq (p : CString) : doPost (postHead p.length ++ blankLine ++ p) = some p := by
  have hblank : blankLine.length = 4 := by decide
  have hcontent : (postHead p.length ++ blankLine ++ p).drop ((postHead p.length).length + 4) =
      p := by
    refine List.drop_left' ?_
    rw [List.length_append, hblank]
  have hhead : (postHead p.length ++ blankLine ++ p).take (postHead p.length).length =
      postHead p.length := by
    rw [List.append_assoc, List.take_left' rfl]
  unfold doPost
  rw [strstr_postHead]
  simp only [Option.bind_eq_bind, Option.bind_some, hcontent, hhead, contentLength_postHead,
    le_refl, if_true, List.take_length]

/-! ## The payload -/

/-- The payload has three lines, and they give back what it was made of. -/
theorem reported_payloadText {L T : CString} (hL : IsLine L) (hT : IsLine T) (f : Float32) :
    (payloadText L T f).splitOn newline =
        [bytes "Location: " ++ L, bytes "Outdoor Temperature: " ++ T,
          bytes "ESP32 Sensor Temperature: " ++ f.text ++ bytes " C"] ∧
      reported (payloadText L T f) = some (L, T) := by
  have hsplit : (payloadText L T f).splitOn newline =
      [bytes "Location: " ++ L, bytes "Outdoor Temperature: " ++ T,
        bytes "ESP32 Sensor Temperature: " ++ f.text ++ bytes " C"] := by
    have hlines : payloadText L T f = (bytes "Location: " ++ L) ++ newline ::
        ((bytes "Outdoor Temperature: " ++ T) ++ newline ::
          (bytes "ESP32 Sensor Temperature: " ++ f.text ++ bytes " C")) := by
      have hnewline : bytes "\n" = [newline] := by decide
      unfold payloadText
      rw [hnewline]
      simp only [List.append_assoc, List.cons_append, List.nil_append]
    have hlabels : newline ∉ bytes "Location: " ∧ newline ∉ bytes "Outdoor Temperature: " ∧
        newline ∉ bytes "ESP32 Sensor Temperature: " ∧ newline ∉ bytes " C" := by decide
    rw [hlines, List.splitOn_append_cons_self_of_not_mem (by simp [hlabels, hL.newline]),
      List.splitOn_append_cons_self_of_not_mem (by simp [hlabels, hT.newline]),
      List.splitOn_eq_singleton (by simp [hlabels, f.isLine_text.newline])]
  refine ⟨hsplit, ?_⟩
  have hlocation : (bytes "Location: ").length = 10 := by decide
  have houtdoor : (bytes "Outdoor Temperature: ").length = 21 := by decide
  unfold reported
  rw [hsplit]
  simp only
  rw [if_pos ⟨List.prefix_append _ _, List.prefix_append _ _, by
    rw [List.append_assoc]
    exact List.prefix_append _ _⟩, List.drop_left' hlocation, List.drop_left' houtdoor]

/-! ## What is posted -/

/-- A request of `http_get` is none of `http_post`. -/
theorem getRequest_ne {host port path : CString} :
    ¬ bytes "POST " <+: snprintf 512 (getText host port path) := by
  rintro ⟨rest, hrest⟩
  have hget : (snprintf 512 (getText host port path))[0]? = some (chr 'G') := by
    unfold snprintf getText
    rw [List.getElem?_take_of_lt (by decide)]
    rfl
  rw [← hrest] at hget
  exact absurd hget (by
    change some (chr 'P') ≠ some (chr 'G')
    decide)

theorem getText_length {host port path : CString} (hhost : host.length ≤ 12)
    (hport : port.length ≤ 4) (hpath : path.length ≤ 138) :
    (getText host port path).length < 512 := by
  have htexts : (bytes "GET ").length = 4 ∧ (bytes " HTTP/1.0\r\n").length = 11 ∧
      (bytes "Host: ").length = 6 ∧ (bytes ":").length = 1 ∧ (bytes "\r\n").length = 2 ∧
      (bytes "User-Agent: curl/7.68.0\r\n").length = 25 := by decide
  unfold getText
  simp only [List.length_append, htexts]
  omega

theorem postText_length {p : CString} (hp : p.length < 512) :
    (postText serverIp serverPort (bytes "/") p).length < 1024 := by
  have htexts : (bytes "POST / HTTP/1.1\r\n").length = 17 ∧
      (bytes "Host: 192.168.43.1:1234\r\n").length = 25 ∧
      (bytes "Content-Type: text/plain\r\n").length = 26 ∧
      (bytes "Content-Length: ").length = 16 ∧ blankLine.length = 4 := by decide
  have hdigits : (Printf.decimal p.length).length ≤ 3 :=
    (Printf.decimal_length_le_iff (by decide)).2 (by omega)
  rw [postText_eq]
  unfold postHead
  simp only [List.length_append, htexts]
  omega

/-- The request that posts a payload is sent in full. -/
theorem postRequest_eq {p : CString} (hp : p.length < 512) :
    postRequest p = postHead p.length ++ blankLine ++ p := by
  have hlen := postText_length hp
  rw [← postText_eq]
  unfold postRequest snprintf
  exact List.take_of_length_le (by omega)

/-- What is posted among the calls. -/
def posts (calls : List Call) : List (CString × Bool) :=
  (writes calls).filter fun w => bytes "POST " <+: w.1

theorem postRequest_isPost (p : CString) : bytes "POST " <+: postRequest p := by
  unfold postRequest snprintf postText
  rw [List.prefix_take_iff]
  refine ⟨?_, by decide⟩
  simp only [List.append_assoc]
  exact List.prefix_append _ _

/-- Of what a cycle writes, one request at most posts something, and that is its payload. -/
theorem posts_eq {io : CycleIo} {calls : List Call} (h : writes calls = writtenIn io) :
    posts calls =
      match postedIn io with
      | none => []
      | some p => io.post.written (postRequest p) := by
  have hget : ∀ (x : Exchange) (host port path : CString),
      (x.written (snprintf 512 (getText host port path))).filter
        (fun w => bytes "POST " <+: w.1) = [] := by
    intro x host port path
    rw [List.filter_eq_nil_iff]
    rintro ⟨data, ok⟩ hmem
    rw [Exchange.written, List.mem_ite_nil_right, List.mem_singleton] at hmem
    rw [congrArg Prod.fst hmem.2, decide_eq_true_eq]
    exact getRequest_ne
  have hpost : ∀ (x : Exchange) (p : CString), (x.written (postRequest p)).filter
      (fun w => bytes "POST " <+: w.1) = x.written (postRequest p) := by
    intro x p
    rw [List.filter_eq_self]
    rintro ⟨data, ok⟩ hmem
    rw [Exchange.written, List.mem_ite_nil_right, List.mem_singleton] at hmem
    rw [congrArg Prod.fst hmem.2, decide_eq_true_eq]
    exact postRequest_isPost p
  unfold posts
  rw [h]
  unfold writtenIn postedIn locationRequest weatherRequest
  cases lineFrom 128 io.getLocation with
  | none => simp [hget]
  | some L => simp [hget, hpost]

/-- What is posted is the payload of the cycle. -/
theorem postRequest_of_mem {io : CycleIo} {calls : List Call} (h : writes calls = writtenIn io)
    {data : CString} {ok : Bool} (hmem : .write data ok ∈ calls)
    (hpost : bytes "POST " <+: data) : ∃ p ∈ postedIn io, data = postRequest p := by
  have hposts : (data, ok) ∈ posts calls :=
    List.mem_filter.2 ⟨mem_writes.2 hmem, decide_eq_true hpost⟩
  rw [posts_eq h] at hposts
  rcases hp : postedIn io with _ | p
  · simp [hp] at hposts
  · rw [hp] at hposts
    simp only [Exchange.written, List.mem_ite_nil_right, List.mem_singleton] at hposts
    exact ⟨p, rfl, congrArg Prod.fst hposts.2⟩

/-- No payload is cut off. -/
theorem postedIn_length {io : CycleIo} {p : CString} (h : p ∈ postedIn io) : p.length < 512 := by
  unfold postedIn at h
  rcases Option.map_eq_some_iff.1 h with ⟨L, hline, rfl⟩
  have hle := payload_length (isLine_lineFrom hline).2 (isLine_outdoorOf io.getWeather).2
    (io.sensor.getD .zero)
  omega

theorem weatherPathText_length {L : CString} (hL : L.length ≤ 127) :
    (weatherPathText L).length ≤ 138 := by
  have htexts : (bytes "/").length = 1 ∧ (bytes "?format=%t").length = 10 := by decide
  unfold weatherPathText
  simp only [List.length_append, htexts]
  omega

/-- Whatever the responses and the sensor bring, no text of a cycle is cut off. A cycle with a
location posts: once the connection stands it writes one request, a header that depends on the
length of the payload only, an empty line and the payload, which the server reads back, and
whose lines give back the location and the outdoor temperature. -/
theorem post_framing (s : Station) (io : CycleIo) : ∃ c, cycle s io = some c ∧
    c.posted = postedIn io ∧
    (getText serverIp serverPort (bytes "/location")).length < 512 ∧
    (c.posted = none → posts c.calls = []) ∧
    ∀ p, c.posted = some p → ∃ L T, c.station.location.str = some L ∧
      c.station.outdoorTemp.str = some T ∧ c.station.payload.str = some p ∧
      (weatherPathText L).length < 256 ∧
      (getText (bytes "wttr.in") (bytes "80") (weatherPathText L)).length < 512 ∧
      p = payloadText L T (io.sensor.getD .zero) ∧ p.length < 512 ∧
      (postText serverIp serverPort (bytes "/") p).length < 1024 ∧
      posts c.calls = (if io.post.Connected then
        [(postHead p.length ++ blankLine ++ p, io.post.write)] else []) ∧
      doPost (postHead p.length ++ blankLine ++ p) = some p ∧
      (p.splitOn newline).length = 3 ∧ reported p = some (L, T) := by
  rcases cycle_eq io with ⟨calls, hwrites, hcycle⟩
  rcases hcycle s with ⟨s', hs', -, hholds⟩
  have hposts := posts_eq hwrites
  refine ⟨_, hs', rfl, getText_length (by decide) (by decide) (by decide), ?_, ?_⟩
  · intro hp
    have hp' : postedIn io = none := hp
    rw [hp'] at hposts
    exact hposts
  intro p hp
  have hp' : postedIn io = some p := hp
  rw [hp'] at hposts
  simp only [postRequest_eq (postedIn_length hp')] at hposts
  unfold postedIn at hp'
  rcases Option.map_eq_some_iff.1 hp' with ⟨L, hline, rfl⟩
  obtain ⟨T, hT⟩ : ∃ T, T = outdoorOf io.getWeather := ⟨_, rfl⟩
  rw [← hT] at hp hposts ⊢
  rcases hholds L hline with ⟨hlocation, houtdoor, hpayload⟩
  rcases isLine_lineFrom hline with ⟨hL, hLlen⟩
  rcases isLine_outdoorOf io.getWeather with ⟨hTline, hTlen⟩
  rw [← hT] at hTline hTlen houtdoor
  have hpath := weatherPathText_length hLlen
  have hlen : (payloadText L T (io.sensor.getD .zero)).length < 512 := by
    have hle := payload_length hLlen hTlen (io.sensor.getD .zero)
    omega
  have hlines := reported_payloadText hL hTline (io.sensor.getD .zero)
  refine ⟨L, T, hlocation.str_eq, houtdoor.str_eq, (hpayload _ hp).str_eq, by omega,
    getText_length (by decide) (by decide) hpath, rfl, hlen, postText_length hlen, hposts,
    doPost_eq _, ?_, hlines.2⟩
  rw [hlines.1]
  rfl

/-- A location, its temperature and 25.5 degrees, over a connection that stands. -/
theorem post_framing_santaCruz :
    let p := bytes "Location: Santa-Cruz\nOutdoor Temperature: +15C\n" ++
      bytes "ESP32 Sensor Temperature: 25.50 C"
    ∃ c, cycle .zero ⟨
        ⟨.result, true, true, true, [.data (bytes "HTTP/1.0 200 OK\r\n\r\nSanta-Cruz\n")]⟩,
        ⟨.result, true, true, true, [.data (bytes "HTTP/1.1 200 OK\r\n\r\n+15C")]⟩,
        some ⟨false, 51, -1, by decide, by decide, by decide⟩,
        ⟨.result, true, true, true, []⟩⟩ = some c ∧ c.posted = some p ∧
      posts c.calls = [(bytes "POST / HTTP/1.1\r\nHost: 192.168.43.1:1234\r\n" ++
        bytes "Content-Type: text/plain\r\nContent-Length: 80\r\n\r\n" ++ p, true)] ∧
      reported p = some (bytes "Santa-Cruz", bytes "+15C") := by
  intro p
  obtain ⟨io, hio⟩ : ∃ io : CycleIo, io = ⟨
      ⟨.result, true, true, true, [.data (bytes "HTTP/1.0 200 OK\r\n\r\nSanta-Cruz\n")]⟩,
      ⟨.result, true, true, true, [.data (bytes "HTTP/1.1 200 OK\r\n\r\n+15C")]⟩,
      some ⟨false, 51, -1, by decide, by decide, by decide⟩,
      ⟨.result, true, true, true, []⟩⟩ := ⟨_, rfl⟩
  rcases post_framing .zero io with ⟨c, hc, hposted, -, -, hp⟩
  have hsome : c.posted = some p := by
    rw [hposted, hio]
    decide +kernel
  rcases hp p hsome with ⟨L, T, -, -, -, -, -, -, -, -, hposts, -, -, -⟩
  have hconnected : io.post.Connected ∧ io.post.write = true := by
    rw [hio]
    decide
  rw [if_pos hconnected.1, hconnected.2] at hposts
  rw [← hio]
  refine ⟨c, hc, hsome, hposts.trans ?_, ?_⟩
  · decide +kernel
  · decide +kernel

end Cse121.Lab73
