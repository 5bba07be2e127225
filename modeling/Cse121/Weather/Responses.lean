import Cse121.Weather.Station

/-! # What the weather station takes from a response

A response with a location comes through the read loop, the search for the body and the
copy loop as it is, however the stream is cut into chunks. The status line of a response
has no part in it: any response with an empty line in it has a body.
-/

namespace Cse121.Lab73

/-! ## Chunks -/

/-- What arrives in chunks is there before anything else. -/
theorem stream_append {chunks : List CString} (h : ∀ c ∈ chunks, c ≠ []) (reads : List Arrival) :
    stream (chunks.map .data ++ reads) = chunks.flatten ++ stream reads := by
  induction chunks with
  | nil => rfl
  | cons c chunks ih =>
      have hrest := ih fun c' hc' => h c' (List.mem_cons_of_mem c hc')
      rw [List.map_cons, List.cons_append, stream, if_neg (h c List.mem_cons_self), hrest,
        List.flatten_cons, List.append_assoc]

/-- A stream that arrives in chunks and then ends is the chunks together. -/
theorem stream_chunks {chunks : List CString} (h : ∀ c ∈ chunks, c ≠ []) :
    stream (chunks.map .data) = chunks.flatten := by
  have happend := stream_append h []
  rw [List.append_nil] at happend
  rw [happend]
  exact List.append_nil _

/-- The body of a response without NUL whose first empty line ends its header. -/
theorem bodyOf_header {header body : CString} (hnul : 0 ∉ header ++ body)
    (hfirst : CBuffer.strstr blankLine (header ++ body) = some (header.length - 4))
    (hlen : 4 ≤ header.length) : bodyOf (header ++ body) = some body := by
  unfold bodyOf
  rw [CBuffer.takeWhile_self hnul]
  simp only
  rw [hfirst, Option.map_some, Nat.sub_add_cancel hlen, List.drop_left' rfl]

/-- A line that fits is copied as it is. -/
theorem lineOf_eq {n : Nat} {L : CString} (hL : IsLine L) (hlen : L.length ≤ n - 1) :
    lineOf n L = L := by
  have hwhile : L.takeWhile (fun c => c ≠ newline ∧ c ≠ carriageReturn) = L := by
    refine List.takeWhile_eq_self_iff.2 ?_
    intro c hc
    have hne : c ≠ newline ∧ c ≠ carriageReturn :=
      ⟨fun h => hL.newline (h ▸ hc), fun h => hL.carriageReturn (h ▸ hc)⟩
    simpa using hne
  unfold lineOf
  rw [hwhile, List.take_of_length_le hlen]

/-- What an exchange brings that arrives in chunks. -/
theorem received_chunks {n : Nat} {x : Exchange} (hx : x.Sent) {chunks : List CString}
    (hchunks : ∀ c ∈ chunks, c ≠ []) (hreads : x.reads = chunks.map .data) :
    received n x = chunks.flatten.take (n - 1) := by
  unfold received
  rw [if_pos hx, hreads, stream_chunks hchunks]

/-- A response whose body is a line that fits brings the line. -/
theorem lineFrom_response {n : Nat} {x : Exchange} {header L : CString}
    (hreceived : received 2048 x = header ++ L) (hL : IsLine L) (hlen : L.length ≤ n - 1)
    (hnul : 0 ∉ header) (hends : blankLine <:+ header)
    (hfirst : CBuffer.strstr blankLine (header ++ L) = some (header.length - 4)) :
    lineFrom n x = some L := by
  have hfour : 4 ≤ header.length := by
    have hblank : blankLine.length = 4 := by decide
    have hle := hends.length_le
    omega
  have hbody : bodyOf (header ++ L) = some L :=
    bodyOf_header (by simp [hnul, hL.nul]) hfirst hfour
  unfold lineFrom
  rw [hreceived, hbody, Option.map_some, lineOf_eq hL hlen]

/-- A stream in chunks is stored up to 2047 bytes and terminated; a location in it is what
step 1 leaves. -/
theorem location_round_trip {x : Exchange} (hx : x.Sent) {chunks : List CString}
    (hchunks : ∀ c ∈ chunks, c ≠ []) (hreads : x.reads = chunks.map .data) :
    (∀ host port path (response : CBuffer 2048), ∃ response' calls,
      httpGet host port path response x =
        some (((chunks.flatten.take 2047).length : Int), response', calls) ∧
      response'.bytes = chunks.flatten.take 2047 ++
        List.replicate (2048 - (chunks.flatten.take 2047).length) 0 ∧
      response'.bytes[(chunks.flatten.take 2047).length]? = some 0) ∧
    ∀ header L, chunks.flatten = header ++ L → IsLine L → L.length ≤ 127 → 0 ∉ header →
      header.length + L.length ≤ 2047 → blankLine <:+ header →
      CBuffer.strstr blankLine (header ++ L) = some (header.length - 4) →
      (chunks.flatten.take 2047).length = header.length + L.length ∧
      ∀ s, ∃ s' calls, getLocation s x = some (true, s', calls) ∧ s'.location.str = some L := by
  have hstream : stream x.reads = chunks.flatten := by
    rw [hreads, stream_chunks hchunks]
  constructor
  · intro host port path response
    rcases @httpGet_sent 2048 host port path x hx with ⟨response', reads, -, hget, hbytes⟩
    rw [hstream] at hget hbytes
    have hroom : (chunks.flatten.take 2047).length ≤ 2047 := List.length_take_le _ _
    refine ⟨response', _, hget response, hbytes, ?_⟩
    rw [hbytes, List.getElem?_append_right le_rfl, Nat.sub_self, List.getElem?_replicate,
      if_pos (by omega : 0 < 2048 - (chunks.flatten.take 2047).length)]
  · intro header L hflat hL hlen hnul htotal hends hfirst
    have htake : chunks.flatten.take 2047 = header ++ L := by
      rw [hflat]
      exact List.take_of_length_le (by simpa using htotal)
    refine ⟨by rw [htake, List.length_append], fun s => ?_⟩
    have hreceived : received 2048 x = header ++ L :=
      (received_chunks hx hchunks hreads).trans htake
    have hline : lineFrom 128 x = some L :=
      lineFrom_response hreceived hL hlen hnul hends hfirst
    rcases getLocation_eq x with ⟨calls, -, hlocation⟩
    rcases hlocation s with ⟨s', hs', hholds, -⟩
    refine ⟨s', calls, ?_, (hholds L hline).str_eq⟩
    rw [hs', hline]
    rfl

/-- The answer of the server, cut inside its empty line and inside the location. -/
theorem location_round_trip_santaCruz :
    let chunks := [bytes "HTTP/1.0 200 OK\r\nContent-type: text/plain\r\n\r",
      bytes "\nSanta-", bytes "Cruz"]
    (chunks.flatten.take 2047).length = 55 ∧
      ∃ s' calls, getLocation .zero ⟨.result, true, true, true, chunks.map .data⟩ =
        some (true, s', calls) ∧ s'.location.str = some (bytes "Santa-Cruz") := by
  intro chunks
  have htrip := (@location_round_trip ⟨.result, true, true, true, chunks.map .data⟩
    ⟨rfl, rfl, rfl, rfl⟩ chunks (by decide) rfl).2
    (bytes "HTTP/1.0 200 OK\r\nContent-type: text/plain\r\n\r\n") (bytes "Santa-Cruz")
    (by decide) ⟨by decide, by decide, by decide⟩ (by decide) (by decide) (by decide) (by decide)
    (by decide +kernel)
  exact ⟨htrip.1, htrip.2 .zero⟩

/-! ## Streams that break off -/

/-- The stream of an exchange ends with an error, the array not yet full; `arrived` is what
came before. -/
structure BreaksOff (x : Exchange) (arrived : CString) : Prop where
  sent : x.Sent
  room : arrived.length < 2047
  reads : ∃ (chunks : List CString) (rest : List Arrival), (∀ c ∈ chunks, c ≠ []) ∧
    arrived = chunks.flatten ∧ x.reads = chunks.map .data ++ .error :: rest

theorem BreaksOff.stream {x : Exchange} {arrived : CString} (h : BreaksOff x arrived) :
    stream x.reads = arrived := by
  rcases h.reads with ⟨chunks, rest, hchunks, rfl, hreads⟩
  rw [hreads, stream_append hchunks]
  exact List.append_nil _

theorem BreaksOff.received {x : Exchange} {arrived : CString} (h : BreaksOff x arrived) :
    received 2048 x = arrived := by
  unfold Lab73.received
  rw [if_pos h.sent, h.stream]
  exact List.take_of_length_le h.room.le

/-- An exchange that breaks off is reported as failed exactly if nothing had arrived. Of
what had arrived the first line of the body is used, if there is a body. -/
theorem reported_failed_iff {x : Exchange} {arrived : CString} (h : BreaksOff x arrived) :
    (∀ host port path (response : CBuffer 2048), ∃ r response' calls,
      httpGet host port path response x = some (r, response', calls) ∧
        (r ≤ 0 ↔ arrived = [])) ∧
    (∀ s io, io.getLocation = x → ∃ c, cycle s io = some c ∧
      (c.posted = none ↔ bodyOf arrived = none) ∧
      ∀ body, bodyOf arrived = some body → c.station.location.Holds (lineOf 128 body)) ∧
    ∀ s io, io.getWeather = x → ∃ c, cycle s io = some c ∧ (c.posted ≠ none →
      c.station.outdoorTemp.Holds (((bodyOf arrived).map (lineOf 64)).getD (bytes "N/A"))) := by
  have hreceived := h.received
  refine ⟨?_, ?_, ?_⟩
  · intro host port path response
    rcases @httpGet_sent 2048 host port path x h.sent with ⟨response', reads, -, hget, -⟩
    refine ⟨_, response', _, hget response, ?_⟩
    -- the error ends the loop with what is stored so far
    have hall : arrived.take (2048 - 1) = arrived := List.take_of_length_le h.room.le
    rw [h.stream, hall, ← List.length_eq_zero_iff]
    omega
  · rintro s io rfl
    rcases cycle_eq io with ⟨calls, -, hcycle⟩
    rcases hcycle s with ⟨s', hs', -, hholds⟩
    refine ⟨_, hs', ?_, ?_⟩
    · unfold postedIn lineFrom
      simp only [hreceived, Option.map_eq_none_iff]
    · intro body hbody
      refine (hholds (lineOf 128 body) ?_).1
      unfold lineFrom
      rw [hreceived, hbody]
      rfl
  · rintro s io rfl
    rcases cycle_eq io with ⟨calls, -, hcycle⟩
    rcases hcycle s with ⟨s', hs', -, hholds⟩
    refine ⟨_, hs', ?_⟩
    intro hposted
    rcases Option.ne_none_iff_exists'.1 hposted with ⟨p, hp⟩
    have hp' : postedIn io = some p := hp
    rcases Option.map_eq_some_iff.1 hp' with ⟨location, hlocation, -⟩
    have houtdoor := (hholds location hlocation).2.1
    unfold outdoorOf lineFrom at houtdoor
    rwa [hreceived] at houtdoor

/-- An exchange that brings a response. -/
def answered (response : CString) : Exchange := ⟨.result, true, true, true, [.data response]⟩

/-- The answer of the server, broken off inside the location. -/
def brokenOff : Exchange where
  addrinfo := .result
  socket := true
  connect := true
  write := true
  reads := [.data (bytes "HTTP/1.0 200 OK\r\nContent-type: text/plain\r\n\r\nSanta-"), .error]

theorem brokenOff_breaksOff : BreaksOff brokenOff
    (bytes "HTTP/1.0 200 OK\r\nContent-type: text/plain\r\n\r\nSanta-") :=
  ⟨⟨rfl, rfl, rfl, rfl⟩, by decide, [_], [], by decide, rfl, rfl⟩

theorem reported_failed_iff_santa : ∃ r response' calls,
    httpGet serverIp serverPort (bytes "/location") (CBuffer.zero 2048) brokenOff =
      some (r, response', calls) ∧ 0 < r := by
  rcases (reported_failed_iff brokenOff_breaksOff).1 serverIp serverPort (bytes "/location")
    (CBuffer.zero 2048) with ⟨r, response', calls, hget, hfailed⟩
  refine ⟨r, response', calls, hget, not_le.1 fun hr => ?_⟩
  exact absurd (hfailed.1 hr) (by decide)

/-- Of the location that breaks off the part that arrived is posted. -/
theorem broken_off_is_posted : ¬ ∀ s io c arrived, BreaksOff io.getLocation arrived →
    cycle s io = some c → c.posted = none := by
  intro h
  obtain ⟨io, hio⟩ : ∃ io : CycleIo, io = ⟨brokenOff, answered [], none, answered []⟩ :=
    ⟨_, rfl⟩
  rcases cycle_eq io with ⟨calls, -, hcycle⟩
  rcases hcycle .zero with ⟨s', hs', -⟩
  have hbroken : BreaksOff io.getLocation
      (bytes "HTTP/1.0 200 OK\r\nContent-type: text/plain\r\n\r\nSanta-") := by
    rw [hio]
    exact brokenOff_breaksOff
  -- the weather has no body and there is no sensor: nothing but the location matters
  have hposted : postedIn io = some (payloadText (bytes "Santa-") (bytes "N/A") .zero) := by
    rw [hio]
    decide +kernel
  have hnone : postedIn io = none := h _ io _ _ hbroken hs'
  rw [hposted] at hnone
  cases hnone

/-! ## Status lines -/

/-- The status line of a response carries a code that does not begin with 2. -/
def Refused (r : CString) : Prop :=
  bytes "HTTP/1." <+: r ∧ ∃ c, r[9]? = some c ∧ c ≠ chr '2'

/-- A response is used exactly if it arrived and has an empty line in it, whatever its
status line: without one step 1 restarts the cycle and leaves the location, and step 2
leaves "N/A". -/
theorem body_used_iff (s : Station) (io : CycleIo) : ∃ c, cycle s io = some c ∧
    (c.posted = none ↔ bodyOf (received 2048 io.getLocation) = none) ∧
    (c.posted = none → c.station.location = s.location) ∧
    ∀ body, bodyOf (received 2048 io.getLocation) = some body →
      c.station.location.Holds (lineOf 128 body) ∧
      (bodyOf (received 2048 io.getWeather) = none →
        c.station.outdoorTemp.Holds (bytes "N/A")) ∧
      ∀ weather, bodyOf (received 2048 io.getWeather) = some weather →
        c.station.outdoorTemp.Holds (lineOf 64 weather) := by
  rcases cycle_eq io with ⟨calls, -, hcycle⟩
  rcases hcycle s with ⟨s', hs', hkept, hholds⟩
  have hposted : postedIn io = none ↔ lineFrom 128 io.getLocation = none := by
    unfold postedIn
    exact Option.map_eq_none_iff
  refine ⟨_, hs', ?_, fun h => hkept (hposted.1 h), ?_⟩
  · exact hposted.trans Option.map_eq_none_iff
  · intro body hbody
    have hline : lineFrom 128 io.getLocation = some (lineOf 128 body) := by
      unfold lineFrom
      rw [hbody, Option.map_some]
    rcases hholds _ hline with ⟨hlocation, houtdoor, -⟩
    refine ⟨hlocation, ?_, ?_⟩
    · intro hnone
      have hna : outdoorOf io.getWeather = bytes "N/A" := by
        unfold outdoorOf lineFrom
        rw [hnone]
        rfl
      exact hna ▸ houtdoor
    · intro weather hweather
      have hsome : outdoorOf io.getWeather = lineOf 64 weather := by
        unfold outdoorOf lineFrom
        rw [hweather]
        rfl
      exact hsome ▸ houtdoor

/-- The server answers 404 with its own text, and that is the location. -/
theorem not_found_is_posted : ¬ ∀ s io c, cycle s io = some c →
    Refused (received 2048 io.getLocation) → c.posted = none := by
  intro h
  obtain ⟨io, hio⟩ : ∃ io : CycleIo, io = ⟨answered (bytes
    "HTTP/1.0 404 Not Found\r\nContent-type: text/plain\r\n\r\nNot Found"),
    answered [], none, answered []⟩ := ⟨_, rfl⟩
  rcases cycle_eq io with ⟨calls, -, hcycle⟩
  rcases hcycle .zero with ⟨s', hs', -⟩
  have hrefused : Refused (received 2048 io.getLocation) := by
    rw [hio]
    exact ⟨by decide +kernel, chr '4', by decide +kernel, by decide⟩
  have hposted : postedIn io ≠ none := by
    rw [hio]
    unfold postedIn
    rw [ne_eq, Option.map_eq_none_iff]
    decide +kernel
  exact hposted (h _ io _ hs' hrefused)

end Cse121.Lab73
