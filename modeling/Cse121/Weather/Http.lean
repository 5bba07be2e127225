import Cse121.CString
import Cse121.Lib.CBuffer
import Cse121.Lib.Printf

/-! # The HTTP exchanges of the weather station

`lab7_3/main/http_request_example_main.c`: `http_get`, `http_post` and `extract_body`. The
network and the resolver are told by what their calls return; the calls are recorded. A
result of `none` stands for an access outside an array.
-/

namespace Cse121.Lab73

/-- What `getaddrinfo` leaves: an error, no address list, or one. -/
inductive AddrInfo where
  | failed
  | noResult
  | result
deriving DecidableEq, Repr

/-- What the next `read` finds: bytes, or an error such as the timeout. A stream that is
over has nothing more. -/
inductive Arrival where
  | data (s : CString)
  | error
deriving DecidableEq, Repr

/-- What the calls of one exchange return, had they been made. -/
structure Exchange where
  addrinfo : AddrInfo
  socket : Bool
  connect : Bool
  write : Bool
  reads : List Arrival
deriving DecidableEq, Repr

/-- A call that was made, with its outcome. -/
inductive Call where
  | getaddrinfo (host port : CString) (o : AddrInfo)
  | socket (ok : Bool)
  | connect (ok : Bool)
  | freeaddrinfo
  | write (data : CString) (ok : Bool)
  | setsockopt
  | read (cap : Nat) (r : Int)
  | close
deriving DecidableEq, Repr

/-- The string that `snprintf` leaves in an array of `size` bytes. -/
def snprintf (size : Nat) (text : CString) : CString := text.take (size - 1)

/-! ## Requests -/

/-- The text of the request of `http_get`. -/
def getText (host port path : CString) : CString :=
  bytes "GET " ++ path ++ bytes " HTTP/1.0\r\n" ++
  bytes "Host: " ++ host ++ bytes ":" ++ port ++ bytes "\r\n" ++
  bytes "User-Agent: curl/7.68.0\r\n" ++
  bytes "\r\n"

/-- The text of the request of `http_post`. -/
def postText (host port path payload : CString) : CString :=
  bytes "POST " ++ path ++ bytes " HTTP/1.1\r\n" ++
  bytes "Host: " ++ host ++ bytes ":" ++ port ++ bytes "\r\n" ++
  bytes "Content-Type: text/plain\r\n" ++
  bytes "Content-Length: " ++ Printf.signed payload.length ++ bytes "\r\n" ++
  bytes "\r\n" ++
  payload

/-- The part that `http_get` and `http_post` share: look up, connect, send. On failure
everything is given back. -/
def sendRequest (host port request : CString) (x : Exchange) : Bool × List Call :=
  let lookup := Call.getaddrinfo host port x.addrinfo
  if x.addrinfo ≠ .result then (false, [lookup])
  else if x.socket = false then (false, [lookup, .socket false, .freeaddrinfo])
  else if x.connect = false then
    (false, [lookup, .socket true, .connect false, .close, .freeaddrinfo])
  else if x.write = false then
    (false, [lookup, .socket true, .connect true, .freeaddrinfo, .write request false, .close])
  else (true, [lookup, .socket true, .connect true, .freeaddrinfo, .write request true])

/-- The request went out. -/
def Exchange.Sent (x : Exchange) : Prop :=
  x.addrinfo = .result ∧ x.socket = true ∧ x.connect = true ∧ x.write = true

instance (x : Exchange) : Decidable x.Sent := inferInstanceAs (Decidable (_ ∧ _ ∧ _ ∧ _))

theorem sendRequest_sent (host port request : CString) (x : Exchange) :
    (sendRequest host port request x).1 = true ↔ x.Sent := by
  unfold sendRequest Exchange.Sent
  simp only
  split
  · rename_i h
    simp [h]
  · split
    · rename_i h
      simp [h]
    · split
      · rename_i h
        simp [h]
      · split <;> simp_all

/-- What is written, and whether the whole of it went out. -/
def writes (calls : List Call) : List (CString × Bool) :=
  calls.filterMap fun c =>
    match c with
    | .write data ok => some (data, ok)
    | _ => none

theorem writes_append (calls more : List Call) :
    writes (calls ++ more) = writes calls ++ writes more :=
  List.filterMap_append

theorem mem_writes {calls : List Call} {data : CString} {ok : Bool} :
    (data, ok) ∈ writes calls ↔ .write data ok ∈ calls := by
  refine ⟨fun h => ?_, fun h => List.mem_filterMap.2 ⟨_, h, rfl⟩⟩
  rcases List.mem_filterMap.1 h with ⟨c, hc, hwrite⟩
  cases c with
  | write data' ok' =>
      obtain ⟨rfl, rfl⟩ := Prod.ext_iff.1 (Option.some.inj hwrite)
      exact hc
  | _ => cases hwrite

/-- Calls of another kind write nothing. -/
theorem writes_eq_nil {calls : List Call} (h : ∀ data ok, Call.write data ok ∉ calls) :
    writes calls = [] := by
  rw [List.eq_nil_iff_forall_not_mem]
  rintro ⟨data, ok⟩ hmem
  exact h data ok (mem_writes.1 hmem)

/-- The exchange comes as far as to write. -/
def Exchange.Connected (x : Exchange) : Prop :=
  x.addrinfo = .result ∧ x.socket = true ∧ x.connect = true

instance (x : Exchange) : Decidable x.Connected := inferInstanceAs (Decidable (_ ∧ _ ∧ _))

/-- What an exchange writes. -/
def Exchange.written (x : Exchange) (request : CString) : List (CString × Bool) :=
  if x.Connected then [(request, x.write)] else []

theorem sendRequest_writes (host port request : CString) (x : Exchange) :
    writes (sendRequest host port request x).2 = x.written request := by
  unfold sendRequest Exchange.written Exchange.Connected
  simp only
  split
  · rename_i h
    simp [writes, h]
  · split
    · rename_i h
      simp [writes, h]
    · split
      · rename_i h
        simp [writes, h]
      · split <;> simp_all [writes]

/-- All that is sent is one request. -/
def OnlyWrites (request : CString) (calls : List Call) : Prop :=
  ∀ data ok, Call.write data ok ∈ calls → data = request

theorem OnlyWrites.of_writes {request : CString} {calls : List Call} {x : Exchange}
    (h : writes calls = x.written request) : OnlyWrites request calls := by
  intro data ok hmem
  have hwritten := mem_writes.2 hmem
  rw [h, Exchange.written, List.mem_ite_nil_right, List.mem_singleton] at hwritten
  exact congrArg Prod.fst hwritten.2

/-! ## Responses -/

/-- `read` of at most `cap` bytes: its result and the bytes it stores. -/
def read (cap : Nat) : List Arrival → Int × CString
  | .data s :: _ => ((s.take cap).length, s.take cap)
  | .error :: _ => (-1, [])
  | [] => (0, [])

/-- The read loop of `http_get`. -/
def readLoop {n : Nat} (response : CBuffer n) (totalRead : Nat) (reads : List Arrival) :
    Option (Nat × CBuffer n × List Call) :=
  if totalRead < n - 1 then
    let cap := n - totalRead - 1
    let got := read cap reads
    if got.1 ≤ 0 then some (totalRead, response, [.read cap got.1])
    else
      match reads with
      | [] => none
      | _ :: reads => do
        let response ← response.write totalRead got.2
        let (total, response, calls) ← readLoop response (totalRead + got.2.length) reads
        return (total, response, .read cap got.1 :: calls)
  else some (totalRead, response, [])

/-- `http_get`. -/
def httpGet {n : Nat} (host port path : CString) (response : CBuffer n) (x : Exchange) :
    Option (Int × CBuffer n × List Call) :=
  let request := snprintf 512 (getText host port path)
  let sent := sendRequest host port request x
  if sent.1 then do
    let (total, response, reads) ← readLoop (CBuffer.zero n) 0 x.reads
    return (total, response, sent.2 ++ [.setsockopt] ++ reads ++ [.close])
  else some (-1, response, sent.2)

/-- `http_post`. -/
def httpPost {n : Nat} (host port path payload : CString) (response : CBuffer n) (x : Exchange) :
    Option (Int × CBuffer n × List Call) :=
  let request := snprintf 1024 (postText host port path payload)
  let sent := sendRequest host port request x
  if sent.1 then do
    let got := read (n - 1) x.reads
    let response ← (CBuffer.zero n).write 0 got.2
    return (got.1, response, sent.2 ++ [.setsockopt, .read (n - 1) got.1, .close])
  else some (-1, response, sent.2)

/-- `"\r\n\r\n"`. -/
def blankLine : CString := bytes "\r\n\r\n"

/-- `extract_body`: where the body starts. -/
def extractBody {n : Nat} (response : CBuffer n) : Option (Option Nat) := do
  let s ← response.str
  return (CBuffer.strstr blankLine s).map (· + 4)

/-! ## What is received -/

/-- The bytes that arrive before the stream is over or fails. -/
def stream : List Arrival → CString
  | .data s :: reads => if s = [] then [] else s ++ stream reads
  | _ => []

/-- With no room left the loop ends. -/
theorem readLoop_full {n : Nat} {response : CBuffer n} {totalRead : Nat}
    (h : ¬ totalRead < n - 1) (reads : List Arrival) :
    readLoop response totalRead reads = some (totalRead, response, []) := by
  cases reads <;> simp [readLoop, h]

/-- A stream that is over or fails ends the loop. -/
theorem readLoop_stop {n : Nat} {response : CBuffer n} {totalRead : Nat} {reads : List Arrival}
    (hroom : totalRead < n - 1) (hr : (read (n - totalRead - 1) reads).1 ≤ 0) :
    readLoop response totalRead reads = some (totalRead, response,
      [.read (n - totalRead - 1) (read (n - totalRead - 1) reads).1]) := by
  cases reads <;> simp [readLoop, hroom, hr]

/-- Otherwise what was read is stored, and the loop goes on. -/
theorem readLoop_more {n : Nat} {response : CBuffer n} {totalRead : Nat} {a : Arrival}
    {reads : List Arrival} (hroom : totalRead < n - 1) {cap : Nat} (hcap : cap = n - totalRead - 1)
    (hr : ¬ (read cap (a :: reads)).1 ≤ 0) :
    readLoop response totalRead (a :: reads) =
      (response.write totalRead (read cap (a :: reads)).2).bind fun response =>
        (readLoop response (totalRead + (read cap (a :: reads)).2.length) reads).map fun o =>
          (o.1, o.2.1, .read cap (read cap (a :: reads)).1 :: o.2.2) := by
  subst hcap
  conv_lhs => unfold readLoop
  rw [if_pos hroom]
  simp only [if_neg hr, Option.map_eq_bind]
  rfl

/-- What arrives is stored behind what is there, up to the room that is left. -/
theorem readLoop_data {n : Nat} {response : CBuffer n} {pre s : CString} (reads : List Arrival)
    (hroom : pre.length < n - 1) (hs : s ≠ [])
    (hbytes : response.bytes = pre ++ List.replicate (n - pre.length) 0) :
    let got := s.take (n - pre.length - 1)
    ∃ response' : CBuffer n,
      response'.bytes = (pre ++ got) ++ List.replicate (n - (pre ++ got).length) 0 ∧
      readLoop response pre.length (.data s :: reads) =
        (readLoop response' (pre ++ got).length reads).map fun o =>
          (o.1, o.2.1, .read (n - pre.length - 1) got.length :: o.2.2) := by
  intro got
  have hgot : got.length = min (n - pre.length - 1) s.length := List.length_take
  have hpos : 0 < got.length := by
    have hslen := List.length_pos_of_ne_nil hs
    omega
  rcases CBuffer.write_eq response pre.length got (by omega) with
    ⟨response', hwrite, hbytes'⟩
  refine ⟨response', ?_, ?_⟩
  · rw [hbytes', hbytes, List.take_left' rfl, ← List.drop_drop, List.drop_left' rfl,
      List.drop_replicate, List.length_append, Nat.sub_sub]
  · have hread : (read (n - pre.length - 1) (.data s :: reads)) = ((got.length : Int), got) := rfl
    rw [readLoop_more hroom rfl (by rw [hread]; omega), hread, hwrite, List.length_append]
    rfl

/-- The read loop only reads. -/
theorem readLoop_reads {n : Nat} {reads : List Arrival} {response : CBuffer n}
    {totalRead : Nat} {o : Nat × CBuffer n × List Call}
    (h : readLoop response totalRead reads = some o) : ∀ c ∈ o.2.2, ∃ cap r, c = .read cap r := by
  induction reads generalizing response totalRead o with
  | nil =>
      by_cases hroom : totalRead < n - 1
      · rw [readLoop_stop hroom (by simp [read])] at h
        obtain rfl := Option.some.inj h
        simp
      · rw [readLoop_full hroom] at h
        obtain rfl := Option.some.inj h
        simp
  | cons a reads ih =>
      by_cases hroom : totalRead < n - 1
      · by_cases hstop : (read (n - totalRead - 1) (a :: reads)).1 ≤ 0
        · rw [readLoop_stop hroom hstop] at h
          obtain rfl := Option.some.inj h
          intro c hc
          exact ⟨_, _, List.mem_singleton.1 hc⟩
        · rw [readLoop_more hroom rfl hstop, Option.bind_eq_some_iff] at h
          rcases h with ⟨response', -, h⟩
          rcases Option.map_eq_some_iff.1 h with ⟨o', hrest, rfl⟩
          intro c hc
          rcases List.mem_cons.1 hc with rfl | hc
          · exact ⟨_, _, rfl⟩
          · exact ih hrest c hc
      · rw [readLoop_full hroom] at h
        obtain rfl := Option.some.inj h
        simp

/-- It sends nothing. -/
theorem readLoop_noWrites {n : Nat} {reads : List Arrival} {response : CBuffer n}
    {totalRead : Nat} {o : Nat × CBuffer n × List Call}
    (h : readLoop response totalRead reads = some o) (data : CString) (ok : Bool) :
    Call.write data ok ∉ o.2.2 := by
  intro hmem
  rcases readLoop_reads h _ hmem with ⟨cap, r, hread⟩
  cases hread

/-- What is cut off a chunk had no room anyway. -/
theorem take_chunk {pre : CString} {n : Nat} (hpre : pre.length < n - 1) (s rest : CString) :
    (pre ++ s.take (n - pre.length - 1) ++ rest).take (n - 1) =
      (pre ++ (s ++ rest)).take (n - 1) := by
  by_cases hs : s.length ≤ n - pre.length - 1
  · rw [List.take_of_length_le hs, List.append_assoc]
  · have hlen : (pre ++ s.take (n - pre.length - 1)).length = n - 1 := by
      simp only [List.length_append, List.length_take]
      omega
    have hroom : n - 1 - pre.length ≤ s.length := by omega
    have hcap : n - 1 - pre.length = n - pre.length - 1 := by omega
    rw [List.take_left' hlen, List.take_append, List.take_of_length_le hpre.le,
      List.take_append_of_le_length hroom, hcap]

/-- The loop ends without a further byte: the array holds what was there. -/
theorem readLoop_stop_eq {n : Nat} {reads : List Arrival} {response : CBuffer n} {pre : CString}
    (hpre : pre.length ≤ n - 1)
    (hbytes : response.bytes = pre ++ List.replicate (n - pre.length) 0)
    (hstop : pre.length < n - 1 → stream reads = [] ∧ (read (n - pre.length - 1) reads).1 ≤ 0) :
    let r := (pre ++ stream reads).take (n - 1)
    ∃ response' calls, readLoop response pre.length reads = some (r.length, response', calls) ∧
      response'.bytes = r ++ List.replicate (n - r.length) 0 := by
  intro r
  have hr : r = pre := by
    by_cases hroom : pre.length < n - 1
    · simp only [r, (hstop hroom).1, List.append_nil, List.take_of_length_le hpre]
    · exact List.take_left' (by omega)
  rw [hr]
  by_cases hroom : pre.length < n - 1
  · exact ⟨response, _, readLoop_stop hroom (hstop hroom).2, hbytes⟩
  · exact ⟨response, _, readLoop_full hroom reads, hbytes⟩

/-- The read loop stores the stream, as far as there is room, behind what is there. -/
theorem readLoop_eq {n : Nat} (reads : List Arrival) (response : CBuffer n)
    (pre : CString) (hpre : pre.length ≤ n - 1)
    (hbytes : response.bytes = pre ++ List.replicate (n - pre.length) 0) :
    let r := (pre ++ stream reads).take (n - 1)
    ∃ response' calls, readLoop response pre.length reads = some (r.length, response', calls) ∧
      response'.bytes = r ++ List.replicate (n - r.length) 0 := by
  induction reads generalizing response pre with
  | nil => exact readLoop_stop_eq hpre hbytes fun _ => ⟨rfl, by simp [read]⟩
  | cons a reads ih =>
      rcases a with s | _
      · by_cases hs : s = []
        · subst hs
          exact readLoop_stop_eq hpre hbytes fun _ => ⟨rfl, by simp [read]⟩
        · by_cases hroom : pre.length < n - 1
          · rcases readLoop_data reads hroom hs hbytes with ⟨response', hbytes', hloop⟩
            have hgot : (pre ++ s.take (n - pre.length - 1)).length ≤ n - 1 := by
              simp only [List.length_append, List.length_take]
              omega
            rcases ih response' _ hgot hbytes' with ⟨response'', calls, hrest, hbytes''⟩
            -- a chunk that is cut leaves no room for what comes after it
            have hcut : (pre ++ s.take (n - pre.length - 1) ++ stream reads).take (n - 1) =
                (pre ++ stream (.data s :: reads)).take (n - 1) := by
              have hstream : stream (.data s :: reads) = s ++ stream reads := if_neg hs
              rw [hstream]
              exact take_chunk (by omega) s (stream reads)
            rw [hcut] at hrest hbytes''
            exact ⟨response'', _, by rw [hloop, hrest]; rfl, hbytes''⟩
          · exact readLoop_stop_eq hpre hbytes fun h => absurd h hroom
      · exact readLoop_stop_eq hpre hbytes fun _ => ⟨rfl, by simp [read]⟩

/-! ## The exchanges -/

/-- An exchange whose request does not go out fails and leaves the array. -/
theorem httpGet_failed {n : Nat} {host port path : CString} {x : Exchange} (hx : ¬ x.Sent)
    (response : CBuffer n) : httpGet host port path response x =
      some (-1, response,
        (sendRequest host port (snprintf 512 (getText host port path)) x).2) := by
  unfold httpGet
  simp only
  rw [if_neg (mt (sendRequest_sent _ _ _ _).1 hx)]

/-- The response of an exchange does not depend on what the array held: it is the stream,
as far as there is room, and then zeros. -/
theorem httpGet_sent {n : Nat} {host port path : CString} {x : Exchange} (hx : x.Sent) :
    let r := (stream x.reads).take (n - 1)
    ∃ (response' : CBuffer n) (reads : List Call),
      (∀ data ok, Call.write data ok ∉ reads) ∧
      (∀ response : CBuffer n, httpGet host port path response x =
        some ((r.length : Int), response',
          (sendRequest host port (snprintf 512 (getText host port path)) x).2 ++
            [.setsockopt] ++ reads ++ [.close])) ∧
      response'.bytes = r ++ List.replicate (n - r.length) 0 := by
  intro r
  rcases readLoop_eq x.reads (CBuffer.zero n) [] (by simp) rfl with
    ⟨response', reads, hloop, hbytes⟩
  refine ⟨response', reads, readLoop_noWrites hloop, fun response => ?_, hbytes⟩
  unfold httpGet
  simp only
  rw [if_pos ((sendRequest_sent _ _ _ _).2 hx)]
  change (readLoop (CBuffer.zero n) ([] : CString).length x.reads).bind _ = _
  rw [hloop]
  rfl

theorem httpPost_failed {n : Nat} {host port path payload : CString} {x : Exchange}
    (hx : ¬ x.Sent) (response : CBuffer n) : httpPost host port path payload response x =
      some (-1, response,
        (sendRequest host port (snprintf 1024 (postText host port path payload)) x).2) := by
  unfold httpPost
  simp only
  rw [if_neg (mt (sendRequest_sent _ _ _ _).1 hx)]

/-- `http_post` reads once, and not outside the array. -/
theorem httpPost_sent {n : Nat} (hn : 0 < n) {host port path payload : CString} {x : Exchange}
    (hx : x.Sent) : ∃ response' : CBuffer n, ∀ response : CBuffer n,
      httpPost host port path payload response x =
        some ((read (n - 1) x.reads).1, response',
          (sendRequest host port (snprintf 1024 (postText host port path payload)) x).2 ++
            [.setsockopt, .read (n - 1) (read (n - 1) x.reads).1, .close]) := by
  have hgot : (read (n - 1) x.reads).2.length ≤ n - 1 := by
    rcases x.reads with _ | ⟨s | _, reads⟩ <;> simp [read]
  rcases CBuffer.write_eq (CBuffer.zero n) 0 (read (n - 1) x.reads).2
    (by omega) with ⟨response', hwrite, -⟩
  refine ⟨response', fun response => ?_⟩
  unfold httpPost
  simp only
  rw [if_pos ((sendRequest_sent _ _ _ _).2 hx), hwrite]
  rfl

/-! ## Bodies -/

/-- The body of a response: what is behind the first empty line, up to a NUL. -/
def bodyOf (r : CString) : Option CString :=
  let s := r.takeWhile (· ≠ 0)
  (CBuffer.strstr blankLine s).map fun i => s.drop (i + 4)

/-- Where a response is filled up with zeros, `extract_body` finds the body. -/
theorem extractBody_eq {n k : Nat} {response : CBuffer n} {r : CString}
    (hbytes : response.bytes = r ++ List.replicate (k + 1) 0) :
    (extractBody response = some none ∧ bodyOf r = none) ∨
      ∃ off body rest, extractBody response = some (some off) ∧ bodyOf r = some body ∧
        response.bytes.drop off = body ++ 0 :: rest ∧ 0 ∉ body := by
  have hmem : 0 ∈ response.bytes := by
    rw [hbytes]
    simp
  have hholds := CBuffer.holds_of_mem hmem
  obtain ⟨s, hs⟩ : ∃ s, s = r.takeWhile (· ≠ 0) := ⟨_, rfl⟩
  have hstr : response.bytes.takeWhile (· ≠ 0) = s := by
    rw [hbytes, List.replicate_succ, CBuffer.takeWhile_filled, hs]
  have hbody : bodyOf r = (CBuffer.strstr blankLine s).map fun i => s.drop (i + 4) := by
    rw [hs]
    rfl
  rw [hstr] at hholds
  have hextract : extractBody response = some ((CBuffer.strstr blankLine s).map (· + 4)) := by
    unfold extractBody
    rw [hholds.str_eq]
    rfl
  rcases hholds with ⟨hnul, rest, hrest⟩
  rw [hextract, hbody]
  rcases hfound : CBuffer.strstr blankLine s with _ | i
  · exact Or.inl ⟨rfl, rfl⟩
  · have hin : i + 4 ≤ s.length := by
      have hfits := CBuffer.strstr_fits hfound
      have hblank : blankLine.length = 4 := by decide
      omega
    refine Or.inr ⟨i + 4, s.drop (i + 4), rest, rfl, rfl, ?_, ?_⟩
    · rw [hrest, List.drop_append_of_le_length hin]
    · exact fun h => hnul (List.mem_of_mem_drop h)

/-- What an exchange brings, as far as there is room for it. -/
def received (n : Nat) (x : Exchange) : CString :=
  if x.Sent then (stream x.reads).take (n - 1) else []

/-- An exchange either brings nothing, or something without a body, or a body that is
found in the array. The calls and the result do not depend on what the array held. -/
theorem httpGet_cases {n : Nat} (hn : 0 < n) (host port path : CString) (x : Exchange) :
    ∃ (r : Int) (calls : List Call),
      writes calls = x.written (snprintf 512 (getText host port path)) ∧
      ∀ response : CBuffer n, ∃ response' : CBuffer n,
      httpGet host port path response x = some (r, response', calls) ∧
      ((¬ r > 0 ∧ bodyOf (received n x) = none) ∨
        (r > 0 ∧ extractBody response' = some none ∧ bodyOf (received n x) = none) ∨
        (r > 0 ∧ ∃ off body rest, extractBody response' = some (some off) ∧
          bodyOf (received n x) = some body ∧
          response'.bytes.drop off = body ++ 0 :: rest ∧ 0 ∉ body)) := by
  have hnone : bodyOf [] = none := by decide
  by_cases hx : x.Sent
  · have hreceived : received n x = (stream x.reads).take (n - 1) := if_pos hx
    rcases @httpGet_sent n host port path x hx with
      ⟨response', reads, hreads, hget, hbytes⟩
    rw [← hreceived] at hget hbytes
    refine ⟨_, _, ?_, fun response => ⟨response', hget response, ?_⟩⟩
    · simp only [writes_append, sendRequest_writes, writes_eq_nil hreads]
      simp [writes]
    have hlen : (received n x).length ≤ n - 1 := by
      rw [hreceived]
      exact List.length_take_le _ _
    by_cases hr : received n x = []
    · rw [hr]
      exact Or.inl ⟨by simp, hnone⟩
    · have hpos : ((received n x).length : Int) > 0 := by
        exact_mod_cast List.length_pos_of_ne_nil hr
      have hfill : n - (received n x).length = (n - (received n x).length - 1) + 1 := by omega
      -- the last byte is never stored to, so the search stops inside the array
      rw [hfill] at hbytes
      rcases extractBody_eq hbytes with h | ⟨off, body, rest, h⟩
      · exact Or.inr (Or.inl ⟨hpos, h⟩)
      · exact Or.inr (Or.inr ⟨hpos, off, body, rest, h⟩)
  · have hreceived : received n x = [] := if_neg hx
    refine ⟨_, _, sendRequest_writes host port _ x,
      fun response => ⟨response, httpGet_failed hx response, ?_⟩⟩
    rw [hreceived]
    exact Or.inl ⟨by simp, hnone⟩

end Cse121.Lab73
