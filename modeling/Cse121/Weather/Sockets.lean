import Cse121.Lib.Ledger
import Cse121.Weather.Station

/-! # The sockets of the lab 7 clients

`http_get_task` of `lab7_1`, `http_post_task` of `lab7_2` and the exchanges of `lab7_3`
each look up an address, open a socket, connect, send and read, and each gives back what
it got on every way out. The first two are endless loops: they are machines that wait for
a call to return and go on to the next. The variables `s` and `res` live across their
cycles, and every call is given what they hold.
-/

namespace Cse121

open Ledger (Event Legal Settled)

/-- What a client gets: a socket, or the address list at a pointer. -/
inductive Handle where
  | socket (s : Int)
  | addrinfo (res : Option Nat)
deriving DecidableEq, Repr

/-- A call, with what it is given, and what it gives where that is a handle. -/
inductive SocketCall where
  | getaddrinfo (host port : CString) (err : Int) (res : Option Nat)
  /-- `inet_ntoa` of an address that is read out of the list -/
  | inetNtoa (res : Option Nat)
  | socket (res : Option Nat) (s : Int)
  | connect (s : Int) (res : Option Nat)
  | freeaddrinfo (res : Option Nat)
  | write (s : Int) (data : CString)
  | setsockopt (s : Int)
  | read (s : Int) (cap : Nat)
  | close (s : Int)
deriving DecidableEq, Repr

/-- What a call does with the handles. A failed `getaddrinfo` gives no list. -/
@[simp] def SocketCall.events : SocketCall → List (Event Handle)
  | .getaddrinfo _ _ err res => if err = 0 ∧ res ≠ none then [.acquire (.addrinfo res)] else []
  | .inetNtoa res => [.use (.addrinfo res)]
  | .socket res s => .use (.addrinfo res) :: if 0 ≤ s then [.acquire (.socket s)] else []
  | .connect s res => [.use (.socket s), .use (.addrinfo res)]
  | .freeaddrinfo res => [.release (.addrinfo res)]
  | .write s _ => [.use (.socket s)]
  | .setsockopt s => [.use (.socket s)]
  | .read s _ => [.use (.socket s)]
  | .close s => [.release (.socket s)]

/-! ## The two tasks -/

/-- The call that a task waits for. -/
inductive Point where
  | getaddrinfo
  | socket
  | connect
  | write
  | setsockopt
  | read
deriving DecidableEq, Repr

/-- A task: where it is, and its variables. -/
structure Task where
  point : Point
  res : Option Nat
  s : Int
  /-- of `lab7_2` -/
  request : CString
deriving DecidableEq, Repr

/-- What the call returns that a task waits for. -/
structure Outcome where
  ret : Int
  /-- what `getaddrinfo` leaves in `res` -/
  res : Option Nat
  /-- what `temperature_sensor_get_celsius` has read before it, if it returned `ESP_OK` -/
  celsius : Option Lab73.Float32
deriving DecidableEq, Repr

namespace Task

/-- `getaddrinfo` has returned. -/
def lookup (host port : CString) (t : Task) (o : Outcome) : Task × List SocketCall :=
  let t := { t with res := o.res }
  let call := SocketCall.getaddrinfo host port o.ret o.res
  if o.ret ≠ 0 ∨ t.res = none then ({ t with point := .getaddrinfo }, [call])
  else ({ t with point := .socket }, [call, .inetNtoa t.res])

/-- `socket` has returned. -/
def allocate (t : Task) (o : Outcome) : Task × List SocketCall :=
  let t := { t with s := o.ret }
  let call := SocketCall.socket t.res o.ret
  if t.s < 0 then ({ t with point := .getaddrinfo }, [call, .freeaddrinfo t.res])
  else ({ t with point := .connect }, [call])

/-- `connect` has returned. -/
def connect (t : Task) (o : Outcome) : Task × List SocketCall :=
  let call := SocketCall.connect t.s t.res
  if o.ret ≠ 0 then ({ t with point := .getaddrinfo }, [call, .close t.s, .freeaddrinfo t.res])
  else ({ t with point := .write }, [call, .freeaddrinfo t.res])

/-- `write` has returned. -/
def send (request : CString) (t : Task) (o : Outcome) : Task × List SocketCall :=
  let call := SocketCall.write t.s request
  if o.ret < 0 then ({ t with point := .getaddrinfo }, [call, .close t.s])
  else ({ t with point := .setsockopt }, [call])

end Task

namespace Lab71

/-- `WEB_SERVER` -/
def webServer : CString := bytes "wttr.in"

/-- `WEB_PORT` -/
def webPort : CString := bytes "80"

/-- `WEB_PATH` -/
def webPath : CString := bytes "/Santa-Cruz?format=%t"

/-- `REQUEST` -/
def request : CString :=
  bytes "GET " ++ webPath ++ bytes " HTTP/1.0\r\n" ++
  bytes "Host: " ++ webServer ++ bytes ":" ++ webPort ++ bytes "\r\n" ++
  bytes "User-Agent: curl/7.68.0\r\n" ++
  bytes "\r\n"

/-- `http_get_task` -/
def httpGetTask : Transducer Task Outcome SocketCall where
  step t o :=
    match t.point with
    | .getaddrinfo => t.lookup webServer webPort o
    | .socket => t.allocate o
    | .connect => t.connect o
    | .write => t.send request o
    | .setsockopt =>
      if o.ret < 0 then ({ t with point := .getaddrinfo }, [.setsockopt t.s, .close t.s])
      else ({ t with point := .read }, [.setsockopt t.s])
    | .read =>
      -- the loop reads on until nothing comes
      if o.ret > 0 then (t, [.read t.s 63])
      else ({ t with point := .getaddrinfo }, [.read t.s 63, .close t.s])

end Lab71

namespace Lab72

/-- `SERVER_IP` -/
def serverIp : CString := bytes "192.168.43.1"

/-- `SERVER_PORT` -/
def serverPort : CString := bytes "1234"

/-- `payload`, of 128 bytes -/
def payload (temperature : Lab73.Float32) : CString :=
  Lab73.snprintf 128 (bytes "ESP32_Temperature: " ++ temperature.text ++ bytes " C")

/-- `request`, of 512 bytes -/
def request (payload : CString) : CString :=
  Lab73.snprintf 512 <|
    bytes "POST / HTTP/1.1\r\n" ++
    bytes "Host: " ++ serverIp ++ bytes ":" ++ serverPort ++ bytes "\r\n" ++
    bytes "Content-Type: text/plain\r\n" ++
    bytes "Content-Length: " ++ Printf.signed payload.length ++ bytes "\r\n" ++
    bytes "\r\n" ++
    payload

/-- `http_post_task` -/
def httpPostTask : Transducer Task Outcome SocketCall where
  step t o :=
    match t.point with
    | .getaddrinfo =>
      let temperature := o.celsius.getD .zero
      { t with request := request (payload temperature) }.lookup serverIp serverPort o
    | .socket => t.allocate o
    | .connect => t.connect o
    | .write => t.send t.request o
    -- what `setsockopt` returns is not looked at
    | .setsockopt => ({ t with point := .read }, [.setsockopt t.s])
    | .read => ({ t with point := .getaddrinfo }, [.read t.s 511, .close t.s])

end Lab72

/-! ## What the tasks hold -/

/-- What a task holds where it waits. -/
def Task.held (t : Task) : Finset Handle :=
  match t.point with
  | .getaddrinfo => ∅
  | .socket => {.addrinfo t.res}
  | .connect => {.socket t.s, .addrinfo t.res}
  | .write | .setsockopt | .read => {.socket t.s}

/-- The calls of a step take the ledger from what was held to what is held after it. -/
def Accounts (t : Task) (r : Task × List SocketCall) : Prop :=
  Ledger.run t.held (r.2.flatMap SocketCall.events) = some r.1.held

theorem lookup_accounts (host port : CString) {t : Task} (h : t.point = .getaddrinfo)
    (o : Outcome) : Accounts t (t.lookup host port o) := by
  unfold Accounts Task.lookup
  simp only
  split
  · rename_i hfail
    have hnone : ¬ (o.ret = 0 ∧ o.res ≠ none) := by tauto
    simp [Task.held, h, hnone]
  · rename_i hsome
    have hlist : o.ret = 0 ∧ o.res ≠ none := by tauto
    simp [Task.held, h, hlist]

theorem allocate_accounts {t : Task} (h : t.point = .socket) (o : Outcome) :
    Accounts t (t.allocate o) := by
  unfold Accounts Task.allocate
  simp only
  split
  · rename_i hneg
    have hneg' : ¬ 0 ≤ o.ret := by omega
    simp [Task.held, h, hneg']
  · rename_i hpos
    have hpos' : 0 ≤ o.ret := by omega
    simp [Task.held, h, hpos']

theorem connect_accounts {t : Task} (h : t.point = .connect) (o : Outcome) :
    Accounts t (t.connect o) := by
  unfold Accounts Task.connect
  simp only
  split
  · simp [Task.held, h]
  · -- the list goes first, the socket stays
    simp [Task.held, h, Finset.pair_comm (Handle.socket t.s)]

theorem send_accounts (request : CString) {t : Task} (h : t.point = .write) (o : Outcome) :
    Accounts t (t.send request o) := by
  unfold Accounts Task.send
  simp only
  split
  · simp [Task.held, h]
  · simp [Task.held, h]

/-- A step of `http_get_task` accounts for what it touches. -/
theorem Lab71.step_accounts (t : Task) (o : Outcome) : Accounts t (Lab71.httpGetTask.step t o) := by
  simp only [Lab71.httpGetTask]
  cases h : t.point with
  | getaddrinfo => exact lookup_accounts _ _ h o
  | socket => exact allocate_accounts h o
  | connect => exact connect_accounts h o
  | write => exact send_accounts _ h o
  | setsockopt =>
      unfold Accounts
      simp only
      split
      · simp [Task.held, h]
      · simp [Task.held, h]
  | read =>
      unfold Accounts
      simp only
      split
      · simp [Task.held, h]
      · simp [Task.held, h]

/-- A step of `http_post_task` accounts for what it touches. -/
theorem Lab72.step_accounts (t : Task) (o : Outcome) :
    Accounts t (Lab72.httpPostTask.step t o) := by
  simp only [Lab72.httpPostTask]
  cases h : t.point with
  | getaddrinfo =>
      have := lookup_accounts Lab72.serverIp Lab72.serverPort
        (t := { t with request := Lab72.request (Lab72.payload (o.celsius.getD .zero)) }) h o
      simpa only [Accounts, Task.held, h] using this
  | socket => exact allocate_accounts h o
  | connect => exact connect_accounts h o
  | write => exact send_accounts _ h o
  | setsockopt => simp [Accounts, Task.held, h]
  | read => simp [Accounts, Task.held, h]

/-- Over any course of events, from any values of the variables, a client touches nothing
that it does not hold and gets nothing that it still holds; whenever it is back at the start
of a cycle it has given back all that it got. -/
def LeaksNothing (client : Transducer Task Outcome SocketCall) : Prop :=
  ∀ t, t.point = .getaddrinfo → ∀ os : List Outcome,
    let events := (client.out t os).flatMap SocketCall.events
    Legal events ∧ ((client.state t os).point = .getaddrinfo → Settled events)

/-- A client whose steps account for what they touch leaks nothing. -/
theorem leaksNothing_of_accounts {client : Transducer Task Outcome SocketCall}
    (hstep : ∀ t o, Accounts t (client.step t o)) : LeaksNothing client := by
  have hstart : ∀ t : Task, t.point = .getaddrinfo → t.held = ∅ := by
    intro t ht
    simp only [Task.held, ht]
  intro t ht os events
  have hrun := Ledger.run_out client SocketCall.events Task.held hstep t os
  rw [hstart t ht] at hrun
  refine ⟨Ledger.legal_of_run hrun, fun hend => Ledger.settled_of_run ?_⟩
  rw [hstart _ hend] at hrun
  exact hrun

/-! ## The exchanges of lab 7.3 -/

namespace Lab73

/-- A call of an exchange that gets the socket `s` and the address list `res`. -/
@[simp] def Call.on (s res : Nat) : Call → SocketCall
  | .getaddrinfo host port .failed => .getaddrinfo host port (-1) none
  | .getaddrinfo host port .noResult => .getaddrinfo host port 0 none
  | .getaddrinfo host port .result => .getaddrinfo host port 0 (some res)
  | .socket ok => .socket (some res) (if ok then s else -1)
  | .connect _ => .connect s (some res)
  | .freeaddrinfo => .freeaddrinfo (some res)
  | .write data _ => .write s data
  | .setsockopt => .setsockopt s
  | .read cap _ => .read s cap
  | .close => .close s

/-- What an exchange does with its socket and its list. -/
def callEvents (s res : Nat) (calls : List Call) : List (Event Handle) :=
  calls.flatMap fun c => (c.on s res).events

/-- The calls of one `http_get` or `http_post`, whatever they return. -/
inductive IsExchange : List Call → Prop
  | get {n : Nat} {host port path : CString} {response response' : CBuffer n} {x : Exchange}
      {r : Int} {calls : List Call}
      (h : httpGet host port path response x = some (r, response', calls)) : IsExchange calls
  | post {n : Nat} {host port path payload : CString} {response response' : CBuffer n}
      {x : Exchange} {r : Int} {calls : List Call}
      (h : httpPost host port path payload response x = some (r, response', calls)) :
      IsExchange calls

/-- `sendRequest` keeps the socket if the request went out, and nothing otherwise. -/
theorem sendRequest_run (s res : Nat) (host port request : CString) (x : Exchange) :
    Ledger.run ∅ (callEvents s res (sendRequest host port request x).2) =
      some (if (sendRequest host port request x).1 then {.socket s} else ∅) := by
  unfold sendRequest callEvents
  simp only
  split
  · rename_i hlookup
    rcases hx : x.addrinfo with _ | _ | _
    · simp
    · simp
    · exact absurd hx hlookup
  · rename_i hlookup
    have hx : x.addrinfo = .result := by simpa using hlookup
    split
    · simp [hx]
    · split
      · simp [hx]
      · split
        · simp [hx, Finset.pair_comm (Handle.socket (s : Int))]
        · simp [hx, Finset.pair_comm (Handle.socket (s : Int))]

/-- Reading leaves the socket open. -/
theorem reads_run (s res : Nat) {reads : List Call} (h : ∀ c ∈ reads, ∃ cap r, c = .read cap r) :
    Ledger.run {.socket s} (callEvents s res reads) = some {.socket s} := by
  refine Ledger.run_uses fun e he => ?_
  rcases List.mem_flatMap.1 he with ⟨c, hc, he⟩
  rcases h c hc with ⟨cap, r, rfl⟩
  exact ⟨.socket s, Finset.mem_singleton_self _, List.mem_singleton.1 he⟩

/-- `http_get` has given back what it got when it returns. -/
theorem httpGet_run {n : Nat} {host port path : CString} {response response' : CBuffer n}
    {x : Exchange} {r : Int} {calls : List Call}
    (h : httpGet host port path response x = some (r, response', calls)) (s res : Nat) :
    Ledger.run ∅ (callEvents s res calls) = some ∅ := by
  have hsent := sendRequest_run s res host port (snprintf 512 (getText host port path)) x
  unfold httpGet at h
  simp only at h
  split at h
  · rename_i hok
    rw [if_pos hok] at hsent
    rcases Option.bind_eq_some_iff.1 h with ⟨⟨total, response'', reads⟩, hloop, hrest⟩
    cases hrest
    have hreads := reads_run s res (readLoop_reads hloop)
    simp only [callEvents, List.flatMap_append] at hsent hreads ⊢
    refine Ledger.run_trans (Ledger.run_trans (Ledger.run_trans hsent ?_) hreads) ?_
    · simp
    · simp
  · rename_i hok
    rw [if_neg hok] at hsent
    cases h
    exact hsent

/-- So has `http_post`. -/
theorem httpPost_run {n : Nat} {host port path payload : CString}
    {response response' : CBuffer n} {x : Exchange} {r : Int} {calls : List Call}
    (h : httpPost host port path payload response x = some (r, response', calls)) (s res : Nat) :
    Ledger.run ∅ (callEvents s res calls) = some ∅ := by
  have hsent := sendRequest_run s res host port
    (snprintf 1024 (postText host port path payload)) x
  unfold httpPost at h
  simp only at h
  split at h
  · rename_i hok
    rw [if_pos hok] at hsent
    rcases Option.bind_eq_some_iff.1 h with ⟨response'', hwrite, hrest⟩
    cases hrest
    simp only [callEvents, List.flatMap_append] at hsent ⊢
    refine Ledger.run_trans hsent ?_
    simp
  · rename_i hok
    rw [if_neg hok] at hsent
    cases h
    exact hsent

theorem IsExchange.run {calls : List Call} (h : IsExchange calls) (s res : Nat) :
    Ledger.run ∅ (callEvents s res calls) = some ∅ := by
  cases h with
  | get h => exact httpGet_run h s res
  | post h => exact httpPost_run h s res

/-! ## The runs of the weather station -/

/-- Step 1 is one exchange. -/
theorem getLocation_exchange {s s' : Station} {x : Exchange} {ok : Bool} {calls : List Call}
    (h : getLocation s x = some (ok, s', calls)) : IsExchange calls := by
  rcases Option.bind_eq_some_iff.1 h with ⟨⟨r, response, made⟩, hget, hrest⟩
  suffices hmade : made = calls from hmade ▸ IsExchange.get hget
  simp only at hrest
  split at hrest
  · rcases Option.bind_eq_some_iff.1 hrest with ⟨found, -, hfound⟩
    cases found with
    | none =>
        cases hfound
        rfl
    | some body =>
        rcases Option.bind_eq_some_iff.1 hfound with ⟨location, -, hcopied⟩
        cases hcopied
        rfl
  · cases hrest
    rfl

/-- So is step 2. -/
theorem getWeather_exchange {s s' : Station} {x : Exchange} {calls : List Call}
    (h : getWeather s x = some (s', calls)) : IsExchange calls := by
  rcases getWeather_get h with ⟨_, _, _, _, _, -, -, -, hget⟩
  exact IsExchange.get hget

/-- And so are steps 3 and 4. -/
theorem postData_exchange {s s' : Station} {sensor : Option Float32} {x : Exchange}
    {calls : List Call} {posted : CString}
    (h : postData s sensor x = some (s', calls, posted)) : IsExchange calls := by
  rcases Option.bind_eq_some_iff.1 h with ⟨location, -, h⟩
  rcases Option.bind_eq_some_iff.1 h with ⟨outdoorTemp, -, h⟩
  rcases Option.bind_eq_some_iff.1 h with ⟨payload, -, h⟩
  rcases Option.bind_eq_some_iff.1 h with ⟨sent, -, h⟩
  rcases Option.bind_eq_some_iff.1 h with ⟨⟨r, response, made⟩, hpost, hrest⟩
  cases hrest
  exact IsExchange.post hpost

/-- The calls of a cycle are those of its exchanges. -/
theorem cycle_exchanges {s : Station} {io : CycleIo} {c : Cycle} (h : cycle s io = some c) :
    ∃ ps : List (List Call), c.calls = ps.flatten ∧ ∀ p ∈ ps, IsExchange p := by
  rcases Option.bind_eq_some_iff.1 h with ⟨⟨ok, s₁, calls⟩, hlocation, hsteps⟩
  have hcalls := getLocation_exchange hlocation
  simp only at hsteps
  split at hsteps
  · rcases Option.bind_eq_some_iff.1 hsteps with ⟨⟨s₂, weatherCalls⟩, hweather, hsteps⟩
    rcases Option.bind_eq_some_iff.1 hsteps with ⟨⟨s₃, postCalls, posted⟩, hpost, hend⟩
    have hweatherCalls := getWeather_exchange hweather
    have hpostCalls := postData_exchange hpost
    cases hend
    exact ⟨[calls, weatherCalls, postCalls], by simp, by simp [hcalls, hweatherCalls, hpostCalls]⟩
  · cases hsteps
    exact ⟨[calls], by simp, by simp [hcalls]⟩

/-- The calls of a run are those of its exchanges, cycle by cycle. -/
theorem weatherStationTask_exchanges {s : Station} {ios : List CycleIo} {cs : List Cycle}
    (h : weatherStationTask s ios = some cs) : ∃ exchanges : List (List (List Call)),
      cs.map Cycle.calls = exchanges.map List.flatten ∧
      ∀ ps ∈ exchanges, ∀ p ∈ ps, IsExchange p := by
  induction ios generalizing s cs with
  | nil =>
      cases h
      exact ⟨[], rfl, by simp⟩
  | cons io ios ih =>
      rcases Option.bind_eq_some_iff.1 h with ⟨c, hcycle, h⟩
      rcases Option.bind_eq_some_iff.1 h with ⟨cs', hrest, h⟩
      rcases cycle_exchanges hcycle with ⟨ps, hps, hexchange⟩
      rcases ih hrest with ⟨exchanges, hcalls, hall⟩
      cases h
      refine ⟨ps :: exchanges, by simp [hps, hcalls], ?_⟩
      intro qs hqs
      rcases List.mem_cons.1 hqs with rfl | hqs
      · exact hexchange
      · exact hall qs hqs

/-- A run of cycles always comes to its end. -/
theorem weatherStationTask_total (s : Station) (ios : List CycleIo) :
    ∃ cs, weatherStationTask s ios = some cs := by
  rcases List.eq_nil_or_concat ios with rfl | ⟨ios, io, rfl⟩
  · exact ⟨[], rfl⟩
  · rcases weatherStationTask_concat s ios io with ⟨_, cs, c, -, hcs⟩
    exact ⟨cs ++ [c], by rwa [List.concat_eq_append]⟩

/-- What exchanges one after the other do, where the one at `k` gets the socket and the list
`got k`. -/
def exchangeEvents (got : Nat → Nat × Nat) (exchanges : List (List Call)) : List (Event Handle) :=
  (exchanges.mapIdx fun k calls => callEvents (got k).1 (got k).2 calls).flatten

/-- Exchanges one after the other give back what they get. -/
theorem exchangeEvents_run (got : Nat → Nat × Nat) {exchanges : List (List Call)}
    (h : ∀ p ∈ exchanges, IsExchange p) :
    Ledger.run ∅ (exchangeEvents got exchanges) = some ∅ := by
  refine Ledger.run_flatten fun es hes => ?_
  rcases List.mem_mapIdx.1 hes with ⟨k, hk, rfl⟩
  exact (h _ (List.getElem_mem hk)).run _ _

end Lab73

/-- The clients of lab 7 leak nothing: the two tasks over any course of events, `http_get`
and `http_post` before they return, and the weather station after any number of exchanges,
whatever sockets and lists they get. -/
theorem clients_leak_nothing :
    LeaksNothing Lab71.httpGetTask ∧ LeaksNothing Lab72.httpPostTask ∧
    (∀ calls s res, Lab73.IsExchange calls → Settled (Lab73.callEvents s res calls)) ∧
    ∀ station ios, ∃ (cs : List Lab73.Cycle) (exchanges : List (List (List Lab73.Call))),
      Lab73.weatherStationTask station ios = some cs ∧
      cs.map Lab73.Cycle.calls = exchanges.map List.flatten ∧
      (∀ ps ∈ exchanges, ∀ p ∈ ps, Lab73.IsExchange p) ∧
      ∀ got k, Settled (Lab73.exchangeEvents got (exchanges.flatten.take k)) := by
  refine ⟨leaksNothing_of_accounts Lab71.step_accounts,
    leaksNothing_of_accounts Lab72.step_accounts,
    fun calls s res h => Ledger.settled_of_run (h.run s res), fun station ios => ?_⟩
  rcases Lab73.weatherStationTask_total station ios with ⟨cs, hcs⟩
  rcases Lab73.weatherStationTask_exchanges hcs with ⟨exchanges, hcalls, hall⟩
  refine ⟨cs, exchanges, hcs, hcalls, hall, fun got k => ?_⟩
  refine Ledger.settled_of_run (Lab73.exchangeEvents_run got fun p hp => ?_)
  rcases List.mem_flatten.1 (List.mem_of_mem_take hp) with ⟨ps, hps, hp⟩
  exact hall ps hps p hp

end Cse121
