import Cse121.Weather.Utf8

/-! # The weather station and its server

`lab7_3/server.py` on what the station sends it: `do_GET` answers with the configured
location, `do_POST` logs a report. The two work together over whole runs: the network may
refuse any exchange, cut a response anywhere into chunks, and answer for `wttr.in` whatever
it likes.
-/

namespace Cse121.Lab73

/-! ## The server -/

/-- Header lines and the empty line that ends them. -/
def headText (lines : List CString) : CString :=
  lines.flatMap (· ++ bytes "\r\n") ++ bytes "\r\n"

/-- The lines of a header: of the library that the handler is built on, and its own. -/
def headLines (headers : List CString) (status : CString) : List CString :=
  (bytes "HTTP/1.0 " ++ status) :: headers ++ [bytes "Content-type: text/plain"]

/-- The server: `LOCATION`, the header lines that `send_response` adds to a response, and the
page of the library for a request that it refuses. -/
structure Server where
  location : CString
  headers : List CString
  errorPage : CString → CString
  isLine_location : IsLine location
  location_short : location.length ≤ 127
  isLine_headers : ∀ h ∈ headers, IsLine h ∧ h ≠ []
  headers_short : (headText (headLines headers (bytes "200 OK"))).length ≤ 1920

namespace Server

/-- `send_response`, `send_header`, `end_headers` and the body. A client of HTTP 0.9 gets no
header. -/
def respond (srv : Server) (requestVersion status body : CString) : CString :=
  (if requestVersion = bytes "HTTP/0.9" then [] else headText (headLines srv.headers status)) ++
    body

/-- `do_GET` for a path. -/
def doGet (srv : Server) (requestVersion path : CString) : CString :=
  if path = bytes "/location" then srv.respond requestVersion (bytes "200 OK") srv.location
  else srv.respond requestVersion (bytes "404 Not Found") (bytes "Not Found")

/-- What separates the words of a request line for the library. -/
def IsBlank (c : UInt8) : Prop :=
  c = space ∨ (0x09 ≤ c ∧ c ≤ 0x0D) ∨ (0x1C ≤ c ∧ c ≤ 0x1F) ∨ c = 0x85 ∨ c = 0xA0

instance (c : UInt8) : Decidable (IsBlank c) := inferInstanceAs (Decidable (_ ∨ _))

/-- The first line, with what ends it. -/
def requestLine (request : CString) : CString :=
  let line := request.takeWhile fun c => c ≠ newline
  request.take (line.length + 1)

/-- Its words. -/
def requestWords (request : CString) : List CString :=
  ((requestLine request).splitOnP fun c => IsBlank c).filter (· ≠ [])

/-- The two numbers of a version such as `HTTP/1.0`, each of up to ten digits. -/
def versionNumber (version : CString) : Option (Nat × Nat) :=
  let isNumber := fun n : CString =>
    n ≠ [] ∧ n.length ≤ 10 ∧ n.all (fun c => Printf.IsDigit c) = true
  match (version.drop 5).splitOn (chr '.') with
  | [major, minor] =>
    if bytes "HTTP/" <+: version ∧ isNumber major ∧ isNumber minor then
      some (Printf.value major, Printf.value minor)
    else none
  | _ => none

/-- What the library makes of a request. -/
inductive Parsed where
  /-- there is nothing to read: no response -/
  | nothing
  /-- the response is a page of the library -/
  | refused
  | request (command path requestVersion : CString)
deriving DecidableEq, Repr

/-- Several slashes at the start of a path become one. -/
def onePath (path : CString) : CString :=
  if bytes "//" <+: path then chr '/' :: path.dropWhile (· = chr '/') else path

/-- `parse_request` of the library, without the header fields. -/
def parseRequest (request : CString) : Parsed :=
  if 65536 < (requestLine request).length then .refused
  else
    match requestWords request with
    | [] => .nothing
    | [command, path] =>
      if command = bytes "GET" then .request command (onePath path) (bytes "HTTP/0.9")
      else .refused
    | [command, path, version] =>
      match versionNumber version with
      | some (major, _) =>
        if major ≥ 2 then .refused else .request command (onePath path) version
      | none => .refused
    | _ => .refused

/-- A request: the response and the report that is logged. A report that is no text raises an
exception, and there is no response. -/
def handle (srv : Server) (request : CString) : Option CString × Option String :=
  match parseRequest request with
  | .nothing => (none, none)
  | .refused => (some (srv.errorPage request), none)
  | .request command path requestVersion =>
    if command = bytes "GET" then (some (srv.doGet requestVersion path), none)
    else if command = bytes "POST" then
      match doPostText request with
      | some text =>
        (some (srv.respond requestVersion (bytes "200 OK") (bytes "OK - Data received")), some text)
      | none => (none, none)
    else (some (srv.errorPage request), none)

example : parseRequest (bytes "GET //location HTTP/1.0\r\n\r\n") =
      .request (bytes "GET") (bytes "/location") (bytes "HTTP/1.0") ∧
    parseRequest (bytes "GET /location FTP/1.0\r\n\r\n") = .refused ∧
    parseRequest (bytes "GET /location\r\n") =
      .request (bytes "GET") (bytes "/location") (bytes "HTTP/0.9") ∧
    parseRequest (bytes "\r\n") = .nothing := by
  decide +kernel

/-- What the server logs for some requests. -/
def log (srv : Server) (requests : List CString) : List String :=
  requests.filterMap fun request => (srv.handle request).2

end Server

/-- The requests that reach a server. `here` tells whether the open connection is one to
it. -/
def delivered (host port : CString) : Bool → List Call → List CString
  | _, [] => []
  | _, .getaddrinfo host' port' _ :: calls =>
      delivered host port (host' = host ∧ port' = port) calls
  | here, .write data true :: calls =>
      (if here then [data] else []) ++ delivered host port here calls
  | here, _ :: calls => delivered host port here calls

namespace Server

end Server

/-! ## What reaches the server -/

/-- Calls that neither look up a host nor write deliver nothing. -/
theorem delivered_quiet {calls : List Call}
    (h : ∀ c ∈ calls, (∀ host port o, c ≠ .getaddrinfo host port o) ∧ ∀ data ok, c ≠ .write data ok)
    (host port : CString) (here : Bool) (rest : List Call) :
    delivered host port here (calls ++ rest) = delivered host port here rest := by
  induction calls with
  | nil => rfl
  | cons c calls ih =>
      rw [List.forall_mem_cons] at h
      rw [List.cons_append, ← ih h.2]
      cases c with
      | getaddrinfo host' port' o => exact absurd rfl (h.1.1 host' port' o)
      | write data ok => exact absurd rfl (h.1.2 data ok)
      | _ => rfl

/-- What is delivered by the calls of one exchange with a host, whatever comes after it. -/
def Delivers (calls : List Call) (host' port' : CString) (requests : List CString) : Prop :=
  ∀ host port here rest, ∃ here', delivered host port here (calls ++ rest) =
    (if host' = host ∧ port' = port then requests else []) ++ delivered host port here' rest

/-- Quiet calls may follow. -/
theorem Delivers.append {calls more : List Call} {host' port' : CString}
    {requests : List CString} (h : Delivers calls host' port' requests)
    (hmore : ∀ c ∈ more, (∀ host port o, c ≠ .getaddrinfo host port o) ∧
      ∀ data ok, c ≠ .write data ok) : Delivers (calls ++ more) host' port' requests := by
  intro host port here rest
  rcases h host port here (more ++ rest) with ⟨here', heq⟩
  exact ⟨here', by rw [List.append_assoc, heq, delivered_quiet hmore]⟩

end Cse121.Lab73
