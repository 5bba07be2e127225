import Cse121.Weather.Posts
import Cse121.Weather.Sockets

/-! # What lab 7.2 posts

`lab7_2/server.py` reads a post like `lab7_3/server.py` does. Whatever the calls of
`http_post_task` return, what it writes are readings of the temperature, each of them in one
request at most and in their order. Where the sensor fails it posts 0.00.
-/

namespace Cse121.Lab72

open Lab73 (doPost postHead blankLine)

/-- The text of a reading. -/
def reading (temperature : Lab73.Float32) : CString :=
  bytes "ESP32_Temperature: " ++ temperature.text ++ bytes " C"

/-- A reading fits into `payload`. -/
theorem payload_eq (temperature : Lab73.Float32) :
    payload temperature = reading temperature ∧ (reading temperature).length ≤ 64 := by
  have htexts : (bytes "ESP32_Temperature: ").length = 19 ∧ (bytes " C").length = 2 := by decide
  have htext := temperature.text_length
  have hlength : (reading temperature).length ≤ 64 := by
    unfold reading
    simp only [List.length_append, htexts]
    omega
  refine ⟨?_, hlength⟩
  unfold payload Lab73.snprintf
  exact List.take_of_length_le (by unfold reading at hlength; omega)

/-- The header of a post is the one of lab 7.3. -/
theorem request_eq (temperature : Lab73.Float32) :
    request (payload temperature) =
      postHead (reading temperature).length ++ blankLine ++ reading temperature := by
  rcases payload_eq temperature with ⟨hpayload, hlength⟩
  have hfirst : bytes "POST " ++ bytes "/" ++ bytes " HTTP/1.1\r\n" =
      bytes "POST / HTTP/1.1\r\n" := by decide
  have htext := Lab73.postText_eq (reading temperature)
  unfold Lab73.postText at htext
  rw [hfirst] at htext
  have hservers : Lab73.serverIp = serverIp ∧ Lab73.serverPort = serverPort := ⟨rfl, rfl⟩
  rw [hservers.1, hservers.2] at htext
  have hroom : (postHead (reading temperature).length ++ blankLine ++
      reading temperature).length ≤ 511 := by
    have hlens : (bytes "POST / HTTP/1.1\r\n").length = 17 ∧
        (bytes "Host: 192.168.43.1:1234\r\n").length = 25 ∧
        (bytes "Content-Type: text/plain\r\n").length = 26 ∧
        (bytes "Content-Length: ").length = 16 ∧ blankLine.length = 4 := by decide
    have hdigits : (Printf.decimal (reading temperature).length).length ≤ 3 :=
      (Printf.decimal_length_le_iff (by decide)).2 (by omega)
    unfold postHead
    simp only [List.length_append, hlens]
    omega
  rw [hpayload, request, htext]
  exact List.take_of_length_le hroom

/-- The server reads the reading. -/
theorem doPost_request (temperature : Lab73.Float32) :
    doPost (request (payload temperature)) = some (reading temperature) := by
  rw [request_eq, Lab73.doPost_eq]

/-! ## Runs -/

/-- What the sensor gives in a run, each time that it is asked: a temperature, or an error. -/
def readings (t : Task) : List Outcome → List (Option Lab73.Float32)
  | [] => []
  | o :: os =>
      (if t.point = .getaddrinfo then [o.celsius] else []) ++
        readings (httpPostTask.step t o).1 os

/-- What should be posted for it. -/
def report : Option Lab73.Float32 → CString
  | some temperature => reading temperature
  | none => bytes "ESP32_Temperature: 0.00 C"

theorem report_eq (celsius : Option Lab73.Float32) :
    report celsius = reading (celsius.getD .zero) := by
  cases celsius with
  | none => decide +kernel
  | some temperature => rfl

/-- What the server would read of what is written. -/
def posts (calls : List SocketCall) : List (Option CString) :=
  calls.filterMap fun
    | .write _ data => some (doPost data)
    | _ => none

/-- The reading is not written yet. -/
def Ahead (t : Task) : Prop :=
  t.point = .socket ∨ t.point = .connect ∨ t.point = .write

instance (t : Task) : Decidable (Ahead t) := inferInstanceAs (Decidable (_ ∨ _))

theorem posts_append (cs ds : List SocketCall) : posts (cs ++ ds) = posts cs ++ posts ds :=
  List.filterMap_append

/-- What waits later waited before. -/
theorem ahead_sublist {t t' : Task} (h : Ahead t' → Ahead t) (celsius : Option Lab73.Float32)
    (rest : List (Option Lab73.Float32)) :
    ((if Ahead t' then [celsius] else []) ++ rest).Sublist
      ((if Ahead t then [celsius] else []) ++ rest) := by
  by_cases ht' : Ahead t'
  · rw [if_pos ht', if_pos (h ht')]
  · rw [if_neg ht']
    exact List.sublist_append_right _ _

/-- A call other than `write` and `getaddrinfo` writes nothing and keeps the request. -/
theorem step_quiet (t : Task) (o : Outcome) (h : t.point ≠ .getaddrinfo)
    (hwrite : t.point ≠ .write) :
    posts (httpPostTask.step t o).2 = [] ∧ (httpPostTask.step t o).1.request = t.request ∧
      (Ahead (httpPostTask.step t o).1 → Ahead t) := by
  rcases t with ⟨point, res, s, req⟩
  cases point with
  | getaddrinfo => exact absurd rfl h
  | write => exact absurd rfl hwrite
  | socket =>
      simp only [httpPostTask, Task.allocate]
      split <;> exact ⟨rfl, rfl, fun _ => Or.inl rfl⟩
  | connect =>
      simp only [httpPostTask, Task.connect]
      split <;> exact ⟨rfl, rfl, fun _ => Or.inr (Or.inl rfl)⟩
  | setsockopt => exact ⟨rfl, rfl, by simp [httpPostTask, Ahead]⟩
  | read => exact ⟨rfl, rfl, by simp [httpPostTask, Ahead]⟩

/-- A lookup reads the temperature and makes the request. -/
theorem step_getaddrinfo (t : Task) (o : Outcome) (h : t.point = .getaddrinfo) :
    posts (httpPostTask.step t o).2 = [] ∧
      (httpPostTask.step t o).1.request = request (payload (o.celsius.getD .zero)) := by
  simp only [httpPostTask, h, Task.lookup]
  split <;> exact ⟨rfl, rfl⟩

/-- The request is written once. -/
theorem step_write (t : Task) (o : Outcome) (h : t.point = .write) :
    posts (httpPostTask.step t o).2 = [doPost t.request] ∧ ¬ Ahead (httpPostTask.step t o).1 := by
  simp only [httpPostTask, h, Task.send]
  split
  · exact ⟨rfl, by simp [Ahead]⟩
  · exact ⟨rfl, by simp [Ahead]⟩

theorem posts_sublist (t : Task) (celsius : Option Lab73.Float32)
    (h : Ahead t → t.request = request (payload (celsius.getD .zero))) (os : List Outcome) :
    (posts (httpPostTask.out t os)).Sublist
      (((if Ahead t then [celsius] else []) ++ readings t os).map fun c => some (report c)) := by
  induction os generalizing t celsius with
  | nil => exact List.nil_sublist _
  | cons o os ih =>
      rw [Transducer.out_cons, posts_append, readings]
      by_cases hlookup : t.point = .getaddrinfo
      · -- a new reading takes the place of whatever was there
        rcases step_getaddrinfo t o hlookup with ⟨hposts, hrequest⟩
        have hahead : ¬ Ahead t := by simp [Ahead, hlookup]
        have hrest := ih _ _ fun _ => hrequest
        rw [hposts, if_neg hahead, if_pos hlookup, List.nil_append, List.nil_append]
        refine hrest.trans (List.Sublist.map _ ?_)
        split
        · exact List.Sublist.refl _
        · exact List.sublist_append_right _ _
      · rw [if_neg hlookup, List.nil_append]
        by_cases hwrite : t.point = .write
        · rcases step_write t o hwrite with ⟨hposts, hahead⟩
          have hready : Ahead t := Or.inr (Or.inr hwrite)
          have hrest := ih _ celsius fun h => absurd h hahead
          rw [if_neg hahead, List.nil_append] at hrest
          rw [hposts, h hready, doPost_request, ← report_eq, if_pos hready]
          exact hrest.cons_cons _
        · rcases step_quiet t o hlookup hwrite with ⟨hposts, hrequest, hahead⟩
          have hrest := ih _ celsius fun h' => hrequest.trans (h (hahead h'))
          rw [hposts, List.nil_append]
          exact hrest.trans ((ahead_sublist hahead celsius _).map _)

/-- Whatever the calls of the task return, the server can read every request that it writes,
and finds what the sensor gave, or 0.00 where the sensor failed: each time that the sensor was
asked is told at most once, and in their order. -/
theorem posts_are_readings (res : Option Nat) (s : Int) (req : CString) (os : List Outcome) :
    (posts (httpPostTask.out ⟨.getaddrinfo, res, s, req⟩ os)).Sublist
      ((readings ⟨.getaddrinfo, res, s, req⟩ os).map fun c => some (report c)) :=
  posts_sublist ⟨.getaddrinfo, res, s, req⟩ none (fun h => by simp [Ahead] at h) os

end Cse121.Lab72
