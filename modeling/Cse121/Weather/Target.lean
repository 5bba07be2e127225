import Cse121.Lib.Uri
import Cse121.Weather.Posts
import Mathlib.Data.Bool.AllAny

/-! # The request for the weather

The location goes into the path of the request as it is. The request is well formed for
exactly the locations that need no encoding.
-/

namespace Cse121.Lab73

/-- The first line of a request is `GET`, a target and `HTTP/1.0`, with a single space
between them; the path of the target names the location, its query asks for the
temperature. -/
def WellFormedFor (location request : CString) : Prop :=
  ∃ target, (request.takeWhile (· ≠ carriageReturn)).splitOn space =
      [bytes "GET", target, bytes "HTTP/1.0"] ∧
    (∀ c ∈ target, Uri.IsTargetChar c) ∧
    Uri.percentDecode (Uri.path target) = some (bytes "/" ++ location) ∧
    Uri.query target = bytes "?format=%t"

/-! ## The first line -/

theorem weatherPathText_eq (L : CString) : weatherPathText L =
    (bytes "/" ++ L) ++ Uri.questionMark :: bytes "format=%t" := by
  have hquery : bytes "?format=%t" = Uri.questionMark :: bytes "format=%t" := by decide
  unfold weatherPathText
  rw [hquery]

theorem carriageReturn_notMem_weatherPathText {L : CString} (hL : IsLine L) :
    carriageReturn ∉ weatherPathText L := by
  have htexts : carriageReturn ∉ bytes "/" ∧ carriageReturn ∉ bytes "?format=%t" := by decide
  unfold weatherPathText
  simp [htexts, hL.carriageReturn]

/-- The request is sent in full, and its first line is the one of the format. -/
theorem weatherRequest_firstLine {L : CString} (hL : IsLine L) (hlen : L.length ≤ 127) :
    (weatherRequest L).takeWhile (· ≠ carriageReturn) =
      bytes "GET" ++ space :: (weatherPathText L ++ space :: bytes "HTTP/1.0") := by
  -- `snprintf` cuts nothing off
  have hfits : (getText (bytes "wttr.in") (bytes "80") (weatherPathText L)).length < 512 :=
    getText_length (by decide) (by decide) (weatherPathText_length hlen)
  have hfull : weatherRequest L = getText (bytes "wttr.in") (bytes "80") (weatherPathText L) :=
    List.take_of_length_le (by omega)
  have hget : bytes "GET " = bytes "GET" ++ [space] := by decide
  have hversion : bytes " HTTP/1.0\r\n" =
      space :: bytes "HTTP/1.0" ++ carriageReturn :: [newline] := by decide
  have hline : ∀ c ∈ bytes "GET" ++ space :: (weatherPathText L ++ space :: bytes "HTTP/1.0"),
      decide (c ≠ carriageReturn) = true := by
    have htexts : carriageReturn ∉ bytes "GET" ∧ carriageReturn ≠ space ∧
        carriageReturn ∉ bytes "HTTP/1.0" := by decide
    intro c hc
    refine decide_eq_true ?_
    rintro rfl
    simp [htexts, carriageReturn_notMem_weatherPathText hL] at hc
  obtain ⟨rest, hrest⟩ : ∃ rest, weatherRequest L =
      (bytes "GET" ++ space :: (weatherPathText L ++ space :: bytes "HTTP/1.0")) ++
        carriageReturn :: rest := by
    refine ⟨newline :: (bytes "Host: " ++ bytes "wttr.in" ++ bytes ":" ++ bytes "80" ++
      bytes "\r\n" ++ bytes "User-Agent: curl/7.68.0\r\n" ++ bytes "\r\n"), ?_⟩
    rw [hfull]
    unfold getText
    rw [hget, hversion]
    simp only [List.append_assoc, List.cons_append, List.nil_append]
  rw [hrest, List.takeWhile_append_of_pos hline, List.takeWhile_cons_of_neg (by simp),
    List.append_nil]

/-- If the line has three tokens, the one in the middle is the path of the format. -/
theorem splitOn_requestLine {target path : CString}
    (h : (bytes "GET" ++ space :: (path ++ space :: bytes "HTTP/1.0")).splitOn space =
      [bytes "GET", target, bytes "HTTP/1.0"]) : target = path := by
  have hjoin : [space].intercalate
      ((bytes "GET" ++ space :: (path ++ space :: bytes "HTTP/1.0")).splitOn space) =
        bytes "GET" ++ space :: (path ++ space :: bytes "HTTP/1.0") :=
    List.intercalate_splitOn space
  rw [h] at hjoin
  have hline : bytes "GET" ++ space :: (target ++ space :: bytes "HTTP/1.0") =
      bytes "GET" ++ space :: (path ++ space :: bytes "HTTP/1.0") := by
    rw [← hjoin]
    simp [List.intercalate, List.intersperse]
  exact List.append_cancel_right (List.cons.inj (List.append_cancel_left hline)).2

/-- A path without a space is the token in the middle. -/
theorem splitOn_requestLine_eq {path : CString} (hpath : space ∉ path) :
    (bytes "GET" ++ space :: (path ++ space :: bytes "HTTP/1.0")).splitOn space =
      [bytes "GET", path, bytes "HTTP/1.0"] := by
  rw [List.splitOn_append_cons_self_of_not_mem (by decide),
    List.splitOn_append_cons_self_of_not_mem hpath, List.splitOn_eq_singleton (by decide)]

/-! ## What is sent -/

/-- The calls of step 2 are those of `http_get` for the path. -/
theorem getWeather_calls {s s' : Station} {x : Exchange} {calls : List Call} {L : CString}
    (hs : s.location.Holds L) (hL : IsLine L) (hlen : L.length ≤ 127)
    (h : getWeather s x = some (s', calls)) : ∃ r response',
    httpGet (bytes "wttr.in") (bytes "80") (weatherPathText L) s.response x =
      some (r, response', calls) := by
  rcases CBuffer.snprintf_holds s.weatherPath (weatherPath_fits hL hlen).1
    (weatherPath_fits hL hlen).2 with ⟨weatherPath, hpath, hpathHolds⟩
  rcases getWeather_get h with ⟨location, weatherPath', path, r, response', hlocation, hmade,
    hread, hget⟩
  obtain rfl := Option.some.inj (hlocation.symm.trans hs.str_eq)
  obtain rfl := Option.some.inj (hmade.symm.trans hpath)
  obtain rfl := Option.some.inj (hread.symm.trans hpathHolds.str_eq)
  exact ⟨r, response', hget⟩

/-- Where the connection stands, the request is sent. -/
theorem request_sent {n : Nat} {host port path : CString} {response response' : CBuffer n}
    {x : Exchange} {r : Int} {calls : List Call} (hx : x.Sent)
    (h : httpGet host port path response x = some (r, response', calls)) :
    .write (snprintf 512 (getText host port path)) true ∈ calls := by
  rcases @httpGet_sent n host port path x hx with ⟨_, reads, -, hget, -⟩
  have hcalls := congrArg (fun o : Int × CBuffer n × List Call => o.2.2)
    (Option.some.inj ((hget response).symm.trans h))
  simp only at hcalls
  rw [← hcalls]
  rcases hx with ⟨haddrinfo, hsocket, hconnect, hwrite⟩
  simp [sendRequest, haddrinfo, hsocket, hconnect, hwrite]

/-- The request that step 2 sends for a location is well formed exactly if every byte of
the location is a character of a path. -/
theorem weather_request_wellFormed_iff {L : CString} (hL : IsLine L) (hlen : L.length ≤ 127) :
    (∀ s x, s.location.Holds L → ∃ s' calls, getWeather s x = some (s', calls) ∧
      OnlyWrites (weatherRequest L) calls ∧
      (x.Sent → .write (weatherRequest L) true ∈ calls)) ∧
    (WellFormedFor L (weatherRequest L) ↔ ∀ c ∈ L, Uri.IsPathChar c) := by
  constructor
  · intro s x hs
    rcases getWeather_eq x hL hlen with ⟨calls, hwrites, hweather⟩
    rcases hweather s hs with ⟨s', hs', -, -⟩
    refine ⟨s', calls, hs', .of_writes hwrites, fun hx => ?_⟩
    rcases getWeather_calls hs hL hlen hs' with ⟨r, response', hget⟩
    exact request_sent hx hget
  · have hslash : ∀ c ∈ bytes "/", Uri.IsPathChar c := List.all_iff_forall_prop.1 (by decide)
    have hquery : ∀ c ∈ bytes "?format=%t", Uri.IsTargetChar c ∧ c ≠ space :=
      List.all_iff_forall_prop.1 (by decide)
    unfold WellFormedFor
    rw [weatherRequest_firstLine hL hlen]
    constructor
    · rintro ⟨target, hsplit, hchars, hpath, -⟩
      -- whatever the token in the middle is, it is the path of the format
      obtain rfl := splitOn_requestLine hsplit
      rw [weatherPathText_eq] at hpath hchars
      rcases Uri.percentDecode_path_iff.1 hpath with ⟨hquestion, hpercent⟩
      intro c hc
      have hmem : c ∈ bytes "/" ++ L := List.mem_append_right _ hc
      refine Uri.isPathChar_iff.2 ⟨hchars c (List.mem_append_left _ hmem), ?_, ?_⟩
      · exact fun h => hquestion (h ▸ hmem)
      · exact fun h => hpercent (h ▸ hmem)
    · intro hplain
      have hall : ∀ c ∈ bytes "/" ++ L, Uri.IsPathChar c := by
        intro c hc
        exact (List.mem_append.1 hc).elim (hslash c) (hplain c)
      have hquestion : Uri.questionMark ∉ bytes "/" ++ L := fun h =>
        (Uri.isPathChar_iff.1 (hall _ h)).2.1 rfl
      have hpercent : Uri.percent ∉ bytes "/" ++ L := fun h =>
        (Uri.isPathChar_iff.1 (hall _ h)).2.2 rfl
      have hspace : space ∉ weatherPathText L := by
        intro h
        rcases List.mem_append.1 h with h | h
        · exact absurd (hall _ h) (by decide)
        · exact (hquery _ h).2 rfl
      refine ⟨weatherPathText L, splitOn_requestLine_eq hspace, ?_, ?_, ?_⟩
      · intro c hc
        rcases List.mem_append.1 hc with hc | hc
        · exact Or.inl (hall c hc)
        · exact (hquery c hc).1
      · rw [weatherPathText_eq, Uri.percentDecode_path_iff]
        exact ⟨hquestion, hpercent⟩
      · rw [weatherPathText_eq, Uri.query_append hquestion]
        decide

theorem weather_request_wellFormed_santaCruz :
    WellFormedFor (bytes "Santa-Cruz") (weatherRequest (bytes "Santa-Cruz")) :=
  (weather_request_wellFormed_iff (L := bytes "Santa-Cruz") ⟨by decide, by decide, by decide⟩
    (by decide)).2.2 (List.all_iff_forall_prop.1 (by decide))

/-- With a space in the location the first line has four tokens. -/
theorem space_in_location : ¬ ∀ L : CString, IsLine L → L.length ≤ 127 →
    WellFormedFor L (weatherRequest L) := by
  intro h
  have hline : IsLine (bytes "San Francisco") := ⟨by decide, by decide, by decide⟩
  have hlen : (bytes "San Francisco").length ≤ 127 := by decide
  rcases h _ hline hlen with ⟨target, hsplit, -⟩
  rw [weatherRequest_firstLine hline hlen] at hsplit
  have hfour : ((bytes "GET" ++ space :: (weatherPathText (bytes "San Francisco") ++ space ::
      bytes "HTTP/1.0")).splitOn space).length = 4 := by decide +kernel
  rw [hsplit] at hfour
  exact absurd hfour (by simp)

end Cse121.Lab73
