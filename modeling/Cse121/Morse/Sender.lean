import Cse121.Lib.PulseTrain
import Cse121.Morse.Code
import Mathlib.Data.List.Flatten
import Mathlib.Data.List.Range

/-! # The two Morse senders

`lab5_1/send.c` and `lab5_3/sender/send.c`: a message is looked up character by
character and keyed on GPIO 17, as often as asked. A run of a sender is the list of
the things that it does to the line and to the clock. The senders are written apart
in the source, with different sleeps and opposite levels, and are kept apart here;
what they key is the same sequence of letters and pauses (`messageKeys`).
-/

namespace Cse121

/-- What a sender does. -/
inductive Act where
  /-- `gpiod_line_set_value`, or the value of `gpiod_line_request_output` -/
  | gpioWrite (value : Int)
  | usleep (us : Int)
  | nanosleep (tvSec tvNsec : Int)
deriving DecidableEq, Repr

/-- An act as the keying of a line that is on at level `on`, in microseconds. -/
def Act.key (on : Int) : Act → Key
  | .gpioWrite value => .set (value = on)
  | .usleep us => .wait us
  | .nanosleep tvSec tvNsec => .wait (tvSec * 1000000 + tvNsec / 1000)

/-- A run as the keying of a line that is on at level `on`. -/
def keysOf (on : Int) (acts : List Act) : List Key := acts.map (Act.key on)

@[simp] theorem keysOf_nil (on : Int) : keysOf on [] = [] := rfl

@[simp] theorem keysOf_cons (on : Int) (a : Act) (acts : List Act) :
    keysOf on (a :: acts) = a.key on :: keysOf on acts := rfl

@[simp] theorem keysOf_append (on : Int) (xs ys : List Act) :
    keysOf on (xs ++ ys) = keysOf on xs ++ keysOf on ys := by
  simp [keysOf]

/-- The shape of both `send_morse_char`. -/
def sendCode (sendDot sendDash letterGap wordGap : List Act) (morse : CString) : List Act :=
  if morse = bytes "/" then wordGap
  else
    (morse.flatMap fun s =>
      if s = dot then sendDot else if s = dash then sendDash else []) ++ letterGap

/-- The loop of both `send_message`. -/
def sendChars (getMorseCode : UInt8 → Option CString) (sendMorseChar : CString → List Act)
    (message : CString) : List Act :=
  message.flatMap fun c =>
    match getMorseCode c with
    | some morse => sendMorseChar morse
    | none => []

/-- The loop of both `main`. -/
def sendRepeated (sendMessage pause : List Act) (repetitions : Nat) : List Act :=
  (List.range repetitions).flatMap fun i =>
    sendMessage ++ if i + 1 < repetitions then pause else []

namespace Lab51

def dotDuration : Int := 100000

/-- `gpio_init`: the line is requested as an output. -/
def gpioInit : List Act := [.gpioWrite 1]

def gpioWrite (value : Int) : List Act := [.gpioWrite value]

def gpioCleanup : List Act := [.gpioWrite 1]

def sendDot : List Act :=
  gpioWrite 0 ++ [.usleep dotDuration] ++ gpioWrite 1 ++ [.usleep dotDuration]

def sendDash : List Act :=
  gpioWrite 0 ++ [.usleep (dotDuration * 3)] ++ gpioWrite 1 ++ [.usleep dotDuration]

def sendMorseChar : CString → List Act :=
  sendCode sendDot sendDash [.usleep (dotDuration * 2)] [.usleep (dotDuration * 4)]

def sendMessage : CString → List Act := sendChars getMorseCode sendMorseChar

/-- `main`, for accepted arguments. -/
def main (repetitions : Nat) (message : CString) : List Act :=
  gpioInit ++ gpioWrite 1 ++
    sendRepeated (sendMessage message) [.usleep (dotDuration * 7)] repetitions ++ gpioCleanup

end Lab51

namespace Lab53.Sender

/-- The timing parameters of the file. -/
structure Timing where
  dotDurationUs : Int
  dashDurationUs : Int
  symbolGapUs : Int
  letterGapUs : Int
  wordGapUs : Int
deriving DecidableEq, Repr

/-- `calculate_timing` from its second line on, for a dot whose lengths fit an `int`
(`dotTiming`). -/
def timingOfDot (dotDurationUs : Int) : Timing :=
  { dotDurationUs
    dashDurationUs := dotDurationUs * 3
    symbolGapUs := dotDurationUs
    letterGapUs := dotDurationUs * 3
    wordGapUs := dotDurationUs * 7 }

def preciseSleepUs (microseconds : Int) : List Act :=
  [.nanosleep (microseconds.tdiv 1000000) (microseconds.tmod 1000000 * 1000)]

/-- `gpio_init`: the line is requested as an output. -/
def gpioInit : List Act := [.gpioWrite 0]

def gpioWrite (value : Int) : List Act := [.gpioWrite value]

def gpioCleanup : List Act := [.gpioWrite 0]

def sendDot (t : Timing) : List Act :=
  gpioWrite 1 ++ preciseSleepUs t.dotDurationUs ++ gpioWrite 0 ++ preciseSleepUs t.symbolGapUs

def sendDash (t : Timing) : List Act :=
  gpioWrite 1 ++ preciseSleepUs t.dashDurationUs ++ gpioWrite 0 ++ preciseSleepUs t.symbolGapUs

def sendMorseChar (t : Timing) : CString → List Act :=
  sendCode (sendDot t) (sendDash t) (preciseSleepUs (t.letterGapUs - t.symbolGapUs))
    (preciseSleepUs (t.wordGapUs - t.letterGapUs))

def sendMessage (t : Timing) : CString → List Act := sendChars getMorseCode (sendMorseChar t)

/-- `main`, for accepted arguments. -/
def main (t : Timing) (repetitions : Nat) (message : CString) : List Act :=
  gpioInit ++ gpioWrite 0 ++
    sendRepeated (sendMessage t message) (preciseSleepUs (t.wordGapUs * 2)) repetitions ++
    gpioCleanup

end Lab53.Sender

/-! ## What is keyed -/

/-- The length of a symbol in units. -/
def units (s : UInt8) : Int := if s = dot then 1 else 3

/-- The keying of one symbol and the gap after it, with unit `u`. -/
def symbolKeys (u : Int) (s : UInt8) : List Key :=
  [.set true, .wait (units s * u), .set false, .wait u]

/-- The keying of one character: nothing for an unsupported one. -/
def charKeys (u : Int) (c : UInt8) : List Key :=
  if isLetter c then (codeOf c).flatMap (symbolKeys u) ++ [.wait (2 * u)]
  else if c = space then [.wait (4 * u)]
  else []

/-- The keying of a message. -/
def messageKeys (u : Int) (message : CString) : List Key := message.flatMap (charKeys u)

/-- The keying of several messages with a pause of `r` units between them. -/
def repeatedKeys (r u : Int) (message : CString) : Nat → List Key
  | 0 => []
  | 1 => messageKeys u message
  | n + 2 => messageKeys u message ++ .wait (r * u) :: repeatedKeys r u message (n + 1)

/-- No code is the word separator. -/
theorem codeOf_ne_separator : ∀ c : UInt8, isLetter c = true → codeOf c ≠ bytes "/" := by
  refine forall_byte ?_
  decide +kernel

/-- Sending a code is keying its symbols, for any way of sending the symbols and gaps
that keys them. -/
theorem sendCode_keys {on u : Int} {sendDot sendDash letterGap wordGap : List Act}
    (hdot : keysOf on sendDot = symbolKeys u dot) (hdash : keysOf on sendDash = symbolKeys u dash)
    (hletter : keysOf on letterGap = [.wait (2 * u)]) {c : UInt8} (hc : isLetter c = true) :
    keysOf on (sendCode sendDot sendDash letterGap wordGap (codeOf c)) = charKeys u c := by
  have hsyms : ∀ code : CString, (∀ s ∈ code, s = dot ∨ s = dash) →
      keysOf on (code.flatMap fun s =>
        if s = dot then sendDot else if s = dash then sendDash else []) =
      code.flatMap (symbolKeys u) := by
    intro code
    induction code with
    | nil => simp
    | cons s code ih =>
        intro hs
        have hrest := ih fun s' hs' => hs s' (List.mem_cons_of_mem s hs')
        have hne : ¬ dash = dot := by decide
        rcases hs s List.mem_cons_self with rfl | rfl
        · simp only [List.flatMap_cons, keysOf_append, hrest, if_true, hdot]
        · simp only [List.flatMap_cons, keysOf_append, hrest, if_neg hne, if_true, hdash]
  have hspec := codeOf_spec c hc
  simp only [sendCode, if_neg (codeOf_ne_separator c hc), charKeys, hc, if_true, keysOf_append,
    hsyms _ hspec.2.2.2.1, hletter]

/-- Sending a message keys its characters. -/
theorem sendChars_keys {on u : Int} {sendDot sendDash letterGap wordGap : List Act}
    (hdot : keysOf on sendDot = symbolKeys u dot) (hdash : keysOf on sendDash = symbolKeys u dash)
    (hletter : keysOf on letterGap = [.wait (2 * u)]) (hword : keysOf on wordGap = [.wait (4 * u)])
    (message : CString) :
    keysOf on (sendChars Lab51.getMorseCode (sendCode sendDot sendDash letterGap wordGap)
      message) = messageKeys u message := by
  induction message with
  | nil => rfl
  | cons c cs ih =>
      have hchar : keysOf on (match Lab51.getMorseCode c with
          | some morse => sendCode sendDot sendDash letterGap wordGap morse
          | none => []) = charKeys u c := by
        by_cases hc : isLetter c = true
        · rw [(codeOf_spec c hc).1]
          exact sendCode_keys hdot hdash hletter hc
        · by_cases hs : c = space
          · subst hs
            simp only [getMorseCode_space, sendCode, if_true, hword]
            rfl
          · rw [getMorseCode_other c (by simpa using hc) hs]
            simp [charKeys, hc, hs]
      simp only [sendChars, messageKeys, List.flatMap_cons, keysOf_append, hchar] at ih ⊢
      rw [ih]

/-- The repetitions of a message, with the pause between them. -/
theorem sendRepeated_keys {on r u : Int} {sendMessage pause : List Act} {message : CString}
    (hmsg : keysOf on sendMessage = messageKeys u message)
    (hpause : keysOf on pause = [.wait (r * u)]) (n : Nat) :
    keysOf on (sendRepeated sendMessage pause n) = repeatedKeys r u message n := by
  induction n with
  | zero => rfl
  | succ n ih =>
      cases n with
      | zero => simp [sendRepeated, repeatedKeys, hmsg]
      | succ n =>
          -- the first turn has a pause, the later ones are the turns of a shorter loop
          have hrest : (List.range (n + 1)).flatMap (fun i =>
              sendMessage ++ if i + 1 + 1 < n + 1 + 1 then pause else []) =
              sendRepeated sendMessage pause (n + 1) := by
            simp only [sendRepeated, Nat.add_lt_add_iff_right]
          rw [sendRepeated, List.range_succ_eq_map, List.flatMap_cons, List.flatMap_map, hrest,
            keysOf_append, ih]
          simp [repeatedKeys, hmsg, hpause]

namespace Lab51

/-- `send_message` keys its message with a unit of 100 ms, on at level 0. -/
theorem sendMessage_keys (message : CString) :
    keysOf 0 (sendMessage message) = messageKeys dotDuration message := by
  have hdot : keysOf 0 sendDot = symbolKeys dotDuration dot := rfl
  have hdash : keysOf 0 sendDash = symbolKeys dotDuration dash := rfl
  have hletter : keysOf 0 [.usleep (dotDuration * 2)] = [.wait (2 * dotDuration)] := rfl
  have hword : keysOf 0 [.usleep (dotDuration * 4)] = [.wait (4 * dotDuration)] := rfl
  exact sendChars_keys hdot hdash hletter hword message

/-- `main` keys its message as often as asked, with a pause of seven units. -/
theorem main_keys (repetitions : Nat) (message : CString) :
    keysOf 0 (main repetitions message) =
      .set false :: .set false ::
        (repeatedKeys 7 dotDuration message repetitions ++ [.set false]) := by
  have hpause : keysOf 0 [.usleep (dotDuration * 7)] = [.wait (7 * dotDuration)] := rfl
  have hloop := sendRepeated_keys (sendMessage_keys message) hpause repetitions
  simp only [main, keysOf_append, hloop]
  rfl

end Lab51

namespace Lab53.Sender

/-- A sleep takes the microseconds it is asked for. -/
theorem preciseSleepUs_keys (on : Int) {us : Int} (h : 0 ≤ us) :
    keysOf on (preciseSleepUs us) = [.wait us] := by
  have hdiv : us.tdiv 1000000 = us / 1000000 := Int.tdiv_eq_ediv_of_nonneg h
  have hmod : us.tmod 1000000 = us % 1000000 := Int.tmod_eq_emod_of_nonneg h
  simp only [preciseSleepUs, keysOf_cons, keysOf_nil, Act.key, hdiv, hmod]
  congr 2
  omega

/-- `send_message` keys its message with the dot as unit, on at level 1. -/
theorem sendMessage_keys {d : Int} (hd : 0 ≤ d) (message : CString) :
    keysOf 1 (sendMessage (timingOfDot d) message) = messageKeys d message := by
  have hmul : 0 ≤ d * 3 := by omega
  have hunits : units dash = 3 := by decide
  have hgaps : d * 3 - d = 2 * d ∧ d * 7 - d * 3 = 4 * d := by omega
  have hdot : keysOf 1 (sendDot (timingOfDot d)) = symbolKeys d dot := by
    simp only [sendDot, timingOfDot, gpioWrite, keysOf_append, preciseSleepUs_keys 1 hd]
    simp [Act.key, symbolKeys, units]
  have hdash : keysOf 1 (sendDash (timingOfDot d)) = symbolKeys d dash := by
    simp only [sendDash, timingOfDot, gpioWrite, keysOf_append, preciseSleepUs_keys 1 hd,
      preciseSleepUs_keys 1 hmul]
    simp [Act.key, symbolKeys, hunits, Int.mul_comm]
  have hletter : keysOf 1 (preciseSleepUs ((timingOfDot d).letterGapUs -
      (timingOfDot d).symbolGapUs)) = [.wait (2 * d)] := by
    rw [timingOfDot, hgaps.1, preciseSleepUs_keys 1 (by omega)]
  have hword : keysOf 1 (preciseSleepUs ((timingOfDot d).wordGapUs -
      (timingOfDot d).letterGapUs)) = [.wait (4 * d)] := by
    rw [timingOfDot, hgaps.2, preciseSleepUs_keys 1 (by omega)]
  unfold sendMessage
  rw [sender_codes_agree]
  exact sendChars_keys hdot hdash hletter hword message

/-- `main` keys its message as often as asked, with a pause of fourteen units. -/
theorem main_keys {d : Int} (hd : 0 ≤ d) (repetitions : Nat) (message : CString) :
    keysOf 1 (main (timingOfDot d) repetitions message) =
      .set false :: .set false :: (repeatedKeys 14 d message repetitions ++ [.set false]) := by
  have hpause : keysOf 1 (preciseSleepUs (d * 7 * 2)) = [.wait (14 * d)] := by
    have h14 : d * 7 * 2 = 14 * d := by omega
    rw [h14, preciseSleepUs_keys 1 (by omega)]
  have hloop := sendRepeated_keys (sendMessage_keys hd message) hpause repetitions
  simp only [main, keysOf_append, timingOfDot] at hloop ⊢
  rw [hloop]
  rfl

end Lab53.Sender

end Cse121
