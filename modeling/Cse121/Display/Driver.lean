import Cse121.Display.Lcd
import Cse121.Lib.Dialog

/-! # The display driver

`DFRobot_LCD` of `lab3_3/components/lcd`, which `lab3_2` uses too: `init`, the calls of a
program, and the display and the backlight that hear them. Any transaction may fail. The
waits between the commands are not modelled.
-/

namespace Cse121.Lab33

/-! ## The devices -/

/-- The controller of the display: the modes that the driver sets, and the memory. -/
structure Controller where
  /-- IS, the extended instructions -/
  extended : Bool
  twoLines : Bool
  on : Bool
  cursor : Bool
  blink : Bool
  increment : Bool
  shift : Bool
  bias : UInt8
  icon : Bool
  booster : Bool
  contrastHi : UInt8
  contrastLo : UInt8
  follower : Bool
  amplification : UInt8
  /-- The address counter is one of the text memory. -/
  text : Bool
  lcd : Lcd

/-- What a controller does where the driver does not rely on anything. -/
structure Quirks where
  command : Controller → UInt8 → Controller
  data : Controller → UInt8 → Controller

namespace Controller

/-- The data of the program goes to the text memory, from left to right. -/
def plain (c : Controller) : Bool :=
  !c.extended && c.twoLines && c.increment && !c.shift && c.text

def extendedCommand (q : Quirks) (c : Controller) (cmd : UInt8) : Controller :=
  if cmd &&& 0xF0 = 0x10 then { c with bias := cmd &&& 0x0F }
  else if cmd &&& 0xF0 = 0x50 then
    { c with
      icon := cmd &&& 0x08 != 0, booster := cmd &&& 0x04 != 0, contrastHi := cmd &&& 0x03 }
  else if cmd &&& 0xF0 = 0x60 then
    { c with follower := cmd &&& 0x08 != 0, amplification := cmd &&& 0x07 }
  else if cmd &&& 0xF0 = 0x70 then { c with contrastLo := cmd &&& 0x0F }
  else q.command c cmd

def command (q : Quirks) (c : Controller) (cmd : UInt8) : Controller :=
  if cmd &&& 0x80 = 0x80 then { c with text := true, lcd := c.lcd.sendCommand cmd }
  else if cmd = 0x01 then { c with text := true, lcd := .cleared }
  else if cmd = 0x02 then { c with text := true, lcd := { c.lcd with ac := 0 } }
  else if cmd &&& 0xFC = 0x04 then
    { c with increment := cmd &&& 0x02 != 0, shift := cmd &&& 0x01 != 0 }
  else if cmd &&& 0xF8 = 0x08 then
    { c with
      on := cmd &&& 0x04 != 0, cursor := cmd &&& 0x02 != 0, blink := cmd &&& 0x01 != 0 }
  else if cmd &&& 0xE0 = 0x20 then
    { c with twoLines := cmd &&& 0x08 != 0, extended := cmd &&& 0x01 != 0 }
  else if c.extended then c.extendedCommand q cmd
  else q.command c cmd

def data (q : Quirks) (c : Controller) (b : UInt8) : Controller :=
  if c.plain then { c with lcd := c.lcd.writeData b } else q.data c b

/-- After the control byte of the driver come commands or data. -/
def receive (q : Quirks) (c : Controller) : List UInt8 → Controller
  | 0x00 :: cmds => cmds.foldl (command q) c
  | 0x40 :: bs => bs.foldl (data q) c
  | _ => c

/-- A display that shows its memory, as `init` should leave it. -/
def ready (l : Lcd) : Controller where
  extended := false
  twoLines := true
  on := true
  cursor := false
  blink := false
  increment := true
  shift := false
  bias := 0x04
  icon := true
  booster := true
  contrastHi := 0x03
  contrastLo := 0x0F
  follower := true
  amplification := 0x04
  text := true
  lcd := l

end Controller

def lcdI2cAddr : UInt8 := 0x3E

/-- Where a backlight may be. -/
def rgbAddrs : List UInt8 := [0x60, 0x61, 0x62, 0x63, 0x64, 0x65, 0x66, 0x67]

/-- The display, and the registers of the backlights. -/
structure Hardware where
  display : Controller
  chips : UInt8 → UInt8 → UInt8

/-- What an acknowledged transaction does. -/
def Hardware.take (q : Quirks) (h : Hardware) (addr : UInt8) (data : List UInt8) : Hardware :=
  if addr = lcdI2cAddr then { h with display := h.display.receive q data }
  else if addr ∈ rgbAddrs then
    match data with
    | [reg, val] =>
      { h with chips := Function.update h.chips addr (Function.update (h.chips addr) reg val) }
    | _ => h
  else h

/-! ## The driver -/

/-- `ESP_OK`, the errors that the driver gives itself, and those of the bus. -/
inductive EspErr where
  | ok
  | invalidState
  | invalidArg
  | bus
deriving DecidableEq, Repr

def EspErr.ofBus (ok : Bool) : EspErr := if ok then .ok else .bus

structure DFRobotLCD where
  addr : UInt8
  inited : Bool
  rgbPresent : Bool
  rgbProbed : Bool
  rgbAddr : UInt8
deriving DecidableEq, Repr

namespace DFRobotLCD

/-- The constructor. -/
def new (i2cAddr : UInt8) : DFRobotLCD where
  addr := if i2cAddr ≠ 0 then i2cAddr else lcdI2cAddr
  inited := false
  rgbPresent := false
  rgbProbed := false
  rgbAddr := 0x60

end DFRobotLCD

def ctrlCmd : UInt8 := 0x00
def ctrlData : UInt8 := 0x40

/-- `i2c_write_cmd_byte` -/
def i2cWriteCmdByte (dev7 cmd : UInt8) : Dialog EspErr :=
  .write dev7 [ctrlCmd, cmd] fun ok => .done (.ofBus ok)

/-- `i2c_write_data` -/
def i2cWriteData (dev7 : UInt8) (data : List UInt8) : Dialog EspErr :=
  .write dev7 (ctrlData :: data) fun ok => .done (.ofBus ok)

/-- `i2c_device_present` -/
def i2cDevicePresent (addr7 : UInt8) : Dialog Bool := .write addr7 [] .done

/-- Writes in a row, up to the first that fails. -/
def inTurn {α : Type} (f : α → Dialog EspErr) : List α → Dialog EspErr
  | [] => .done .ok
  | x :: xs => (f x).bind fun err => if err = .ok then inTurn f xs else .done err

def contrast : UInt8 := 0x3F
def pwrContrastHi : UInt8 := 0x5F

/-- The commands of `init`. -/
def initCommands : List UInt8 :=
  [0x38, 0x39, 0x14, 0x70 ||| (contrast &&& 0x0F), pwrContrastHi ||| ((contrast >>> 4) &&& 0x03),
    0x6C, 0x38, 0x0C, 0x01, 0x06]

/-- The first address that something acknowledges. -/
def firstPresent : List UInt8 → Dialog (Option UInt8)
  | [] => .done none
  | a :: as => (i2cDevicePresent a).bind fun present =>
      if present then .done (some a) else firstPresent as

namespace DFRobotLCD

/-- The search for the backlight, in `init` and in `setRGB`. -/
def probeRgb (o : DFRobotLCD) : Dialog DFRobotLCD :=
  (firstPresent rgbAddrs).bind fun a =>
    .done { o with rgbProbed := true, rgbPresent := a.isSome, rgbAddr := a.getD o.rgbAddr }

/-- `init`: whether the bus could be set up is told by `setup`. -/
def init (o : DFRobotLCD) (setup : Bool) : Dialog (EspErr × DFRobotLCD) :=
  if setup = false then .done (.bus, o)
  else (i2cDevicePresent o.addr).bind fun present =>
    -- without a display the calls are let through all the same
    if present = false then .done (.ok, { o with inited := true })
    else (inTurn (i2cWriteCmdByte o.addr) initCommands).bind fun err =>
      if err ≠ .ok then .done (err, o)
      else o.probeRgb.bind fun o => .done (.ok, { o with inited := true })

def sendCommand (o : DFRobotLCD) (cmd : UInt8) : Dialog EspErr := i2cWriteCmdByte o.addr cmd

def sendData (o : DFRobotLCD) (data : List UInt8) : Dialog EspErr := i2cWriteData o.addr data

def setCursor (o : DFRobotLCD) (col row : UInt8) : Dialog EspErr :=
  if o.inited = false then .done .invalidState
  else
    let addr := if row = 0 then 0x00 + col else 0x40 + col
    o.sendCommand (0x80 ||| addr)

def printstr (o : DFRobotLCD) (s : Option CString) : Dialog EspErr :=
  if o.inited = false then .done .invalidState
  else match s with
    | none => .done .invalidArg
    | some s => o.sendData s

def clear (o : DFRobotLCD) : Dialog EspErr := o.sendCommand 0x01

def home (o : DFRobotLCD) : Dialog EspErr := o.sendCommand 0x02

/-- `wr`, a register of the backlight and its value. -/
def wr (o : DFRobotLCD) (x : UInt8 × UInt8) : Dialog EspErr :=
  .write o.rgbAddr [x.1, x.2] fun ok => .done (.ofBus ok)

def rgbWrites (r g b : UInt8) : List (UInt8 × UInt8) :=
  [(0x00, 0x00), (0x01, 0x04), (0x08, 0xAA), (0x04, r), (0x03, g), (0x02, b)]

def setRGB (o : DFRobotLCD) (r g b : UInt8) : Dialog (EspErr × DFRobotLCD) :=
  if o.inited = false then .done (.invalidState, o)
  else (if o.rgbProbed = false then o.probeRgb else .done o).bind fun o =>
    if o.rgbPresent = false then .done (.ok, o)
    else (inTurn o.wr (rgbWrites r g b)).bind fun err => .done (err, o)

end DFRobotLCD

/-! ## Sessions -/

inductive Call where
  | setCursor (col row : UInt8)
  | printstr (s : Option CString)
  | clear
  | home
  | setRGB (r g b : UInt8)

/-- One call, and the object after it. -/
def perform (o : DFRobotLCD) : Call → Dialog (EspErr × DFRobotLCD)
  | .setCursor col row => (o.setCursor col row).bind fun err => .done (err, o)
  | .printstr s => (o.printstr s).bind fun err => .done (err, o)
  | .clear => o.clear.bind fun err => .done (err, o)
  | .home => o.home.bind fun err => .done (err, o)
  | .setRGB r g b => o.setRGB r g b

/-- What a session ends with: what `init` gave, whether it found the display, and what the
calls after it gave. -/
structure Session where
  started : EspErr
  found : Bool
  errs : List EspErr
  object : DFRobotLCD

/-- What is seen: the text, and the colours that the backlight may have, of which nothing is
known before the first `setRGB` that succeeds. -/
structure Panel where
  lcd : Lcd
  colours : Option (List (UInt8 × UInt8 × UInt8))

/-- A colour that was not set to its end: red comes first, then green. -/
def partly (r g : UInt8) (old : UInt8 × UInt8 × UInt8) : List (UInt8 × UInt8 × UInt8) :=
  [old, (r, old.2), (r, g, old.2.2)]

/-- A call that succeeds does what it says. A text that fails leaves the panel, a colour that
fails may have changed in part. -/
def Panel.apply (p : Panel) : Call × EspErr → Panel
  | (.setCursor col row, err) => { p with lcd := p.lcd.setCursor col row (err == .ok) }
  | (.printstr s, err) => { p with lcd := p.lcd.printstr (s.getD []) (err == .ok) }
  | (.clear, err) => { p with lcd := if err = .ok then .cleared else p.lcd }
  | (.home, err) => { p with lcd := if err = .ok then { p.lcd with ac := 0 } else p.lcd }
  | (.setRGB r g b, err) =>
    { p with
      colours := if err = .ok then some [(r, g, b)] else p.colours.map (·.flatMap (partly r g)) }

/-- The registers of a backlight in a colour. -/
structure Lit (regs : UInt8 → UInt8) (rgb : UInt8 × UInt8 × UInt8) : Prop where
  mode : regs 0x00 = 0x00 ∧ regs 0x01 = 0x04 ∧ regs 0x08 = 0xAA
  red : regs 0x04 = rgb.1
  green : regs 0x03 = rgb.2.1
  blue : regs 0x02 = rgb.2.2

/-- The hardware shows a panel, with the backlight that the object found. -/
structure Shows (o : DFRobotLCD) (h : Hardware) (p : Panel) : Prop where
  display : h.display = .ready p.lcd
  colour : o.rgbPresent = true → ∀ cs ∈ p.colours, ∃ rgb ∈ cs, Lit (h.chips o.rgbAddr) rgb

/-! ## What the devices take -/

section Devices

variable (q : Quirks) (h : Hardware)

theorem take_lcd (data : List UInt8) :
    h.take q lcdI2cAddr data = { h with display := h.display.receive q data } := rfl

/-- A probe changes nothing. -/
@[simp] theorem take_nil (addr : UInt8) : h.take q addr [] = h := by
  unfold Hardware.take
  split_ifs
  · rfl
  · rfl
  · rfl

theorem commands_display (cmds : List UInt8) :
    (cmds.foldl (fun h cmd => h.take q lcdI2cAddr [ctrlCmd, cmd]) h).display =
      cmds.foldl (fun c cmd => c.receive q [0x00, cmd]) h.display :=
  (List.foldl_hom Hardware.display fun _ _ => rfl).symm

/-- What is sent to other devices is not for the display. -/
theorem take_other {addr : UInt8} (hlcd : addr ≠ lcdI2cAddr) (hrgb : addr ∉ rgbAddrs)
    (data : List UInt8) : h.take q addr data = h := by
  unfold Hardware.take
  rw [if_neg hlcd, if_neg hrgb]

theorem setDdram (a : UInt8) : (0x80 ||| a) &&& 0x80 = 0x80 := by
  apply UInt8.toBitVec_inj.1
  ext i
  rw [UInt8.toBitVec_and, UInt8.toBitVec_or, BitVec.getElem_and, BitVec.getElem_or]
  exact Bool.and_eq_right_iff_imp.2 fun hbit => by rw [hbit, Bool.true_or]

variable (l : Lcd)

theorem ready_setDdram (a : UInt8) :
    (Controller.ready l).receive q [0x00, 0x80 ||| a] = .ready (l.sendCommand (0x80 ||| a)) :=
  if_pos (setDdram a)

theorem ready_clear : (Controller.ready l).receive q [0x00, 0x01] = .ready .cleared := rfl

theorem ready_data (s : CString) :
    (Controller.ready l).receive q (0x40 :: s) = .ready (l.sendData s) := by
  show s.foldl (Controller.data q) (.ready l) = .ready (s.foldl Lcd.writeData l)
  induction s generalizing l with
  | nil => rfl
  | cons b s ih => exact ih (l.writeData b)

/-- From whatever mode, the commands of `init` leave a display that is ready, and the display
was never asked for anything that the driver does not rely on. -/
theorem initCommands_ready (c : Controller) :
    initCommands.foldl (fun c cmd => c.receive q [0x00, cmd]) c = .ready .cleared := rfl

end Devices

/-! ## What the driver leaves -/

section Leaves

variable {can : UInt8 → Bool → Prop}

/-- A transaction changes its device exactly if it succeeds. -/
theorem leaves_write {δ : Type} {take : δ → UInt8 → List UInt8 → δ} (addr : UInt8)
    (data : List UInt8) (d : δ) :
    (Dialog.write addr data fun ok => .done (EspErr.ofBus ok)).Leaves can take
      (fun err d' => d' = (if err = .ok then take d addr data else d) ∧
        (err ≠ .ok → can addr false)) d := by
  intro ok hok
  rcases ok with _ | _
  · exact ⟨rfl, fun _ => hok⟩
  · exact ⟨rfl, fun h => absurd rfl h⟩

/-- Writes in a row are taken up to the first that fails. -/
theorem leaves_inTurn {α δ : Type} {take : δ → UInt8 → List UInt8 → δ} {f : α → Dialog EspErr}
    {act : δ → α → δ} {fails : Prop} (hf : ∀ x d, (f x).Leaves can take
      (fun err d' => d' = (if err = .ok then act d x else d) ∧ (err ≠ .ok → fails)) d)
    (xs : List α) (d : δ) : (inTurn f xs).Leaves can take
      (fun err d' => ∃ k, d' = (xs.take k).foldl act d ∧ (err = .ok → k = xs.length) ∧
        (err ≠ .ok → k < xs.length ∧ fails)) d := by
  induction xs generalizing d with
  | nil => exact ⟨0, rfl, fun _ => rfl, fun h => absurd rfl h⟩
  | cons x xs ih =>
      refine (hf x d).bind ?_
      rintro err d' ⟨hd', hfails⟩
      by_cases herr : err = .ok
      · rw [if_pos herr] at hd' ⊢
        subst hd'
        refine (ih (act d x)).mono ?_
        rintro err' d' ⟨k, rfl, hk, hfails'⟩
        exact ⟨k + 1, rfl, fun h => congrArg (· + 1) (hk h),
          fun h => ⟨Nat.succ_lt_succ (hfails' h).1, (hfails' h).2⟩⟩
      · rw [if_neg herr] at hd' ⊢
        exact ⟨0, hd', fun h => absurd h herr, fun h => ⟨Nat.succ_pos _, hfails h⟩⟩

variable {q : Quirks}

theorem leaves_firstPresent (addrs : List UInt8) (h : Hardware) :
    (firstPresent addrs).Leaves can (Hardware.take q)
      (fun a h' => h' = h ∧ ∀ x ∈ a, x ∈ addrs) h := by
  induction addrs with
  | nil => exact ⟨rfl, by simp⟩
  | cons a addrs ih =>
      intro ok _
      rw [take_nil, ite_self]
      rcases ok with _ | _
      · refine ih.mono ?_
        rintro a' h' ⟨rfl, ha'⟩
        exact ⟨rfl, fun x hx => List.mem_cons_of_mem a (ha' x hx)⟩
      · exact ⟨rfl, by simp⟩

/-- The object talks to the display, and to a backlight elsewhere. -/
structure Wired (o : DFRobotLCD) : Prop where
  addr : o.addr = lcdI2cAddr
  rgbAddr : o.rgbAddr ∈ rgbAddrs

theorem wired_new : Wired (.new lcdI2cAddr) := ⟨rfl, by decide⟩

theorem leaves_probeRgb {o : DFRobotLCD} (ho : Wired o) (h : Hardware) :
    o.probeRgb.Leaves can (Hardware.take q) (fun o' h' => h' = h ∧ Wired o' ∧
      o'.inited = o.inited ∧ o'.rgbProbed = true) h := by
  refine (leaves_firstPresent rgbAddrs h).bind ?_
  rintro a h' ⟨rfl, ha⟩
  refine ⟨rfl, ⟨ho.addr, ?_⟩, rfl, rfl⟩
  rcases a with _ | a
  · exact ho.rgbAddr
  · exact ha a rfl

/-- No text has been written: the cells are as they were, or blank. -/
def Textless (l l' : Lcd) : Prop := l'.ddram = l.ddram ∨ l'.ddram = Lcd.cleared.ddram

/-- However far the commands of `init` get, they write no text. -/
theorem initCommands_textless (c : Controller) (k : Nat) :
    Textless c.lcd ((initCommands.take k).foldl (fun c cmd => c.receive q [0x00, cmd]) c).lcd := by
  match k with
  | 0 | 1 | 2 | 3 | 4 | 5 | 6 | 7 | 8 => exact Or.inl rfl
  | 9 => exact Or.inr rfl
  | k + 10 =>
      have htake : initCommands.take (k + 10) = initCommands :=
        List.take_of_length_le (Nat.le_add_left 10 k)
      rw [htake, initCommands_ready]
      exact Or.inr rfl

/-! ## Starting -/

/-- What `init` leaves of a display. It finds one unless something fails. -/
inductive Started (can : UInt8 → Bool → Prop) (setup : Bool) (h : Hardware) :
    EspErr × DFRobotLCD → Hardware → Prop where
  | found {o h'} (hinited : o.inited = true) (hprobed : o.rgbProbed = true)
      (hready : h'.display = .ready .cleared) : Started can setup h (.ok, o) h'
  | missing {o} (hinited : o.inited = true) (hprobed : o.rgbProbed = false)
      (hfails : can lcdI2cAddr false) : Started can setup h (.ok, o) h
  | failed {err o h'} (herr : err ≠ .ok) (hinited : o.inited = false)
      (htext : Textless h.display.lcd h'.display.lcd)
      (hfails : setup = false ∨ can lcdI2cAddr false) : Started can setup h (err, o) h'

theorem leaves_init {o : DFRobotLCD} (ho : Wired o) (hinited : o.inited = false)
    (hprobed : o.rgbProbed = false) (setup : Bool) (h : Hardware) :
    (o.init setup).Leaves can (Hardware.take q)
      (fun r h' => Wired r.2 ∧ Started can setup h r h') h := by
  unfold DFRobotLCD.init
  rw [ho.addr]
  split
  · rename_i hsetup
    exact ⟨ho, .failed (by simp) hinited (Or.inl rfl) (Or.inl hsetup)⟩
  · intro present hpresent
    rw [take_nil, ite_self]
    rcases present with _ | _
    · exact ⟨⟨rfl, ho.rgbAddr⟩, .missing rfl hprobed hpresent⟩
    · -- the display takes the commands up to the first that fails
      refine (leaves_inTurn (fun cmd => leaves_write lcdI2cAddr [ctrlCmd, cmd])
        initCommands h).bind ?_
      rintro err h' ⟨k, rfl, hk, hfails⟩
      have hdisplay := commands_display q h (initCommands.take k)
      split
      · rename_i herr
        refine ⟨ho, .failed herr hinited ?_ (Or.inr (hfails herr).2)⟩
        rw [hdisplay]
        exact initCommands_textless h.display k
      · rename_i herr
        rw [not_not] at herr
        obtain rfl := hk herr
        rw [List.take_length, initCommands_ready] at hdisplay
        refine (leaves_probeRgb ho _).bind ?_
        rintro o' h' ⟨rfl, ho', -, hprobed'⟩
        refine ⟨⟨ho'.addr, ho'.rgbAddr⟩, .found rfl hprobed' ?_⟩
        rwa [List.take_length]

/-! ## Calls on a display that is ready -/

section Calls

variable {o : DFRobotLCD} {h : Hardware} {p : Panel}

/-- A transaction with the display, by what a display that is ready makes of it. -/
theorem leaves_lcd (ho : Wired o) (hshows : Shows o h p) {data : List UInt8} {l : Lcd}
    (hdata : (Controller.ready p.lcd).receive q data = .ready l) :
    (Dialog.write o.addr data fun ok => .done (EspErr.ofBus ok)).Leaves can (Hardware.take q)
      (fun err h' => Shows o h' { p with lcd := if err = .ok then l else p.lcd } ∧
        (err ≠ .ok → can lcdI2cAddr false)) h := by
  rw [ho.addr]
  refine (leaves_write lcdI2cAddr data h).mono ?_
  rintro err h' ⟨rfl, hfails⟩
  by_cases herr : err = .ok
  · rw [if_pos herr, if_pos herr, take_lcd, hshows.display, hdata]
    exact ⟨⟨rfl, hshows.colour⟩, hfails⟩
  · rw [if_neg herr, if_neg herr]
    exact ⟨hshows, hfails⟩

theorem leaves_setCursor (ho : Wired o) (hinited : o.inited = true) (hshows : Shows o h p)
    (col row : UInt8) : (o.setCursor col row).Leaves can (Hardware.take q) (fun err h' =>
      Shows o h' { p with lcd := p.lcd.setCursor col row (err == .ok) } ∧
        (err ≠ .ok → can lcdI2cAddr false)) h := by
  simp only [DFRobotLCD.setCursor, hinited, Bool.true_eq_false, if_false]
  refine (leaves_lcd ho hshows (ready_setDdram q p.lcd _)).mono ?_
  intro err h' hh'
  cases err <;> exact hh'

theorem leaves_printstr (ho : Wired o) (hinited : o.inited = true) (hshows : Shows o h p)
    (s : CString) : (o.printstr (some s)).Leaves can (Hardware.take q) (fun err h' =>
      Shows o h' { p with lcd := p.lcd.printstr s (err == .ok) } ∧
        (err ≠ .ok → can lcdI2cAddr false)) h := by
  simp only [DFRobotLCD.printstr, hinited, Bool.true_eq_false, if_false]
  refine (leaves_lcd ho hshows (ready_data q p.lcd s)).mono ?_
  intro err h' hh'
  cases err <;> exact hh'

/-- A command that writes no text, on a display in any mode. -/
theorem leaves_textless (ho : Wired o) {l : Lcd} (htext : Textless l h.display.lcd) {cmd : UInt8}
    (hcmd : Textless l (h.display.receive q [0x00, cmd]).lcd) :
    (o.sendCommand cmd).Leaves can (Hardware.take q)
      (fun _ h' => Textless l h'.display.lcd) h := by
  refine (leaves_write o.addr [ctrlCmd, cmd] h).mono ?_
  rintro err h' ⟨rfl, -⟩
  split
  · rw [ho.addr]
    exact hcmd
  · exact htext

end Calls

end Leaves

/-! ## Whole sessions -/

/-- What a session shows. -/
inductive Session.Ends (h : Hardware) (calls : List Call) (x : Session) (h' : Hardware) : Prop where
  /-- a display that was found shows what the calls that succeeded say -/
  | shown (hstarted : x.started = .ok) (hfound : x.found = true)
      (hshows : Shows x.object h' ((calls.zip x.errs).foldl Panel.apply ⟨.cleared, none⟩))
  | missing (hstarted : x.started = .ok) (hfound : x.found = false)
  /-- without a start there is no text, and only two calls are not refused -/
  | refused (hstarted : x.started ≠ .ok) (htext : Textless h.display.lcd h'.display.lcd)
      (hrefused : ∀ y ∈ calls.zip x.errs, y.1 = .clear ∨ y.1 = .home ∨ y.2 = .invalidState)

end Cse121.Lab33
