import Cse121.Display.Driver
import Cse121.Display.Readings
import Cse121.Sensors.Detect

/-! # The program of lab 3.3 on its bus

`app_main` of `lab3_3/main/main.cpp` from the start: the display and the sensor are on one
bus. Whatever fails there, the display goes through the iterations of the display loop; if the
display answers, it shows what the sensor gives.
-/

namespace Cse121.Lab33

/-! ## The program -/

/-- The body of the loop: what succeeds, and what the sensor gives. A call that is not made
has not failed. -/
def loopBody (o : DFRobotLCD) (g : Globals) : Dialog Turn :=
  (o.setCursor 0 0).bind fun tempCursor =>
  (o.printstr (some (bytes "Temp:"))).bind fun tempLabel =>
  (o.setCursor 0 1).bind fun humCursor =>
  (o.printstr (some (bytes "Hum :"))).bind fun humLabel =>
  (readSensor g ⟨0, 0⟩).bind fun r =>
    if r.1 = false then
      .done ⟨tempCursor == .ok, tempLabel == .ok, humCursor == .ok, humLabel == .ok, none,
        true, true, true, true⟩
    else
      let f := fields r.2.tC r.2.rh
      (o.setCursor colVal 0).bind fun tCursor =>
      (o.printstr (some f.buf)).bind fun tField =>
      (o.setCursor colVal 1).bind fun rhCursor =>
      (o.printstr (some f.rhfield)).bind fun rhField =>
        .done ⟨tempCursor == .ok, tempLabel == .ok, humCursor == .ok, humLabel == .ok, some f,
          tCursor == .ok, tField == .ok, rhCursor == .ok, rhField == .ok⟩

/-- Some iterations of the loop. -/
def loop (o : DFRobotLCD) (g : Globals) : Nat → Dialog (List Turn)
  | 0 => .done []
  | n + 1 => (loopBody o g).bind fun t => (loop o g n).bind fun ts => .done (t :: ts)

/-- The globals before a sensor is found. -/
def noSensor : Globals := ⟨.none, 0, none⟩

/-- `app_main` up to some iteration: what `init` gave, and the iterations. -/
def appMainRun (setup : Bool) (n : Nat) : Dialog ((EspErr × DFRobotLCD) × List Turn) :=
  ((DFRobotLCD.new lcdI2cAddr).init setup).bind fun r =>
  r.2.clear.bind fun _ =>
  detectSensor.bind fun g =>
  (loop r.2 (g.getD noSensor) n).bind fun ts => .done (r, ts)

/-! ## What is not for the display -/

/-- An address of neither the display nor a backlight. -/
def Elsewhere (addr : UInt8) : Prop := addr ≠ lcdI2cAddr ∧ addr ∉ rgbAddrs

instance (addr : UInt8) : Decidable (Elsewhere addr) := inferInstanceAs (Decidable (_ ∧ _))

/-- A program that says nothing to the display. -/
abbrev Silent {α : Type} (p : Dialog α) : Prop := p.Sends fun addr _ => Elsewhere addr

theorem SpeaksTo.silent {α : Type} {addr : UInt8} {p : Dialog α} (hp : SpeaksTo addr p)
    (haddr : Elsewhere addr) : Silent p :=
  hp.mono fun _ _ h => h.1 ▸ haddr

theorem silent_shtc3 (out : Reading) : Silent (shtc3Measure out) := by
  have haddr : Elsewhere addrShtc3 := by decide
  refine ⟨haddr, fun ok => ?_⟩
  dsimp only
  split
  · trivial
  · refine ⟨haddr, fun ok => ?_⟩
    dsimp only
    split
    · trivial
    · intro rx
      dsimp only
      split
      · trivial
      · split
        · trivial
        · exact ⟨haddr, fun ok => trivial⟩

theorem silent_readSensor {g : Globals} (hg : Elsewhere g.addr) (out : Reading) :
    Silent (readSensor g out) := by
  have hmeasure : Silent (measure g out) := by
    unfold measure
    split
    · exact silent_shtc3 out
    · exact (speaksTo_sht3x g.addr out).silent hg
    · exact (speaksTo_aht20 g.addr out).silent hg
    · exact (speaksTo_si7021 out).silent (by decide)
    · trivial
  unfold readSensor
  split
  · refine ⟨(by decide : Elsewhere addrTca9548), fun ok => ?_⟩
    dsimp only
    split
    · trivial
    · exact hmeasure
  · exact hmeasure

/-- A search says nothing to the display, and the sensor that it finds is elsewhere. -/
structure Searches (p : Dialog (Option Globals)) : Prop where
  silent : Silent p
  elsewhere : p.Ends fun g => ∀ x ∈ g, Elsewhere x.addr

theorem searches_none : Searches (.done none) := ⟨trivial, by intro x hx; cases hx⟩

theorem searches_some {g : Globals} (hg : Elsewhere g.addr) : Searches (.done (some g)) :=
  ⟨trivial, by rintro x hx; cases hx; exact hg⟩

theorem Searches.probe {addr : UInt8} (haddr : Elsewhere addr)
    {next : Bool → Dialog (Option Globals)} (h : ∀ ok, Searches (next ok)) :
    Searches (.write addr [] next) :=
  ⟨⟨haddr, fun ok => (h ok).silent⟩, fun ok => (h ok).elsewhere⟩

theorem Searches.bind {α : Type} {p : Dialog α} (hp : Silent p)
    {f : α → Dialog (Option Globals)} (hf : ∀ a, Searches (f a)) : Searches (p.bind f) :=
  ⟨hp.bind fun a => (hf a).silent, p.ends_true.bind fun a _ => (hf a).elsewhere⟩

/-- A search, and another if it finds nothing. -/
theorem Searches.orElse {p p' : Dialog (Option Globals)} (hp : Searches p) (hp' : Searches p') :
    Searches (p.bind fun
      | some g => .done (some g)
      | none => p') := by
  refine ⟨hp.silent.bind ?_, hp.elsewhere.bind ?_⟩
  · rintro (_ | g)
    · exact hp'.silent
    · trivial
  · rintro (_ | g) hg
    · exact hp'.elsewhere
    · exact hg

theorem searches_si7021 (channel : Option (Fin 8)) : Searches (trySi7021 channel) := by
  refine .probe (by decide) fun ok => ?_
  split
  · exact searches_none
  · refine .bind ((speaksTo_si7021 uninitialised).silent (by decide)) fun r => ?_
    split
    · exact searches_some (by decide : Elsewhere addrSi7021)
    · exact searches_none

theorem searches_aht20 (channel : Option (Fin 8)) : Searches (tryAht20 channel) := by
  have haddr : Elsewhere addrAht20 := by decide
  refine .probe haddr fun ok => ?_
  split
  · exact searches_si7021 channel
  · refine .bind ((speaksTo_aht20Init addrAht20).silent haddr) fun ok => ?_
    split
    · exact searches_si7021 channel
    · refine .bind ((speaksTo_aht20 addrAht20 uninitialised).silent haddr) fun r => ?_
      split
      · exact searches_some haddr
      · exact searches_si7021 channel

theorem searches_sht3x (channel : Option (Fin 8)) : Searches (trySht3xAt channel) := by
  refine .probe (by decide) fun ok => ?_
  have haddr : Elsewhere (if ok then addrSht3x1 else addrSht3x2) := by
    cases ok <;> decide
  refine .bind ((speaksTo_sht3x _ uninitialised).silent haddr) fun r => ?_
  split
  · exact searches_some haddr
  · exact searches_aht20 channel

theorem searches_search (channel : Option (Fin 8)) : Searches (search channel) := by
  refine .probe (by decide) fun ok => ?_
  split
  · exact searches_sht3x channel
  · refine .probe (by decide) fun ok => ?_
    split
    · exact searches_sht3x channel
    · exact searches_aht20 channel

theorem searches_channels (channels : List (Fin 8)) : Searches (searchChannels channels) := by
  induction channels with
  | nil => exact searches_none
  | cons channel channels ih =>
      have hfound : ∀ ok, Searches (if ok = false then searchChannels channels
          else (search (some channel)).bind fun
            | some g => .done (some g)
            | none => searchChannels channels) := by
        intro ok
        split
        · exact ih
        · exact (searches_search (some channel)).orElse ih
      exact ⟨⟨(by decide : Elsewhere addrTca9548), fun ok => (hfound ok).silent⟩,
        fun ok => (hfound ok).elsewhere⟩

theorem searches_detect : Searches detectSensor := by
  have haddr : Elsewhere addrShtc3 := by decide
  refine .probe haddr fun ok => ?_
  split
  · refine .bind (silent_shtc3 uninitialised) fun r => ?_
    split
    · exact searches_some haddr
    · exact searches_channels _
  · exact searches_search none

/-! ## What the program leaves on the display -/

section Display

variable {can : UInt8 → Bool → Prop} {q : Quirks} {o : DFRobotLCD} {h : Hardware} {l : Lcd}

theorem Silent.leaves {α : Type} {p : Dialog α} (hp : Silent p) {E : α → Prop} (hends : p.Ends E) :
    p.Leaves can (Hardware.take q) (fun a h' => E a ∧ h' = h) h :=
  Dialog.Sends.leaves hp hends fun _ data haddr => take_other q h haddr.1 haddr.2 data

/-- `setCursor` and `printstr` put a text on a display that is ready, and succeed if the
display cannot fail. -/
theorem leaves_put {α : Type} {P : α → Hardware → Prop} (ho : Wired o) (hinited : o.inited = true)
    (hready : h.display = .ready l) (col row : UInt8) (s : CString)
    {next : EspErr → EspErr → Dialog α}
    (hnext : ∀ c p h', h'.display = .ready (l.put col row s (c == .ok) (p == .ok)) →
      (¬ can lcdI2cAddr false → c = .ok ∧ p = .ok) →
      (next c p).Leaves can (Hardware.take q) P h') :
    ((o.setCursor col row).bind fun c => (o.printstr (some s)).bind fun p =>
      next c p).Leaves can (Hardware.take q) P h := by
  have hshows : Shows o h ⟨l, none⟩ := ⟨hready, by simp⟩
  refine (leaves_setCursor ho hinited hshows col row).bind ?_
  rintro c h' ⟨hc, hcfails⟩
  refine (leaves_printstr ho hinited hc s).bind ?_
  rintro p h'' ⟨hp, hpfails⟩
  refine hnext c p h'' hp.display fun hcan => ⟨?_, ?_⟩
  · exact by_contra fun h => hcan (hcfails h)
  · exact by_contra fun h => hcan (hpfails h)

/-- An iteration does on the bus what it does to the display of the display loop. -/
theorem leaves_loopBody (ho : Wired o) (hinited : o.inited = true)
    (hready : h.display = .ready l) {g : Globals} (hg : Elsewhere g.addr) :
    (loopBody o g).Leaves can (Hardware.take q) (fun t h' =>
      h'.display = .ready (iteration l t) ∧ (¬ can lcdI2cAddr false → ∃ r, t = turn r)) h := by
  refine leaves_put ho hinited hready 0 0 _ fun tc tl h₁ h₁ready hok₁ => ?_
  refine leaves_put ho hinited h₁ready 0 1 _ fun hc hl h₂ h₂ready hok₂ => ?_
  refine ((silent_readSensor hg ⟨0, 0⟩).leaves (Dialog.ends_true _)).bind ?_
  rintro r h₃ ⟨-, rfl⟩
  split
  · refine ⟨h₂ready, fun hcan => ⟨none, ?_⟩⟩
    rcases hok₁ hcan with ⟨rfl, rfl⟩
    rcases hok₂ hcan with ⟨rfl, rfl⟩
    rfl
  · refine leaves_put ho hinited h₂ready colVal 0 _ fun c₃ p₃ h₄ h₄ready hok₃ => ?_
    refine leaves_put ho hinited h₄ready colVal 1 _ fun c₄ p₄ h₅ h₅ready hok₄ => ?_
    refine ⟨h₅ready, fun hcan => ⟨some r.2, ?_⟩⟩
    rcases hok₁ hcan with ⟨rfl, rfl⟩
    rcases hok₂ hcan with ⟨rfl, rfl⟩
    rcases hok₃ hcan with ⟨rfl, rfl⟩
    rcases hok₄ hcan with ⟨rfl, rfl⟩
    rfl

theorem leaves_loop (ho : Wired o) (hinited : o.inited = true) (hready : h.display = .ready l)
    {g : Globals} (hg : Elsewhere g.addr) (n : Nat) :
    (loop o g n).Leaves can (Hardware.take q) (fun ts h' =>
      h'.display = .ready (ts.foldl iteration l) ∧
        (¬ can lcdI2cAddr false → ∀ t ∈ ts, ∃ r, t = turn r)) h := by
  induction n generalizing h l with
  | zero => exact ⟨hready, by simp⟩
  | succ n ih =>
      refine (leaves_loopBody ho hinited hready hg).bind ?_
      rintro t h' ⟨hready', ht⟩
      refine (ih hready').bind ?_
      rintro ts h'' ⟨hready'', hts⟩
      refine ⟨hready'', fun hcan => ?_⟩
      intro t' ht'
      rcases List.mem_cons.1 ht' with rfl | ht'
      · exact ht hcan
      · exact hts hcan t' ht'

/-- A loop whose display was not started says nothing to it. -/
theorem leaves_loop_refused (hinited : o.inited = false) {g : Globals} (hg : Elsewhere g.addr)
    (n : Nat) : (loop o g n).Leaves can (Hardware.take q) (fun _ h' => h' = h) h := by
  have hbody : Silent (loopBody o g) := by
    simp only [loopBody, DFRobotLCD.setCursor, DFRobotLCD.printstr, hinited, if_true, Dialog.bind]
    refine (silent_readSensor hg ⟨0, 0⟩).bind fun r => ?_
    split <;> trivial
  have hloop : Silent (loop o g n) := by
    induction n with
    | zero => trivial
    | succ n ih => exact hbody.bind fun t => ih.bind fun ts => trivial
  refine (hloop.leaves (Dialog.ends_true _)).mono ?_
  rintro ts h' ⟨-, hh'⟩
  exact hh'

end Display

/-- What the program shows. -/
inductive Shown (h : Hardware) (x : (EspErr × DFRobotLCD) × List Turn) (h' : Hardware) : Prop where
  /-- a display that was found went through the iterations -/
  | ready (hstarted : x.1.1 = .ok) (hfound : x.1.2.rgbProbed = true)
      (hready : h'.display = .ready (appMain x.2))
  | missing (hstarted : x.1.1 = .ok) (hfound : x.1.2.rgbProbed = false)
  | refused (hstarted : x.1.1 ≠ .ok) (htext : Textless h.display.lcd h'.display.lcd)

/-- Every iteration of a display that cannot fail is one without an error. -/
theorem leaves_appMainRun {can : UInt8 → Bool → Prop} (q : Quirks) (h : Hardware) (setup : Bool)
    (n : Nat) : (appMainRun setup n).Leaves can (Hardware.take q) (fun x h' => Shown h x h' ∧
      (setup = true → ¬ can lcdI2cAddr false →
        x.1.1 = .ok ∧ x.1.2.rgbProbed = true ∧ ∀ t ∈ x.2, ∃ r, t = turn r)) h := by
  have hdetect : ∀ h, detectSensor.Leaves can (Hardware.take q)
      (fun g h' => Elsewhere (g.getD noSensor).addr ∧ h' = h) h := by
    intro h
    refine (searches_detect.silent.leaves searches_detect.elsewhere).mono ?_
    rintro (_ | g) h' ⟨hg, hh'⟩
    · exact ⟨(by decide : Elsewhere noSensor.addr), hh'⟩
    · exact ⟨hg g rfl, hh'⟩
  refine (leaves_init wired_new rfl rfl setup h).bind ?_
  rintro r h₁ ⟨hr, hstarted⟩
  cases hstarted with
  | @found o h₁ hinited hprobed hready =>
      have hshows : Shows o h₁ ⟨.cleared, none⟩ := ⟨hready, by simp⟩
      refine (leaves_lcd hr hshows (ready_clear q .cleared)).bind ?_
      rintro err h₂ ⟨hclear, -⟩
      refine (hdetect h₂).bind ?_
      rintro g h₃ ⟨hg, rfl⟩
      have hcleared : h₃.display = .ready .cleared := by
        rw [hclear.display, ite_self]
      refine (leaves_loop hr hinited hcleared hg n).bind ?_
      rintro ts h₄ ⟨hready', hts⟩
      exact ⟨.ready rfl hprobed hready', fun _ hcan => ⟨rfl, hprobed, hts hcan⟩⟩
  | @missing o hinited hprobed hfails =>
      refine (Dialog.leaves_true o.clear h).bind fun err h₂ _ => ?_
      refine (hdetect h₂).bind fun g h₃ _ => ?_
      refine (Dialog.leaves_true _ h₃).bind fun ts h₄ _ => ?_
      exact ⟨.missing rfl hprobed, fun _ hcan => absurd hfails hcan⟩
  | @failed err o h₁ herr hinited htext hfails =>
      refine (leaves_textless hr htext (Or.inr rfl)).bind fun err' h₂ htext' => ?_
      refine (hdetect h₂).bind ?_
      rintro g h₃ ⟨hg, rfl⟩
      refine (leaves_loop_refused hinited hg n).bind ?_
      rintro ts h₄ rfl
      refine ⟨.refused herr htext', fun hsetup hcan => absurd hfails ?_⟩
      simp [hsetup, hcan]

namespace Wiring

variable (W : Wiring)

/-- What `read_sensor` gives on this bus, again and again. -/
def Gives (g : Globals) (r : Option Reading) : Prop :=
  ∀ s, W.Sound s → ∀ out, ((readSensor g out).run W.bus s).1.1 = r.isSome ∧
    ∀ x ∈ r, ((readSensor g out).run W.bus s).1 = (true, x)

theorem gives_noSensor : W.Gives noSensor none := fun _ _ _ => ⟨rfl, by simp⟩

variable {W} {g : Globals} {r : Option Reading}

theorem Usable.gives {x : Reading} (hg : W.Usable g x) : W.Gives g (some x) := by
  intro s hs out
  have hread := (hg.run_readSensor hs out).1
  refine ⟨by rw [hread]; rfl, ?_⟩
  rintro y hy
  cases hy
  exact hread

theorem Gives.inRange (hg : W.Gives g r) : ∀ x ∈ r, InRange x := by
  intro x hx
  have hs : W.Sound ⟨0, fun _ => []⟩ := fun _ => rfl
  exact IsReading.inRange ⟨Line, W.bus, _, g, ⟨0, 0⟩, (hg _ hs ⟨0, 0⟩).2 x hx⟩

/-- The fields of an iteration are those of what the sensor gives. -/
theorem Gives.reading (hg : W.Gives g r) {next : Bool × Reading → Dialog Turn} {s : Line}
    (hs : W.Sound s) (hfailed : ∀ x s, ((next (false, x)).run W.bus s).1.reading = none)
    (hread : ∀ x s, ((next (true, x)).run W.bus s).1.reading = some (fields x.tC x.rh)) :
    (((readSensor g ⟨0, 0⟩).bind next).run W.bus s).1.reading =
      r.map fun x => fields x.tC x.rh := by
  rcases hg s hs ⟨0, 0⟩ with ⟨hok, hvalue⟩
  rw [Dialog.run_bind]
  rcases r with _ | x
  · generalize ((readSensor g ⟨0, 0⟩).run W.bus s).1 = y at hok
    rcases y with ⟨ok, x⟩
    obtain rfl : ok = false := hok
    exact hfailed x _
  · rw [hvalue x rfl]
    exact hread x _

theorem Gives.loopBody (hg : W.Gives g r) (o : DFRobotLCD) {s : Line} (hs : W.Sound s) :
    ((loopBody o g).run W.bus s).1.reading = r.map fun x => fields x.tC x.rh := by
  unfold Lab33.loopBody
  rw [Dialog.run_bind, Dialog.run_bind, Dialog.run_bind, Dialog.run_bind]
  refine hg.reading (W.sound_run (W.sound_run (W.sound_run (W.sound_run hs)))) ?_ ?_
  · intro x s
    rfl
  · intro x s
    simp

theorem Gives.loop (hg : W.Gives g r) (o : DFRobotLCD) (n : Nat) {s : Line} (hs : W.Sound s) :
    ((loop o g n).run W.bus s).1.map Turn.reading =
      List.replicate n (r.map fun x => fields x.tC x.rh) := by
  induction n generalizing s with
  | zero => rfl
  | succ n ih =>
      unfold Lab33.loop
      rw [Dialog.run_bind, Dialog.run_bind, Dialog.run_done, List.map_cons, hg.loopBody o hs,
        ih (W.sound_run hs)]
      rfl

theorem Gives.appMainRun {r : Option Reading} (hg : W.Gives (W.detected.getD noSensor) r)
    (setup : Bool) (n : Nat) {s : Line} (hs : W.Sound s) :
    ((appMainRun setup n).run W.bus s).1.2.map Turn.reading =
      List.replicate n (r.map fun x => fields x.tC x.rh) := by
  unfold Lab33.appMainRun
  rw [Dialog.run_bind, Dialog.run_bind, Dialog.run_bind, Dialog.run_bind,
    W.run_detectSensor (W.sound_run (W.sound_run hs))]
  exact hg.loop _ n (W.sound_run (W.sound_run (W.sound_run hs)))

/-- Iterations without an error of the display, by what they read. -/
theorem eq_replicate_turn {ts : List Turn} {n : Nat} (hts : ∀ t ∈ ts, ∃ r, t = turn r)
    (hread : ts.map Turn.reading = List.replicate n (r.map fun x => fields x.tC x.rh)) :
    ts = (List.replicate n r).map turn := by
  rw [List.map_replicate]
  refine List.eq_replicate_iff.2 ⟨by simpa using congrArg List.length hread, ?_⟩
  intro t ht
  rcases hts t ht with ⟨r', rfl⟩
  have hmem := List.mem_map_of_mem (f := Turn.reading) ht
  rw [hread] at hmem
  have hreading : (r'.map fun x => fields x.tC x.rh) = r.map fun x => fields x.tC x.rh :=
    List.eq_of_mem_replicate hmem
  unfold turn
  rw [hreading]

theorem lastReading_replicate {n : Nat} (hn : 0 < n) (r : Option Reading) :
    lastReading (List.replicate n r) = r := by
  induction n, hn using Nat.le_induction with
  | base => cases r <;> rfl
  | succ n _ ih => rw [List.replicate_succ', lastReading_concat, ih, Option.or_self]

/-- The sensor that is found can be read, and without one there is no reading. -/
theorem gives_detected (W : Wiring) :
    ((W.detected.bind W.reading).isSome ↔ W.Reachable) ∧
      W.Gives (W.detected.getD noSensor) (W.detected.bind W.reading) := by
  rw [← W.isSome_detected_iff]
  rcases hdetected : W.detected with _ | g
  · exact ⟨Iff.rfl, W.gives_noSensor⟩
  · rcases W.usable_of_detected hdetected with ⟨x, hx⟩
    rw [Option.bind_some, hx.reading]
    exact ⟨Iff.rfl, hx.gives⟩

/-- On a bus where the display answers, it is ready and shows the reading of the sensor that
`detect_sensor` finds, whatever mode it was in and however long the program has run; without a
sensor the labels stand alone. -/
theorem app_shows (W : Wiring)
    (hlcd : ∀ selected data, W.ack selected lcdI2cAddr data = true) {s : Line} (hs : W.Sound s)
    (q : Quirks) (h : Hardware) {n : Nat} (hn : 0 < n) :
    ∃ g : Option Globals, (∀ s', W.Sound s' → (detectSensor.run W.bus s').1 = g) ∧
      ((g.bind W.reading).isSome ↔ W.Reachable) ∧
      ∃ l, ((appMainRun true n).run (W.bus.tap (Hardware.take q)) (h, s)).2.1.display =
        .ready l ∧ l.ddram = content (g.bind W.reading) := by
  rcases W.gives_detected with ⟨hreachable, hgives⟩
  refine ⟨W.detected, fun s' hs' => W.run_detectSensor hs', hreachable, ?_⟩
  generalize W.detected.bind W.reading = r at hgives
  have hleaves := @leaves_appMainRun (fun addr ok => addr = lcdI2cAddr → ok = true) q h true n
  rcases hleaves.run (b := W.bus) (fun s addr data hlcd' => hlcd' ▸ hlcd _ _) s with
    ⟨hshown, hclean⟩
  rcases hclean rfl (fun hcan => absurd (hcan rfl) (by simp)) with ⟨hstarted, hfound, hturns⟩
  have hvalue : ((appMainRun true n).run (W.bus.tap (Hardware.take q)) (h, s)).1 =
      ((appMainRun true n).run W.bus s).1 := (Dialog.run_tap W.bus _ h s).1
  have hread := hgives.appMainRun true n hs
  rw [← hvalue] at hread
  have hts := eq_replicate_turn hturns hread
  cases hshown with
  | ready _ _ hready =>
      have hrange : ∀ r' ∈ List.replicate n r, ∀ x ∈ r', InRange x := by
        intro r' hr'
        rw [List.eq_of_mem_replicate hr']
        exact hgives.inRange
      have hcontent := (appMain_content (List.replicate n r) hrange).2 (by simpa using hn.ne')
      rw [← hts, lastReading_replicate hn] at hcontent
      exact ⟨_, hready, hcontent⟩
  | missing _ hmissing =>
      rw [hfound] at hmissing
      cases hmissing
  | refused hrefused => exact absurd hstarted hrefused

/-- The display, an SHT3x at its second address and an SI7021 that is not read. -/
def withDisplay : Wiring where
  mux := false
  ack _ addr _ := addr == lcdI2cAddr || addr == addrSht3x2 || addr == addrSi7021
  reply _ addr _ n :=
    if addr = addrSht3x2 then
      some (Vector.ofFn fun i : Fin n => [0x66, 0x66, 0x93, 0x80, 0x00, 0xA2].getD i 0)
    else if addr = addrSi7021 then some (Vector.ofFn fun _ => 0)
    else none
  ack_mux := by simp

theorem app_shows_withDisplay : ∃ l,
    ((appMainRun true 3).run
      (withDisplay.bus.tap (Hardware.take ⟨fun c _ => c, fun c _ => c⟩))
      (⟨.ready .cleared, fun _ _ => 0⟩, ⟨0, fun _ => []⟩)).2.1.display = .ready l ∧
    l.window = (bytes "Temp:   23.0C   ", bytes "Hum :   50%     ") := by
  have hsound : withDisplay.Sound ⟨0, fun _ => []⟩ := fun _ => rfl
  rcases app_shows withDisplay (fun _ _ => rfl) hsound ⟨fun c _ => c, fun c _ => c⟩
    ⟨.ready .cleared, fun _ _ => 0⟩ (by decide : 0 < 3) with ⟨g, hg, -, l, hl, hshown⟩
  have hfound : g.bind withDisplay.reading = some ⟨25, 3276800 / 65535⟩ := by
    rw [← hg _ hsound]
    decide +kernel
  have hrange : InRange ⟨25, 3276800 / 65535⟩ := ⟨by norm_num, by norm_num⟩
  rw [hfound] at hshown
  refine ⟨l, hl, (window_of_content hrange hshown).trans ?_⟩
  decide +kernel

end Wiring

end Cse121.Lab33
