import Cse121.Lib.Mailbox
import Cse121.Morse.Link53

/-! # Interrupts of the lab 5.3 receiver

`lab5_3/receiver/main/lab5_3.c`: every edge of the light raises an interrupt, whose handler
takes the time and the level that the pin then has and sends them to a queue of 100 events;
it does not wait if there is no room. `morse_decoder_task` receives from the queue. Edges, the
handler and the task come in any order. The queue is one of the operating system: it is known
by what its operations are documented to do.
-/

namespace Cse121.Lab53.Receiver

open Mailbox PulseTrain

/-- What happens next. -/
inductive Happens where
  /-- the light changes -/
  | edge (timeUs : Int)
  /-- the processor takes the interrupt, if it is pending -/
  | interrupt (nowUs : Int)
  /-- the task calls `xQueueReceive` -/
  | task
deriving DecidableEq, Repr

/-- The input pin. Edges that come while the interrupt is pending raise no other. -/
structure Pin where
  level : Bool
  pending : Bool
deriving DecidableEq, Repr

/-- `gpio_isr_handler`. -/
def gpioIsrHandler (nowUs : Int) (level : Bool) : Mailbox.Call EdgeEvent :=
  .send ⟨nowUs, if level then 1 else 0⟩

/-- The calls on the queue. -/
def pin : Transducer Pin Happens (Mailbox.Call EdgeEvent) where
  step p
    | .edge _ => (⟨!p.level, true⟩, [])
    | .interrupt nowUs =>
        if p.pending then ({ p with pending := false }, [gpioIsrHandler nowUs p.level])
        else (p, [])
    | .task => (p, [.receive])

section Queue

/-! `xQueueCreate`, `xQueueSendFromISR` and `xQueueReceive` are the operations of `Q`. -/

variable {κ : Type*} (Q : Queue κ EdgeEvent)

/-- `gpio_evt_queue`, as `app_main` makes it. -/
def gpioEvtQueue : κ := Q.create 100

/-- The receiver: the pin with its handler, the queue, and the task. -/
def receiver (cfg : Timing) : Transducer (Pin × κ × Decoder CharBuffer) Happens Obs :=
  pin.cascade (Q.machine.cascade (morseDecoderTask cfg))

end Queue

/-- The events that the handler makes. -/
def isrEvents (p : Pin) (hs : List Happens) : List EdgeEvent := sent (pin.out p hs)

/-- The edges of the light, from a level on. -/
def lightEdges : Bool → List Happens → List Edge
  | _, [] => []
  | level, .edge timeUs :: hs => ⟨timeUs, !level⟩ :: lightEdges (!level) hs
  | level, _ :: hs => lightEdges level hs

/-! ## The handler and the light -/

theorem isrEvents_cons (p : Pin) (h : Happens) (hs : List Happens) :
    isrEvents p (h :: hs) = sent (pin.step p h).2 ++ isrEvents (pin.step p h).1 hs :=
  sent_append _ _

/-- The event that the handler makes tells the level. -/
theorem edge_isr (nowUs : Int) (level : Bool) :
    (⟨nowUs, if level then 1 else 0⟩ : EdgeEvent).edge = ⟨nowUs, level⟩ := by
  cases level <;> rfl

/-- Every edge has its interrupt taken before the next edge and within `j`. -/
def Prompt (j : Int) : Option Int → List Happens → Prop
  | none, [] => True
  | some _, [] => False
  | none, .edge timeUs :: hs => Prompt j (some timeUs) hs
  | some _, .edge _ :: _ => False
  | none, .interrupt _ :: hs => Prompt j none hs
  | some timeUs, .interrupt nowUs :: hs =>
      (timeUs ≤ nowUs ∧ nowUs ≤ timeUs + j) ∧ Prompt j none hs
  | waiting, .task :: hs => Prompt j waiting hs

/-- If the handler is prompt, its events are the edges of the light, each late by at most
`j`. -/
theorem isrEvents_prompt {j : Int} {waiting : Option Int} {level : Bool} {hs : List Happens}
    (h : Prompt j waiting hs) :
    Jittered j ((waiting.map (⟨·, level⟩)).toList ++ lightEdges level hs)
      ((isrEvents ⟨level, waiting.isSome⟩ hs).map EdgeEvent.edge) := by
  induction hs generalizing waiting level with
  | nil =>
      cases waiting with
      | none => exact .nil
      | some timeUs => exact h.elim
  | cons next hs ih =>
      rw [isrEvents_cons]
      cases next with
      | edge timeUs =>
          cases waiting with
          | none => exact ih h
          | some _ => exact h.elim
      | interrupt nowUs =>
          cases waiting with
          | none => exact ih h
          | some timeUs =>
              rcases h with ⟨hlate, h⟩
              refine .cons ?_ (ih h)
              rw [edge_isr]
              refine ⟨rfl, ?_⟩
              simp only
              omega
      | task =>
          cases waiting with
          | none => exact ih h
          | some timeUs => exact ih h

/-! ## Any order of steps -/

section Runs

variable {κ : Type*} {Q : Queue κ EdgeEvent} {waiting : κ → List EdgeEvent}

/-- What the receiver does is what the task does with what it takes from the queue. -/
theorem receiver_taken (cfg : Timing) (p : Pin) (q : κ) (s : Decoder CharBuffer)
    (hs : List Happens) :
    (receiver Q cfg).out (p, q, s) hs =
        (morseDecoderTask cfg).out s (Q.machine.out q (pin.out p hs)) ∧
      ((receiver Q cfg).state (p, q, s) hs).2 =
        (Q.machine.state q (pin.out p hs),
          (morseDecoderTask cfg).state s (Q.machine.out q (pin.out p hs))) := by
  have hpin := Transducer.cascade_run pin (Q.machine.cascade (morseDecoderTask cfg)) p (q, s) hs
  have hqueue := Transducer.cascade_run Q.machine (morseDecoderTask cfg) q s (pin.out p hs)
  constructor
  · rw [receiver, hpin.2, hqueue.2]
  · rw [receiver, hpin.1, hqueue.1]

/-- What the task takes and what waits is what gets in. -/
theorem taken_append_waiting (hQ : Q.Documented 100 waiting) (p : Pin) (hs : List Happens) :
    Q.machine.out (gpioEvtQueue Q) (pin.out p hs) ++
        waiting (Q.machine.state (gpioEvtQueue Q) (pin.out p hs)) =
      accepted 100 [] (pin.out p hs) := by
  rcases hQ.simulates (gpioEvtQueue Q) (pin.out p hs) with ⟨hstate, hout⟩
  rw [hstate, hout, gpioEvtQueue, hQ.create]
  exact received_append_waiting 100 [] (pin.out p hs)

/-- A pulse whose second edge comes after the task has received the first. -/
def latePulse : List Happens :=
  [.edge 50000, .interrupt 50010, .task, .edge 150000, .interrupt 150700, .task]

/-- If the handler is prompt, the queue never full when it runs, and empty in the end, then
what is printed is what the task prints for the edges of the light, each late by at most `j`:
when the task ran makes no difference. -/
theorem prompt_run (hQ : Q.Documented 100 waiting) (cfg : Timing) {j : Int} {level : Bool}
    (s : Decoder CharBuffer) {hs : List Happens} (hprompt : Prompt j none hs)
    (hroom : Q.NeverFull (gpioEvtQueue Q) (pin.out ⟨level, false⟩ hs))
    (hempty : waiting
      ((receiver Q cfg).state (⟨level, false⟩, gpioEvtQueue Q, s) hs).2.1 = []) :
    ∃ es, Jittered j (lightEdges level hs) (es.map EdgeEvent.edge) ∧
      (receiver Q cfg).out (⟨level, false⟩, gpioEvtQueue Q, s) hs =
        (morseDecoderTask cfg).out s es := by
  rcases receiver_taken (Q := Q) cfg ⟨level, false⟩ (gpioEvtQueue Q) s hs with ⟨hout, hstate⟩
  refine ⟨isrEvents ⟨level, false⟩ hs, isrEvents_prompt hprompt, ?_⟩
  have hall : Q.machine.out (gpioEvtQueue Q) (pin.out ⟨level, false⟩ hs) =
      isrEvents ⟨level, false⟩ hs := by
    have htaken := taken_append_waiting hQ ⟨level, false⟩ hs
    have hcreate : waiting (gpioEvtQueue Q) = [] := hQ.create
    rw [hQ.neverFull_iff, hcreate] at hroom
    rw [hstate] at hempty
    rwa [hempty, List.append_nil, (accepted_eq_iff 100 _ _).2 hroom] at htaken
  rw [hout, hall]

end Runs

theorem prompt_run_latePulse :
    let Q := Queue.ofList 100
    ∃ es, Jittered 1000 (lightEdges false latePulse) (es.map EdgeEvent.edge) ∧
      (receiver Q (configureTiming 100000 30000)).out
          (⟨false, false⟩, gpioEvtQueue Q, start (Vector.replicate 10 0)) latePulse =
        (morseDecoderTask (configureTiming 100000 30000)).out
          (start (Vector.replicate 10 0)) es :=
  prompt_run (Queue.documented_ofList 100) _ _ (by simp [Prompt, latePulse])
    (((Queue.documented_ofList 100).neverFull_iff _ _).2 ((accepted_eq_iff 100 _ _).1 (by decide)))
    rfl

end Cse121.Lab53.Receiver
