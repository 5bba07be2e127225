import Cse121.Lib.Transducer

/-! # Mailboxes

A queue between two parties that has room for some number of messages. A message for which
there is no room is lost, and its sender goes on; who receives from an empty queue waits. A
queue that is known by what its operations are documented to do behaves as the mailbox of the
messages that wait in it.
-/

namespace Mailbox

variable {α : Type*}

/-- What the two parties do to the queue. -/
inductive Call (α : Type*) where
  | send (a : α)
  | receive
deriving DecidableEq, Repr

/-- The queue, which emits what is received from it. -/
def mailbox (room : Nat) : Transducer (List α) (Call α) α where
  step
    | q, .send a => (if q.length < room then q ++ [a] else q, [])
    | [], .receive => ([], [])
    | a :: q, .receive => (q, [a])

theorem step_send (room : Nat) (q : List α) (a : α) :
    (mailbox room).step q (.send a) = (if q.length < room then q ++ [a] else q, []) :=
  rfl

/-- The messages that are sent. -/
def sent : List (Call α) → List α
  | [] => []
  | .send a :: cs => a :: sent cs
  | .receive :: cs => sent cs

/-- The messages that get in. -/
def accepted (room : Nat) : List α → List (Call α) → List α
  | _, [] => []
  | q, .send a :: cs =>
      if q.length < room then a :: accepted room (q ++ [a]) cs else accepted room q cs
  | q, .receive :: cs => accepted room q.tail cs

@[simp] theorem sent_append (cs ds : List (Call α)) : sent (cs ++ ds) = sent cs ++ sent ds := by
  induction cs with
  | nil => rfl
  | cons c cs ih => cases c <;> simp [sent, ih]

/-- What was waiting and what gets in is received, in that order, or waits. -/
theorem received_append_waiting (room : Nat) (q : List α) (cs : List (Call α)) :
    (mailbox room).out q cs ++ (mailbox room).state q cs = q ++ accepted room q cs := by
  induction cs generalizing q with
  | nil => simp [accepted]
  | cons c cs ih =>
      cases c with
      | send a =>
          rw [Transducer.out_cons, Transducer.state_cons, step_send, List.nil_append, accepted]
          split
          · rw [ih, List.append_assoc]
            rfl
          · exact ih q
      | receive =>
          cases q with
          | nil => exact ih []
          | cons a q =>
              have hrest := ih q
              simp only [Transducer.out_cons, Transducer.state_cons, List.append_assoc]
              exact congrArg (a :: ·) hrest

/-- Nothing gets in that was not sent, in another order, or twice. -/
theorem accepted_sublist (room : Nat) (q : List α) (cs : List (Call α)) :
    (accepted room q cs).Sublist (sent cs) := by
  induction cs generalizing q with
  | nil => exact List.Sublist.slnil
  | cons c cs ih =>
      cases c with
      | send a =>
          rw [accepted, sent]
          split
          · exact (ih _).cons_cons a
          · exact (ih _).cons a
      | receive => exact ih _

/-- There is room whenever something is sent. -/
def NeverFull (room : Nat) (q : List α) (cs : List (Call α)) : Prop :=
  ∀ pre a post, cs = pre ++ .send a :: post → ((mailbox room).state q pre).length < room

theorem neverFull_cons {room : Nat} {q : List α} {c : Call α} {cs : List (Call α)} :
    NeverFull room q (c :: cs) ↔
      (∀ a, c = .send a → q.length < room) ∧ NeverFull room ((mailbox room).step q c).1 cs := by
  constructor
  · intro h
    constructor
    · rintro a rfl
      exact h [] a cs rfl
    · intro pre a post hcs
      exact h (c :: pre) a post (by rw [hcs, List.cons_append])
  · rintro ⟨hfirst, hrest⟩ pre a post hcs
    rcases List.cons_eq_append_iff.1 hcs with ⟨rfl, hc⟩ | ⟨pre', rfl, hcs'⟩
    · exact hfirst a (List.cons.inj hc).1.symm
    · exact hrest pre' a post hcs'

/-- Everything gets in exactly if there always is room. -/
theorem accepted_eq_iff (room : Nat) (q : List α) (cs : List (Call α)) :
    accepted room q cs = sent cs ↔ NeverFull room q cs := by
  induction cs generalizing q with
  | nil =>
      refine iff_of_true rfl ?_
      intro pre a post h
      simp at h
  | cons c cs ih =>
      rw [neverFull_cons]
      cases c with
      | send a =>
          rw [accepted, sent]
          by_cases h : q.length < room
          · have hstep : ((mailbox room).step q (.send a)).1 = q ++ [a] := if_pos h
            rw [if_pos h, hstep, List.cons_inj_right, ih]
            simp [h]
          · rw [if_neg h]
            refine iff_of_false ?_ ?_
            · -- what gets in is too short
              intro heq
              have hlength := (accepted_sublist room q cs).length_le
              rw [heq, List.length_cons] at hlength
              omega
            · rintro ⟨hroom, -⟩
              exact h (hroom a rfl)
      | receive =>
          have hstep : ((mailbox room).step q .receive).1 = q.tail := by cases q <;> rfl
          rw [accepted, sent, hstep, ih]
          simp

variable {κ : Type*}

/-- The operations of a queue: a new one with room for some messages, a send that does not
wait, and whether the message got in, and a receive, which gives nothing where it waits. -/
structure Queue (κ α : Type*) where
  create : Nat → κ
  send : κ → α → κ × Bool
  receive : κ → κ × Option α

namespace Queue

/-- What the operations are documented to do with the messages that wait. -/
structure Documented (Q : Queue κ α) (room : Nat) (waiting : κ → List α) : Prop where
  create : waiting (Q.create room) = []
  send_room : ∀ q a, (waiting q).length < room →
    (Q.send q a).2 = true ∧ waiting (Q.send q a).1 = waiting q ++ [a]
  send_full : ∀ q a, room ≤ (waiting q).length →
    (Q.send q a).2 = false ∧ waiting (Q.send q a).1 = waiting q
  receive_empty : ∀ q, waiting q = [] → (Q.receive q).2 = none ∧ waiting (Q.receive q).1 = []
  receive_first : ∀ q a rest, waiting q = a :: rest →
    (Q.receive q).2 = some a ∧ waiting (Q.receive q).1 = rest

/-- The queue as a machine. -/
def machine (Q : Queue κ α) : Transducer κ (Call α) α where
  step
    | q, .send a => ((Q.send q a).1, [])
    | q, .receive => ((Q.receive q).1, (Q.receive q).2.toList)

/-- Every message that is sent gets in. -/
def NeverFull (Q : Queue κ α) (q : κ) (cs : List (Call α)) : Prop :=
  ∀ pre a post, cs = pre ++ .send a :: post → (Q.send (Q.machine.state q pre) a).2 = true

variable {Q : Queue κ α} {room : Nat} {waiting : κ → List α}

/-- The queue and the mailbox of what waits in it run alike. -/
theorem Documented.simulates (hQ : Q.Documented room waiting) (q : κ) (cs : List (Call α)) :
    waiting (Q.machine.state q cs) = (mailbox room).state (waiting q) cs ∧
      Q.machine.out q cs = (mailbox room).out (waiting q) cs := by
  have hstep : ∀ q (c : Call α), waiting (Q.machine.step q c).1 =
      ((mailbox room).step (waiting q) c).1 ∧
      (Q.machine.step q c).2 = ((mailbox room).step (waiting q) c).2 := by
    intro q c
    cases c with
    | send a =>
        rw [step_send]
        by_cases hroom : (waiting q).length < room
        · rw [if_pos hroom]
          exact ⟨(hQ.send_room q a hroom).2, rfl⟩
        · rw [if_neg hroom]
          exact ⟨(hQ.send_full q a (Nat.le_of_not_lt hroom)).2, rfl⟩
    | receive =>
        cases hq : waiting q with
        | nil =>
            rcases hQ.receive_empty q hq with ⟨hnone, hempty⟩
            exact ⟨hempty, congrArg Option.toList hnone⟩
        | cons a rest =>
            rcases hQ.receive_first q a rest hq with ⟨hsome, hrest⟩
            exact ⟨hrest, congrArg Option.toList hsome⟩
  have hrun := Transducer.lockstep (M := Q.machine) (N := mailbox room)
    (fun q l => waiting q = l) (fun _ => True) (fun a => [a]) (fun a => [a]) (by
      rintro q l c rfl -
      exact ⟨(hstep q c).1, by rw [(hstep q c).2]⟩) (rfl : waiting q = waiting q)
    (fun c (_ : c ∈ cs) => trivial)
  simpa using hrun

theorem Documented.neverFull_iff (hQ : Q.Documented room waiting) (q : κ) (cs : List (Call α)) :
    Q.NeverFull q cs ↔ Mailbox.NeverFull room (waiting q) cs := by
  have hsend : ∀ q a, (Q.send q a).2 = true ↔ (waiting q).length < room := by
    intro q a
    by_cases hroom : (waiting q).length < room
    · exact iff_of_true (hQ.send_room q a hroom).1 hroom
    · refine iff_of_false ?_ hroom
      rw [(hQ.send_full q a (Nat.le_of_not_lt hroom)).1]
      exact Bool.false_ne_true
  refine forall_congr' fun pre => forall₃_congr fun a post _ => ?_
  rw [hsend, (hQ.simulates q pre).1]

/-- The queue that is the list of what waits. -/
def ofList (room : Nat) : Queue (List α) α where
  create _ := []
  send q a := if q.length < room then (q ++ [a], true) else (q, false)
  receive
    | [] => ([], none)
    | a :: q => (q, some a)

theorem documented_ofList (room : Nat) : (ofList room : Queue (List α) α).Documented room id where
  create := rfl
  send_room q a h := by
    have hsend : (ofList room).send q a = (q ++ [a], true) := if_pos h
    rw [hsend]
    exact ⟨rfl, rfl⟩
  send_full q a h := by
    have hsend : (ofList room).send q a = (q, false) := if_neg (Nat.not_lt.2 h)
    rw [hsend]
    exact ⟨rfl, rfl⟩
  receive_empty := by
    rintro _ rfl
    exact ⟨rfl, rfl⟩
  receive_first := by
    rintro _ a rest rfl
    exact ⟨rfl, rfl⟩

end Queue

end Mailbox
