import Oxiproxy.Foundation.Runs

/-!
# Select loops

A task owns the receiving end of a bounded channel and loops over a `select!`
between the channel and a timer.  An arm whose pattern does not match the value
of its branch is disabled for that turn; the turn ends when an arm has run, and
panics when every branch is disabled and there is no `else` branch.
-/

namespace SelectLoop

/-- A polled branch. -/
inductive Branch (α : Type*)
  | pending
  | disabled
  | ready (a : α)

inductive Selected (α : Type*)
  | waits
  | fires (a : α)
  | panics

/-- `select!` over two branches, polled in this order. -/
def select {α : Type*} : Branch α → Branch α → Selected α
  | .ready a, _ => .fires a
  | _, .ready b => .fires b
  | .disabled, .disabled => .panics
  | _, _ => .waits

/-- The queue of a channel and the number of its senders. -/
structure Channel (E : Type*) where
  queue : List E
  senders : ℕ
  deriving DecidableEq

variable {E ι σ : Type*}

/-- `recv`: nothing yet, an item, or `None` when the channel is empty and closed. -/
def Channel.recv (c : Channel E) : Branch (Option E) :=
  match c.queue with
  | e :: _ => .ready (some e)
  | [] => if c.senders = 0 then .ready none else .pending

inductive Status
  | running
  | finished
  | panicked
  deriving DecidableEq

structure Task (E σ : Type*) where
  channel : Channel E
  state : σ
  status : Status
  /-- The items received so far. -/
  received : List E
  deriving DecidableEq

namespace Task

def new (s : σ) : Task E σ := ⟨⟨[], 1⟩, s, .running, []⟩

/-- The channel is empty and closed. -/
def Closed (t : Task E σ) : Prop := t.channel.queue = [] ∧ t.channel.senders = 0

instance [DecidableEq E] (t : Task E σ) : Decidable t.Closed :=
  inferInstanceAs (Decidable (t.channel.queue = [] ∧ t.channel.senders = 0))

end Task

/-- The arms of the loop, run with what the surroundings contribute. -/
structure Body (E ι σ : Type*) where
  /-- The arm for what `recv` returned, if its pattern matches. -/
  received : Option E → Option (ι → σ → ForInStep σ)
  tick : ι → σ → ForInStep σ

inductive Input (E ι : Type*)
  | send (e : E)
  | cloneSender
  | dropSender
  | turn (timerFirst timerReady : Bool) (env : ι)

namespace Body

/-- The branch of the receiver. -/
def receiver (body : Body E ι σ) (env : ι) (t : Task E σ) : Branch (ForInStep σ × Option E) :=
  match t.channel.recv with
  | .ready item =>
      match body.received item with
      | some arm => .ready (arm env t.state, item)
      | none => .disabled
  | _ => .pending

/-- The branch of the timer. -/
def timer (body : Body E ι σ) (ready : Bool) (env : ι) (t : Task E σ) :
    Branch (ForInStep σ × Option E) :=
  if ready then .ready (body.tick env t.state, none) else .pending

/-- What is left when an arm has run and may have taken an item. -/
def finishTurn (t : Task E σ) (item : Option E) (s : σ) (status : Status) : Task E σ where
  channel := if item.isSome then { t.channel with queue := t.channel.queue.tail } else t.channel
  state := s
  status := status
  received := t.received ++ item.toList

def turn (body : Body E ι σ) (timerFirst timerReady : Bool) (env : ι) (t : Task E σ) : Task E σ :=
  let receiver := body.receiver env t
  let timer := body.timer timerReady env t
  match if timerFirst then select timer receiver else select receiver timer with
  | .waits => t
  | .panics => { t with status := .panicked }
  | .fires (.yield s, item) => finishTurn t item s .running
  | .fires (.done s, item) => finishTurn t item s .finished

def step (capacity : ℕ) (body : Body E ι σ) (t : Task E σ) : Input E ι → Option (Task E σ)
  | .send e =>
      if t.channel.senders ≠ 0 ∧ t.channel.queue.length < capacity then
        some { t with channel := { t.channel with queue := t.channel.queue ++ [e] } }
      else none
  | .cloneSender =>
      if t.channel.senders ≠ 0 then
        some { t with channel := { t.channel with senders := t.channel.senders + 1 } }
      else none
  | .dropSender =>
      if t.channel.senders ≠ 0 then
        some { t with channel := { t.channel with senders := t.channel.senders - 1 } }
      else none
  | .turn timerFirst timerReady env =>
      if t.status = .running then some (body.turn timerFirst timerReady env t) else none

/-- A body that goes on after every item and every tick, and has no arm for a
closed channel. -/
structure Endless (body : Body E ι σ) (item : ι → E → σ → σ) (tick : ι → σ → σ) : Prop where
  received_some : ∀ e, body.received (some e) = some fun env s ↦ .yield (item env e s)
  received_none : body.received none = none
  tick : ∀ env s, body.tick env s = .yield (tick env s)

end Body

/-- The arm that runs in a turn of an endless body. -/
inductive Arm (E : Type*)
  | item (e : E)
  | tick

namespace Task

def arm (t : Task E σ) (timerFirst timerReady : Bool) : Option (Arm E) :=
  match t.channel.queue with
  | e :: _ => some (if timerFirst && timerReady then .tick else .item e)
  | [] => if timerReady then some .tick else none

/-- Run an arm. -/
def runArm (item : ι → E → σ → σ) (tick : ι → σ → σ) (env : ι) (t : Task E σ) :
    Option (Arm E) → Task E σ
  | some (.item e) => Body.finishTurn t (some e) (item env e t.state) .running
  | some .tick => Body.finishTurn t none (tick env t.state) .running
  | none => t

end Task

namespace Body

variable {body : Body E ι σ} {item : ι → E → σ → σ} {tick : ι → σ → σ}

/-- The timer is never disabled, so a turn of an endless body neither panics nor
ends the loop. -/
theorem Endless.turn_eq (h : body.Endless item tick) (timerFirst timerReady : Bool) (env : ι)
    (t : Task E σ) :
    body.turn timerFirst timerReady env t =
      t.runArm item tick env (t.arm timerFirst timerReady) := by
  have htimer : body.timer timerReady env t =
      if timerReady then .ready (.yield (tick env t.state), none) else .pending := by
    rw [timer, h.tick]
  cases hqueue : t.channel.queue with
  | cons e queue =>
      have hreceiver : body.receiver env t = .ready (.yield (item env e t.state), some e) := by
        simp [receiver, Channel.recv, hqueue, h.received_some]
      cases timerFirst <;> cases timerReady <;>
        simp [turn, htimer, hreceiver, select, Task.arm, Task.runArm, hqueue]
  | nil =>
      have hreceiver : body.receiver env t = .disabled ∨ body.receiver env t = .pending := by
        by_cases hsenders : t.channel.senders = 0
        · exact .inl (by simp [receiver, Channel.recv, hqueue, hsenders, h.received_none])
        · exact .inr (by simp [receiver, Channel.recv, hqueue, hsenders])
      rcases hreceiver with hreceiver | hreceiver <;> cases timerFirst <;> cases timerReady <;>
        simp [turn, htimer, hreceiver, select, Task.arm, Task.runArm, hqueue]

variable {capacity : ℕ} {t t' : Task E σ} {i : Input E ι}

/-- A step changes the channel only, or runs the arm of a turn. -/
theorem Endless.step_cases (h : body.Endless item tick) (hstep : body.step capacity t i = some t') :
    (∃ channel, t' = { t with channel }) ∨ ∃ timerFirst timerReady env,
      i = .turn timerFirst timerReady env ∧
        t' = t.runArm item tick env (t.arm timerFirst timerReady) := by
  cases i with
  | turn timerFirst timerReady env =>
      simp only [step] at hstep
      split_ifs at hstep
      refine .inr ⟨timerFirst, timerReady, env, rfl, ?_⟩
      rw [← Option.some.inj hstep, h.turn_eq]
  | send | cloneSender | dropSender =>
      simp only [step] at hstep
      split_ifs at hstep
      exact .inl ⟨_, (Option.some.inj hstep).symm⟩

/-- The loop of an endless body does not end. -/
theorem Endless.running (h : body.Endless item tick) (hrunning : t.status = .running)
    (hstep : body.step capacity t i = some t') : t'.status = .running := by
  rcases h.step_cases hstep with ⟨channel, rfl⟩ | ⟨timerFirst, timerReady, env, -, rfl⟩
  · exact hrunning
  · cases t.arm timerFirst timerReady with
    | none => exact hrunning
    | some arm => cases arm <;> rfl

end Body

end SelectLoop
