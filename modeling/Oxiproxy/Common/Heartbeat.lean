import Oxiproxy.Common.PendingRequests

/-!
# The liveness of a controller stream

`heartbeat_loop` polls three branches in a fixed order: a response, the deadline,
and the next heartbeat, whose tick may have been taken while its message waits
for room in the send queue.  A branch that completes drops the others.  The
runtime polls the loop when its deadline is due before the clock moves on.
-/

namespace Oxiproxy

open Transition

def HEARTBEAT_INTERVAL : ℕ := seconds 15

def HEARTBEAT_TIMEOUT : ℕ := seconds 45

inductive HeartbeatError
  | responsesClosed
  | timeout
  | sendClosed
  deriving DecidableEq

def HeartbeatError.message : HeartbeatError → String
  | .responsesClosed => "心跳响应通道已关闭"
  | .timeout => toString (HEARTBEAT_TIMEOUT / seconds 1) ++ " 秒未收到 Controller 心跳响应"
  | .sendClosed => "心跳发送通道已关闭"

/-- The loop inside one `select!`, and what it shares with other tasks. -/
structure HeartbeatLoop where
  now : ℕ
  /-- The last instant sent through the response channel. -/
  response : ℕ
  /-- The receiver has seen that instant. -/
  observed : Bool
  responsesOpen : Bool
  /-- The free places of the send queue. -/
  free : ℕ
  sendOpen : Bool
  deadline : ℕ
  nextTick : ℕ
  /-- The tick is taken and the heartbeat waits for a free place. -/
  sending : Bool
  ended : Option HeartbeatError
  deriving DecidableEq

namespace HeartbeatLoop

/-- Before the first poll of the first turn. -/
def start (now : ℕ) (free : ℕ) : HeartbeatLoop where
  now := now
  response := now
  observed := true
  responsesOpen := true
  free := free
  sendOpen := true
  deadline := now + HEARTBEAT_TIMEOUT
  nextTick := now + HEARTBEAT_INTERVAL
  sending := false
  ended := none

/-- The next turn of the loop. -/
def again (s : HeartbeatLoop) : HeartbeatLoop :=
  { s with
    observed := true
    deadline := s.response + HEARTBEAT_TIMEOUT
    sending := false }

def fail (s : HeartbeatLoop) (error : HeartbeatError) : HeartbeatLoop :=
  { s with ended := some error }

def send (s : HeartbeatLoop) : HeartbeatLoop :=
  if s.sendOpen = false then s.fail .sendClosed
  else if 0 < s.free then again { s with free := s.free - 1 }
  else { s with sending := true }

inductive Input
  /-- `send_replace` with the present instant. -/
  | respond
  | closeResponses
  /-- Messages enter and leave the send queue. -/
  | queue (free : ℕ)
  | closeQueue
  | poll
  | advance (elapsed : ℕ)
  deriving DecidableEq

-- When the interval ticks after a tick that was due at the first instant has
-- been taken at the second.
variable (nextTimeout : ℕ → ℕ → ℕ)

/-- Poll the branches of the `select!`. -/
def poll (s : HeartbeatLoop) : HeartbeatLoop :=
  if s.observed = false then s.again
  else if s.responsesOpen = false then s.fail .responsesClosed
  else if s.deadline ≤ s.now then s.fail .timeout
  else if s.sending then s.send
  else if s.nextTick ≤ s.now then send { s with nextTick := nextTimeout s.nextTick s.now }
  else s

def act (s : HeartbeatLoop) : Input → Option HeartbeatLoop
  | .respond => some { s with response := s.now, observed := false }
  | .closeResponses => some { s with responsesOpen := false }
  | .queue free => some { s with free }
  | .closeQueue => some { s with sendOpen := false }
  | .poll => some (s.poll nextTimeout)
  | .advance elapsed =>
      if s.now + elapsed ≤ s.deadline then some { s with now := s.now + elapsed } else none

def step (s : HeartbeatLoop) (i : Input) : Option HeartbeatLoop :=
  if s.ended = none then s.act nextTimeout i else none

def Input.KeepsOpen : Input → Prop
  | .closeResponses | .closeQueue => False
  | _ => True

instance : DecidablePred Input.KeepsOpen
  | .closeResponses | .closeQueue => .isFalse id
  | .respond | .queue _ | .poll | .advance _ => .isTrue trivial

/-! ## The deadline -/

/-- The deadline belongs to the last response that the loop has seen, and the
clock has not passed it. -/
structure Alive (since : ℕ) (s : HeartbeatLoop) : Prop where
  responsesOpen : s.responsesOpen = true
  sendOpen : s.sendOpen = true
  since_le : since ≤ s.response
  response_le : s.response ≤ s.now
  now_le : s.now ≤ s.deadline
  deadline_le : s.deadline ≤ s.response + HEARTBEAT_TIMEOUT
  observed : s.observed = true → s.deadline = s.response + HEARTBEAT_TIMEOUT

variable {nextTimeout} {s t : HeartbeatLoop} {i : Input} {since : ℕ}

theorem alive_start (now : ℕ) (free : ℕ) : (start now free).Alive now :=
  ⟨rfl, rfl, le_rfl, le_rfl, le_add_of_nonneg_right (Nat.zero_le _), le_rfl, fun _ ↦ rfl⟩

theorem Alive.again (h : s.Alive since) : s.again.Alive since where
  responsesOpen := h.responsesOpen
  sendOpen := h.sendOpen
  since_le := h.since_le
  response_le := h.response_le
  now_le := h.now_le.trans h.deadline_le
  deadline_le := le_rfl
  observed _ := rfl

/-- With the channels open, sending a heartbeat neither ends the loop nor moves
its deadline away from the last response. -/
theorem Alive.send (h : s.Alive since) (hended : s.ended = none) :
    s.send.Alive since ∧ s.send.ended = none := by
  have hopen : ¬ s.sendOpen = false := by simp [h.sendOpen]
  rw [HeartbeatLoop.send, if_neg hopen]
  split_ifs
  · have hplace : Alive since { s with free := s.free - 1 } := { h with }
    exact ⟨hplace.again, hended⟩
  · exact ⟨{ h with }, hended⟩

/-- What a poll does while the channels are open. -/
theorem Alive.poll (h : s.Alive since) (hended : s.ended = none) :
    s.observed = true ∧ s.now = s.deadline ∧ s.poll nextTimeout = s.fail .timeout ∨
      ¬ (s.observed = true ∧ s.now = s.deadline) ∧ (s.poll nextTimeout).Alive since ∧
        (s.poll nextTimeout).ended = none := by
  unfold HeartbeatLoop.poll
  split_ifs with hobserved hopen hdeadline hsending htick
  · exact .inr ⟨fun hboth ↦ (by simp [hobserved] at hboth), h.again, hended⟩
  · exact absurd h.responsesOpen (by simp [hopen])
  · exact .inl ⟨by simpa using hobserved, le_antisymm h.now_le hdeadline, rfl⟩
  · exact .inr ⟨fun hboth ↦ hdeadline hboth.2.ge, h.send hended⟩
  · have hticked : Alive since { s with nextTick := nextTimeout s.nextTick s.now } := { h with }
    exact .inr ⟨fun hboth ↦ hdeadline hboth.2.ge, hticked.send hended⟩
  · exact .inr ⟨fun hboth ↦ hdeadline hboth.2.ge, h, hended⟩

/-- The loop ends with a timeout in a poll at its deadline that sees no new
response, and goes on after every other step. -/
theorem Alive.step (h : s.Alive since) (hended : s.ended = none) (hi : i.KeepsOpen)
    (hstep : HeartbeatLoop.step nextTimeout s i = some t) :
    (i = .poll ∧ s.observed = true ∧ s.now = s.deadline) ∧ t = s.fail .timeout ∨
      ¬ (i = .poll ∧ s.observed = true ∧ s.now = s.deadline) ∧ t.Alive since ∧ t.ended = none := by
  rw [HeartbeatLoop.step, if_pos hended] at hstep
  cases i with
  | respond =>
      obtain rfl := Option.some.inj hstep
      refine .inr ⟨fun hpoll ↦ (by cases hpoll.1), ?_, hended⟩
      refine { h with since_le := ?_, response_le := le_rfl, deadline_le := ?_, observed := ?_ }
      · exact h.since_le.trans h.response_le
      · exact h.deadline_le.trans (add_le_add_left h.response_le _)
      · exact fun hfalse ↦ (by cases hfalse)
  | closeResponses | closeQueue => exact hi.elim
  | queue free =>
      obtain rfl := Option.some.inj hstep
      exact .inr ⟨fun hpoll ↦ (by cases hpoll.1), { h with }, hended⟩
  | poll =>
      obtain rfl := Option.some.inj hstep
      rcases h.poll hended with ⟨hobserved, hnow, hpoll⟩ | ⟨hnot, halive, hrunning⟩
      · exact .inl ⟨⟨rfl, hobserved, hnow⟩, hpoll⟩
      · exact .inr ⟨fun hpoll ↦ hnot hpoll.2, halive, hrunning⟩
  | advance elapsed =>
      simp only [act] at hstep
      split_ifs at hstep with hle
      obtain rfl := Option.some.inj hstep
      refine .inr ⟨fun hpoll ↦ (by cases hpoll.1), ?_, hended⟩
      exact { h with
        response_le := h.response_le.trans (le_add_of_nonneg_right (Nat.zero_le _))
        now_le := hle }

/-- A loop that has timed out did so at the deadline of its last response. -/
structure TimedOut (since : ℕ) (s : HeartbeatLoop) : Prop where
  ended : s.ended = some .timeout
  since_le : since ≤ s.response
  now_eq : s.now = s.response + HEARTBEAT_TIMEOUT

theorem Alive.timedOut (h : s.Alive since) (hobserved : s.observed = true)
    (hnow : s.now = s.deadline) : (s.fail .timeout).TimedOut since :=
  ⟨rfl, h.since_le, hnow.trans (h.observed hobserved)⟩

/-- Every run in which the channels stay open keeps the loop going or ends with a
timeout. -/
theorem Alive.run {inputs : List Input} (h : s.Alive since) (hended : s.ended = none)
    (hopen : ∀ i ∈ inputs, i.KeepsOpen)
    (hrun : Transition.run (HeartbeatLoop.step nextTimeout) s inputs = some t) :
    t.Alive since ∧ t.ended = none ∨ t.TimedOut since := by
  have hok : Within (HeartbeatLoop.step nextTimeout) (fun _ i ↦ i.KeepsOpen) s inputs :=
    within_of_forall fun i hi _ ↦ hopen i hi
  have hstep : ∀ u i v, u.Alive since ∧ u.ended = none ∨ u.TimedOut since → i.KeepsOpen →
      HeartbeatLoop.step nextTimeout u i = some v →
        v.Alive since ∧ v.ended = none ∨ v.TimedOut since := by
    rintro u i v (⟨hu, hrunning⟩ | hu) hi hv
    · rcases hu.step hrunning hi hv with ⟨⟨-, hobserved, hnow⟩, rfl⟩ | ⟨-, halive⟩
      · exact .inr (hu.timedOut hobserved hnow)
      · exact .inl halive
    · rw [HeartbeatLoop.step, hu.ended] at hv
      cases hv
  exact run_invariant hstep (.inl ⟨h, hended⟩) hok hrun

/-- Without further responses the loop ends at the deadline of the last one. -/
theorem Alive.ends (h : s.Alive since) (hended : s.ended = none) :
    ∃ inputs t, (∀ i ∈ inputs, i = .poll ∨ ∃ elapsed, i = .advance elapsed) ∧
      Transition.run (HeartbeatLoop.step nextTimeout) s inputs = some t ∧
      t.ended = some .timeout ∧ t.now = s.response + HEARTBEAT_TIMEOUT := by
  have hseen : ∀ u : HeartbeatLoop, u.Alive since → u.ended = none → u.observed = true →
      Transition.run (HeartbeatLoop.step nextTimeout) u [.advance (u.deadline - u.now), .poll] =
        some (fail { u with now := u.deadline } .timeout) := by
    intro u hu hended hobserved
    have hnow : u.now + (u.deadline - u.now) = u.deadline := Nat.add_sub_of_le hu.now_le
    simp [HeartbeatLoop.step, act, hended, hnow, HeartbeatLoop.poll, hobserved, hu.responsesOpen]
  have hkind : ∀ elapsed, ∀ i ∈ [Input.advance elapsed, .poll],
      i = .poll ∨ ∃ elapsed, i = .advance elapsed := by
    intro elapsed i hi
    simp only [List.mem_cons, List.not_mem_nil, or_false] at hi
    rcases hi with rfl | rfl
    · exact .inr ⟨elapsed, rfl⟩
    · exact .inl rfl
  by_cases hobserved : s.observed = true
  · exact ⟨_, _, hkind _, hseen s h hended hobserved, rfl, h.observed hobserved⟩
  · -- the first poll takes the response in
    have hpoll : HeartbeatLoop.step nextTimeout s .poll = some s.again := by
      simp [HeartbeatLoop.step, act, hended, HeartbeatLoop.poll, hobserved]
    refine ⟨.poll :: [.advance (s.again.deadline - s.again.now), .poll], _, ?_,
      run_cons_eq_some.mpr ⟨s.again, hpoll, hseen s.again h.again hended rfl⟩, rfl, rfl⟩
    intro i hi
    rcases List.mem_cons.mp hi with rfl | hi
    · exact .inl rfl
    · exact hkind _ i hi

/-- In every run in which both channels stay open, whatever happens to the send
queue, the loop ends with the timeout error at the deadline of the last response
and nowhere else: a running loop has not passed that instant, ends exactly in a
poll at that instant that sees no other response, and does end there if no more
responses come.  After a response, also one at the deadline, it does not end
before that response's own deadline. -/
theorem heartbeatLoop_ends {now free : ℕ} {inputs : List Input}
    (hopen : ∀ i ∈ inputs, i.KeepsOpen)
    (hrun : Transition.run (HeartbeatLoop.step nextTimeout) (start now free) inputs = some s) :
    (∀ error, s.ended = some error →
      error = .timeout ∧ s.now = s.response + HEARTBEAT_TIMEOUT) ∧
    (s.ended = none →
      s.now ≤ s.response + HEARTBEAT_TIMEOUT ∧
      (∀ i t, i.KeepsOpen → HeartbeatLoop.step nextTimeout s i = some t →
        (t.ended ≠ none ↔
          i = .poll ∧ s.observed = true ∧ s.now = s.response + HEARTBEAT_TIMEOUT)) ∧
      (∃ later t, (∀ i ∈ later, i = .poll ∨ ∃ elapsed, i = .advance elapsed) ∧
        Transition.run (HeartbeatLoop.step nextTimeout) s later = some t ∧
        t.ended = some .timeout ∧ t.now = s.response + HEARTBEAT_TIMEOUT) ∧
      ∀ t later u, HeartbeatLoop.step nextTimeout s .respond = some t →
        (∀ i ∈ later, i.KeepsOpen) →
        Transition.run (HeartbeatLoop.step nextTimeout) t later = some u → u.ended ≠ none →
          s.now + HEARTBEAT_TIMEOUT ≤ u.now) := by
  rcases (alive_start now free).run rfl hopen hrun with ⟨halive, hended⟩ | htimedOut
  · refine ⟨fun error herror ↦ (by simp [hended] at herror), fun _ ↦ ⟨?_, ?_, ?_, ?_⟩⟩
    · exact halive.now_le.trans halive.deadline_le
    · intro i t hi hstep
      rcases halive.step hended hi hstep with ⟨⟨rfl, hobserved, hnow⟩, rfl⟩ | ⟨hnot, -, hnone⟩
      · exact ⟨fun _ ↦ ⟨rfl, hobserved, hnow.trans (halive.observed hobserved)⟩,
          fun _ hnone ↦ (by cases hnone)⟩
      · refine ⟨fun hsome ↦ absurd hnone hsome, fun ⟨hpoll, hobserved, hnow⟩ ↦ ?_⟩
        exact absurd ⟨hpoll, hobserved, hnow.trans (halive.observed hobserved).symm⟩ hnot
    · exact halive.ends hended
    · intro t later u hrespond hlater hrun' hfailed
      have hkeeps : Input.respond.KeepsOpen := trivial
      rcases halive.step hended hkeeps hrespond with ⟨⟨hpoll, -⟩, -⟩ | ⟨-, ht, hnone⟩
      · cases hpoll
      · have hresponse : t.response = s.now := by
          rw [HeartbeatLoop.step, if_pos hended] at hrespond
          obtain rfl := Option.some.inj hrespond
          rfl
        have hsince : t.Alive s.now := { ht with since_le := hresponse.ge }
        rcases hsince.run hnone hlater hrun' with ⟨-, hrunning⟩ | ⟨-, hle, hnow⟩
        · exact absurd hrunning hfailed
        · rw [hnow]
          exact Nat.add_le_add_right hle _
  · refine ⟨fun error herror ↦ ⟨?_, htimedOut.now_eq⟩, fun hnone ↦ ?_⟩
    · exact Option.some.inj (herror.symm.trans htimedOut.ended)
    · rw [htimedOut.ended] at hnone
      cases hnone

/-- A full send queue and a response at the very deadline. -/
theorem heartbeatLoop_ends_fullQueue :
    ∃ s, Transition.run (HeartbeatLoop.step fun _ now ↦ now + HEARTBEAT_INTERVAL) (start 0 0)
        [.advance (seconds 15), .poll, .advance (seconds 30), .respond, .poll,
          .advance (seconds 45), .poll] = some s ∧
      s.ended = some .timeout ∧ s.now = s.response + HEARTBEAT_TIMEOUT ∧ s.now = seconds 90 := by
  have hended : ∃ s ∈ Transition.run
      (HeartbeatLoop.step fun _ now ↦ now + HEARTBEAT_INTERVAL) (start 0 0)
      [.advance (seconds 15), .poll, .advance (seconds 30), .respond, .poll,
        .advance (seconds 45), .poll], s.ended = some .timeout ∧ s.now = seconds 90 := by
    decide +kernel
  obtain ⟨s, hrun, hended, hnow⟩ := hended
  have hends := heartbeatLoop_ends (by decide) hrun
  exact ⟨s, hrun, hended, (hends.1 _ hended).2, hnow⟩

end HeartbeatLoop

end Oxiproxy
