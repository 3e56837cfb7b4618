import Oxiproxy.Common.PendingTimeouts

/-!
# Requests to the controller across a reconnect

A node shares the sender of its session and the table of pending requests with
everybody who asks the controller something.  A reconnect replaces first the
sender and then the table, while a request reads first the table and then the
sender.  A request that finds no place in the queue gives up after ten seconds.
-/

namespace Oxiproxy.Node

open Transition

/-- How long a send waits for a place in the queue of its session. -/
def SEND_TIMEOUT : ℕ := seconds 10

/-- The callers of a node. -/
inductive AuthCall
  | validateToken
  | setClientOnline
  | checkTrafficLimit
  | checkDirectProxyLimit
  | getClientProxies
  deriving DecidableEq

def AuthCall.caller : AuthCall → Caller
  | validateToken => .validateToken
  | setClientOnline => .setClientOnline
  | checkTrafficLimit => .checkTrafficLimit
  | checkDirectProxyLimit => .checkDirectProxyLimit
  | getClientProxies => .getClientProxies

theorem AuthCall.timeout_le (a : AuthCall) :
    SEND_TIMEOUT + a.caller.timeout ≤ STALE_REQUEST_TIMEOUT := by
  cases a <;> decide

/-- How far a request has come on its way. -/
inductive RequestWire (R : Type)
  | unsent
  /-- The caller holds a copy of the sender of the session, and waits for a place in
  its queue until the deadline. -/
  | picked (session deadline : ℕ)
  | queued (session : ℕ) (requestId : String)
  | responded (session : ℕ) (requestId : String) (response : R)
  | arrived

/-- The send does not give up before the time. -/
def RequestWire.waitsUntil {R : Type} (time : ℕ) : RequestWire R → Bool
  | .picked _ deadline => time ≤ deadline
  | _ => true

/-- What `reconnect` has still to do with the new session. -/
inductive Reconnecting
  | idle
  | established (session : ℕ)
  | senderReplaced (session : ℕ)

def Reconnecting.session? : Reconnecting → Option ℕ
  | .idle => none
  | .established session | .senderReplaced session => some session

inductive ClientInput (R : Type)
  /-- A new stream is authenticated. -/
  | establish
  | replaceSender
  | replacePending
  /-- The stream of the session ends, and with it its message loop. -/
  | disconnect (session : ℕ)
  | register (call : AuthCall) (requestId : String)
  | pick (call : ℕ)
  | enqueue (call : ℕ)
  | wait (call : ℕ)
  | poll (call : ℕ)
  | giveUp (call : ℕ)
  /-- The controller answers on the session of the request, under its id. -/
  | respond (call : ℕ) (response : R)
  | arrive (call : ℕ)
  | cleanup (table : ℕ)
  | drop (table : ℕ)
  | advance (duration : ℕ)

structure AgentGrpcClient (R : Type) where
  sharedSender : ℕ
  sharedPending : ℕ
  reconnecting : Reconnecting
  /-- The sessions that have ended. -/
  ended : List ℕ
  /-- The table of a session has its number. -/
  pool : Pool R
  requests : List (RequestWire R)

namespace AgentGrpcClient

variable {R : Type}

/-- After `connect_and_authenticate`. -/
def connected : AgentGrpcClient R where
  sharedSender := 0
  sharedPending := 0
  reconnecting := .idle
  ended := []
  pool := { Pool.empty with tables := [some (PendingRequests.new 0)] }
  requests := []

def setPool (s : AgentGrpcClient R) (pool : Pool R) : AgentGrpcClient R := { s with pool := pool }

def setWire (s : AgentGrpcClient R) (k : ℕ) (wire : RequestWire R) : AgentGrpcClient R :=
  { s with requests := s.requests.set k wire }

/-- The message loop of a session completes requests in the table of the session. -/
def messageLoop (s : AgentGrpcClient R) (session : ℕ) (requestId : String) (response : R) :
    Option (AgentGrpcClient R) :=
  -- the loop starts when the reconnect is over
  if session ∈ s.ended ∨ s.reconnecting.session? = some session then none
  else (s.pool.step (.complete session requestId response)).map s.setPool

def step (s : AgentGrpcClient R) : ClientInput R → Option (AgentGrpcClient R)
  | .establish =>
      match s.reconnecting with
      | .idle => (s.pool.step .new).map fun pool ↦
          { s with pool := pool, reconnecting := .established s.pool.tables.length }
      | _ => none
  | .replaceSender =>
      match s.reconnecting with
      | .established session => some { s with
          sharedSender := session
          reconnecting := .senderReplaced session }
      | _ => none
  | .replacePending =>
      match s.reconnecting with
      | .senderReplaced session => some { s with
          sharedPending := session
          reconnecting := .idle }
      | _ => none
  | .disconnect session => some { s with ended := session :: s.ended }
  | .register call requestId =>
      (s.pool.step (.register s.sharedPending requestId call.caller)).map fun pool ↦
        { s with pool := pool, requests := s.requests ++ [.unsent] }
  | .pick k => do
      let wire ← s.requests[k]?
      match wire with
      | .unsent => some (s.setWire k (.picked s.sharedSender (s.pool.now + SEND_TIMEOUT)))
      | _ => none
  | .enqueue k => do
      let c ← s.pool.calls[k]?
      let wire ← s.requests[k]?
      match wire with
      | .picked session _ =>
          -- the queue of an ended session is closed
          if session ∉ s.ended ∧ c.phase.isSending then
            some (s.setWire k (.queued session c.requestId))
          else none
      | _ => none
  | .wait k => do
      let wire ← s.requests[k]?
      match wire with
      | .unsent | .picked _ _ => none
      | _ => (s.pool.step (.wait k)).map s.setPool
  | .poll k => (s.pool.step (.poll k)).map s.setPool
  | .giveUp k => (s.pool.step (.giveUp k)).map s.setPool
  | .respond k response => do
      let wire ← s.requests[k]?
      match wire with
      | .queued session requestId => some (s.setWire k (.responded session requestId response))
      | _ => none
  | .arrive k => do
      let wire ← s.requests[k]?
      match wire with
      | .responded session requestId response =>
          (s.setWire k .arrived).messageLoop session requestId response
      | _ => none
  | .cleanup table => (s.pool.step (.cleanup table)).map s.setPool
  | .drop table =>
      -- the cell, the message loop and the reconnect each hold the table
      if table ∈ s.ended ∧ table ≠ s.sharedPending ∧ s.reconnecting.session? ≠ some table then
        (s.pool.step (.drop table)).map s.setPool
      else none
  | .advance duration =>
      -- a send that gets no place gives up at its deadline
      if (s.pool.calls.zip s.requests).all fun (c, wire) ↦
          !c.phase.isSending || wire.waitsUntil (s.pool.now + duration) then
        (s.pool.step (.advance duration)).map s.setPool
      else none

/-- Besides its send, nothing holds a call up so long that its wait would end more
than the staleness bound after its registration. -/
def OnTime (now : ℕ) (c : Call R) : RequestWire R → Prop
  | .unsent => now + SEND_TIMEOUT + c.caller.timeout ≤ c.createdAt + STALE_REQUEST_TIMEOUT
  | .picked _ _ => True
  | _ => now + c.caller.timeout ≤ c.createdAt + STALE_REQUEST_TIMEOUT

def Prompt (s : AgentGrpcClient R) : ClientInput R → Prop
  | .advance duration => ∀ (k : ℕ) c wire, s.pool.calls[k]? = some c →
      s.requests[k]? = some wire → c.phase.isSending = true → OnTime (s.pool.now + duration) c wire
  | _ => True

/-! ## What a step does to the tables -/

variable {s t : AgentGrpcClient R} {input : ClientInput R} {k : ℕ} {response : R}

theorem step_arrive (h : s.step (.arrive k) = some t) :
    ∃ session requestId response, s.requests[k]? = some (.responded session requestId response) ∧
      ∃ p, s.pool.step (.complete session requestId response) = some p ∧
        t = (s.setWire k .arrived).setPool p := by
  obtain ⟨wire, hwire, hrest⟩ := Option.bind_eq_some_iff.mp h
  split at hrest
  · next session requestId response =>
      unfold messageLoop at hrest
      split_ifs at hrest
      obtain ⟨p, hp, ht⟩ := Option.map_eq_some_iff.mp hrest
      exact ⟨session, requestId, response, hwire, p, hp, ht.symm⟩
  · cases hrest

theorem step_advance {duration : ℕ} (h : s.step (.advance duration) = some t) :
    (∀ (k : ℕ) c wire, s.pool.calls[k]? = some c → s.requests[k]? = some wire →
        c.phase.isSending = true → wire.waitsUntil (s.pool.now + duration) = true) ∧
      (s.pool.step (.advance duration)).map s.setPool = some t := by
  simp only [step] at h
  split_ifs at h with hall
  refine ⟨fun k c wire hc hwire hsending ↦ ?_, h⟩
  have hzip : (c, wire) ∈ s.pool.calls.zip s.requests :=
    List.mem_of_getElem? (i := k) (List.getElem?_zip_eq_some.mpr ⟨hc, hwire⟩)
  have hwaits := List.all_eq_true.mp hall _ hzip
  rwa [hsending, Bool.not_true, Bool.false_or] at hwaits

/-- The tables take at most one step. -/
theorem pool_step (h : s.step input = some t) :
    t.pool = s.pool ∨ ∃ i, s.pool.step i = some t.pool ∧
      ((∃ duration, i = .advance duration ∧ input = .advance duration) ∨ Pool.InTime s.pool i) := by
  have hpass : ∀ i, Pool.InTime s.pool i → (s.pool.step i).map s.setPool = some t →
      ∃ i, s.pool.step i = some t.pool ∧
        ((∃ duration, i = .advance duration ∧ input = .advance duration) ∨ Pool.InTime s.pool i) := by
    intro i hok hstep
    obtain ⟨p, hp, rfl⟩ := Option.map_eq_some_iff.mp hstep
    exact ⟨i, hp, .inr hok⟩
  cases input with
  | establish =>
      simp only [step] at h
      split at h
      · obtain ⟨p, hp, rfl⟩ := Option.map_eq_some_iff.mp h
        exact .inr ⟨.new, hp, .inr trivial⟩
      · cases h
  | replaceSender =>
      simp only [step] at h
      split at h
      · cases h
        exact .inl rfl
      · cases h
  | replacePending =>
      simp only [step] at h
      split at h
      · cases h
        exact .inl rfl
      · cases h
  | disconnect session =>
      cases h
      exact .inl rfl
  | register call requestId =>
      obtain ⟨p, hp, rfl⟩ := Option.map_eq_some_iff.mp h
      exact .inr ⟨_, hp, .inr (le_of_add_le_right call.timeout_le)⟩
  | pick k =>
      obtain ⟨wire, -, hrest⟩ := Option.bind_eq_some_iff.mp h
      split at hrest
      · cases hrest
        exact .inl rfl
      · cases hrest
  | enqueue k =>
      obtain ⟨c, -, hrest⟩ := Option.bind_eq_some_iff.mp h
      obtain ⟨wire, -, hrest⟩ := Option.bind_eq_some_iff.mp hrest
      split at hrest
      · split_ifs at hrest
        cases hrest
        exact .inl rfl
      · cases hrest
  | wait k =>
      obtain ⟨wire, -, hrest⟩ := Option.bind_eq_some_iff.mp h
      split at hrest
      · cases hrest
      · cases hrest
      · exact .inr (hpass (.wait k) trivial hrest)
  | poll k => exact .inr (hpass (.poll k) trivial h)
  | giveUp k => exact .inr (hpass (.giveUp k) trivial h)
  | respond k response =>
      obtain ⟨wire, -, hrest⟩ := Option.bind_eq_some_iff.mp h
      split at hrest
      · cases hrest
        exact .inl rfl
      · cases hrest
  | arrive k =>
      obtain ⟨session, requestId, response, -, p, hp, rfl⟩ := step_arrive h
      exact .inr ⟨_, hp, .inr trivial⟩
  | cleanup table => exact .inr (hpass (.cleanup table) trivial h)
  | drop table =>
      simp only [step] at h
      split_ifs at h
      exact .inr (hpass (.drop table) trivial h)
  | advance duration =>
      obtain ⟨p, hp, rfl⟩ := Option.map_eq_some_iff.mp (step_advance h).2
      exact .inr ⟨_, hp, .inl ⟨duration, rfl, rfl⟩⟩

theorem answered_step (hs : s.pool.Consistent) (hanswered : s.pool.Answered k response)
    (h : s.step input = some t) : t.pool.Answered k response := by
  rcases pool_step h with hsame | ⟨i, hi, -⟩
  · rwa [hsame]
  · exact hanswered.step hs hi

/-! ## Requests and calls agree -/

/-- The id that travels with the request or its response. -/
def wireId : RequestWire R → Option String
  | .queued _ requestId | .responded _ requestId _ => some requestId
  | _ => none

structure Matched (s : AgentGrpcClient R) : Prop where
  consistent : s.pool.Consistent
  length : s.requests.length = s.pool.calls.length
  carries : ∀ (k : ℕ) c wire id, s.pool.calls[k]? = some c → s.requests[k]? = some wire →
    wireId wire = some id → id = c.requestId
  arrived : ∀ id response, (id, response) ∈ s.pool.answered → ∃ (k : ℕ) (c : Call R),
    s.pool.calls[k]? = some c ∧ c.requestId = id ∧ s.requests[k]? = some .arrived

theorem requests_setWire {wire : RequestWire R} (hk : s.requests[k]? = some wire)
    (wire' : RequestWire R) (k' : ℕ) :
    (s.setWire k wire').requests[k']? = if k = k' then some wire' else s.requests[k']? := by
  obtain ⟨hlt, -⟩ := List.getElem?_eq_some_iff.mp hk
  simp only [setWire, List.getElem?_set, hlt, if_true]

theorem Matched.setWire (hs : s.Matched) {wire wire' : RequestWire R}
    (hk : s.requests[k]? = some wire) (harrived : wire = .arrived → wire' = .arrived)
    (hid : ∀ c id, s.pool.calls[k]? = some c → wireId wire' = some id → id = c.requestId) :
    (s.setWire k wire').Matched := by
  refine ⟨hs.consistent, List.length_set.trans hs.length, ?_, ?_⟩
  · intro k' c wire'' id hc hwire hwireId
    rw [requests_setWire hk] at hwire
    split_ifs at hwire with hkk
    · subst hkk
      obtain rfl := Option.some.inj hwire
      exact hid c id hc hwireId
    · exact hs.carries k' c wire'' id hc hwire hwireId
  · intro id response hanswered
    obtain ⟨k', c, hc, hcid, hwire⟩ := hs.arrived id response hanswered
    refine ⟨k', c, hc, hcid, ?_⟩
    rw [requests_setWire hk]
    split_ifs with hkk
    · subst hkk
      rw [harrived (Option.some.inj (hk.symm.trans hwire))]
    · exact hwire

/-- The calls are rewritten, and nothing is answered. -/
theorem Matched.rewrites (hs : s.Matched) {f : ℕ → Call R → Call R}
    (hf : Pool.Rewrites s.pool t.pool f) (hconsistent : t.pool.Consistent)
    (hrequests : t.requests = s.requests) (hanswered : t.pool.answered = s.pool.answered) :
    t.Matched := by
  refine ⟨hconsistent, by rw [hrequests, hs.length, hf.length], ?_, ?_⟩
  · intro k c' wire id hk hwire hid
    obtain ⟨c, hc, rfl⟩ := hf.get_inv hk
    rw [hf.requestId]
    exact hs.carries k c wire id hc (hrequests ▸ hwire) hid
  · intro id response h
    rw [hanswered] at h
    obtain ⟨k, c, hc, hid, hwire⟩ := hs.arrived id response h
    exact ⟨k, _, hf.get hc, (hf.requestId _ _).trans hid, by rw [hrequests, hwire]⟩

/-- Steps that touch no call. -/
theorem Matched.frame (hs : s.Matched) (hpool : t.pool = s.pool)
    (hrequests : t.requests = s.requests) : t.Matched := by
  refine ⟨?_, ?_, ?_, ?_⟩
  · rw [hpool]
    exact hs.consistent
  · rw [hpool, hrequests]
    exact hs.length
  · rw [hpool, hrequests]
    exact hs.carries
  · rw [hpool, hrequests]
    exact hs.arrived

theorem Matched.quiet (hs : s.Matched) {i : PendingInput R} (hquiet : i.IsQuiet)
    (h : (s.pool.step i).map s.setPool = some t) : t.Matched := by
  obtain ⟨p, hp, rfl⟩ := Option.map_eq_some_iff.mp h
  have hq := Pool.quiet_step hp hquiet
  obtain ⟨f, hf⟩ := hq.rewrites
  exact hs.rewrites (t := s.setPool p) hf (hs.consistent.step hp) rfl hq.answered

theorem matched_connected : (connected : AgentGrpcClient R).Matched where
  consistent := Pool.consistent_empty.new
  length := rfl
  carries k c wire id hk := by simp [connected, Pool.empty] at hk
  arrived id response h := by simp [connected, Pool.empty] at h

theorem Matched.register {call : AuthCall} {requestId : String} (hs : s.Matched)
    (h : s.step (.register call requestId) = some t) : t.Matched := by
  obtain ⟨p, hp, rfl⟩ := Option.map_eq_some_iff.mp h
  have hconsistent := hs.consistent.step hp
  obtain ⟨u, -, -, -, rfl⟩ := Pool.step_register hp
  have hcalls := Pool.calls_register s.pool s.sharedPending u requestId call.caller
  refine ⟨hconsistent, ?_, ?_, ?_⟩
  · change (s.requests ++ _).length = (s.pool.calls ++ _).length
    rw [List.length_append, List.length_append, hs.length]
    rfl
  · intro k c wire id hk hwire hid
    replace hwire : (s.requests ++ [.unsent])[k]? = some wire := hwire
    rcases (hcalls k c).mp hk with hold | ⟨rfl, rfl⟩
    · obtain ⟨hlt, -⟩ := List.getElem?_eq_some_iff.mp hold
      rw [← hs.length] at hlt
      rw [List.getElem?_append_left hlt] at hwire
      exact hs.carries k c wire id hold hwire hid
    · rw [← hs.length, List.getElem?_concat_length] at hwire
      cases hwire
      cases hid
  · intro id response hanswered
    obtain ⟨k, c, hc, hid, hwire⟩ := hs.arrived id response hanswered
    obtain ⟨hlt, -⟩ := List.getElem?_eq_some_iff.mp hwire
    exact ⟨k, c, (hcalls k c).mpr (.inl hc), hid, (List.getElem?_append_left hlt).trans hwire⟩

theorem Matched.arrive (hs : s.Matched) (h : s.step (.arrive k) = some t) : t.Matched := by
  obtain ⟨session, requestId, response, hwire, p, hp, rfl⟩ := step_arrive h
  have hs' : (s.setWire k .arrived).Matched :=
    hs.setWire hwire (fun _ ↦ rfl) fun _ _ _ hid ↦ by cases hid
  obtain ⟨f, hf⟩ := Pool.step_rewrites hp fun _ _ _ hinput ↦ by cases hinput
  refine ⟨hs.consistent.step hp, hs'.length.trans hf.length.symm, ?_, ?_⟩
  · intro k' c' wire id hk hwire' hid
    obtain ⟨c, hc, rfl⟩ := hf.get_inv hk
    rw [hf.requestId]
    exact hs'.carries k' c wire id hc hwire' hid
  · intro id response' hanswered
    rcases Pool.answered_step hp id response' hanswered with hold | ⟨j, hinput⟩
    · obtain ⟨k', c, hc, hid, hwire'⟩ := hs'.arrived id response' hold
      exact ⟨k', _, hf.get hc, (hf.requestId _ _).trans hid, hwire'⟩
    · cases hinput
      obtain ⟨hlt, -⟩ := List.getElem?_eq_some_iff.mp hwire
      rw [hs.length] at hlt
      have hc := List.getElem?_eq_getElem hlt
      have hid := hs.carries k _ _ _ hc hwire rfl
      refine ⟨k, _, hf.get hc, (hf.requestId _ _).trans hid.symm, ?_⟩
      change (s.setWire k .arrived).requests[k]? = _
      rw [requests_setWire hwire, if_pos rfl]

theorem Matched.step (hs : s.Matched) (h : s.step input = some t) : t.Matched := by
  cases input with
  | establish =>
      simp only [AgentGrpcClient.step] at h
      split at h
      · obtain ⟨p, hp, rfl⟩ := Option.map_eq_some_iff.mp h
        obtain ⟨f, hf⟩ := Pool.step_rewrites hp fun _ _ _ hinput ↦ by cases hinput
        have hconsistent := hs.consistent.step hp
        cases hp
        exact hs.rewrites hf hconsistent rfl rfl
      · cases h
  | replaceSender =>
      simp only [AgentGrpcClient.step] at h
      split at h
      · cases h
        exact hs.frame rfl rfl
      · cases h
  | replacePending =>
      simp only [AgentGrpcClient.step] at h
      split at h
      · cases h
        exact hs.frame rfl rfl
      · cases h
  | disconnect session =>
      cases h
      exact hs.frame rfl rfl
  | register call requestId => exact hs.register h
  | pick k =>
      obtain ⟨wire, hwire, hrest⟩ := Option.bind_eq_some_iff.mp h
      split at hrest
      · cases hrest
        exact hs.setWire hwire (fun harrived ↦ by cases harrived) fun _ _ _ hid ↦ by cases hid
      · cases hrest
  | enqueue k =>
      obtain ⟨c, hc, hrest⟩ := Option.bind_eq_some_iff.mp h
      obtain ⟨wire, hwire, hrest⟩ := Option.bind_eq_some_iff.mp hrest
      split at hrest
      · split_ifs at hrest
        cases hrest
        refine hs.setWire hwire (fun harrived ↦ by cases harrived) fun d id hd hid ↦ ?_
        obtain rfl := Option.some.inj (hc.symm.trans hd)
        exact (Option.some.inj hid).symm
      · cases hrest
  | wait k =>
      obtain ⟨wire, -, hrest⟩ := Option.bind_eq_some_iff.mp h
      split at hrest
      · cases hrest
      · cases hrest
      · exact hs.quiet (i := .wait k) trivial hrest
  | poll k => exact hs.quiet (i := .poll k) trivial h
  | giveUp k => exact hs.quiet (i := .giveUp k) trivial h
  | respond k response =>
      obtain ⟨wire, hwire, hrest⟩ := Option.bind_eq_some_iff.mp h
      split at hrest
      · cases hrest
        exact hs.setWire hwire (fun harrived ↦ by cases harrived)
          fun c id hc hid ↦ hs.carries k c _ id hc hwire hid
      · cases hrest
  | arrive k => exact hs.arrive h
  | cleanup table => exact hs.quiet (i := .cleanup table) trivial h
  | drop table =>
      simp only [AgentGrpcClient.step] at h
      split_ifs at h
      obtain ⟨p, hp, rfl⟩ := Option.map_eq_some_iff.mp h
      obtain ⟨f, hf⟩ := Pool.step_rewrites hp fun _ _ _ hinput ↦ by cases hinput
      have hconsistent := hs.consistent.step hp
      obtain ⟨u, -, rfl⟩ := Pool.step_drop hp
      exact hs.rewrites hf hconsistent rfl rfl
  | advance duration => exact hs.quiet (i := .advance duration) trivial (step_advance h).2

theorem Matched.run (hs : s.Matched) {inputs : List (ClientInput R)}
    (h : run AgentGrpcClient.step s inputs = some t) : t.Matched :=
  run_invariant_of_step (fun _ _ _ hs h ↦ Matched.step hs h) hs h

/-! ## No send outlasts its deadline -/

/-- The wait of a call that is still sending would end within the staleness bound. -/
structure FitsWire (now : ℕ) (c : Call R) (wire : RequestWire R) : Prop where
  onTime : OnTime now c wire
  picked : ∀ session deadline, wire = .picked session deadline →
    now ≤ deadline ∧ deadline + c.caller.timeout ≤ c.createdAt + STALE_REQUEST_TIMEOUT

theorem FitsWire.inTime {now : ℕ} {c : Call R} {wire : RequestWire R} (h : FitsWire now c wire) :
    now + c.caller.timeout ≤ c.createdAt + STALE_REQUEST_TIMEOUT := by
  cases wire with
  | unsent =>
      have honTime := h.onTime
      simp only [OnTime] at honTime
      omega
  | picked session deadline =>
      obtain ⟨hnow, hdeadline⟩ := h.picked session deadline rfl
      omega
  | queued | responded | arrived => exact h.onTime

def SendsFit (s : AgentGrpcClient R) : Prop :=
  ∀ (k : ℕ) c wire, s.pool.calls[k]? = some c → s.requests[k]? = some wire →
    c.phase.isSending = true → FitsWire s.pool.now c wire

theorem FitsWire.congr {now : ℕ} {c c' : Call R} {wire : RequestWire R} (h : FitsWire now c wire)
    (hcreated : c.createdAt = c'.createdAt) (hcaller : c.caller = c'.caller) :
    FitsWire now c' wire := by
  obtain ⟨honTime, hpicked⟩ := h
  refine ⟨?_, ?_⟩
  · cases wire <;> simp only [OnTime, hcreated, hcaller] at honTime ⊢ <;> exact honTime
  · rwa [hcreated, hcaller] at hpicked

theorem SendsFit.setWire (hs : s.SendsFit) {wire wire' : RequestWire R}
    (hk : s.requests[k]? = some wire)
    (hfits : ∀ c : Call R, FitsWire s.pool.now c wire → FitsWire s.pool.now c wire') :
    (s.setWire k wire').SendsFit := by
  intro k' c wire'' hc hwire hsending
  rw [requests_setWire hk] at hwire
  split_ifs at hwire with hkk
  · subst hkk
    obtain rfl := Option.some.inj hwire
    exact hfits c (hs k c wire hc hk hsending)
  · exact hs k' c wire'' hc hwire hsending

/-- The tables take a step that registers nothing and takes no time. -/
theorem SendsFit.frame (hs : s.SendsFit) {i : PendingInput R} (hp : s.pool.step i = some t.pool)
    (hregister : ∀ j id caller, i ≠ .register j id caller) (hadvance : ∀ d, i ≠ .advance d)
    (hrequests : t.requests = s.requests) : t.SendsFit := by
  intro k c wire hc hwire hsending
  rw [Pool.now_step hp hadvance]
  rcases Pool.sending_step hp hc hsending with ⟨old, hold, hsent, hcreated, hcaller⟩ | ⟨j, id, hi, -⟩
  · exact (hs k old wire hold (hrequests ▸ hwire) hsent).congr hcreated hcaller
  · exact absurd hi (hregister j id c.caller)

theorem SendsFit.pass (hs : s.SendsFit) {i : PendingInput R}
    (hregister : ∀ j id caller, i ≠ .register j id caller) (hadvance : ∀ d, i ≠ .advance d)
    (h : (s.pool.step i).map s.setPool = some t) : t.SendsFit := by
  obtain ⟨p, hp, rfl⟩ := Option.map_eq_some_iff.mp h
  exact hs.frame (t := s.setPool p) hp hregister hadvance rfl

theorem SendsFit.step (hs : s.SendsFit) (hmatched : s.Matched) (hok : s.Prompt input)
    (h : s.step input = some t) : t.SendsFit := by
  cases input with
  | establish =>
      simp only [AgentGrpcClient.step] at h
      split at h
      · obtain ⟨p, hp, rfl⟩ := Option.map_eq_some_iff.mp h
        exact hs.frame (t := { s with pool := p, reconnecting := _ }) hp
          (fun _ _ _ hi ↦ by cases hi) (fun _ hi ↦ by cases hi) rfl
      · cases h
  | replaceSender | replacePending =>
      simp only [AgentGrpcClient.step] at h
      split at h
      · cases h
        exact hs
      · cases h
  | disconnect session =>
      cases h
      exact hs
  | register call requestId =>
      obtain ⟨p, hp, rfl⟩ := Option.map_eq_some_iff.mp h
      have hnow := Pool.now_step hp fun _ hi ↦ by cases hi
      intro k c wire hc hwire hsending
      replace hwire : (s.requests ++ [.unsent])[k]? = some wire := hwire
      change FitsWire p.now c wire
      rw [hnow]
      rcases Pool.sending_step hp hc hsending with
        ⟨old, hold, hsent, hcreated, hcaller⟩ | ⟨j, id, hi, rfl, hcreated⟩
      · obtain ⟨hlt, -⟩ := List.getElem?_eq_some_iff.mp hold
        rw [← hmatched.length] at hlt
        rw [List.getElem?_append_left hlt] at hwire
        exact (hs k old wire hold hwire hsent).congr hcreated hcaller
      · rw [← hmatched.length, List.getElem?_concat_length] at hwire
        obtain rfl := Option.some.inj hwire
        have htimeout := call.timeout_le
        rw [(PendingInput.register.inj hi).2.2] at htimeout
        refine ⟨?_, fun _ _ hwire ↦ by cases hwire⟩
        simp only [OnTime]
        omega
  | pick k =>
      obtain ⟨wire, hwire, hrest⟩ := Option.bind_eq_some_iff.mp h
      split at hrest
      · cases hrest
        refine hs.setWire hwire fun c hfits ↦ ⟨trivial, fun session deadline heq ↦ ?_⟩
        cases heq
        exact ⟨Nat.le_add_right _ _, hfits.onTime⟩
      · cases hrest
  | enqueue k =>
      obtain ⟨c, -, hrest⟩ := Option.bind_eq_some_iff.mp h
      obtain ⟨wire, hwire, hrest⟩ := Option.bind_eq_some_iff.mp hrest
      split at hrest
      · split_ifs at hrest
        cases hrest
        exact hs.setWire hwire fun c hfits ↦ ⟨hfits.inTime, fun _ _ heq ↦ by cases heq⟩
      · cases hrest
  | wait k =>
      obtain ⟨wire, -, hrest⟩ := Option.bind_eq_some_iff.mp h
      split at hrest
      · cases hrest
      · cases hrest
      · exact hs.pass (i := .wait k) (fun _ _ _ hi ↦ by cases hi) (fun _ hi ↦ by cases hi) hrest
  | poll k => exact hs.pass (i := .poll k) (fun _ _ _ hi ↦ by cases hi) (fun _ hi ↦ by cases hi) h
  | giveUp k =>
      exact hs.pass (i := .giveUp k) (fun _ _ _ hi ↦ by cases hi) (fun _ hi ↦ by cases hi) h
  | respond k response =>
      obtain ⟨wire, hwire, hrest⟩ := Option.bind_eq_some_iff.mp h
      split at hrest
      · cases hrest
        exact hs.setWire hwire fun c hfits ↦ ⟨hfits.inTime, fun _ _ heq ↦ by cases heq⟩
      · cases hrest
  | arrive k =>
      obtain ⟨session, requestId, response, hwire, p, hp, rfl⟩ := step_arrive h
      have hs' : (s.setWire k .arrived).SendsFit :=
        hs.setWire hwire fun c hfits ↦ ⟨hfits.inTime, fun _ _ heq ↦ by cases heq⟩
      exact hs'.frame (t := (s.setWire k .arrived).setPool p) hp (fun _ _ _ hi ↦ by cases hi)
        (fun _ hi ↦ by cases hi) rfl
  | cleanup table =>
      exact hs.pass (i := .cleanup table) (fun _ _ _ hi ↦ by cases hi) (fun _ hi ↦ by cases hi) h
  | drop table =>
      simp only [AgentGrpcClient.step] at h
      split_ifs at h
      exact hs.pass (i := .drop table) (fun _ _ _ hi ↦ by cases hi) (fun _ hi ↦ by cases hi) h
  | advance duration =>
      obtain ⟨hwaits, hstep⟩ := step_advance h
      obtain ⟨p, hp, rfl⟩ := Option.map_eq_some_iff.mp hstep
      cases hp
      intro k c wire hc hwire hsending
      refine ⟨hok k c wire hc hwire hsending, fun session deadline heq ↦ ?_⟩
      have hdeadline := hwaits k c wire hc hwire hsending
      rw [heq] at hdeadline
      exact ⟨of_decide_eq_true hdeadline, ((hs k c wire hc hwire hsending).picked _ _ heq).2⟩

/-- Where nothing else holds a call up, time passes only within the bound of the tables. -/
theorem sound_step (hs : s.pool.Sound) (hmatched : s.Matched) (hfit : s.SendsFit)
    (hok : s.Prompt input) (h : s.step input = some t) : t.pool.Sound := by
  rcases pool_step h with hsame | ⟨i, hi, ⟨duration, rfl, rfl⟩ | hin⟩
  · rwa [hsame]
  · obtain ⟨p, hp, ht⟩ := Option.map_eq_some_iff.mp (step_advance h).2
    have hrequests : t.requests = s.requests := by rw [← ht, setPool]
    have hpool : t.pool = { s.pool with now := s.pool.now + duration } := by
      rw [← ht]
      exact (Option.some.inj hp).symm
    refine hs.step (fun c hmem hsending ↦ ?_) hi
    obtain ⟨k, hk⟩ := List.mem_iff_getElem?.mp hmem
    obtain ⟨hlt, -⟩ := List.getElem?_eq_some_iff.mp hk
    rw [← hmatched.length] at hlt
    have hnext := hfit.step hmatched hok h k c s.requests[k] (by rw [hpool]; exact hk)
      (by rw [hrequests]; exact List.getElem?_eq_getElem hlt) hsending
    rw [hpool] at hnext
    exact hnext.inTime
  · exact hs.step hin hi

/-! ## Registered and sent on one session -/

/-- The session whose sender the request has taken. -/
def wireSession : RequestWire R → Option ℕ
  | .picked session _ | .queued session _ | .responded session _ _ => some session
  | _ => none

/-- A request takes the sender of the session in whose table it is registered:
no reconnect has replaced the sender alone before, or any cell in between. -/
def Together (s : AgentGrpcClient R) : ClientInput R → Prop
  | .pick k => ∀ c ∈ s.pool.calls[k]?, c.table = s.sharedSender
  | _ => True

def Paired (s : AgentGrpcClient R) : Prop :=
  ∀ (k : ℕ) c wire session, s.pool.calls[k]? = some c → s.requests[k]? = some wire →
    wireSession wire = some session → c.table = session

theorem Paired.setWire (hs : s.Paired) {wire wire' : RequestWire R}
    (hk : s.requests[k]? = some wire)
    (hsession : ∀ c session, s.pool.calls[k]? = some c → wireSession wire' = some session →
      c.table = session) : (s.setWire k wire').Paired := by
  intro k' c wire'' session hc hwire hwireSession
  rw [requests_setWire hk] at hwire
  split_ifs at hwire with hkk
  · subst hkk
    obtain rfl := Option.some.inj hwire
    exact hsession c session hc hwireSession
  · exact hs k' c wire'' session hc hwire hwireSession

theorem Paired.rewrites (hs : s.Paired) {f : ℕ → Call R → Call R}
    (hf : Pool.Rewrites s.pool t.pool f) (hrequests : t.requests = s.requests) : t.Paired := by
  intro k c' wire session hk hwire hsession
  obtain ⟨c, hc, rfl⟩ := hf.get_inv hk
  rw [hf.table]
  exact hs k c wire session hc (hrequests ▸ hwire) hsession

/-- Inputs that neither register a request nor move one. -/
theorem Paired.pass (hs : s.Paired) {i : PendingInput R}
    (hregister : ∀ j id caller, i ≠ .register j id caller)
    (h : (s.pool.step i).map s.setPool = some t) : t.Paired := by
  obtain ⟨p, hp, rfl⟩ := Option.map_eq_some_iff.mp h
  obtain ⟨f, hf⟩ := Pool.step_rewrites hp hregister
  exact hs.rewrites (t := s.setPool p) hf rfl

theorem Paired.step (hs : s.Paired) (hmatched : s.Matched) (hok : s.Together input)
    (h : s.step input = some t) : t.Paired := by
  cases input with
  | establish =>
      simp only [AgentGrpcClient.step] at h
      split at h
      · obtain ⟨p, hp, rfl⟩ := Option.map_eq_some_iff.mp h
        cases hp
        exact hs
      · cases h
  | replaceSender =>
      simp only [AgentGrpcClient.step] at h
      split at h
      · cases h
        exact hs
      · cases h
  | replacePending =>
      simp only [AgentGrpcClient.step] at h
      split at h
      · cases h
        exact hs
      · cases h
  | disconnect session =>
      cases h
      exact hs
  | register call requestId =>
      obtain ⟨p, hp, rfl⟩ := Option.map_eq_some_iff.mp h
      obtain ⟨u, -, -, -, rfl⟩ := Pool.step_register hp
      intro k c wire session hk hwire hsession
      replace hwire : (s.requests ++ [.unsent])[k]? = some wire := hwire
      rcases (Pool.calls_register s.pool s.sharedPending u requestId call.caller k c).mp hk with
        hold | ⟨rfl, rfl⟩
      · obtain ⟨hlt, -⟩ := List.getElem?_eq_some_iff.mp hold
        rw [← hmatched.length] at hlt
        rw [List.getElem?_append_left hlt] at hwire
        exact hs k c wire session hold hwire hsession
      · rw [← hmatched.length, List.getElem?_concat_length] at hwire
        cases hwire
        cases hsession
  | pick k =>
      obtain ⟨wire, hwire, hrest⟩ := Option.bind_eq_some_iff.mp h
      split at hrest
      · cases hrest
        refine hs.setWire hwire fun c session hc hsession ↦ ?_
        rw [← Option.some.inj hsession]
        exact hok c hc
      · cases hrest
  | enqueue k =>
      obtain ⟨c, hc, hrest⟩ := Option.bind_eq_some_iff.mp h
      obtain ⟨wire, hwire, hrest⟩ := Option.bind_eq_some_iff.mp hrest
      split at hrest
      · split_ifs at hrest
        cases hrest
        exact hs.setWire hwire fun d session hd hsession ↦ hs k d _ session hd hwire hsession
      · cases hrest
  | wait k =>
      obtain ⟨wire, -, hrest⟩ := Option.bind_eq_some_iff.mp h
      split at hrest
      · cases hrest
      · cases hrest
      · exact hs.pass (i := .wait k) (fun _ _ _ hinput ↦ by cases hinput) hrest
  | poll k => exact hs.pass (i := .poll k) (fun _ _ _ hinput ↦ by cases hinput) h
  | giveUp k => exact hs.pass (i := .giveUp k) (fun _ _ _ hinput ↦ by cases hinput) h
  | respond k response =>
      obtain ⟨wire, hwire, hrest⟩ := Option.bind_eq_some_iff.mp h
      split at hrest
      · cases hrest
        exact hs.setWire hwire fun d session hd hsession ↦ hs k d _ session hd hwire hsession
      · cases hrest
  | arrive k =>
      obtain ⟨session, requestId, response, hwire, p, hp, rfl⟩ := step_arrive h
      have hs' : (s.setWire k .arrived).Paired :=
        hs.setWire hwire fun _ _ _ hsession ↦ by cases hsession
      obtain ⟨f, hf⟩ := Pool.step_rewrites hp fun _ _ _ hinput ↦ by cases hinput
      exact hs'.rewrites (t := (s.setWire k .arrived).setPool p) hf rfl
  | cleanup table => exact hs.pass (i := .cleanup table) (fun _ _ _ hinput ↦ by cases hinput) h
  | drop table =>
      simp only [AgentGrpcClient.step] at h
      split_ifs at h
      exact hs.pass (i := .drop table) (fun _ _ _ hinput ↦ by cases hinput) h
  | advance duration =>
      exact hs.pass (i := .advance duration) (fun _ _ _ hinput ↦ by cases hinput) (step_advance h).2

/-! ## Responses -/

/-- A response in time is taken exactly if the request is registered in the
table of the session on which the response arrives. -/
theorem Matched.arrive_own (hs : s.Matched) (hsound : s.pool.Sound)
    (h : s.step (.arrive k) = some t) {c : Call R} {session : ℕ} {requestId : String}
    (hc : s.pool.calls[k]? = some c)
    (hwire : s.requests[k]? = some (.responded session requestId response))
    (hwaits : c.StillWaiting s.pool.now) :
    t.pool.Answered k response ↔ c.table = session := by
  obtain ⟨session', requestId', response', hwire', p, hp, rfl⟩ := step_arrive h
  cases hwire.symm.trans hwire'
  obtain rfl := hs.carries k c _ _ hc hwire rfl
  obtain ⟨u, hu, rfl⟩ := Pool.step_complete hp
  have hunanswered : ∀ r, (c.requestId, r) ∉ s.pool.answered := by
    intro r hanswered
    obtain ⟨k', d, hd, hid, harrived⟩ := hs.arrived c.requestId r hanswered
    obtain rfl := hs.consistent.distinct k' k d c hd hc hid
    cases hwire.symm.trans harrived
  constructor
  · rintro ⟨d, hd, hfull, -⟩
    by_contra htable
    have helsewhere := hs.consistent.complete_elsewhere c.requestId response hu hc htable
    obtain rfl := Option.some.inj (helsewhere.symm.trans hd)
    exact hunanswered response (hs.consistent.full k c response hc hfull)
  · rintro rfl
    have hlistening : c.Listening = true := by
      by_contra hnot
      exact Pool.not_stillWaiting_of_not_listening (Bool.eq_false_of_not_eq_true hnot) hwaits
    have hempty : c.rx = .empty := by
      rcases hsound.open_or_answered hc hwaits hu with hempty | ⟨r, hanswered⟩
      · exact hempty
      · exact (hunanswered r hanswered).elim
    exact ⟨_, hs.consistent.complete_own response hc hu hempty hlistening, rfl, .inl hlistening⟩

/-- In the runs in which callers are not held up, a response that arrives before the
timeout is what its caller gets, then and in every later state, if and only if
the session of the request is that of its table; and it is if every request has
taken the sender of the session in whose table it is registered. -/
theorem response_reaches_waiter (inputs : List (ClientInput R)) (s : AgentGrpcClient R)
    (hrun : run step connected inputs = some s) (hprompt : Within step Prompt connected inputs)
    (k : ℕ) (t : AgentGrpcClient R) (harrive : s.step (.arrive k) = some t) (c : Call R)
    (session : ℕ) (requestId : String) (response : R) (hc : s.pool.calls[k]? = some c)
    (hwire : s.requests[k]? = some (.responded session requestId response))
    (hwaits : c.StillWaiting s.pool.now) :
    ((∀ later u, run step t later = some u → u.pool.Answered k response) ↔ c.table = session) ∧
    (Within step Together connected inputs → c.table = session) := by
  have hs : s.Matched := matched_connected.run hrun
  refine ⟨?_, fun htogether ↦ ?_⟩
  · have hsteps : ∀ (s : AgentGrpcClient R) input t, s.Matched ∧ s.SendsFit ∧ s.pool.Sound →
        s.Prompt input → s.step input = some t → t.Matched ∧ t.SendsFit ∧ t.pool.Sound :=
      fun _ _ _ ⟨hm, hf, hs⟩ hok h ↦ ⟨hm.step h, hf.step hm hok h, sound_step hs hm hf hok h⟩
    have hempty : (Pool.empty : Pool R).step .new = some (connected : AgentGrpcClient R).pool := rfl
    have hintime : (Pool.empty : Pool R).InTime .new := trivial
    have hconnected : (connected : AgentGrpcClient R).pool.Sound :=
      Pool.sound_empty.step hintime hempty
    have hfit : (connected : AgentGrpcClient R).SendsFit := by
      intro k c wire hc
      simp [connected, Pool.empty] at hc
    obtain ⟨-, -, hsound⟩ :=
      run_invariant hsteps ⟨matched_connected, hfit, hconnected⟩ hprompt hrun
    rw [← hs.arrive_own hsound harrive hc hwire hwaits]
    refine ⟨fun hall ↦ hall [] t rfl, fun hanswered later u hlater ↦ ?_⟩
    have hstep : ∀ (s : AgentGrpcClient R) input t, s.Matched ∧ s.pool.Answered k response →
        s.step input = some t → t.Matched ∧ t.pool.Answered k response :=
      fun _ _ _ hs h ↦ ⟨hs.1.step h, answered_step hs.1.consistent hs.2 h⟩
    exact (run_invariant_of_step hstep ⟨hs.step harrive, hanswered⟩ hlater).2
  · have hsteps : ∀ (s : AgentGrpcClient R) input t, s.Matched ∧ s.Paired → s.Together input →
        s.step input = some t → t.Matched ∧ t.Paired :=
      fun _ _ _ hs hok h ↦ ⟨hs.1.step h, hs.2.step hs.1 hok h⟩
    have hconnected : (connected : AgentGrpcClient R).Paired := by
      intro k c wire session hk
      simp [connected, Pool.empty] at hk
    have hpaired := (run_invariant hsteps ⟨matched_connected, hconnected⟩ htogether hrun).2
    exact hpaired k c _ session hc hwire rfl

/-- After a reconnect a token is validated on the new session, in whose queue the
request waits nine seconds for a place. -/
def validateAfterReconnect : List (ClientInput ℕ) :=
  [.disconnect 0, .establish, .replaceSender, .replacePending, .register .validateToken "a",
    .pick 0, .advance (seconds 9), .enqueue 0, .wait 0, .respond 0 7]

theorem response_reaches_waiter_validateToken :
    ∃ s t : AgentGrpcClient ℕ, run step connected validateAfterReconnect = some s ∧
      s.pool.now = seconds 9 ∧ s.step (.arrive 0) = some t ∧
      ∀ later u, run step t later = some u → u.pool.Answered 0 7 := by
  have hprompt : Within step Prompt connected validateAfterReconnect := by
    refine .cons trivial rfl (.cons trivial rfl (.cons trivial rfl (.cons trivial rfl
      (.cons trivial rfl (.cons trivial rfl (.cons ?_ rfl (.cons trivial rfl (.cons trivial rfl
        (.cons trivial rfl trivial)))))))))
    intro k c wire _ hwire _
    obtain rfl := List.mem_singleton.mp (List.mem_of_getElem? hwire)
    trivial
  have hwaits : seconds 9 < seconds 9 + seconds 10 := by decide
  exact ⟨_, _, rfl, rfl, rfl, ((response_reaches_waiter validateAfterReconnect _ rfl hprompt 0 _ rfl
    _ 1 "a" 7 rfl rfl hwaits).1).mpr rfl⟩

/-- Registered before the reconnect and sent after it: the response is lost and
the caller times out. -/
theorem not_reached_reconnect :
    ∃ s u : AgentGrpcClient ℕ, ∃ c d, run step connected [.disconnect 0,
        .register .validateToken "a", .establish, .replaceSender, .replacePending, .pick 0,
        .enqueue 0, .wait 0, .respond 0 7] = some s ∧
      s.pool.calls[0]? = some c ∧ c.StillWaiting s.pool.now ∧
      run step s [.arrive 0, .advance (seconds 10), .poll 0] = some u ∧
      u.pool.calls[0]? = some d ∧ d.phase = .done (.error "请求超时") := by
  have hwaits : 0 < seconds 10 := by decide
  exact ⟨_, _, _, _, rfl, rfl, hwaits, rfl, rfl, rfl⟩

end AgentGrpcClient

end Oxiproxy.Node
