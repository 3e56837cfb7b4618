import Oxiproxy.Common.PendingTimeouts
import Oxiproxy.Common.Protocol

/-!
# Commands to nodes and their replies

The controller keeps one stream for each connected node, with a table of pending
requests.  A command gets its request id only when it is sent, and the node
echoes it in its reply on the same session.
-/

namespace Oxiproxy.Controller

open Transition

/-- The certificate that the controller issues for a node. -/
structure NodeCertificate where
  certPem : String
  keyPem : String
  fingerprint : String
  expiresAt : ℤ
  deriving DecidableEq

/-- The commands that `sendCommandAndWait` is called with. -/
inductive ControllerPayload
  | startProxy (requestId clientId : String) (proxyId : ℤ) (config : Option ProxyConfig)
  | stopProxy (requestId clientId : String) (proxyId : ℤ)
  | getStatus (requestId : String)
  | getClientLogs (requestId clientId : String) (count : ℕ)
  | getNodeLogs (requestId : String) (lines : ℕ)
  | updateProtocol (requestId tunnelProtocol : String)
  | updateSpeedLimit (requestId : String) (speedLimit : ℤ)
  | softwareUpdate (requestId : String)
  | restart (requestId : String)
  | updateCertificate (requestId : String) (certificate : Option NodeCertificate)

namespace ControllerPayload

/-- The id that the node finds in the command, and echoes. -/
def requestId : ControllerPayload → String
  | startProxy id _ _ _ | stopProxy id _ _ | getStatus id | getClientLogs id _ _
  | getNodeLogs id _ | updateProtocol id _ | updateSpeedLimit id _ | softwareUpdate id
  | restart id | updateCertificate id _ => id

def replaceRequestId (payload : ControllerPayload) (id : String) : ControllerPayload :=
  match payload with
  | startProxy _ clientId proxyId config => startProxy id clientId proxyId config
  | stopProxy _ clientId proxyId => stopProxy id clientId proxyId
  | getStatus _ => getStatus id
  | getClientLogs _ clientId count => getClientLogs id clientId count
  | getNodeLogs _ lines => getNodeLogs id lines
  | updateProtocol _ tunnelProtocol => updateProtocol id tunnelProtocol
  | updateSpeedLimit _ speedLimit => updateSpeedLimit id speedLimit
  | softwareUpdate _ => softwareUpdate id
  | restart _ => restart id
  | other => other

def IsUpdateCertificate : ControllerPayload → Bool
  | updateCertificate _ _ => true
  | _ => false

theorem requestId_replaceRequestId (payload : ControllerPayload) (id : String) :
    (payload.replaceRequestId id).requestId =
      if payload.IsUpdateCertificate then payload.requestId else id := by
  cases payload <;> rfl

theorem isUpdateCertificate_replaceRequestId (payload : ControllerPayload) (id : String) :
    (payload.replaceRequestId id).IsUpdateCertificate = payload.IsUpdateCertificate := by
  cases payload <;> rfl

end ControllerPayload

/-- The reply of a node; what it reports about the command is not looked at here. -/
structure AgentServerResponse (R : Type) where
  requestId : String
  result : Option R

/-- How far a command has come on its way. -/
inductive Wire (R : Type)
  | unsent
  | sent
  | replied (response : AgentServerResponse R)
  | arrived

structure NodeCommand (R : Type) where
  payload : ControllerPayload
  wire : Wire R

inductive ManagerInput (R : Type)
  | registerNodeStream (nodeId : ℤ)
  | unregisterNodeStream (session : ℕ)
  /-- The first part of `send_command_and_wait`: the request is registered. -/
  | command (nodeId : ℤ) (payload : ControllerPayload) (requestId : String)
  /-- The channel of the session has taken the command. -/
  | enqueue (call : ℕ)
  | wait (call : ℕ)
  | poll (call : ℕ)
  /-- The send has failed, or the caller has gone. -/
  | giveUp (call : ℕ)
  /-- The node has handled the command. -/
  | reply (call : ℕ) (result : Option R)
  /-- The reply is read from the stream of the session. -/
  | arrive (call : ℕ)
  | cleanup (session : ℕ)
  | advance (duration : ℕ)

structure NodeStreams (R : Type) where
  /-- The session of each connected node. -/
  streams : AList fun _ : ℤ ↦ ℕ
  /-- The node of each session. -/
  nodes : List ℤ
  /-- The table of a session has its number. -/
  pool : Pool (AgentServerResponse R)
  /-- The command of each call. -/
  commands : List (NodeCommand R)

namespace NodeStreams

variable {R : Type}

def new : NodeStreams R := ⟨∅, [], .empty, []⟩

def setWire (s : NodeStreams R) (k : ℕ) (wire : Wire R) : NodeStreams R :=
  { s with commands := s.commands.modify k fun command ↦ { command with wire := wire } }

def setPool (s : NodeStreams R) (pool : Pool (AgentServerResponse R)) : NodeStreams R :=
  { s with pool := pool }

/-- The response goes to the stream that the node has now. -/
def completePendingRequest (s : NodeStreams R) (nodeId : ℤ) (response : AgentServerResponse R) :
    Option (NodeStreams R) :=
  match s.streams.lookup nodeId with
  | some session => (s.pool.step (.complete session response.requestId response)).map s.setPool
  | none => some s

def step (s : NodeStreams R) : ManagerInput R → Option (NodeStreams R)
  | .registerNodeStream nodeId =>
      -- the stream that is replaced is dropped
      let replaced := ((s.streams.lookup nodeId).map PendingInput.drop).toList
      (run Pool.step s.pool (.new :: replaced)).map fun pool ↦ {
        streams := s.streams.insert nodeId s.nodes.length
        nodes := s.nodes ++ [nodeId]
        pool := pool
        commands := s.commands }
  | .unregisterNodeStream session => do
      let nodeId ← s.nodes[session]?
      if s.streams.lookup nodeId = some session then
        (s.pool.step (.drop session)).map fun pool ↦
          { s with streams := s.streams.erase nodeId, pool := pool }
      else some s
  | .command nodeId payload requestId => do
      let session ← s.streams.lookup nodeId
      let pool ← s.pool.step (.register session requestId .sendCommandAndWait)
      -- every caller leaves the id empty
      if payload.requestId = "" then
        some { s with
          pool := pool
          commands := s.commands ++ [⟨payload.replaceRequestId requestId, .unsent⟩] }
      else none
  | .enqueue k => do
      let c ← s.pool.calls[k]?
      let command ← s.commands[k]?
      match command.wire with
      | .unsent => if c.phase.isSending then some (s.setWire k .sent) else none
      | _ => none
  | .wait k => do
      let command ← s.commands[k]?
      match command.wire with
      | .unsent => none
      | _ => (s.pool.step (.wait k)).map s.setPool
  | .poll k => (s.pool.step (.poll k)).map s.setPool
  | .giveUp k => (s.pool.step (.giveUp k)).map s.setPool
  | .reply k result => do
      let command ← s.commands[k]?
      match command.wire with
      | .sent => some (s.setWire k (.replied ⟨command.payload.requestId, result⟩))
      | _ => none
  | .arrive k => do
      let c ← s.pool.calls[k]?
      let command ← s.commands[k]?
      let nodeId ← s.nodes[c.table]?
      match command.wire with
      | .replied response => (s.setWire k .arrived).completePendingRequest nodeId response
      | _ => none
  | .cleanup session => (s.pool.step (.cleanup session)).map s.setPool
  | .advance duration => (s.pool.step (.advance duration)).map s.setPool

/-- The send of no command takes so long that its wait would end more than the
staleness bound after its registration. -/
def Prompt (s : NodeStreams R) : ManagerInput R → Prop
  | .advance duration => Pool.InTime s.pool (.advance duration)
  | _ => True

/-! ## What the tables go through -/

variable {s t : NodeStreams R} {input : ManagerInput R} {k : ℕ}

theorem step_arrive (h : s.step (.arrive k) = some t) :
    ∃ c nodeId command response, s.pool.calls[k]? = some c ∧ s.nodes[c.table]? = some nodeId ∧
      s.commands[k]? = some command ∧ command.wire = .replied response ∧
      (s.setWire k .arrived).completePendingRequest nodeId response = some t := by
  obtain ⟨c, hc, hrest⟩ := Option.bind_eq_some_iff.mp h
  obtain ⟨command, hcommand, hrest⟩ := Option.bind_eq_some_iff.mp hrest
  obtain ⟨nodeId, hnode, hrest⟩ := Option.bind_eq_some_iff.mp hrest
  split at hrest
  · next response hwire => exact ⟨c, nodeId, command, response, hc, hnode, hcommand, hwire, hrest⟩
  · cases hrest

/-- Every step does at most two things to the pending requests. -/
theorem pool_run (h : s.step input = some t) :
    ∃ inputs, run Pool.step s.pool inputs = some t.pool ∧
      (s.Prompt input → Within Pool.step Pool.InTime s.pool inputs) := by
  have hone : ∀ {p q : Pool (AgentServerResponse R)} {i}, p.step i = some q →
      run Pool.step p [i] = some q := by
    intro p q i h
    rw [run_cons, h]
    rfl
  have hnone : s.pool = t.pool → ∃ inputs, run Pool.step s.pool inputs = some t.pool ∧
      (s.Prompt input → Within Pool.step Pool.InTime s.pool inputs) :=
    fun hsame ↦ ⟨[], by rw [hsame]; rfl, fun _ ↦ within_nil _⟩
  have hpass : ∀ i, (s.Prompt input → Pool.InTime s.pool i) →
      (s.pool.step i).map s.setPool = some t → ∃ inputs,
        run Pool.step s.pool inputs = some t.pool ∧
          (s.Prompt input → Within Pool.step Pool.InTime s.pool inputs) := by
    intro i hok hstep
    obtain ⟨p, hp, rfl⟩ := Option.map_eq_some_iff.mp hstep
    exact ⟨[i], hone hp, fun hprompt ↦ .cons (hok hprompt) hp (within_nil _)⟩
  cases input with
  | registerNodeStream nodeId =>
      obtain ⟨p, hp, rfl⟩ := Option.map_eq_some_iff.mp h
      refine ⟨_, hp, fun _ ↦ within_of_forall fun i hi _ ↦ ?_⟩
      rcases List.mem_cons.mp hi with rfl | hi
      · trivial
      · obtain ⟨session, -, rfl⟩ := Option.map_eq_some_iff.mp (Option.mem_toList.mp hi)
        trivial
  | unregisterNodeStream session =>
      obtain ⟨nodeId, -, hrest⟩ := Option.bind_eq_some_iff.mp h
      split_ifs at hrest
      · obtain ⟨p, hp, rfl⟩ := Option.map_eq_some_iff.mp hrest
        exact ⟨[.drop session], hone hp, fun _ ↦ .cons trivial hp (within_nil _)⟩
      · cases hrest
        exact hnone rfl
  | command nodeId payload requestId =>
      obtain ⟨session, -, hrest⟩ := Option.bind_eq_some_iff.mp h
      obtain ⟨p, hp, hrest⟩ := Option.bind_eq_some_iff.mp hrest
      split_ifs at hrest
      cases hrest
      have htimeout : Caller.sendCommandAndWait.timeout ≤ STALE_REQUEST_TIMEOUT := by decide
      exact ⟨[.register session requestId .sendCommandAndWait], hone hp,
        fun _ ↦ .cons htimeout hp (within_nil _)⟩
  | enqueue k =>
      obtain ⟨c, -, hrest⟩ := Option.bind_eq_some_iff.mp h
      obtain ⟨command, -, hrest⟩ := Option.bind_eq_some_iff.mp hrest
      split at hrest
      · split_ifs at hrest
        cases hrest
        exact hnone rfl
      · cases hrest
  | wait k =>
      obtain ⟨command, -, hrest⟩ := Option.bind_eq_some_iff.mp h
      split at hrest
      · cases hrest
      · exact hpass (.wait k) (fun _ ↦ trivial) hrest
  | poll k => exact hpass (.poll k) (fun _ ↦ trivial) h
  | giveUp k => exact hpass (.giveUp k) (fun _ ↦ trivial) h
  | reply k result =>
      obtain ⟨command, -, hrest⟩ := Option.bind_eq_some_iff.mp h
      split at hrest
      · cases hrest
        exact hnone rfl
      · cases hrest
  | arrive k =>
      obtain ⟨c, nodeId, command, response, -, -, -, -, hrest⟩ := step_arrive h
      unfold completePendingRequest at hrest
      split at hrest
      · next session _ =>
          obtain ⟨p, hp, rfl⟩ := Option.map_eq_some_iff.mp hrest
          exact ⟨[.complete session response.requestId response], hone hp,
            fun _ ↦ .cons trivial hp (within_nil _)⟩
      · cases hrest
        exact hnone rfl
  | cleanup session => exact hpass (.cleanup session) (fun _ ↦ trivial) h
  | advance duration => exact hpass (.advance duration) id h

theorem sound_step (hs : s.pool.Sound) (hok : s.Prompt input) (h : s.step input = some t) :
    t.pool.Sound := by
  obtain ⟨inputs, hrun, hwithin⟩ := pool_run h
  exact hs.run (hwithin hok) hrun

theorem answered_step {response : AgentServerResponse R} (hs : s.pool.Consistent)
    (hanswered : s.pool.Answered k response) (h : s.step input = some t) :
    t.pool.Answered k response := by
  obtain ⟨inputs, hrun, -⟩ := pool_run h
  have hstep : ∀ (p : Pool (AgentServerResponse R)) i q,
      p.Consistent ∧ p.Answered k response → p.step i = some q →
        q.Consistent ∧ q.Answered k response :=
    fun _ _ _ hp h ↦ ⟨hp.1.step h, hp.2.step hp.1 h⟩
  exact (run_invariant_of_step hstep ⟨hs, hanswered⟩ hrun).2

/-! ## Commands and calls agree -/

/-- A command and its reply carry the id of their call, unless the command is
one that keeps its empty id. -/
structure Carries (c : Call (AgentServerResponse R)) (command : NodeCommand R) : Prop where
  payload : command.payload.requestId =
    if command.payload.IsUpdateCertificate then "" else c.requestId
  reply : ∀ response, command.wire = .replied response →
    response.requestId = command.payload.requestId

structure Matched (s : NodeStreams R) : Prop where
  consistent : s.pool.Consistent
  sessions : s.nodes.length = s.pool.tables.length
  length : s.commands.length = s.pool.calls.length
  streams : ∀ nodeId session, s.streams.lookup nodeId = some session →
    s.nodes[session]? = some nodeId ∧ ∃ t, s.pool.table? session = some t
  carries : ∀ (k : ℕ) c command, s.pool.calls[k]? = some c → s.commands[k]? = some command →
    Carries c command
  arrived : ∀ id response, (id, response) ∈ s.pool.answered → 
    ∃ (k : ℕ) (c : Call (AgentServerResponse R)) (command : NodeCommand R),
      s.pool.calls[k]? = some c ∧ c.requestId = id ∧ s.commands[k]? = some command ∧
        command.wire = .arrived

theorem commands_setWire (s : NodeStreams R) (k k' : ℕ) (wire : Wire R) :
    (s.setWire k wire).commands[k']? =
      (s.commands[k']?).map fun command ↦
        if k = k' then { command with wire := wire } else command := by
  simp only [setWire, List.getElem?_modify]
  rfl

theorem matched_new : (new : NodeStreams R).Matched where
  consistent := Pool.consistent_empty
  sessions := rfl
  length := rfl
  streams nodeId session h := by cases h
  carries k c command hk := by simp [new, Pool.empty] at hk
  arrived id response h := by simp [new, Pool.empty] at h

theorem Matched.setWire (hs : s.Matched) {wire : Wire R}
    (hreply : ∀ command, s.commands[k]? = some command → ∀ response, wire = .replied response →
      response.requestId = command.payload.requestId)
    (harrived : ∀ command, s.commands[k]? = some command → command.wire = .arrived →
      wire = .arrived) : (s.setWire k wire).Matched := by
  refine ⟨hs.consistent, hs.sessions, (List.length_modify _ _ _).trans hs.length, hs.streams, ?_, ?_⟩
  · intro k' c command' hk hcommand
    rw [commands_setWire, Option.map_eq_some_iff] at hcommand
    obtain ⟨command, hcommand, rfl⟩ := hcommand
    have hcarries := hs.carries k' c command hk hcommand
    split_ifs with hkk
    · subst hkk
      exact ⟨hcarries.payload, hreply command hcommand⟩
    · exact hcarries
  · intro id response hanswered
    obtain ⟨k', c, command, hc, hid, hcommand, hwire⟩ := hs.arrived id response hanswered
    refine ⟨k', c, _, hc, hid, by rw [commands_setWire, hcommand]; rfl, ?_⟩
    split_ifs with hkk
    · subst hkk
      exact harrived command hcommand hwire
    · exact hwire

/-- The calls are rewritten, and nothing is answered. -/
theorem Matched.rewrites (hs : s.Matched) {p : Pool (AgentServerResponse R)}
    {f : ℕ → Call (AgentServerResponse R) → Call (AgentServerResponse R)}
    (hf : Pool.Rewrites s.pool p f) (hp : p.Consistent) (hlength : p.tables.length = t.nodes.length)
    (hpool : t.pool = p) (hcommands : t.commands = s.commands)
    (hanswered : p.answered = s.pool.answered)
    (hstreams : ∀ nodeId session, t.streams.lookup nodeId = some session →
      t.nodes[session]? = some nodeId ∧ ∃ t', p.table? session = some t') : t.Matched := by
  subst hpool
  refine ⟨hp, hlength.symm, by rw [hcommands, hs.length, hf.length], hstreams, ?_, ?_⟩
  · intro k c' command hk hcommand
    obtain ⟨c, hc, rfl⟩ := hf.get_inv hk
    rw [hcommands] at hcommand
    have hcarries := hs.carries k c command hc hcommand
    exact ⟨by rw [hf.requestId]; exact hcarries.payload, hcarries.reply⟩
  · intro id response h
    rw [hanswered] at h
    obtain ⟨k, c, command, hc, hid, hcommand, hwire⟩ := hs.arrived id response h
    exact ⟨k, _, command, hf.get hc, (hf.requestId _ _).trans hid, by rw [hcommands, hcommand],
      hwire⟩

theorem Matched.setPool (hs : s.Matched) {i : PendingInput (AgentServerResponse R)}
    (hquiet : i.IsQuiet) (h : (s.pool.step i).map s.setPool = some t) : t.Matched := by
  obtain ⟨p, hp, rfl⟩ := Option.map_eq_some_iff.mp h
  have hq := Pool.quiet_step hp hquiet
  obtain ⟨f, hf⟩ := hq.rewrites
  refine hs.rewrites hf (hs.consistent.step hp) (hq.length.trans hs.sessions.symm) rfl rfl
    hq.answered fun nodeId session hlookup ↦ ?_
  obtain ⟨hnode, t, ht⟩ := hs.streams nodeId session hlookup
  exact ⟨hnode, hq.live session t ht⟩

theorem Matched.arrive (hs : s.Matched) (h : s.step (.arrive k) = some t) : t.Matched := by
  obtain ⟨c, nodeId, command, response, hc, -, hcommand, hwire, hrest⟩ := step_arrive h
  have hs' : (s.setWire k .arrived).Matched :=
    hs.setWire (fun _ _ _ hreply ↦ by cases hreply) fun _ _ _ ↦ rfl
  unfold completePendingRequest at hrest
  split at hrest
  · next session hlookup =>
      obtain ⟨p, hp, rfl⟩ := Option.map_eq_some_iff.mp hrest
      have hconsistent := hs'.consistent.step hp
      obtain ⟨f, hf⟩ := Pool.step_rewrites hp fun _ _ _ hinput ↦ by cases hinput
      have hcommand' : (s.setWire k .arrived).commands[k]? =
          some { command with wire := .arrived } := by
        rw [commands_setWire, hcommand, Option.map_some, if_pos rfl]
      refine ⟨hconsistent, ?_, hs'.length.trans hf.length.symm, ?_, ?_, ?_⟩
      · obtain ⟨u, -, rfl⟩ := Pool.step_complete hp
        exact hs'.sessions.trans (Pool.length_complete _ _ _ _ _).symm
      · intro nodeId' session' hlookup'
        obtain ⟨hnode, u, hu⟩ := hs'.streams nodeId' session' hlookup'
        obtain ⟨u', hu', rfl⟩ := Pool.step_complete hp
        exact ⟨hnode, Pool.live_complete hu' _ _ hu⟩
      · intro k' d' command'' hk hcommand''
        obtain ⟨d, hd, rfl⟩ := hf.get_inv hk
        have hcarries := hs'.carries k' d command'' hd hcommand''
        exact ⟨by rw [hf.requestId]; exact hcarries.payload, hcarries.reply⟩
      · intro id response' hanswered
        rcases Pool.answered_step hp id response' hanswered with hold | ⟨j, hinput⟩
        · obtain ⟨k', d, command'', hd, hid, hcommand'', hwire''⟩ := hs'.arrived id response' hold
          exact ⟨k', _, command'', hf.get hd, (hf.requestId _ _).trans hid, hcommand'', hwire''⟩
        · -- only the call of the reply has its id
          cases hinput
          refine ⟨k, _, _, hf.get hc, ?_, hcommand', rfl⟩
          rw [hf.requestId]
          obtain ⟨k', d, hd, hid, -⟩ := hconsistent.answered _ _ hanswered
          have hcarries := hs.carries k c command hc hcommand
          have hreply := hcarries.reply response hwire
          rw [hreply, hcarries.payload]
          split_ifs with hupdate
          · have hnamed := hconsistent.named k' d hd
            rw [hid, hreply, hcarries.payload, if_pos hupdate] at hnamed
            exact (hnamed rfl).elim
          · rfl
  · cases hrest
    exact hs'

theorem Matched.registerNodeStream {nodeId : ℤ} (hs : s.Matched)
    (h : s.step (.registerNodeStream nodeId) = some t) : t.Matched := by
  have hconsistent : t.pool.Consistent := by
    obtain ⟨inputs, hrun, -⟩ := pool_run h
    exact run_invariant_of_step (fun _ _ _ hp h ↦ Pool.Consistent.step hp h) hs.consistent hrun
  obtain ⟨p, hp, rfl⟩ := Option.map_eq_some_iff.mp h
  obtain ⟨⟨f, hf⟩, hlength, hanswered, hnew, hlive⟩ := Pool.replace_run hp
  refine hs.rewrites hf hconsistent ?_ rfl rfl hanswered fun nodeId' session hlookup ↦ ?_
  · change p.tables.length = (s.nodes ++ [nodeId]).length
    rw [hlength, List.length_append, hs.sessions]
    rfl
  · replace hlookup : (s.streams.insert nodeId s.nodes.length).lookup nodeId' = some session :=
      hlookup
    change (s.nodes ++ [nodeId])[session]? = some nodeId' ∧ _
    have hrange : ∀ nodeId session, s.streams.lookup nodeId = some session →
        session < s.nodes.length := by
      intro nodeId session hlookup
      obtain ⟨hlt, -⟩ := List.getElem?_eq_some_iff.mp (hs.streams nodeId session hlookup).1
      exact hlt
    rw [AList.lookup_insert_eq_ite] at hlookup
    split_ifs at hlookup with hsame
    · subst hsame
      obtain rfl := Option.some.inj hlookup
      refine ⟨by simp, ?_⟩
      rw [hs.sessions]
      refine hnew fun hreplaced ↦ ?_
      have hlt := hrange nodeId' _ hreplaced
      rw [hs.sessions] at hlt
      exact hlt.false
    · obtain ⟨hnode, u, hu⟩ := hs.streams nodeId' session hlookup
      refine ⟨(List.getElem?_append_left (hrange nodeId' session hlookup)).trans hnode, ?_⟩
      refine hlive session u hu fun hreplaced ↦ hsame ?_
      exact Option.some.inj (hnode.symm.trans (hs.streams nodeId session hreplaced).1)

theorem Matched.unregisterNodeStream {session : ℕ} (hs : s.Matched)
    (h : s.step (.unregisterNodeStream session) = some t) : t.Matched := by
  obtain ⟨nodeId, hnode, hrest⟩ := Option.bind_eq_some_iff.mp h
  split_ifs at hrest with hcurrent
  · obtain ⟨p, hp, rfl⟩ := Option.map_eq_some_iff.mp hrest
    have hconsistent := hs.consistent.step hp
    obtain ⟨u, hu, rfl⟩ := Pool.step_drop hp
    refine hs.rewrites (Pool.rewrites_prune s.pool session u none fun _ ↦ false) hconsistent
      (List.length_set.trans hs.sessions.symm) rfl rfl rfl fun nodeId' session' hlookup ↦ ?_
    replace hlookup : (s.streams.erase nodeId).lookup nodeId' = some session' := hlookup
    rw [AList.lookup_erase_eq_ite] at hlookup
    split_ifs at hlookup with hsame
    obtain ⟨hnode', u', hu'⟩ := hs.streams nodeId' session' hlookup
    refine ⟨hnode', u', ?_⟩
    change (Pool.setTable _ session none).table? session' = _
    rw [Pool.table?_setTable hu, if_neg, hu']
    rintro rfl
    exact hsame (Option.some.inj (hnode'.symm.trans hnode))
  · cases hrest
    exact hs

theorem Matched.command {nodeId : ℤ} {payload : ControllerPayload} {requestId : String}
    (hs : s.Matched) (h : s.step (.command nodeId payload requestId) = some t) : t.Matched := by
  obtain ⟨session, hsession, hrest⟩ := Option.bind_eq_some_iff.mp h
  obtain ⟨p, hp, hrest⟩ := Option.bind_eq_some_iff.mp hrest
  split_ifs at hrest with hempty
  cases hrest
  have hconsistent := hs.consistent.step hp
  obtain ⟨u, hu, -, -, rfl⟩ := Pool.step_register hp
  have hcalls := Pool.calls_register s.pool session u requestId .sendCommandAndWait
  have hcommands : ∀ (k : ℕ) command, s.commands[k]? = some command →
      (s.commands ++ [⟨payload.replaceRequestId requestId, .unsent⟩])[k]? = some command := by
    intro k command hk
    obtain ⟨hlt, -⟩ := List.getElem?_eq_some_iff.mp hk
    exact (List.getElem?_append_left hlt).trans hk
  refine ⟨hconsistent, hs.sessions.trans List.length_set.symm, ?_, ?_, ?_, ?_⟩
  · change (s.commands ++ _).length = (s.pool.calls ++ _).length
    rw [List.length_append, List.length_append, hs.length]
    rfl
  · intro nodeId' session' hlookup
    obtain ⟨hnode, u', hu'⟩ := hs.streams nodeId' session' hlookup
    exact ⟨hnode, Pool.live_setTable hu _ hu'⟩
  · intro k c command hk hcommand
    replace hcommand : (s.commands ++
      [⟨payload.replaceRequestId requestId, .unsent⟩])[k]? = some command := hcommand
    rcases (hcalls k c).mp hk with hold | ⟨rfl, rfl⟩
    · obtain ⟨hlt, -⟩ := List.getElem?_eq_some_iff.mp hold
      rw [← hs.length] at hlt
      rw [List.getElem?_append_left hlt] at hcommand
      exact hs.carries k c command hold hcommand
    · rw [← hs.length, List.getElem?_concat_length] at hcommand
      cases hcommand
      refine ⟨?_, fun _ hreply ↦ by cases hreply⟩
      rw [ControllerPayload.requestId_replaceRequestId,
        ControllerPayload.isUpdateCertificate_replaceRequestId, hempty]
  · intro id response hanswered
    obtain ⟨k, c, command, hc, hid, hcommand, hwire⟩ := hs.arrived id response hanswered
    exact ⟨k, c, command, (hcalls k c).mpr (.inl hc), hid, hcommands k command hcommand, hwire⟩

theorem Matched.step (hs : s.Matched) (h : s.step input = some t) : t.Matched := by
  cases input with
  | registerNodeStream nodeId => exact hs.registerNodeStream h
  | unregisterNodeStream session => exact hs.unregisterNodeStream h
  | command nodeId payload requestId => exact hs.command h
  | enqueue k =>
      obtain ⟨c, -, hrest⟩ := Option.bind_eq_some_iff.mp h
      obtain ⟨command, hcommand, hrest⟩ := Option.bind_eq_some_iff.mp hrest
      split at hrest
      · next hwire =>
          split_ifs at hrest
          cases hrest
          refine hs.setWire (fun _ _ _ hreply ↦ by cases hreply) fun command' hcommand' harrived ↦ ?_
          obtain rfl := Option.some.inj (hcommand.symm.trans hcommand')
          rw [hwire] at harrived
          cases harrived
      · cases hrest
  | wait k =>
      obtain ⟨command, -, hrest⟩ := Option.bind_eq_some_iff.mp h
      split at hrest
      · cases hrest
      · exact hs.setPool (i := .wait k) trivial hrest
  | poll k => exact hs.setPool (i := .poll k) trivial h
  | giveUp k => exact hs.setPool (i := .giveUp k) trivial h
  | reply k result =>
      obtain ⟨command, hcommand, hrest⟩ := Option.bind_eq_some_iff.mp h
      split at hrest
      · next hwire =>
          cases hrest
          refine hs.setWire (fun command' hcommand' response hreply ↦ ?_)
            fun command' hcommand' harrived ↦ ?_
          · obtain rfl := Option.some.inj (hcommand.symm.trans hcommand')
            cases hreply
            rfl
          · obtain rfl := Option.some.inj (hcommand.symm.trans hcommand')
            rw [hwire] at harrived
            cases harrived
      · cases hrest
  | arrive k => exact hs.arrive h
  | cleanup session => exact hs.setPool (i := .cleanup session) trivial h
  | advance duration => exact hs.setPool (i := .advance duration) trivial h

/-! ## Replies -/

theorem Matched.run (hs : s.Matched) {inputs : List (ManagerInput R)}
    (h : run NodeStreams.step s inputs = some t) : t.Matched :=
  run_invariant_of_step (fun _ _ _ hs h ↦ Matched.step hs h) hs h

/-- The id of a reply belongs to its call, or to none. -/
theorem Matched.requestId_reply (hs : s.Matched) {c : Call (AgentServerResponse R)}
    {command : NodeCommand R} {response : AgentServerResponse R}
    (hc : s.pool.calls[k]? = some c) (hcommand : s.commands[k]? = some command)
    (hwire : command.wire = .replied response) :
    response.requestId = if command.payload.IsUpdateCertificate then "" else c.requestId := by
  have hcarries := hs.carries k c command hc hcommand
  exact (hcarries.reply response hwire).trans hcarries.payload

/-- A reply reaches no call but that of its command. -/
theorem Matched.arrive_other (hs : s.Matched) (h : s.step (.arrive k) = some t) {k' : ℕ}
    (hne : k' ≠ k) : t.pool.calls[k']? = s.pool.calls[k']? := by
  obtain ⟨c, nodeId, command, response, hc, -, hcommand, hwire, hrest⟩ := step_arrive h
  have hid := hs.requestId_reply hc hcommand hwire
  unfold completePendingRequest at hrest
  split at hrest
  · next session _ =>
      obtain ⟨p, hp, rfl⟩ := Option.map_eq_some_iff.mp hrest
      obtain ⟨f, hf⟩ := Pool.step_rewrites hp fun _ _ _ hinput ↦ by cases hinput
      obtain ⟨u, hu, rfl⟩ := Pool.step_complete hp
      cases hc' : s.pool.calls[k']? with
      | none =>
          have hnone := hf.calls k'
          have hcalls : (s.setWire k .arrived).pool.calls[k']? = none := hc'
          rw [hcalls] at hnone
          exact hnone
      | some c' =>
          refine hs.consistent.complete_other _ _ hu hc' fun hsame ↦ hne ?_
          rw [hid] at hsame
          split_ifs at hsame
          · exact (hs.consistent.named k' c' hc' hsame).elim
          · exact hs.consistent.distinct k' k c' c hc' hc hsame
  · cases hrest
    rfl

/-- A reply in time is taken exactly if its command has been given an id. -/
theorem Matched.arrive_own (hs : s.Matched) (hsound : s.pool.Sound)
    (h : s.step (.arrive k) = some t) {c : Call (AgentServerResponse R)} {command : NodeCommand R}
    {response : AgentServerResponse R} {nodeId : ℤ} (hc : s.pool.calls[k]? = some c)
    (hcommand : s.commands[k]? = some command) (hwire : command.wire = .replied response)
    (hwaits : c.StillWaiting s.pool.now) (hnode : s.nodes[c.table]? = some nodeId)
    (hstream : s.streams.lookup nodeId = some c.table) :
    t.pool.Answered k response ↔ command.payload.IsUpdateCertificate = false := by
  obtain ⟨c', nodeId', command', response', hc', hnode', hcommand', hwire', hrest⟩ := step_arrive h
  obtain rfl := Option.some.inj (hc.symm.trans hc')
  obtain rfl := Option.some.inj (hcommand.symm.trans hcommand')
  obtain rfl := Option.some.inj (hnode.symm.trans hnode')
  cases hwire.symm.trans hwire'
  have hid := hs.requestId_reply hc hcommand hwire
  obtain ⟨-, u, hu⟩ := hs.streams nodeId c.table hstream
  have hempty : c.rx = .empty := by
    rcases hsound.open_or_answered hc hwaits hu with hempty | ⟨r, hanswered⟩
    · exact hempty
    · obtain ⟨k', d, command'', hd, hid', hcommand'', harrived⟩ :=
        hs.arrived c.requestId r hanswered
      obtain rfl := hs.consistent.distinct k' k d c hd hc hid'
      obtain rfl := Option.some.inj (hcommand.symm.trans hcommand'')
      rw [hwire] at harrived
      cases harrived
  have hlistening : c.Listening = true := by
    by_contra hnot
    exact Pool.not_stillWaiting_of_not_listening (Bool.eq_false_of_not_eq_true hnot) hwaits
  unfold completePendingRequest at hrest
  have hstream' : (s.setWire k .arrived).streams.lookup nodeId = some c.table := hstream
  simp only [hstream'] at hrest
  obtain ⟨p, hp, rfl⟩ := Option.map_eq_some_iff.mp hrest
  obtain ⟨u', hu', rfl⟩ := Pool.step_complete hp
  cases hupdate : command.payload.IsUpdateCertificate with
  | false =>
      rw [hupdate] at hid
      have hown := hs.consistent.complete_own response hc hu' hempty hlistening
      rw [if_neg Bool.false_ne_true] at hid
      rw [← hid] at hown
      exact iff_of_true ⟨_, hown, rfl, .inl hlistening⟩ rfl
  | true =>
      rw [hupdate, if_pos rfl] at hid
      have hother := hs.consistent.complete_other response.requestId response hu' hc
        (by rw [hid]; exact hs.consistent.named k c hc)
      refine iff_of_false ?_ Bool.noConfusion
      rintro ⟨d, hd, hfull, -⟩
      obtain rfl := Option.some.inj (hother.symm.trans hd)
      rw [hempty] at hfull
      cases hfull

/-- Every reply leaves all waiters but that of its command as they are.  In the
runs whose sends are prompt, a reply that arrives before the timeout on the
registered session is what its caller gets, then and in every later state, if
and only if the command is not a certificate update. -/
theorem replies_correlate (inputs : List (ManagerInput R)) (s : NodeStreams R)
    (hrun : run step new inputs = some s) (k : ℕ) (t : NodeStreams R)
    (harrive : s.step (.arrive k) = some t) :
    (∀ k', k' ≠ k → t.pool.calls[k']? = s.pool.calls[k']?) ∧
    (Within step Prompt new inputs → ∀ (c : Call (AgentServerResponse R)) command response nodeId,
      s.pool.calls[k]? = some c → s.commands[k]? = some command →
      command.wire = .replied response → c.StillWaiting s.pool.now →
      s.nodes[c.table]? = some nodeId → s.streams.lookup nodeId = some c.table →
      ((∀ later u, run step t later = some u → u.pool.Answered k response) ↔
        command.payload.IsUpdateCertificate = false)) := by
  have hs : s.Matched := matched_new.run hrun
  refine ⟨fun k' hne ↦ hs.arrive_other harrive hne, ?_⟩
  intro hok c command response nodeId hc hcommand hwire hwaits hnode hstream
  have hsteps : ∀ (s : NodeStreams R) input t, s.pool.Sound → s.Prompt input →
      s.step input = some t → t.pool.Sound := fun _ _ _ hs hok h ↦ sound_step hs hok h
  have hsound : s.pool.Sound := run_invariant hsteps Pool.sound_empty hok hrun
  have hown := hs.arrive_own hsound harrive hc hcommand hwire hwaits hnode hstream
  rw [← hown]
  refine ⟨fun hall ↦ hall [] t rfl, fun hanswered later u hlater ↦ ?_⟩
  have hstep : ∀ (s : NodeStreams R) input t, s.Matched ∧ s.pool.Answered k response →
      s.step input = some t → t.Matched ∧ t.pool.Answered k response :=
    fun _ _ _ hs h ↦ ⟨hs.1.step h, answered_step hs.1.consistent hs.2 h⟩
  exact (run_invariant_of_step hstep ⟨hs.step harrive, hanswered⟩ hlater).2

theorem replies_correlate_getStatus :
    ∃ s t : NodeStreams Unit, run step new [.registerNodeStream 1,
        .command 1 (.getStatus "") "a", .enqueue 0, .wait 0, .advance 5, .reply 0 none] = some s ∧
      s.step (.arrive 0) = some t ∧
      ∀ later u, run step t later = some u → u.pool.Answered 0 ⟨"a", none⟩ := by
  refine ⟨_, _, rfl, rfl, ((replies_correlate [.registerNodeStream 1,
    .command 1 (.getStatus "") "a", .enqueue 0, .wait 0, .advance 5, .reply 0 none] _ rfl 0 _
    rfl).2 ?_ _ _ ⟨"a", none⟩ 1 rfl rfl rfl ?_ rfl rfl).mpr rfl⟩
  · refine .cons trivial rfl (.cons trivial rfl (.cons trivial rfl (.cons trivial rfl
      (.cons ?_ rfl (.cons trivial rfl (within_nil _))))))
    intro c hc hsending
    obtain rfl := List.mem_singleton.mp hc
    cases hsending
  · have hwaits : 5 < seconds 10 := by decide
    exact hwaits

/-- The node has answered the certificate update at once, and the caller times out. -/
theorem not_answered_updateCertificate :
    ∃ s u : NodeStreams Unit, ∃ c d, run step new [.registerNodeStream 1,
        .command 1 (.updateCertificate "" none) "a", .enqueue 0, .wait 0, .reply 0 none] = some s ∧
      s.pool.calls[0]? = some c ∧ c.StillWaiting s.pool.now ∧
      s.streams.lookup 1 = some c.table ∧
      run step s [.arrive 0, .advance (seconds 10), .poll 0] = some u ∧
      u.pool.calls[0]? = some d ∧ d.phase = .done (.error "请求超时") := by
  have hwaits : 0 < seconds 10 := by decide
  exact ⟨_, _, _, _, rfl, rfl, hwaits, rfl, rfl, rfl, rfl⟩

end NodeStreams

end Oxiproxy.Controller
