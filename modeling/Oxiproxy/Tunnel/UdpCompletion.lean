import Oxiproxy.Tunnel.UdpSession

/-!
# The end of a UDP session

The node finishes its stream when the client has finished the other direction,
and the client when the node has.  Neither has a timer: without a failure from
outside a session ends in a state in which each waits for the other.  Only where
the client cannot send the first datagram at all does its loop return.
-/

namespace Oxiproxy.Tunnel.UdpSession

open Transition

variable {target : TargetAddr} {data : Datagram} {s t : UdpSession} {input : UdpInput}

/-- Both loops have returned. -/
def Closed (s : UdpSession) : Prop := (∃ ok, s.node = .ended ok) ∧ ∃ ok, s.client = .ended ok

/-- As long as a session is not closed, one of its loops can go on. -/
def DeadlockFree (target : TargetAddr) (data : Datagram) : Prop :=
  ∀ inputs s, run step (start target data) inputs = some s → ¬ s.Closed →
    ∃ input t, ¬ External input ∧ s.step input = some t

/-- The bytes of the datagrams are those that have arrived and those in flight. -/
def Conserved (sent arrived : List (List UInt8)) (bytes : List UInt8) : Prop :=
  sent.flatten = arrived.flatten ++ bytes

/-- The datagram and all replies have gone through, nothing is in flight, and
each loop waits for the other. -/
structure Deadlock (data : Datagram) (s : UdpSession) : Prop where
  node : s.node = .reading
  client : s.client = .initial ∨ s.client = .relaying ∧ s.inbox = []
  toClient : s.toClient = ⟨[], false⟩
  toNode : s.toNode = ⟨[], false⟩
  delivered : s.atTarget.flatten = data.1
  answered : s.atPeer.flatten = s.replied.flatten
  stuck : ∀ input t, s.step input = some t → External input

theorem carries_conserved (data : Datagram) (s : UdpSession) (input : UdpInput) :
    Carries Conserved data s input where
  nil := rfl
  write sent arrived bytes h _ := by
    unfold Conserved at h ⊢
    rw [List.flatten_append, h]
    simp
  answer d rest h _ _ := by
    unfold Conserved at h ⊢
    rw [List.flatten_append, h]
    simp
  relay n h _ _ := by
    unfold Conserved at h ⊢
    rw [h]
    simp
  forward n h _ _ := by
    unfold Conserved at h ⊢
    rw [h]
    simp

/-! ## Every internal step uses something up -/

def nodeSize : NodeLoop → ℕ
  | .writing rest => 3 + 2 * (rest.length + rest.flatten.length)
  | .reading => 2
  | .leaving => 1
  | .ended _ => 0

def clientSize : ClientLoop → ℕ
  | .accepting => 4
  | .initial => 3
  | .relaying => 2
  | .leaving => 1
  | .ended _ => 0

/-- What is still to be written and read. -/
def size (s : UdpSession) : ℕ :=
  nodeSize s.node + clientSize s.client + s.toClient.bytes.length + s.toNode.bytes.length +
    2 * (s.inbox.length + (s.inbox.map fun d ↦ d.1.length).sum)

theorem length_readHeader {bytes rest address : List UInt8} {protocol : UInt8}
    (h : readHeader bytes = some (protocol, address, rest)) : rest.length ≤ bytes.length := by
  unfold readHeader at h
  split at h
  · simp only at h
    split_ifs at h
    cases h
    simp only [List.length_drop, List.length_cons]
    omega
  · cases h

theorem size_step (hinternal : ¬ External input) (h : s.step input = some t) : t.size < s.size := by
  cases input with
  | write =>
      simp only [UdpSession.step] at h
      split at h
      · next w rest hnode =>
          cases h
          cases rest with
          | nil =>
              simp only [size, hnode, nodeSize, List.length_append, List.length_cons,
                List.flatten_cons]
              omega
          | cons w' rest =>
              simp only [size, hnode, nodeSize, List.length_append, List.length_cons,
                List.flatten_cons]
              omega
      · cases h
  | forward n =>
      simp only [UdpSession.step] at h
      split_ifs at h with hok
      cases h
      obtain ⟨-, hpos, hle, -⟩ := hok
      simp only [size, List.length_drop]
      omega
  | nodeEof =>
      simp only [UdpSession.step] at h
      split_ifs at h with hok
      cases h
      simp only [size, hok.1, nodeSize]
      omega
  | finish =>
      simp only [UdpSession.step] at h
      split_ifs at h with hok
      cases h
      simp only [size, endNode, hok, nodeSize]
      omega
  | accept =>
      simp only [UdpSession.step] at h
      split at h
      · next protocol address rest hclient hheader =>
          have hlength := length_readHeader hheader
          split_ifs at h
          · cases h
            simp only [size, hclient, clientSize]
            omega
          · cases h
            simp only [size, endClient, hclient, clientSize]
            omega
      · cases h
  | headerEof =>
      simp only [UdpSession.step] at h
      split_ifs at h with hok
      cases h
      simp only [size, endClient, hok.1, clientSize]
      omega
  | initial n =>
      simp only [UdpSession.step] at h
      split_ifs at h with hok
      cases h
      simp only [size, hok.1, clientSize, List.length_drop]
      omega
  | initialLost n =>
      simp only [UdpSession.step] at h
      split_ifs at h with hok
      cases h
      simp only [size, endClient, hok.1, clientSize]
      omega
  | initialEof =>
      simp only [UdpSession.step] at h
      split_ifs at h with hok
      cases h
      simp only [size, endClient, hok.1, clientSize]
      omega
  | relay n =>
      simp only [UdpSession.step] at h
      split_ifs at h with hok
      cases h
      obtain ⟨-, hpos, hle, -⟩ := hok
      simp only [size, List.length_drop]
      omega
  | relayEof =>
      simp only [UdpSession.step] at h
      split_ifs at h with hok
      cases h
      simp only [size, hok.1, clientSize]
      omega
  | answer =>
      simp only [UdpSession.step] at h
      split at h
      · next d rest _ hinbox =>
          cases h
          simp only [size, hinbox, List.length_append, List.length_cons, List.map_cons,
            List.sum_cons]
          omega
      · cases h
  | shutdown =>
      simp only [UdpSession.step] at h
      split_ifs at h with hok
      cases h
      simp only [size, endClient, hok, clientSize]
      omega
  | reply d => exact (hinternal trivial).elim
  | nodeFails => exact (hinternal trivial).elim
  | clientFails => exact (hinternal trivial).elim

/-! ## Without failures nothing is finished -/

structure Running (data : Datagram) (s : UdpSession) : Prop where
  node : s.node = .reading ∨ ∃ w rest, s.node = .writing (w :: rest)
  client : s.client = .accepting ∨ s.client = .initial ∨ s.client = .relaying
  toClient : s.toClient.finished = false
  toNode : s.toNode.finished = false
  waits : s.reachable = true ∨ data.1 = []

theorem internal_not_failure (h : ¬ External input) : ¬ Failure input := by
  cases input <;> first | exact id | exact h

theorem running_start (hwaits : target.reachable = true ∨ data.1 = []) :
    (start target data).Running data :=
  ⟨.inr ⟨_, _, rfl⟩, .inl rfl, rfl, rfl, hwaits⟩

theorem not_atEnd {p : Pipe} (h : p.finished = false) : ¬ AtEnd p := by
  rintro ⟨-, hfinished⟩
  rw [h] at hfinished
  cases hfinished

/-- Nothing of an empty datagram is ever in the stream. -/
theorem Running.toClient_nil (hs : s.Running data) (hflow : Flow Conserved target data s)
    (hclient : s.client = .initial) (hdata : data.1 = []) : s.toClient.bytes = [] := by
  have hpast := hflow.past (.inl hclient)
  have hsent : s.sent.flatten = [] := by
    rcases hs.node with hnode | ⟨w, rest, hnode⟩
    · rw [hpast.reading hnode, hdata]
      rfl
    · rw [(hpast.left _ hnode).1]
      rfl
  have hflow := hpast.flow
  unfold Conserved at hflow
  rw [hsent] at hflow
  exact (List.append_eq_nil_iff.mp hflow.symm).2

theorem Running.step (hs : s.Running data) (hflow : Flow Conserved target data s)
    (hok : ¬ Failure input) (h : s.step input = some t) : t.Running data := by
  cases input with
  | write =>
      simp only [UdpSession.step] at h
      split at h
      · next w rest hnode =>
          cases h
          cases rest with
          | nil => exact ⟨.inl rfl, hs.client, hs.toClient, hs.toNode, hs.waits⟩
          | cons w' rest => exact ⟨.inr ⟨w', rest, rfl⟩, hs.client, hs.toClient, hs.toNode, hs.waits⟩
      · cases h
  | forward n =>
      simp only [UdpSession.step] at h
      split_ifs at h
      cases h
      exact ⟨hs.node, hs.client, hs.toClient, hs.toNode, hs.waits⟩
  | nodeEof =>
      simp only [UdpSession.step] at h
      rw [if_neg fun hend ↦ not_atEnd hs.toNode hend.2] at h
      cases h
  | finish =>
      simp only [UdpSession.step] at h
      split_ifs at h with hleaving
      rcases hs.node with hnode | ⟨w, rest, hnode⟩ <;> cases hnode.symm.trans hleaving
  | accept =>
      simp only [UdpSession.step] at h
      split at h
      · next protocol address rest hclient hheader =>
          rcases hflow.toClient with ⟨⟨done, left, hsplit, hbytes, -⟩, -⟩ | hpast
          · rw [hbytes] at hheader
            rw [if_pos (left_of_readHeader hsplit hheader).1] at h
            cases h
            exact ⟨hs.node, .inr (.inl rfl), hs.toClient, hs.toNode, hs.waits⟩
          · exact (hpast.client hclient).elim
      · cases h
  | headerEof =>
      simp only [UdpSession.step] at h
      rw [hs.toClient] at h
      simp at h
  | initial n =>
      simp only [UdpSession.step] at h
      split_ifs at h
      cases h
      exact ⟨hs.node, .inr (.inr rfl), hs.toClient, hs.toNode, hs.waits⟩
  | initialLost n =>
      simp only [UdpSession.step] at h
      split_ifs at h with hlost
      obtain ⟨hclient, ⟨hpos, hle, -⟩, hreachable⟩ := hlost
      rcases hs.waits with hsends | hdata
      · cases hsends.symm.trans hreachable
      · rw [hs.toClient_nil hflow hclient hdata] at hle
        exact absurd hpos (not_lt.mpr hle)
  | initialEof =>
      simp only [UdpSession.step] at h
      rw [if_neg fun hend ↦ not_atEnd hs.toClient hend.2] at h
      cases h
  | relay n =>
      simp only [UdpSession.step] at h
      split_ifs at h
      cases h
      exact ⟨hs.node, hs.client, hs.toClient, hs.toNode, hs.waits⟩
  | relayEof =>
      simp only [UdpSession.step] at h
      rw [if_neg fun hend ↦ not_atEnd hs.toClient hend.2] at h
      cases h
  | answer =>
      simp only [UdpSession.step] at h
      split at h
      · cases h
        exact ⟨hs.node, hs.client, hs.toClient, hs.toNode, hs.waits⟩
      · cases h
  | shutdown =>
      simp only [UdpSession.step] at h
      split_ifs at h with hleaving
      rcases hs.client with hclient | hclient | hclient <;> cases hclient.symm.trans hleaving
  | reply d =>
      cases h
      exact ⟨hs.node, hs.client, hs.toClient, hs.toNode, hs.waits⟩
  | nodeFails => exact (hok trivial).elim
  | clientFails => exact (hok trivial).elim

/-- Where no loop can go on, they wait for each other. -/
theorem Running.deadlock (hs : s.Running data) (hflow : Flow Conserved target data s)
    (hstuck : ∀ input t, ¬ External input → s.step input ≠ some t) : s.Deadlock data := by
  have hnone : ∀ input, ¬ External input → s.step input = none := fun input hinternal ↦
    Option.eq_none_iff_forall_ne_some.mpr fun t ↦ hstuck input t hinternal
  have hnode : s.node = .reading := by
    rcases hs.node with hnode | ⟨w, rest, hnode⟩
    · exact hnode
    · have hwrite := hnone .write id
      simp only [UdpSession.step, hnode] at hwrite
      cases hwrite
  have hread : ∀ bytes : List UInt8, bytes ≠ [] → 0 < 1 ∧ 1 ≤ bytes.length ∧ 1 ≤ maxPayload :=
    fun bytes hbytes ↦ ⟨Nat.one_pos, List.length_pos_of_ne_nil hbytes, by decide⟩
  have htoNode : s.toNode.bytes = [] := by
    by_contra hbytes
    have hforward := hnone (.forward 1) id
    simp only [UdpSession.step] at hforward
    rw [if_pos ⟨hnode, hread _ hbytes⟩] at hforward
    cases hforward
  have hclient : s.client = .initial ∨ s.client = .relaying := by
    rcases hs.client with haccepting | hclient
    · rcases hflow.toClient with ⟨⟨done, left, hsplit, hbytes, -, -, hleft⟩, -⟩ | hpast
      · obtain rfl := hleft hnode
        rw [List.append_nil] at hsplit
        rw [← hsplit, flatten_openingWrites] at hbytes
        have haccept := hnone .accept id
        simp only [UdpSession.step, haccepting, hbytes, readHeader_opening] at haccept
        cases haccept
      · exact (hpast.client haccepting).elim
    · exact hclient
  have hpast := hflow.past hclient
  have htoClient : s.toClient.bytes = [] := by
    by_contra hbytes
    rcases hclient with hclient | hclient
    · rcases hs.waits with hsends | hdata
      · have hinitial := hnone (.initial 1) id
        simp only [UdpSession.step] at hinitial
        rw [if_pos ⟨hclient, hread _ hbytes, hsends⟩] at hinitial
        cases hinitial
      · exact hbytes (hs.toClient_nil hflow hclient hdata)
    · have hrelay := hnone (.relay 1) id
      simp only [UdpSession.step] at hrelay
      rw [if_pos ⟨hclient, hread _ hbytes⟩] at hrelay
      cases hrelay
  have htarget := hpast.flow
  have hpeer := hflow.toNode
  unfold Conserved at htarget hpeer
  rw [hpast.reading hnode, htoClient] at htarget
  rw [htoNode] at hpeer
  refine ⟨hnode, ?_, ?_, ?_, by simpa using htarget.symm, by simpa using hpeer.symm, ?_⟩
  · rcases hclient with hclient | hclient
    · exact .inl hclient
    · refine .inr ⟨hclient, ?_⟩
      cases hinbox : s.inbox with
      | nil => rfl
      | cons d rest =>
          have hanswer := hnone .answer id
          simp only [UdpSession.step, hclient, hinbox] at hanswer
          cases hanswer
  · rw [← htoClient, ← hs.toClient]
  · rw [← htoNode, ← hs.toNode]
  · intro input t h
    by_contra hinternal
    exact hstuck input t hinternal h

theorem Deadlock.not_closed (hs : s.Deadlock data) : ¬ s.Closed := by
  rintro ⟨⟨ok, hended⟩, -⟩
  cases hs.node.symm.trans hended

/-- From every state without a failure the loops alone go on into a deadlock. -/
theorem reaches_deadlock (hwaits : target.reachable = true ∨ data.1 = []) (inputs : List UdpInput)
    (s : UdpSession) (hrun : run step (start target data) inputs = some s)
    (hok : ∀ input ∈ inputs, ¬ Failure input) :
    ∃ more t, (∀ input ∈ more, ¬ External input) ∧ run step s more = some t ∧ t.Deadlock data := by
  have hfinite : ∀ (s : UdpSession) input t, ¬ External input → s.step input = some t →
      t.size < s.size := fun _ _ _ hinternal h ↦ size_step hinternal h
  have hkeep : ∀ (s : UdpSession) input t, s.Running data ∧ Flow Conserved target data s →
      ¬ Failure input → s.step input = some t → t.Running data ∧ Flow Conserved target data t :=
    fun _ _ _ hs hok h ↦ ⟨hs.1.step hs.2 hok h, hs.2.step (carries_conserved data _ _) h⟩
  have hs : s.Running data ∧ Flow Conserved target data s :=
    run_invariant hkeep ⟨running_start hwaits, flow_start rfl target data⟩
      (within_of_forall fun input hinput _ ↦ hok input hinput) hrun
  obtain ⟨more, t, hmore, ht, hstuck⟩ := exists_run_stuck size hfinite s
  have hinternal : ∀ input ∈ more, ∀ s : UdpSession, ¬ Failure input :=
    fun input hinput _ ↦ internal_not_failure (hmore input hinput)
  have hend := run_invariant hkeep hs (within_of_forall hinternal) ht
  exact ⟨more, t, hmore, ht, hend.1.deadlock hend.2 fun input u ↦ hstuck input u⟩

/-! ## A target that cannot be sent to -/

/-- The client never gets into its loop, and a loop that has ended has finished its
stream. -/
structure Unsent (s : UdpSession) : Prop where
  reachable : s.reachable = false
  node : s.node ≠ .writing []
  nodeEnded : ∀ ok, s.node = .ended ok → s.toClient.finished = true
  client : s.client = .accepting ∨ s.client = .initial ∨ ∃ ok, s.client = .ended ok
  clientEnded : ∀ ok, s.client = .ended ok → s.toNode.finished = true
  atTarget : s.atTarget = []
  toNode : s.toNode.bytes = []

theorem unsent_start (hreachable : target.reachable = false) (data : Datagram) :
    (start target data).Unsent :=
  ⟨hreachable, fun h ↦ (by cases h), fun _ h ↦ (by cases h), .inl rfl, fun _ h ↦ (by cases h), rfl,
    rfl⟩

theorem Unsent.endNode (hs : s.Unsent) (ok : Bool) : (s.endNode ok).Unsent :=
  ⟨hs.reachable, fun h ↦ (by cases h), fun _ _ ↦ rfl, hs.client, hs.clientEnded, hs.atTarget,
    hs.toNode⟩

theorem Unsent.endClient (hs : s.Unsent) (ok : Bool) : (s.endClient ok).Unsent :=
  ⟨hs.reachable, hs.node, hs.nodeEnded, .inr (.inr ⟨ok, rfl⟩), fun _ _ ↦ rfl, hs.atTarget,
    hs.toNode⟩

theorem Unsent.not_relaying (hs : s.Unsent) : s.client ≠ .relaying ∧ s.client ≠ .leaving := by
  rcases hs.client with hclient | hclient | ⟨ok, hclient⟩ <;> rw [hclient] <;>
    exact ⟨fun h ↦ (by cases h), fun h ↦ (by cases h)⟩

theorem Unsent.step (hs : s.Unsent) (h : s.step input = some t) : t.Unsent := by
  cases input with
  | write =>
      simp only [UdpSession.step] at h
      split at h
      · next w rest hnode =>
          cases h
          refine ⟨hs.reachable, ?_, fun ok hended ↦ ?_, hs.client, hs.clientEnded, hs.atTarget,
            hs.toNode⟩
          · cases rest <;> exact fun h ↦ (by cases h)
          · cases rest <;> cases hended
      · cases h
  | forward n =>
      simp only [UdpSession.step] at h
      split_ifs at h with hok
      obtain ⟨-, hpos, hle, -⟩ := hok
      rw [hs.toNode] at hle
      exact absurd hpos (not_lt.mpr hle)
  | nodeEof =>
      simp only [UdpSession.step] at h
      split_ifs at h
      cases h
      exact ⟨hs.reachable, fun h ↦ (by cases h), fun _ h ↦ (by cases h), hs.client, hs.clientEnded,
        hs.atTarget, hs.toNode⟩
  | finish =>
      simp only [UdpSession.step] at h
      split_ifs at h
      cases h
      exact hs.endNode true
  | accept =>
      simp only [UdpSession.step] at h
      split at h
      · split_ifs at h <;> cases h
        · exact ⟨hs.reachable, hs.node, hs.nodeEnded, .inr (.inl rfl), fun _ h ↦ (by cases h),
            hs.atTarget, hs.toNode⟩
        · exact hs.endClient false
      · cases h
  | headerEof | initialLost =>
      simp only [UdpSession.step] at h
      split_ifs at h
      cases h
      exact hs.endClient false
  | initial n =>
      simp only [UdpSession.step] at h
      split_ifs at h with hok
      cases hok.2.2.symm.trans hs.reachable
  | initialEof =>
      simp only [UdpSession.step] at h
      split_ifs at h
      cases h
      exact hs.endClient true
  | relay | relayEof =>
      simp only [UdpSession.step] at h
      split_ifs at h with hok
      exact absurd hok.1 hs.not_relaying.1
  | answer =>
      simp only [UdpSession.step] at h
      split at h
      · next hclient _ => exact absurd hclient hs.not_relaying.1
      · cases h
  | shutdown =>
      simp only [UdpSession.step] at h
      split_ifs at h with hok
      exact absurd hok hs.not_relaying.2
  | reply =>
      cases h
      exact ⟨hs.reachable, hs.node, hs.nodeEnded, hs.client, hs.clientEnded, hs.atTarget, hs.toNode⟩
  | nodeFails =>
      cases h
      exact hs.endNode false
  | clientFails =>
      cases h
      exact hs.endClient false

/-- Each of the loops can go on until it has ended. -/
theorem Unsent.goes_on (hs : s.Unsent) (hflow : Flow Conserved target data s) (hdata : data.1 ≠ [])
    (hopen : ¬ s.Closed) : ∃ input t, ¬ External input ∧ s.step input = some t := by
  have hlost (hclient : s.client = .initial) (hbytes : s.toClient.bytes ≠ []) :
      ∃ input t, ¬ External input ∧ s.step input = some t :=
    ⟨.initialLost 1, _, id, if_pos ⟨hclient, ⟨Nat.one_pos, List.length_pos_of_ne_nil hbytes,
      by decide⟩, hs.reachable⟩⟩
  have haccept {header} (hclient : s.client = .accepting)
      (hheader : readHeader s.toClient.bytes = some header) :
      ∃ input t, ¬ External input ∧ s.step input = some t := by
    obtain ⟨protocol, address, rest⟩ := header
    refine ⟨.accept, if protocol = 0x75 then
      { s with client := .initial, toClient := { s.toClient with bytes := rest } }
      else s.endClient false, id, ?_⟩
    simp only [UdpSession.step, hclient, hheader]
    split_ifs <;> rfl
  cases hnode : s.node with
  | writing rest =>
      cases rest with
      | nil => exact absurd hnode hs.node
      | cons w rest => exact ⟨.write, _, id, by simp only [UdpSession.step, hnode]; rfl⟩
  | leaving => exact ⟨.finish, _, id, if_pos hnode⟩
  | reading =>
      rcases hs.client with hclient | hclient | ⟨ok, hclient⟩
      · -- the whole opening has been written
        rcases hflow.toClient with ⟨⟨done, left, hsplit, hbytes, -, -, hleft⟩, -⟩ | hpast
        · obtain rfl := hleft hnode
          rw [List.append_nil] at hsplit
          rw [← hsplit, flatten_openingWrites] at hbytes
          exact haccept hclient (by rw [hbytes, readHeader_opening])
        · exact (hpast.client hclient).elim
      · have hpast := hflow.past (.inl hclient)
        have hbytes := hpast.flow
        unfold Conserved at hbytes
        rw [hpast.reading hnode, hs.atTarget] at hbytes
        refine hlost hclient ?_
        rw [← show data.1 = s.toClient.bytes by simpa using hbytes]
        exact hdata
      · exact ⟨.nodeEof, _, id, if_pos ⟨hnode, hs.toNode, hs.clientEnded ok hclient⟩⟩
  | ended ok =>
      have hfinished := hs.nodeEnded ok hnode
      rcases hs.client with hclient | hclient | hended
      · cases hheader : readHeader s.toClient.bytes with
        | none => exact ⟨.headerEof, _, id, if_pos ⟨hclient, hfinished, hheader⟩⟩
        | some header => exact haccept hclient hheader
      · by_cases hbytes : s.toClient.bytes = []
        · exact ⟨.initialEof, _, id, if_pos ⟨hclient, hbytes, hfinished⟩⟩
        · exact hlost hclient hbytes
      · exact absurd ⟨⟨ok, hnode⟩, hended⟩ hopen

theorem deadlockFree_of_unreachable (hreachable : target.reachable = false) (hdata : data.1 ≠ []) :
    DeadlockFree target data := by
  intro inputs s hrun hopen
  have hkeep : ∀ (s : UdpSession) input t, s.Unsent ∧ Flow Conserved target data s →
      s.step input = some t → t.Unsent ∧ Flow Conserved target data t :=
    fun _ _ _ hs h ↦ ⟨hs.1.step h, hs.2.step (carries_conserved data _ _) h⟩
  obtain ⟨hs, hflow⟩ := run_invariant_of_step hkeep
    ⟨unsent_start hreachable data, flow_start rfl target data⟩ hrun
  exact hs.goes_on hflow hdata hopen

/-- A session is free of deadlocks exactly when the client has a datagram to send and
cannot send it.  Any other one ends in a deadlock, whatever it has gone through
without a failure. -/
theorem udp_session_deadlocks (target : TargetAddr) (data : Datagram) :
    (DeadlockFree target data ↔ target.reachable = false ∧ data.1 ≠ []) ∧
      ∀ inputs s, target.reachable = true ∨ data.1 = [] →
        run step (start target data) inputs = some s → (∀ input ∈ inputs, ¬ Failure input) →
          ∃ more t, (∀ input ∈ more, ¬ External input) ∧ run step s more = some t ∧
            t.Deadlock data := by
  refine ⟨⟨fun hfree ↦ ?_, fun h ↦ deadlockFree_of_unreachable h.1 h.2⟩,
    fun inputs s hwaits ↦ reaches_deadlock hwaits inputs s⟩
  by_contra hnot
  have hwaits : target.reachable = true ∨ data.1 = [] := by
    by_cases hdata : data.1 = []
    · exact .inr hdata
    · exact .inl (Bool.eq_true_of_not_eq_false fun hreachable ↦ hnot ⟨hreachable, hdata⟩)
  obtain ⟨more, t, -, hrun, ht⟩ :=
    reaches_deadlock hwaits [] (start target data) rfl fun _ hinput ↦ by cases hinput
  obtain ⟨input, u, hinternal, hu⟩ := hfree more t hrun ht.not_closed
  exact hinternal (ht.stuck input u hu)

/-- A datagram of one byte and a reply of one byte, both delivered whole. -/
theorem not_deadlockFree_echo : ¬ DeadlockFree localTarget (oneByte 1) := by
  intro hfree
  obtain ⟨s, hrun, hnode, hclient, htoClient, htoNode, hinbox, -⟩ :
      ∃ s ∈ run step (start localTarget (oneByte 1))
        (opening ++ [.initial 1, .reply (oneByte 2), .answer, .forward 1]),
        s.node = .reading ∧ s.client = .relaying ∧ s.toClient = ⟨[], false⟩ ∧
          s.toNode = ⟨[], false⟩ ∧ s.inbox = [] ∧ s.atTarget = [[1]] ∧ s.atPeer = [[2]] := by
    decide +kernel
  obtain ⟨input, t, hinternal, h⟩ := hfree _ s hrun fun hclosed ↦ by
    obtain ⟨⟨ok, hended⟩, -⟩ := hclosed
    cases hnode.symm.trans hended
  cases input <;>
    simp [UdpSession.step, hnode, hclient, htoClient, htoNode, hinbox, Readable, AtEnd] at h
  case forward n => omega
  case relay n => omega
  all_goals exact hinternal trivial

end Oxiproxy.Tunnel.UdpSession
