import Oxiproxy.Client.ConnectionManager

/-!
# What a reconcile achieves

One iteration of `reconcile` touches only the slot of its own node, so a list
of groups with distinct nodes acts on each slot once.  A group whose task runs
with the same fingerprints keeps that task whatever else changed; every other
group gets a fresh task that captured the group itself.
-/

namespace Oxiproxy.Client

open Net Transition

namespace ConnectionManager

variable {m : ConnectionManager}

/-! ## Disconnecting -/

theorem lookup_disconnect (m : ConnectionManager) (n k : Int) :
    (m.disconnect n).connections.lookup k = if k = n then none else m.connections.lookup k := by
  unfold disconnect
  cases hn : m.connections.lookup n with
  | none =>
      by_cases hk : k = n
      · subst hk
        simp [hn]
      · simp [hk]
  | some conn => simpa [cancel] using AList.lookup_erase_eq_ite k n m.connections

theorem getElem?_disconnect (m : ConnectionManager) (n : Int) (i : ℕ) :
    (m.disconnect n).tasks[i]? =
      if (m.connections.lookup n).any (·.task = i) then
        m.tasks[i]?.map fun t ↦ { t with cancelled := true }
      else m.tasks[i]? := by
  unfold disconnect
  cases m.connections.lookup n with
  | none => simp
  | some conn =>
      by_cases hi : conn.task = i <;> simp [cancel, hi]

theorem slot_disconnect_of_ne (h : m.WellFormed) {n k : Int} (hk : k ≠ n) :
    (m.disconnect n).slot k = m.slot k := by
  unfold slot
  rw [lookup_disconnect, if_neg hk]
  cases hc : m.connections.lookup k with
  | none => rfl
  | some conn =>
      have htask : (m.connections.lookup n).any (·.task = conn.task) = false := by
        rw [Option.any_eq_false_iff_get]
        intro hsome
        have hn := Option.some_get hsome
        simpa using fun heq ↦ hk (h.task_injective hc hn.symm heq.symm)
      simp [getElem?_disconnect, htask]

theorem slot_disconnect_self (m : ConnectionManager) (n : Int) :
    (m.disconnect n).slot n = none := by
  simp [slot, lookup_disconnect]

theorem WellFormed.disconnect (h : m.WellFormed) (n : Int) : (m.disconnect n).WellFormed where
  task_of_conn := by
    intro k conn hc
    rw [lookup_disconnect] at hc
    split_ifs at hc with hk
    obtain ⟨t, ht⟩ := h.exists_slot hc
    obtain ⟨-, htask⟩ := slot_eq_some.mp ((slot_disconnect_of_ne h hk).trans ht)
    exact ⟨t, htask, h.slot_task ht⟩
  conn_of_running := by
    intro i t hr
    obtain ⟨ht, hrun⟩ := hr
    rw [getElem?_disconnect] at ht
    split_ifs at ht with hi
    · obtain ⟨u, -, rfl⟩ := Option.map_eq_some_iff.mp ht
      simp [ConnectionTask.isRunning] at hrun
    · obtain ⟨conn, hc, hci⟩ := h.conn_of_running i t ⟨ht, hrun⟩
      refine ⟨conn, ?_, hci⟩
      rw [lookup_disconnect, if_neg]
      · exact hc
      · intro hn
        subst hn
        simp [hc, hci] at hi

/-! ## Connecting -/

/-- A task that captured everything the group asks for. -/
structure UsesGroup (t : ConnectionTask) (group : ServerProxyGroup) : Prop where
  serverAddr : SocketAddr.parse (serverAddrStr group) = some t.serverAddr
  protocol : t.protocol = group.protocol
  kcpConfig : t.kcpConfig = group.kcp
  certFingerprints : t.certFingerprints = group.certFingerprints

theorem slot_connect_of_ne (group : ServerProxyGroup) (ids : Finset Int) {k : Int}
    (hk : k ≠ group.nodeId) (h : m.WellFormed) : (m.connect group ids).slot k = m.slot k := by
  unfold connect
  cases SocketAddr.parse (serverAddrStr group) with
  | none => rfl
  | some addr =>
      simp only [slot, AList.lookup_insert_ne hk]
      cases hc : m.connections.lookup k with
      | none => rfl
      | some conn =>
          obtain ⟨t, ht, -⟩ := h.task_of_conn k conn hc
          have hlt : conn.task < m.tasks.length := (List.getElem?_eq_some_iff.mp ht).1
          simp [List.getElem?_append_left hlt]

/-- A parseable group gets a fresh running task of its own. -/
theorem slot_connect_self (m : ConnectionManager) (group : ServerProxyGroup) (ids : Finset Int)
    (hparse : (SocketAddr.parse (serverAddrStr group)).isSome) :
    ∃ conn t, (m.connect group ids).slot group.nodeId = some (conn, t) ∧
      conn.proxyIds = ids ∧ conn.certFingerprints = group.certFingerprints ∧
      t.isRunning = true ∧ UsesGroup t group := by
  obtain ⟨addr, haddr⟩ := Option.isSome_iff_exists.mp hparse
  simp only [connect, haddr]
  refine ⟨_, _, slot_eq_some.mpr ⟨AList.lookup_insert _, List.getElem?_concat_length⟩,
    rfl, rfl, rfl, ⟨haddr, rfl, rfl, rfl⟩⟩

theorem WellFormed.connect (h : m.WellFormed) (group : ServerProxyGroup) (ids : Finset Int)
    (hfree : m.connections.lookup group.nodeId = none) : (m.connect group ids).WellFormed := by
  cases hparse : SocketAddr.parse (serverAddrStr group) with
  | none => simpa [ConnectionManager.connect, hparse] using h
  | some addr =>
      simp only [ConnectionManager.connect, hparse]
      refine ⟨?_, ?_⟩
      · intro k c hc
        rw [AList.lookup_insert_eq_ite] at hc
        split_ifs at hc with hk
        · obtain rfl := Option.some.inj hc
          exact ⟨_, List.getElem?_concat_length, hk.symm, rfl, rfl⟩
        · obtain ⟨u, hu, hrest⟩ := h.task_of_conn k c hc
          have hlt : c.task < m.tasks.length := (List.getElem?_eq_some_iff.mp hu).1
          exact ⟨u, (List.getElem?_append_left hlt).trans hu, hrest⟩
      · intro i u hr
        obtain ⟨hu, hrun'⟩ := hr
        rcases lt_or_ge i m.tasks.length with hlt | hge
        · rw [List.getElem?_append_left hlt] at hu
          obtain ⟨c, hc, hci⟩ := h.conn_of_running i u ⟨hu, hrun'⟩
          have hne : u.nodeId ≠ group.nodeId := by
            intro heq
            rw [heq, hfree] at hc
            cases hc
          exact ⟨c, (AList.lookup_insert_ne hne).trans hc, hci⟩
        · rw [List.getElem?_append_right hge, List.getElem?_singleton] at hu
          split_ifs at hu with hi
          obtain rfl := Option.some.inj hu
          refine ⟨_, AList.lookup_insert _, ?_⟩
          change m.tasks.length = i
          omega

/-! ## One group -/

theorem needsReconnect_of_slot {group : ServerProxyGroup} {conn : ServerConnection}
    {t : ConnectionTask} (hs : m.slot group.nodeId = some (conn, t)) :
    m.needsReconnect group = (t.finished || conn.certFingerprints != group.certFingerprints) := by
  obtain ⟨hc, ht⟩ := slot_eq_some.mp hs
  simp [needsReconnect, isFinished, hc, ht]

/-- A group is kept exactly when a task of its node runs with its
fingerprints. -/
theorem needsReconnect_eq_false_iff (h : m.WellFormed) (group : ServerProxyGroup) :
    m.needsReconnect group = false ↔
      ∃ conn t, m.slot group.nodeId = some (conn, t) ∧ t.isRunning = true ∧
        conn.certFingerprints = group.certFingerprints := by
  constructor
  · intro hkeep
    cases hc : m.connections.lookup group.nodeId with
    | none => simp [needsReconnect, hc] at hkeep
    | some conn =>
        obtain ⟨t, ht⟩ := h.exists_slot hc
        obtain ⟨-, hcancel, -⟩ := h.slot_task ht
        rw [needsReconnect_of_slot ht] at hkeep
        simp only [Bool.or_eq_false_iff, bne_eq_false_iff_eq] at hkeep
        exact ⟨conn, t, ht, by simp [ConnectionTask.isRunning, hcancel, hkeep.1], hkeep.2⟩
  · rintro ⟨conn, t, hs, hrun, hfps⟩
    have hfin : t.finished = false := by
      simpa using (Bool.and_eq_true_iff.mp hrun).2
    simp [needsReconnect_of_slot hs, hfin, hfps]

/-- The node of the group has a running task recorded under the group's proxy
ids and fingerprints. -/
structure Serves (m : ConnectionManager) (group : ServerProxyGroup)
    (conn : ServerConnection) (t : ConnectionTask) : Prop where
  slot_eq : m.slot group.nodeId = some (conn, t)
  proxyIds : conn.proxyIds = newProxyIds group
  certFingerprints : conn.certFingerprints = group.certFingerprints
  isRunning : t.isRunning = true

theorem Serves.needsReconnect {group : ServerProxyGroup} {conn : ServerConnection}
    {t : ConnectionTask} (hs : m.Serves group conn t) (h : m.WellFormed) :
    m.needsReconnect group = false :=
  (needsReconnect_eq_false_iff h group).mpr
    ⟨conn, t, hs.slot_eq, hs.isRunning, hs.certFingerprints⟩

theorem lookup_of_keep {group : ServerProxyGroup} (hkeep : m.needsReconnect group = false) :
    ∃ conn, m.connections.lookup group.nodeId = some conn := by
  cases hc : m.connections.lookup group.nodeId with
  | none => simp [ConnectionManager.needsReconnect, hc] at hkeep
  | some conn => exact ⟨conn, rfl⟩

theorem reconcileGroup_of_keep {group : ServerProxyGroup} {conn : ServerConnection}
    (hkeep : m.needsReconnect group = false)
    (hc : m.connections.lookup group.nodeId = some conn) :
    m.reconcileGroup group =
      { m with
        connections := m.connections.insert group.nodeId
          { conn with
            proxyIds := newProxyIds group
            certFingerprints := group.certFingerprints } } := by
  simp [reconcileGroup, hkeep, hc]

theorem tasks_reconcileGroup_of_keep {group : ServerProxyGroup}
    (hkeep : m.needsReconnect group = false) : (m.reconcileGroup group).tasks = m.tasks := by
  obtain ⟨conn, hc⟩ := lookup_of_keep hkeep
  rw [reconcileGroup_of_keep hkeep hc]

theorem reconcileGroup_of_restart {group : ServerProxyGroup}
    (hrestart : m.needsReconnect group = true) :
    m.reconcileGroup group = (m.disconnect group.nodeId).connect group (newProxyIds group) := by
  simp [reconcileGroup, hrestart]

theorem WellFormed.reconcileGroup (h : m.WellFormed) (group : ServerProxyGroup) :
    (m.reconcileGroup group).WellFormed := by
  cases hkeep : m.needsReconnect group with
  | true =>
      rw [reconcileGroup_of_restart hkeep]
      exact (h.disconnect _).connect group _ (by simp [lookup_disconnect])
  | false =>
      obtain ⟨conn, t, hs, -, hfps⟩ := (needsReconnect_eq_false_iff h group).mp hkeep
      obtain ⟨hc, ht⟩ := slot_eq_some.mp hs
      obtain ⟨hnode, hcancel, hcert⟩ := h.slot_task hs
      rw [reconcileGroup_of_keep hkeep hc]
      refine ⟨?_, ?_⟩
      · intro k c hk
        rw [AList.lookup_insert_eq_ite] at hk
        split_ifs at hk with heq
        · obtain rfl := Option.some.inj hk
          exact ⟨t, ht, hnode.trans heq.symm, hcancel, hcert.trans hfps⟩
        · exact h.task_of_conn k c hk
      · intro i u hu
        obtain ⟨c, hcu, hi⟩ := h.conn_of_running i u hu
        by_cases heq : u.nodeId = group.nodeId
        · rw [heq, hc] at hcu
          obtain rfl := Option.some.inj hcu
          rw [heq]
          exact ⟨_, AList.lookup_insert m.connections, hi⟩
        · exact ⟨c, (AList.lookup_insert_ne heq).trans hcu, hi⟩

/-- A group leaves the slots of the other nodes alone. -/
theorem slot_reconcileGroup_of_ne (h : m.WellFormed) (group : ServerProxyGroup) {k : Int}
    (hk : k ≠ group.nodeId) : (m.reconcileGroup group).slot k = m.slot k := by
  cases hkeep : m.needsReconnect group with
  | true =>
      rw [reconcileGroup_of_restart hkeep, slot_connect_of_ne _ _ hk (h.disconnect _),
        slot_disconnect_of_ne h hk]
  | false =>
      obtain ⟨conn, hc⟩ := lookup_of_keep hkeep
      rw [reconcileGroup_of_keep hkeep hc]
      simp [slot, AList.lookup_insert_ne hk]

/-- The outcome of one group: a restarted task captured the group, a kept task
is the one that was there before. -/
theorem reconcileGroup_serves (h : m.WellFormed) (group : ServerProxyGroup)
    (hparse : (SocketAddr.parse (serverAddrStr group)).isSome) :
    ∃ conn t, (m.reconcileGroup group).Serves group conn t ∧
      (m.needsReconnect group = true → UsesGroup t group) ∧
      (m.needsReconnect group = false → ∃ old, m.slot group.nodeId = some (old, t)) := by
  cases hkeep : m.needsReconnect group with
  | true =>
      obtain ⟨conn, t, hs, hids, hfps, hrun, huses⟩ :=
        slot_connect_self (m.disconnect group.nodeId) group (newProxyIds group) hparse
      rw [reconcileGroup_of_restart hkeep]
      exact ⟨conn, t, ⟨hs, hids, hfps, hrun⟩, fun _ ↦ huses, by simp⟩
  | false =>
      obtain ⟨conn, t, hs, hrun, hfps⟩ := (needsReconnect_eq_false_iff h group).mp hkeep
      obtain ⟨hc, ht⟩ := slot_eq_some.mp hs
      rw [reconcileGroup_of_keep hkeep hc]
      refine ⟨_, t, ⟨slot_eq_some.mpr ⟨AList.lookup_insert m.connections, ?_⟩, rfl, rfl, hrun⟩,
        by simp, fun _ ↦ ⟨conn, hs⟩⟩
      exact ht

/-! ## A list of groups -/

theorem needsReconnect_congr {m' : ConnectionManager} (h : m.WellFormed) (h' : m'.WellFormed)
    {group : ServerProxyGroup} (hs : m'.slot group.nodeId = m.slot group.nodeId) :
    m'.needsReconnect group = m.needsReconnect group := by
  rw [Bool.eq_iff_iff, ← not_iff_not, Bool.not_eq_true, Bool.not_eq_true,
    needsReconnect_eq_false_iff h', needsReconnect_eq_false_iff h, hs]

theorem WellFormed.foldl_disconnect (h : m.WellFormed) (ns : List Int) :
    (ns.foldl ConnectionManager.disconnect m).WellFormed := by
  induction ns generalizing m with
  | nil => exact h
  | cons n ns ih => exact ih (h.disconnect n)

theorem slot_foldl_disconnect (h : m.WellFormed) (ns : List Int) (k : Int) :
    (ns.foldl disconnect m).slot k = if k ∈ ns then none else m.slot k := by
  induction ns generalizing m with
  | nil => simp
  | cons n ns ih =>
      rw [List.foldl_cons, ih (h.disconnect n)]
      by_cases hk : k = n
      · subst hk
        simp [slot_disconnect_self]
      · simp [slot_disconnect_of_ne h hk, hk]

theorem WellFormed.disconnectUnlisted (h : m.WellFormed) (groups : List ServerProxyGroup) :
    (m.disconnectUnlisted groups).WellFormed :=
  h.foldl_disconnect _

theorem slot_disconnectUnlisted (h : m.WellFormed) (groups : List ServerProxyGroup) (k : Int) :
    (m.disconnectUnlisted groups).slot k =
      if k ∈ groups.map (·.nodeId) then m.slot k else none := by
  rw [disconnectUnlisted, slot_foldl_disconnect h]
  by_cases hk : k ∈ groups.map (·.nodeId)
  · simp only [List.mem_filter, decide_eq_true_eq, hk, not_true_eq_false, and_false, if_false,
      if_true]
  · rw [if_neg hk]
    by_cases hmem : k ∈ m.connections.keys
    · simp only [List.mem_filter, decide_eq_true_eq, hk, hmem, not_false_eq_true, and_self,
        if_true]
    · have hfree : m.connections.lookup k = none := AList.lookup_eq_none.mpr hmem
      simp [slot, hfree]

/-- Nothing is dropped when only listed nodes have connections. -/
theorem disconnectUnlisted_eq_self {groups : List ServerProxyGroup}
    (hlisted : ∀ k ∈ m.connections.keys, k ∈ groups.map (·.nodeId)) :
    m.disconnectUnlisted groups = m := by
  have hnil : m.connections.keys.filter (· ∉ groups.map (·.nodeId)) = [] := by
    rw [List.filter_eq_nil_iff]
    intro k hk
    simpa using hlisted k hk
  rw [disconnectUnlisted, hnil, List.foldl_nil]

theorem WellFormed.foldl_reconcileGroup (h : m.WellFormed) (groups : List ServerProxyGroup) :
    (groups.foldl ConnectionManager.reconcileGroup m).WellFormed := by
  induction groups generalizing m with
  | nil => exact h
  | cons group groups ih => exact ih (h.reconcileGroup group)

theorem WellFormed.reconcile (h : m.WellFormed) (groups : List ServerProxyGroup) :
    (m.reconcile groups).WellFormed :=
  (h.disconnectUnlisted groups).foldl_reconcileGroup groups

theorem slot_foldl_reconcileGroup_of_notMem (h : m.WellFormed) {groups : List ServerProxyGroup}
    {k : Int} (hk : k ∉ groups.map (·.nodeId)) :
    (groups.foldl reconcileGroup m).slot k = m.slot k := by
  induction groups generalizing m with
  | nil => rfl
  | cons group groups ih =>
      simp only [List.map_cons, List.mem_cons, not_or] at hk
      rw [List.foldl_cons, ih (h.reconcileGroup group) hk.2, slot_reconcileGroup_of_ne h group hk.1]

/-- With distinct nodes, each listed slot is treated once and from the state it
had at the beginning. -/
theorem foldl_reconcileGroup_serves (h : m.WellFormed) {groups : List ServerProxyGroup}
    (hnodup : (groups.map (·.nodeId)).Nodup)
    (hparse : ∀ g ∈ groups, (SocketAddr.parse (serverAddrStr g)).isSome) :
    ∀ g ∈ groups, ∃ conn t, (groups.foldl reconcileGroup m).Serves g conn t ∧
      (m.needsReconnect g = true → UsesGroup t g) ∧
      (m.needsReconnect g = false → ∃ old, m.slot g.nodeId = some (old, t)) := by
  induction groups generalizing m with
  | nil => simp
  | cons group groups ih =>
      simp only [List.map_cons, List.nodup_cons] at hnodup
      intro g hg
      rcases List.mem_cons.mp hg with rfl | hg
      · obtain ⟨conn, t, hserves, hrest⟩ := reconcileGroup_serves h g (hparse g hg)
        refine ⟨conn, t, ⟨?_, hserves.2, hserves.3, hserves.4⟩, hrest⟩
        rw [List.foldl_cons,
          slot_foldl_reconcileGroup_of_notMem (h.reconcileGroup g) hnodup.1, hserves.slot_eq]
      · have hne : g.nodeId ≠ group.nodeId := by
          intro heq
          exact hnodup.1 (heq ▸ List.mem_map_of_mem hg)
        have hslot := slot_reconcileGroup_of_ne h group hne
        obtain ⟨conn, t, hserves, hrest⟩ := ih (h.reconcileGroup group) hnodup.2
          (fun g' hg' ↦ hparse g' (List.mem_cons_of_mem _ hg')) g hg
        rw [needsReconnect_congr h (h.reconcileGroup group) hslot, hslot] at hrest
        exact ⟨conn, t, hserves, hrest⟩

theorem slot_reconcile_of_unlisted (h : m.WellFormed) {groups : List ServerProxyGroup} {k : Int}
    (hk : k ∉ groups.map (·.nodeId)) : (m.reconcile groups).slot k = none := by
  rw [reconcile, slot_foldl_reconcileGroup_of_notMem (h.disconnectUnlisted groups) hk,
    slot_disconnectUnlisted h, if_neg hk]

theorem reconcile_serves (h : m.WellFormed) {groups : List ServerProxyGroup}
    (hnodup : (groups.map (·.nodeId)).Nodup)
    (hparse : ∀ g ∈ groups, (SocketAddr.parse (serverAddrStr g)).isSome) :
    ∀ g ∈ groups, ∃ conn t, (m.reconcile groups).Serves g conn t ∧
      (m.needsReconnect g = true → UsesGroup t g) ∧
      (m.needsReconnect g = false → ∃ old, m.slot g.nodeId = some (old, t)) := by
  intro g hg
  have hd := h.disconnectUnlisted groups
  have hslot : (m.disconnectUnlisted groups).slot g.nodeId = m.slot g.nodeId := by
    rw [slot_disconnectUnlisted h, if_pos (List.mem_map_of_mem hg)]
  obtain ⟨conn, t, hserves, hrest⟩ := foldl_reconcileGroup_serves hd hnodup hparse g hg
  rw [needsReconnect_congr h hd hslot, hslot] at hrest
  exact ⟨conn, t, hserves, hrest⟩

/-- Groups that are all kept spawn and cancel nothing. -/
theorem tasks_foldl_reconcileGroup_of_keep (h : m.WellFormed) {groups : List ServerProxyGroup}
    (hnodup : (groups.map (·.nodeId)).Nodup)
    (hkeep : ∀ g ∈ groups, m.needsReconnect g = false) :
    (groups.foldl reconcileGroup m).tasks = m.tasks := by
  induction groups generalizing m with
  | nil => rfl
  | cons group groups ih =>
      simp only [List.map_cons, List.nodup_cons] at hnodup
      rw [List.foldl_cons, ih (h.reconcileGroup group) hnodup.2,
        tasks_reconcileGroup_of_keep (hkeep group (List.mem_cons_self ..))]
      intro g hg
      have hne : g.nodeId ≠ group.nodeId := by
        intro heq
        exact hnodup.1 (heq ▸ List.mem_map_of_mem hg)
      rw [needsReconnect_congr h (h.reconcileGroup group) (slot_reconcileGroup_of_ne h group hne)]
      exact hkeep g (List.mem_cons_of_mem _ hg)

/-- Reconciling the same list again spawns and cancels nothing. -/
theorem tasks_reconcile_reconcile (h : m.WellFormed) {groups : List ServerProxyGroup}
    (hnodup : (groups.map (·.nodeId)).Nodup)
    (hparse : ∀ g ∈ groups, (SocketAddr.parse (serverAddrStr g)).isSome) :
    ((m.reconcile groups).reconcile groups).tasks = (m.reconcile groups).tasks := by
  have hw := h.reconcile groups
  have hlisted : ∀ k ∈ (m.reconcile groups).connections.keys, k ∈ groups.map (·.nodeId) := by
    intro k hk
    by_contra hnot
    have hfree := (hw.slot_eq_none_iff).mp (slot_reconcile_of_unlisted h hnot)
    exact AList.lookup_eq_none.mp hfree hk
  rw [reconcile, disconnectUnlisted_eq_self hlisted]
  refine tasks_foldl_reconcileGroup_of_keep hw hnodup ?_
  intro g hg
  obtain ⟨conn, t, hserves, -⟩ := reconcile_serves h hnodup hparse g hg
  exact hserves.needsReconnect hw

theorem WellFormed.step {e : Event} {m' : ConnectionManager} (h : m.WellFormed)
    (hstep : m.step e = some m') : m'.WellFormed := by
  cases e with
  | reconcile groups =>
      cases hstep
      exact h.reconcile groups
  | taskFinished i =>
      cases hstep
      refine ⟨?_, ?_⟩
      · intro n conn hc
        obtain ⟨t, ht, hn, hcancel, hfps⟩ := h.task_of_conn n conn hc
        simp only [List.getElem?_modify, ht]
        split_ifs
        · exact ⟨_, rfl, hn, hcancel, hfps⟩
        · exact ⟨_, rfl, hn, hcancel, hfps⟩
      · intro j t hr
        obtain ⟨ht, hrun⟩ := hr
        simp only [List.getElem?_modify, Option.map_eq_map, Option.map_eq_some_iff] at ht
        obtain ⟨u, hu, rfl⟩ := ht
        by_cases hij : i = j
        · simp [hij, ConnectionTask.isRunning] at hrun
        · rw [if_neg hij] at hrun ⊢
          exact h.conn_of_running j u ⟨hu, hrun⟩

/-- Every manager reached from the empty one is well-formed. -/
theorem WellFormed.of_run {token : String} {events : List Event}
    (hrun : run ConnectionManager.step (ConnectionManager.new token) events = some m) :
    m.WellFormed :=
  run_invariant_of_step (fun _ _ _ h hstep ↦ h.step hstep) (.new token) hrun

/-! ## The postcondition -/

/-- Exactly one task runs for each listed node, with everything the group asks
for, and none runs for any other node. -/
structure Reconciled (m : ConnectionManager) (groups : List ServerProxyGroup) : Prop where
  listed : ∀ g ∈ groups, ∃ i t conn,
    m.Runs i t ∧ t.nodeId = g.nodeId ∧ UsesGroup t g ∧
      (∀ j u, m.Runs j u → u.nodeId = g.nodeId → j = i) ∧
      m.connections.lookup g.nodeId = some conn ∧ conn.task = i ∧
      conn.proxyIds = newProxyIds g
  unlisted : ∀ i t, m.Runs i t → t.nodeId ∈ groups.map (·.nodeId)

/-- A manager whose slots serve the groups is reconciled exactly when the
serving tasks captured the groups. -/
theorem reconciled_reconcile_iff (h : m.WellFormed) {groups : List ServerProxyGroup}
    (hnodup : (groups.map (·.nodeId)).Nodup)
    (hparse : ∀ g ∈ groups, (SocketAddr.parse (serverAddrStr g)).isSome) :
    (m.reconcile groups).Reconciled groups ↔
      ∀ g ∈ groups, ∀ conn t, (m.reconcile groups).slot g.nodeId = some (conn, t) →
        UsesGroup t g := by
  have hw := h.reconcile groups
  constructor
  · intro hrec g hg conn t hs
    obtain ⟨i, t', conn', hr, -, huses, -, hc, rfl, -⟩ := hrec.listed g hg
    obtain ⟨hconn, htask⟩ := slot_eq_some.mp hs
    obtain rfl := Option.some.inj (hc.symm.trans hconn)
    obtain rfl := Option.some.inj (hr.1.symm.trans htask)
    exact huses
  · intro huses
    refine ⟨?_, ?_⟩
    · intro g hg
      obtain ⟨conn, t, hserves, -⟩ := reconcile_serves h hnodup hparse g hg
      obtain ⟨hc, ht⟩ := slot_eq_some.mp hserves.slot_eq
      refine ⟨conn.task, t, conn, ⟨ht, hserves.isRunning⟩, (hw.slot_task hserves.slot_eq).1,
        huses g hg conn t hserves.slot_eq, ?_, hc, rfl, hserves.proxyIds⟩
      intro j u hr hu
      obtain ⟨c, hcu, hj⟩ := hw.conn_of_running j u hr
      rw [hu, hc] at hcu
      obtain rfl := Option.some.inj hcu
      exact hj.symm
    · intro i t hr
      by_contra hnot
      obtain ⟨conn, hc, -⟩ := hw.conn_of_running i t hr
      rw [(hw.slot_eq_none_iff).mp (slot_reconcile_of_unlisted h hnot)] at hc
      cases hc

/-- A running task of the group's node with the group's fingerprints also
captured the group's address, protocol and KCP settings. -/
def KeptTasksAgree (m : ConnectionManager) (group : ServerProxyGroup) : Prop :=
  ∀ t ∈ m.tasks, t.isRunning = true → t.nodeId = group.nodeId →
    t.certFingerprints = group.certFingerprints →
    SocketAddr.parse (serverAddrStr group) = some t.serverAddr ∧
      t.protocol = group.protocol ∧ t.kcpConfig = group.kcp

/-- On every reachable manager, a reconcile does what the new list asks for, and
a repetition restarts nothing, exactly when no kept task has a stale address,
protocol or KCP setting. -/
theorem reconcile_correct_iff {token : String} {events : List Event}
    (hrun : run step (new token) events = some m) {groups : List ServerProxyGroup}
    (hnodup : (groups.map (·.nodeId)).Nodup)
    (hparse : ∀ g ∈ groups, (SocketAddr.parse (serverAddrStr g)).isSome) :
    ((m.reconcile groups).Reconciled groups ∧
        ((m.reconcile groups).reconcile groups).tasks = (m.reconcile groups).tasks) ↔
      ∀ g ∈ groups, m.KeptTasksAgree g := by
  have h := WellFormed.of_run hrun
  rw [and_iff_left (tasks_reconcile_reconcile h hnodup hparse),
    reconciled_reconcile_iff h hnodup hparse]
  constructor
  · intro huses g hg t ht htrun hnode hfps
    obtain ⟨i, hi⟩ := List.getElem?_of_mem ht
    obtain ⟨old, hold, -⟩ := h.runs_iff.mp ⟨hi, htrun⟩
    rw [hnode] at hold
    have hkeep : m.needsReconnect g = false :=
      (needsReconnect_eq_false_iff h g).mpr
        ⟨old, t, hold, htrun, (h.slot_task hold).2.2.symm.trans hfps⟩
    obtain ⟨conn, t', hserves, -, hkept⟩ := reconcile_serves h hnodup hparse g hg
    obtain ⟨old', hold'⟩ := hkept hkeep
    obtain ⟨rfl, rfl⟩ := Prod.mk.inj (Option.some.inj (hold.symm.trans hold'))
    have := huses g hg conn t hserves.slot_eq
    exact ⟨this.serverAddr, this.protocol, this.kcpConfig⟩
  · intro hagree g hg conn t hs
    obtain ⟨conn', t', hserves, hfresh, hkept⟩ := reconcile_serves h hnodup hparse g hg
    obtain ⟨rfl, rfl⟩ := Prod.mk.inj (Option.some.inj (hs.symm.trans hserves.slot_eq))
    cases hkeep : m.needsReconnect g with
    | true => exact hfresh hkeep
    | false =>
        obtain ⟨old, hold⟩ := hkept hkeep
        have hfps := ((h.reconcile groups).slot_task hs).2.2.trans hserves.certFingerprints
        have hmem : t ∈ m.tasks := List.mem_of_getElem? (slot_eq_some.mp hold).2
        obtain ⟨haddr, hproto, hkcp⟩ :=
          hagree g hg t hmem hserves.isRunning (h.slot_task hold).1 hfps
        exact ⟨haddr, hproto, hkcp, hfps⟩

/-- A node with one fixed fingerprint, reachable over the given protocol. -/
def nodeGroup (protocol : TunnelProtocol) : ServerProxyGroup where
  nodeId := 1
  serverAddr := "10.0.0.1"
  serverPort := 7000
  protocol := protocol
  kcp := none
  proxies := [⟨5, "web", "tcp", "127.0.0.1", 80, 8080, true⟩]
  certFingerprints := ["ab"]

def pinnedGroup (nodeId : Int) (fingerprint : String) : ServerProxyGroup :=
  { nodeGroup .quic with nodeId := nodeId, certFingerprints := [fingerprint] }

/-- Of three tasks one is kept, one restarted for a new fingerprint and one stopped; a
fourth is new. -/
theorem reconcile_correct_pinnedGroup :
    ∃ m, run step (new "token")
        [.reconcile [pinnedGroup 1 "ab", pinnedGroup 2 "ab", pinnedGroup 3 "ab"]] = some m ∧
      (let groups := [pinnedGroup 1 "ab", pinnedGroup 2 "cd", pinnedGroup 4 "ab"]
       (m.reconcile groups).tasks.map (fun t ↦ (t.nodeId, t.isRunning)) =
          [(1, true), (2, false), (3, false), (2, true), (4, true)] ∧
        (m.reconcile groups).Reconciled groups ∧
          ((m.reconcile groups).reconcile groups).tasks = (m.reconcile groups).tasks) := by
  have hrun : run step (new "token")
      [.reconcile [pinnedGroup 1 "ab", pinnedGroup 2 "ab", pinnedGroup 3 "ab"]] = some _ := rfl
  refine ⟨_, hrun, by decide +kernel,
    (reconcile_correct_iff hrun (by decide) (by decide +kernel)).mpr ?_⟩
  unfold KeptTasksAgree
  decide +kernel

/-- A node whose protocol changed from QUIC to TCP keeps its QUIC task. -/
theorem not_reconciled_protocol_change :
    ∃ m, run step (new "token") [.reconcile [nodeGroup .quic]] = some m ∧
      ([nodeGroup .tcp].map (·.nodeId)).Nodup ∧
      (∀ g ∈ [nodeGroup .tcp], (SocketAddr.parse (serverAddrStr g)).isSome) ∧
      ¬ (m.reconcile [nodeGroup .tcp]).Reconciled [nodeGroup .tcp] := by
  refine ⟨_, rfl, List.nodup_singleton _, by decide +kernel, ?_⟩
  intro hrec
  have hquic : ∀ t ∈ (((new "token").reconcile [nodeGroup .quic]).reconcile
      [nodeGroup .tcp]).tasks, t.protocol = .quic := by
    decide +kernel
  obtain ⟨i, t, conn, hr, -, huses, -⟩ := hrec.listed _ (List.mem_singleton_self _)
  have hold := hquic t (List.mem_of_getElem? hr.1)
  simp [huses.protocol, nodeGroup] at hold

end ConnectionManager

end Oxiproxy.Client
