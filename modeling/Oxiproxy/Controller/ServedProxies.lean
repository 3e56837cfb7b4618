import Oxiproxy.Controller.ProxyChecks

/-!
# The proxies that a node serves

A node that agrees with the database serves every enabled proxy assigned to it,
with the settings of its row, and nothing else.  While a request is handled the two
may differ in some proxies, which are then loose; writes loosen proxies and
commands settle them.
-/

namespace Oxiproxy.Controller

open Deployment

/-! ## Agreement -/

/-- The row of a proxy that is enabled and assigned to the node. -/
def Db.served (db : Db) (nodeId id : ℤ) : Option Proxy :=
  (db.proxies.find id).filter fun p ↦ p.enabled && p.nodeId == some nodeId

/-- The endpoint that the settings of a row ask for.  The name only occurs in log
lines; an endpoint keeps the one it was started with. -/
def Proxy.RunsAs (parse : UrlParser) (p : Proxy) (e : Node.Endpoint) : Prop :=
  ∃ name, Node.Describes parse { p.config with name } e

/-- Under the id the node runs one endpoint, for the client of the row and with its
settings, or none without a row. -/
def Serves (parse : UrlParser) (m : Node.ProxyListenerManager) (id : ℤ) : Option Proxy → Prop
  | none => ∀ c e, ¬ Node.Owns m c id e
  | some p =>
      ∃ e, p.RunsAs parse e ∧ ∀ c e', Node.Owns m c id e' ↔ c = p.clientId.getD "" ∧ e' = e

/-- The node is online and runs exactly the enabled proxies assigned to it. -/
def Agrees (parse : UrlParser) (nodeId : ℤ) (d : Deployment) : Prop :=
  ∃ m, d.nodes nodeId = some m ∧ ∀ id, Serves parse m id (d.db.served nodeId id)

/-- Every command sent to the node has succeeded. -/
def SentOk (nodeId : ℤ) (d : Deployment) : Prop :=
  ∀ command ∈ d.commands, command.1 = nodeId → command.2 = true

instance (nodeId : ℤ) (d : Deployment) : Decidable (SentOk nodeId d) :=
  inferInstanceAs (Decidable (∀ command ∈ d.commands, command.1 = nodeId → command.2 = true))

/-- If all commands have succeeded, the node is online, serves what is not loose
and runs endpoints only for proxies assigned to it. -/
def AgreesBut (parse : UrlParser) (nodeId : ℤ) (loose : Set ℤ) (d : Deployment) : Prop :=
  SentOk nodeId d → ∃ m, d.nodes nodeId = some m ∧
    (∀ id c e, Node.Owns m c id e → ∃ p, d.db.proxies.find id = some p ∧
      p.nodeId = some nodeId ∧ p.clientId.getD "" = c) ∧
    ∀ id ∉ loose, Serves parse m id (d.db.served nodeId id)

/-- The node runs nothing under the id. -/
def Stopped (nodeId id : ℤ) (d : Deployment) : Prop :=
  SentOk nodeId d → ∀ m, d.nodes nodeId = some m → ∀ c e, ¬ Node.Owns m c id e

section Agreement

variable {parse : UrlParser} {n id : ℤ} {d d' : Deployment} {p : Proxy} {loose : Set ℤ}

theorem served_eq_some {db : Db} :
    db.served n id = some p ↔
      db.proxies.find id = some p ∧ p.enabled = true ∧ p.nodeId = some n := by
  rw [Db.served, Option.filter_eq_some_iff, Bool.and_eq_true, beq_iff_eq]

theorem served_eq_none {db : Db} :
    db.served n id = none ↔
      ∀ p, db.proxies.find id = some p → p.nodeId = some n → p.enabled = false := by
  rw [Option.eq_none_iff_forall_ne_some]
  constructor
  · intro h p hfind hnode
    by_contra henabled
    exact h p (served_eq_some.mpr ⟨hfind, by simpa using henabled, hnode⟩)
  · intro h p hserved
    obtain ⟨hfind, henabled, hnode⟩ := served_eq_some.mp hserved
    rw [h p hfind hnode] at henabled
    cases henabled

theorem served_congr {db db' : Db} (h : db'.proxies.find id = db.proxies.find id) :
    db'.served n id = db.served n id := by
  rw [Db.served, Db.served, h]

theorem Serves.owner {m : Node.ProxyListenerManager} {db : Db}
    (h : Serves parse m id (db.served n id)) {c : String} {e : Node.Endpoint}
    (howns : Node.Owns m c id e) :
    ∃ p, db.proxies.find id = some p ∧ p.nodeId = some n ∧ p.clientId.getD "" = c := by
  cases hserved : db.served n id with
  | none =>
      rw [hserved] at h
      exact absurd howns (h c e)
  | some p =>
      rw [hserved] at h
      obtain ⟨e₀, -, hself⟩ := h
      obtain ⟨hfind, -, hnode⟩ := served_eq_some.mp hserved
      exact ⟨p, hfind, hnode, ((hself c e).mp howns).1.symm⟩

theorem Serves.congr {m m' : Node.ProxyListenerManager} {row : Option Proxy}
    (h : Serves parse m id row) (howns : ∀ c e, Node.Owns m' c id e ↔ Node.Owns m c id e) :
    Serves parse m' id row := by
  cases row with
  | none => exact fun c e hc ↦ h c e ((howns c e).mp hc)
  | some p =>
      obtain ⟨e, hruns, hself⟩ := h
      exact ⟨e, hruns, fun c e' ↦ (howns c e').trans (hself c e')⟩

theorem Agrees.agreesBut (h : Agrees parse n d) : AgreesBut parse n ∅ d := by
  obtain ⟨m, hm, hserves⟩ := h
  exact fun _ ↦ ⟨m, hm, fun id c e howns ↦ (hserves id).owner howns, fun id _ ↦ hserves id⟩

theorem AgreesBut.agrees (h : AgreesBut parse n ∅ d) (hsent : SentOk n d) : Agrees parse n d := by
  obtain ⟨m, hm, -, hserves⟩ := h hsent
  exact ⟨m, hm, fun id ↦ hserves id (Set.notMem_empty id)⟩

theorem AgreesBut.mono {loose' : Set ℤ} (h : AgreesBut parse n loose d) (hsub : loose ⊆ loose') :
    AgreesBut parse n loose' d := by
  intro hsent
  obtain ⟨m, hm, howner, hserves⟩ := h hsent
  exact ⟨m, hm, howner, fun id hid ↦ hserves id fun hloose ↦ hid (hsub hloose)⟩

/-- Nothing runs under an id that is not to be served. -/
theorem AgreesBut.stopped (h : AgreesBut parse n loose d) (hid : id ∉ loose)
    (hserved : SentOk n d → d.db.served n id = none) : Stopped n id d := by
  intro hsent m hm
  obtain ⟨m', hm', -, hserves⟩ := h hsent
  obtain rfl := Option.some.inj (hm.symm.trans hm')
  have hnone := hserves id hid
  rwa [hserved hsent] at hnone

/-- A proxy that is neither running nor to be served is no longer loose. -/
theorem AgreesBut.settle (h : AgreesBut parse n (insert id loose) d) (hstopped : Stopped n id d)
    (hserved : SentOk n d → d.db.served n id = none) : AgreesBut parse n loose d := by
  intro hsent
  obtain ⟨m, hm, howner, hserves⟩ := h hsent
  refine ⟨m, hm, howner, fun j hj ↦ ?_⟩
  by_cases hid : j = id
  · rw [hid, hserved hsent]
    exact hstopped hsent m hm
  · apply hserves
    rintro (rfl | hloose)
    · exact hid rfl
    · exact hj hloose

theorem AgreesBut.settleAll (h : AgreesBut parse n loose d)
    (hloose : ∀ id ∈ loose, Stopped n id d ∧ d.db.served n id = none) :
    AgreesBut parse n ∅ d := by
  intro hsent
  obtain ⟨m, hm, howner, hserves⟩ := h hsent
  refine ⟨m, hm, howner, fun id _ ↦ ?_⟩
  by_cases hid : id ∈ loose
  · obtain ⟨hstopped, hserved⟩ := hloose id hid
    rw [hserved]
    exact hstopped hsent m hm
  · exact hserves id hid

end Agreement

/-! ## Writes -/

section Writes

variable {parse : UrlParser} {env : HandlerEnv} {n id : ℤ} {d d' : Deployment} {p : Proxy}
  {loose : Set ℤ}

theorem AgreesBut.insertProxy {row : Proxy} {result : Except String Proxy}
    (h : AgreesBut parse n loose d) (hinsert : d.insertProxy env row = (d', result)) :
    (∀ e, result = .error e → AgreesBut parse n loose d') ∧
      ∀ p, result = .ok p → AgreesBut parse n (insert p.id loose) d' := by
  rcases insertProxy_cases hinsert with ⟨e, rfl, rfl⟩ | ⟨p, -, rfl, -, -, hfresh, rfl⟩
  · exact ⟨fun _ _ ↦ h, fun p hp ↦ (by cases hp)⟩
  · refine ⟨fun e he ↦ (by cases he), fun q hq ↦ ?_⟩
    cases hq
    intro hsent
    obtain ⟨m, hm, howner, hserves⟩ := h hsent
    have hnone : d.db.proxies.find p.id = none := Table.find_eq_none.mpr hfresh
    have hfind : ∀ j, j ≠ p.id →
        (d.db.proxies.insert p hfresh).find j = d.db.proxies.find j := fun j hj ↦ by
      rw [Table.find_insert]
      exact if_neg hj
    refine ⟨m, hm, fun j c e howns ↦ ?_, fun j hj ↦ ?_⟩
    · obtain ⟨q, hq, hrest⟩ := howner j c e howns
      refine ⟨q, (hfind j ?_).trans hq, hrest⟩
      rintro rfl
      rw [hnone] at hq
      cases hq
    · obtain ⟨hne, hj⟩ := not_or.mp hj
      rw [served_congr (hfind j hne)]
      exact hserves j hj

/-- What an update does to the rows. -/
theorem rows_updateProxy {active : ActiveProxy} {result : Except String Proxy}
    (hupdate : d.updateProxy env id active = (d', result)) :
    (d'.nodes = d.nodes ∧ d'.commands = d.commands) ∧
      ((∃ e, result = .error e ∧ d' = d) ∨
        ∃ row, d.db.proxies.find id = some row ∧ result = .ok (active.set row) ∧
          ∀ j, d'.db.proxies.find j =
            if j = id then some (active.set row) else d.db.proxies.find j) := by
  rcases updateProxy_cases hupdate with ⟨e, rfl, rfl⟩ | ⟨row, hrow, rfl, -, rfl⟩
  · exact ⟨⟨rfl, rfl⟩, .inl ⟨e, rfl, rfl⟩⟩
  · refine ⟨⟨rfl, rfl⟩, .inr ⟨row, hrow, rfl, fun j ↦ ?_⟩⟩
    rw [Table.find_modify]
    split_ifs with hj
    · rw [hj, hrow, Option.map_some]
    · rfl

/-- Updates leave where a proxy belongs. -/
theorem place_updateProxy {active : ActiveProxy} {result : Except String Proxy}
    (hupdate : d.updateProxy env id active = (d', result)) {j : ℤ} {q : Proxy}
    (hq : d'.db.proxies.find j = some q) :
    ∃ p, d.db.proxies.find j = some p ∧ q.place = p.place := by
  obtain ⟨-, ⟨e, -, rfl⟩ | ⟨row, hrow, -, hfind⟩⟩ := rows_updateProxy hupdate
  · exact ⟨q, hq, rfl⟩
  · rw [hfind] at hq
    split_ifs at hq with hj
    · cases hq
      exact ⟨row, hj ▸ hrow, active.place_set row⟩
    · exact ⟨q, hq, rfl⟩

theorem clientId_of_place {q : Proxy} (h : q.place = p.place) : q.clientId = p.clientId :=
  congrArg (fun place ↦ place.2.1) h

theorem nodeId_of_place {q : Proxy} (h : q.place = p.place) : q.nodeId = p.nodeId :=
  congrArg (fun place ↦ place.2.2.2.1) h

theorem AgreesBut.updateProxy {active : ActiveProxy} {result : Except String Proxy}
    (h : AgreesBut parse n loose d) (hupdate : d.updateProxy env id active = (d', result)) :
    AgreesBut parse n (insert id loose) d' := by
  obtain ⟨⟨hnodes, hcommands⟩, ⟨e, -, rfl⟩ | ⟨row, hrow, -, hfind⟩⟩ := rows_updateProxy hupdate
  · exact h.mono (Set.subset_insert id loose)
  · intro hsent
    obtain ⟨m, hm, howner, hserves⟩ := h (by rwa [SentOk, ← hcommands])
    refine ⟨m, hnodes ▸ hm, fun j c e howns ↦ ?_, fun j hj ↦ ?_⟩
    · obtain ⟨q, hq, hnode, hclient⟩ := howner j c e howns
      rw [hfind]
      split_ifs with hid
      · subst hid
        obtain rfl := Option.some.inj (hrow.symm.trans hq)
        have hplace := active.place_set row
        exact ⟨_, rfl, (nodeId_of_place hplace).trans hnode, by rw [clientId_of_place hplace, hclient]⟩
      · exact ⟨q, hq, hnode, hclient⟩
    · obtain ⟨hne, hj⟩ := not_or.mp hj
      rw [served_congr ((hfind j).trans (if_neg hne))]
      exact hserves j hj

/-- The rows ask for the same endpoints. -/
def Proxy.SameSettings (p q : Proxy) : Prop :=
  q.enabled = p.enabled ∧ (p.enabled = true → { q.config with name := p.name } = p.config)

theorem Proxy.SameSettings.runsAs {q : Proxy} (h : p.SameSettings q) (henabled : p.enabled = true)
    {e : Node.Endpoint} (hruns : p.RunsAs parse e) : q.RunsAs parse e := by
  obtain ⟨name, hdesc⟩ := hruns
  refine ⟨name, ?_⟩
  rwa [← h.2 henabled] at hdesc

/-- An update that keeps the settings loosens nothing. -/
theorem AgreesBut.updateProxy_same {active : ActiveProxy} {result : Except String Proxy}
    (h : AgreesBut parse n loose d) (hupdate : d.updateProxy env id active = (d', result))
    (hsame : ∀ row, d.db.proxies.find id = some row → row.nodeId = some n →
      row.SameSettings (active.set row)) :
    AgreesBut parse n loose d' := by
  have hinsert := h.updateProxy hupdate
  obtain ⟨⟨hnodes, hcommands⟩, ⟨e, -, rfl⟩ | ⟨row, hrow, -, hfind⟩⟩ := rows_updateProxy hupdate
  · exact h
  · intro hsent
    obtain ⟨m', hm', howner', hserves'⟩ := hinsert hsent
    obtain ⟨m, hm, -, hserves⟩ := h (by rwa [SentOk, ← hcommands])
    obtain rfl : m = m' := Option.some.inj (hm.symm.trans (hnodes ▸ hm'))
    refine ⟨m, hm', howner', fun j hj ↦ ?_⟩
    by_cases hid : j = id
    · subst hid
      have hplace := active.place_set row
      have hold := hserves j hj
      have hnew : d'.db.proxies.find j = some (active.set row) := (hfind j).trans (if_pos rfl)
      cases hserved : d.db.served n j with
      | none =>
          rw [hserved] at hold
          have hnone : d'.db.served n j = none := by
            refine served_eq_none.mpr fun q hq hnode ↦ ?_
            obtain rfl := Option.some.inj (hnew.symm.trans hq)
            rw [nodeId_of_place hplace] at hnode
            rw [(hsame row hrow hnode).1]
            exact served_eq_none.mp hserved row hrow hnode
          rw [hnone]
          exact hold
      | some p =>
          rw [hserved] at hold
          obtain ⟨hp, henabled, hnode⟩ := served_eq_some.mp hserved
          obtain rfl := Option.some.inj (hrow.symm.trans hp)
          have hset := hsame row hrow hnode
          have hsome : d'.db.served n j = some (active.set row) :=
            served_eq_some.mpr ⟨hnew, hset.1.trans henabled, (nodeId_of_place hplace).trans hnode⟩
          obtain ⟨e, hruns, hself⟩ := hold
          rw [hsome]
          refine ⟨e, hset.runsAs henabled hruns, fun c e' ↦ ?_⟩
          rw [hself, clientId_of_place hplace]
    · exact hserves' j fun hloose ↦ (Set.mem_insert_iff.mp hloose).elim hid hj

/-- Rows may be removed whose proxies do not run. -/
theorem AgreesBut.remove {gone : Proxy → Bool} (h : AgreesBut parse n loose d)
    (hproxies : d'.db.proxies = d.db.proxies.filter (!gone ·)) (hnodes : d'.nodes = d.nodes)
    (hcommands : d'.commands = d.commands)
    (hstopped : ∀ id p, d.db.proxies.find id = some p → gone p = true → Stopped n id d) :
    AgreesBut parse n loose d' := by
  intro hsent
  have hsent₀ : SentOk n d := by rwa [SentOk, ← hcommands]
  obtain ⟨m, hm, howner, hserves⟩ := h hsent₀
  have hfind : ∀ j, d'.db.proxies.find j = (d.db.proxies.find j).filter (!gone ·) := fun j ↦ by
    rw [hproxies, Table.find_filter]
  have hkept : ∀ {j p}, d.db.proxies.find j = some p → gone p = false →
      d'.db.proxies.find j = some p := by
    intro j p hp hgone
    rw [hfind, hp, Option.filter_some, hgone]
    rfl
  refine ⟨m, hnodes ▸ hm, fun j c e howns ↦ ?_, fun j hj ↦ ?_⟩
  · obtain ⟨p, hp, hrest⟩ := howner j c e howns
    refine ⟨p, hkept hp ?_, hrest⟩
    by_contra hgone
    exact hstopped j p hp (by simpa using hgone) hsent₀ m hm c e howns
  · have hold := hserves j hj
    cases hp : d.db.proxies.find j with
    | none => rwa [served_congr ((hfind j).trans (by rw [hp]; rfl))]
    | some p =>
        cases hgone : gone p with
        | false => rwa [served_congr ((hkept hp hgone).trans hp.symm)]
        | true =>
            have hnone : d'.db.served n j = none := by
              rw [Db.served, hfind, hp, Option.filter_some, hgone]
              rfl
            rw [hnone]
            exact hstopped j p hp hgone hsent₀ m hm

/-- A stopped proxy may be deleted, unless its row is to be served and stays. -/
theorem AgreesBut.deleteProxy {result : Except String Unit}
    (h : AgreesBut parse n (insert id loose) d) (hstopped : Stopped n id d)
    (hdelete : d.deleteProxy env id = (d', result))
    (hrefused : env.writes (.delete id) ≠ none → SentOk n d → d.db.served n id = none) :
    AgreesBut parse n loose d' := by
  rcases deleteProxy_cases hdelete with ⟨e, hwrite, rfl, rfl⟩ | ⟨rfl, rfl⟩
  · refine h.settle hstopped (hrefused ?_)
    rw [hwrite]
    exact Option.some_ne_none e
  · have hremoved := @AgreesBut.remove _ _ _ { d with
        db := d.db.deleteProxies (·.id == id)
        written := d.written ++ (d.db.proxies.find id).toList } _ (·.id == id) h
      rfl rfl rfl fun j p hp hgone ↦ by
        obtain rfl : p.id = j := Table.key_of_find hp
        rwa [beq_iff_eq.mp hgone]
    refine hremoved.settle hstopped fun _ ↦ served_eq_none.mpr fun p hp ↦ ?_
    have hfind : (d.db.proxies.filter fun q ↦ !(q.id == id)).find id = some p := hp
    rw [Table.find_filter, Option.filter_eq_some_iff] at hfind
    have hid : p.id = id := Table.key_of_find hfind.1
    simp [hid] at hfind

end Writes

/-! ## Commands -/

section Commands

variable {parse : UrlParser} {env : HandlerEnv} {n k id : ℤ} {clientId : String}
  {d d' : Deployment} {m : Node.ProxyListenerManager} {p : Proxy} {loose : Set ℤ}

section Send

variable {execute : Node.Binds → Node.ProxyListenerManager →
    Node.ProxyListenerManager × Except String Unit} {result : Except String (Except String Unit)}

/-- A command changes one node, if it is connected; when it counts as successful,
the node has executed it without an error. -/
theorem sendCommandAndWait_cases (h : d.sendCommandAndWait env k execute = (d', result)) :
    (d.nodes k = none ∧ d' = d) ∨
      ∃ m m' ok, d.nodes k = some m ∧ d'.nodes = Function.update d.nodes k (some m') ∧
        d'.commands = d.commands ++ [(k, ok)] ∧
        (ok = true → ∃ binds, execute binds m = (m', .ok ()) ∧ result = .ok (.ok ())) := by
  simp only [sendCommandAndWait] at h
  split at h
  · next hnode =>
      cases h
      exact .inl ⟨hnode, rfl⟩
  · next m hnode =>
      refine .inr ⟨m, ?_⟩
      split at h
      · cases h
        exact ⟨_, _, hnode, rfl, rfl, by simp⟩
      · cases h
        exact ⟨_, _, hnode, rfl, rfl, by simp⟩
      · cases h
        exact ⟨_, _, hnode, rfl, rfl, by simp⟩
      · next binds _ =>
          cases h
          refine ⟨_, _, hnode, rfl, rfl, fun hok ↦ ⟨binds, ?_⟩⟩
          cases hexecute : execute binds m with
          | mk m' answer =>
              rw [hexecute] at hok
              cases answer with
              | error e => cases hok
              | ok => exact ⟨rfl, rfl⟩

theorem SentOk.of_send (h : d.sendCommandAndWait env k execute = (d', result))
    (hsent : SentOk n d') : SentOk n d := by
  rcases sendCommandAndWait_cases h with ⟨-, rfl⟩ | ⟨-, -, ok, -, -, hcommands, -⟩
  · exact hsent
  · intro command hcommand
    apply hsent
    rw [hcommands]
    exact List.mem_append_left _ hcommand

theorem nodes_send_of_ne (h : d.sendCommandAndWait env k execute = (d', result)) (hk : k ≠ n) :
    d'.nodes n = d.nodes n := by
  rcases sendCommandAndWait_cases h with ⟨-, rfl⟩ | ⟨_, _, _, -, hnodes, -, -⟩
  · rfl
  · rw [hnodes, Function.update_of_ne hk.symm]

theorem send_ok (h : d.sendCommandAndWait env n execute = (d', result)) (hm : d.nodes n = some m)
    (hsent : SentOk n d') :
    ∃ binds m', execute binds m = (m', .ok ()) ∧ d'.nodes n = some m' ∧ result = .ok (.ok ()) := by
  rcases sendCommandAndWait_cases h with ⟨hnone, -⟩ | ⟨m₀, m', ok, hm₀, hnodes, hcommands, hok⟩
  · rw [hm] at hnone
    cases hnone
  · obtain rfl := Option.some.inj (hm.symm.trans hm₀)
    have hlast : (n, ok) ∈ d'.commands := by
      rw [hcommands]
      exact List.mem_append_right _ List.mem_cons_self
    obtain ⟨binds, hexecute, hresult⟩ := hok (hsent _ hlast rfl)
    refine ⟨binds, m', hexecute, ?_, hresult⟩
    rw [hnodes, Function.update_self]

end Send

theorem proxyOnNode_eq_ok {node : ℤ} :
    d.proxyOnNode clientId id = .ok (p, node) ↔
      d.db.proxies.find id = some p ∧ p.clientId.getD "" = clientId ∧ p.nodeId = some node := by
  unfold proxyOnNode
  cases hfind : d.db.proxies.find id with
  | none => simp
  | some q =>
      simp only [bind_eq_ok, ensure_eq_ok, beq_iff_eq, Option.some.injEq]
      constructor
      · rintro ⟨-, hclient, h⟩
        cases hnode : q.nodeId with
        | none => simp [hnode] at h
        | some k =>
            simp only [hnode, pure, Except.pure, Except.ok.injEq, Prod.mk.injEq] at h
            obtain ⟨rfl, rfl⟩ := h
            exact ⟨rfl, hclient, hnode⟩
      · rintro ⟨rfl, hclient, hnode⟩
        refine ⟨(), hclient, ?_⟩
        rw [hnode]
        rfl

/-! ### Stopping -/

theorem stopProxy_cases {result : Except String Unit}
    (h : d.stopProxy env clientId id = (d', result)) :
    d' = d ∧ (∀ p node, d.proxyOnNode clientId id ≠ .ok (p, node)) ∨
      ∃ p node sent, d.proxyOnNode clientId id = .ok (p, node) ∧
        d.sendCommandAndWait env node (fun _ m ↦ (m.stopSingleProxy clientId id, .ok ())) =
          (d', sent) := by
  unfold Deployment.stopProxy at h
  split at h
  · next e hnode =>
      cases h
      exact .inl ⟨rfl, fun p node hok ↦ by rw [hnode] at hok; cases hok⟩
  · next p node hnode =>
      refine .inr ⟨p, node, ?_⟩
      split at h <;> next hsend => cases h; exact ⟨_, hnode, hsend⟩

theorem SentOk.of_stopProxy {result : Except String Unit}
    (h : d.stopProxy env clientId id = (d', result)) (hsent : SentOk n d') : SentOk n d := by
  rcases stopProxy_cases h with ⟨rfl, -⟩ | ⟨_, _, _, -, hsend⟩
  · exact hsent
  · exact hsent.of_send hsend

/-- Stopping a proxy of the node under the id of its client. -/
theorem nodes_stopProxy {result : Except String Unit}
    (h : d.stopProxy env clientId id = (d', result)) (hm : d.nodes n = some m)
    (hsent : SentOk n d') (hfind : d.db.proxies.find id = some p) (hnode : p.nodeId = some n)
    (hclient : p.clientId.getD "" = clientId) :
    d'.nodes n = some (m.stopSingleProxy clientId id) := by
  have hon := proxyOnNode_eq_ok.mpr ⟨hfind, hclient, hnode⟩
  rcases stopProxy_cases h with ⟨-, hoff⟩ | ⟨q, node, sent, hok, hsend⟩
  · exact absurd hon (hoff p n)
  · obtain ⟨rfl, rfl⟩ := Prod.mk.inj (Except.ok.inj (hon.symm.trans hok))
    obtain ⟨binds, m', hexecute, hnodes, -⟩ := send_ok hsend hm hsent
    obtain ⟨rfl, -⟩ := Prod.mk.inj hexecute
    exact hnodes

/-- The row is assigned to the node, and to the client that a command names. -/
def OnNode (db : Db) (nodeId : ℤ) (clientId : String) (id : ℤ) : Prop :=
  ∃ p, db.proxies.find id = some p ∧ p.nodeId = some nodeId ∧ p.clientId.getD "" = clientId

theorem nodes_stopProxy_of_not {result : Except String Unit}
    (h : d.stopProxy env clientId id = (d', result)) (hoff : ¬ OnNode d.db n clientId id) :
    d'.nodes n = d.nodes n := by
  rcases stopProxy_cases h with ⟨rfl, -⟩ | ⟨p, node, sent, hok, hsend⟩
  · rfl
  · obtain ⟨hfind, hclient, hnode⟩ := proxyOnNode_eq_ok.mp hok
    refine nodes_send_of_ne hsend ?_
    rintro rfl
    exact hoff ⟨p, hfind, hnode, hclient⟩

/-! ### Starting -/

/-- A node that asks for the configuration of one proxy gets that of its row. -/
theorem filter_getClientProxiesFiltered {db : Db} {clientIdNum : ℤ}
    (hfind : db.proxies.find id = some p)
    (hne : ((getClientProxiesFiltered db n clientIdNum).filter fun c ↦
      c.proxyId == id && c.enabled) ≠ []) :
    ((getClientProxiesFiltered db n clientIdNum).filter fun c ↦ c.proxyId == id && c.enabled) =
      [p.config] := by
  have hrows : (getClientProxiesFiltered db n clientIdNum).filter
        (fun c ↦ c.proxyId == id && c.enabled) =
      ([p].filter fun q ↦ q.clientId == some (toString clientIdNum) && q.enabled &&
        q.nodeId == some n).map Proxy.config := by
    have hkey := Table.rows_filter_key db.proxies id
    rw [hfind, Option.toList_some] at hkey
    rw [getClientProxiesFiltered, List.filter_map, ← hkey, List.filter_filter, List.filter_filter]
    refine congrArg (List.map Proxy.config) (List.filter_congr fun q _ ↦ ?_)
    have hid : decide (key q = id) = (q.id == id) := rfl
    rw [hid]
    simp only [Function.comp, Proxy.config]
    cases q.id == id <;> cases q.enabled <;> simp
  rw [hrows] at hne ⊢
  rcases List.sublist_singleton.mp (List.filter_sublist (p := fun q : Proxy ↦
    q.clientId == some (toString clientIdNum) && q.enabled && q.nodeId == some n)) with hnil | hone
  · rw [hnil] at hne
    exact absurd rfl hne
  · rw [hone]
    rfl

/-- A start command that succeeds leaves the proxy with one endpoint, of its row. -/
theorem owns_startCommand {db : Db} {fetch : Option String} {binds : Node.Binds}
    {m' : Node.ProxyListenerManager} (hfind : db.proxies.find id = some p)
    (hclient : p.clientId.getD "" = clientId)
    (h : startCommand parse db fetch p n clientId binds m = (m', .ok ())) :
    ∃ e, Node.Describes parse p.config e ∧ ∀ c j e', Node.Owns m' c j e' ↔
      if c = clientId ∧ j = id then e' = e else Node.Owns m c j e' := by
  obtain rfl : p.id = id := Table.key_of_find hfind
  have hstart : (m.stopSingleProxy clientId p.id).startClientProxiesFromConfigs parse binds clientId
      [p.config] = (m', .ok ()) := by
    unfold startCommand at h
    cases hbound : p.clientId with
    | none =>
        rw [hbound] at h hclient
        obtain rfl : "" = clientId := hclient
        dsimp only at h
        unfold Node.startDirectProxy at h
        split at h
        · cases (Prod.mk.inj h).2
        · exact h
    | some client =>
        rw [hbound] at h
        dsimp only at h
        unfold Node.startProxy at h
        dsimp only at h
        split at h
        · cases (Prod.mk.inj h).2
        · next clientIdNum _ =>
            cases fetch with
            | some e => cases (Prod.mk.inj h).2
            | none =>
                dsimp only [Option.elim] at h
                split at h
                · cases (Prod.mk.inj h).2
                · next hne =>
                    rw [List.isEmpty_iff] at hne
                    rwa [filter_getClientProxiesFiltered hfind hne] at h
  have hnone : ∀ e, ¬ Node.Owns (m.stopSingleProxy clientId p.id) clientId p.config.proxyId e :=
    fun e howns ↦
      ((Node.ProxyListenerManager.owns_stopSingleProxy m clientId clientId p.id p.id e).mp howns).2
        ⟨rfl, rfl⟩
  obtain ⟨e, hdesc, howns⟩ := Node.owns_startOne hstart hclient hnone
  refine ⟨e, hdesc, fun c j e' ↦ (howns c j e').trans ?_⟩
  change (if c = clientId ∧ j = p.id then e' = e else _) ↔ _
  by_cases hkey : c = clientId ∧ j = p.id
  · rw [if_pos hkey, if_pos hkey]
  · rw [if_neg hkey, if_neg hkey, Node.ProxyListenerManager.owns_stopSingleProxy]
    exact and_iff_left hkey

theorem startProxy_cases {result : Except String Unit}
    (h : d.startProxy parse env clientId id = (d', result)) :
    d' = d ∧ (∀ p node, d.proxyOnNode clientId id ≠ .ok (p, node)) ∨
      ∃ p node sent, d.proxyOnNode clientId id = .ok (p, node) ∧
        d.sendCommandAndWait env node
          (startCommand parse d.db (env.fetch d.commands.length) p node clientId) = (d', sent) ∧
        (sent = .ok (.ok ()) → result = .ok ()) := by
  unfold Deployment.startProxy at h
  split at h
  · next e hnode =>
      cases h
      exact .inl ⟨rfl, fun p node hok ↦ by rw [hnode] at hok; cases hok⟩
  · next p node hnode =>
      refine .inr ⟨p, node, ?_⟩
      split at h <;> next hsend =>
        cases h
        exact ⟨_, hnode, hsend, fun hsent ↦ by cases hsent <;> rfl⟩

theorem SentOk.of_startProxy {result : Except String Unit}
    (h : d.startProxy parse env clientId id = (d', result)) (hsent : SentOk n d') : SentOk n d := by
  rcases startProxy_cases h with ⟨rfl, -⟩ | ⟨_, _, _, -, hsend, -⟩
  · exact hsent
  · exact hsent.of_send hsend

theorem nodes_startProxy_of_not {result : Except String Unit}
    (h : d.startProxy parse env clientId id = (d', result)) (hoff : ¬ OnNode d.db n clientId id) :
    d'.nodes n = d.nodes n := by
  rcases startProxy_cases h with ⟨rfl, -⟩ | ⟨p, node, sent, hok, hsend, -⟩
  · rfl
  · obtain ⟨hfind, hclient, hnode⟩ := proxyOnNode_eq_ok.mp hok
    refine nodes_send_of_ne hsend ?_
    rintro rfl
    exact hoff ⟨p, hfind, hnode, hclient⟩

/-- Starting a proxy of the node under the id of its client. -/
theorem nodes_startProxy {result : Except String Unit}
    (h : d.startProxy parse env clientId id = (d', result)) (hm : d.nodes n = some m)
    (hsent : SentOk n d') (hfind : d.db.proxies.find id = some p) (hnode : p.nodeId = some n)
    (hclient : p.clientId.getD "" = clientId) :
    result = .ok () ∧ ∃ m' e, d'.nodes n = some m' ∧ Node.Describes parse p.config e ∧
      ∀ c j e', Node.Owns m' c j e' ↔
        if c = clientId ∧ j = id then e' = e else Node.Owns m c j e' := by
  have hon := proxyOnNode_eq_ok.mpr ⟨hfind, hclient, hnode⟩
  rcases startProxy_cases h with ⟨-, hoff⟩ | ⟨q, node, sent, hok, hsend, hresult⟩
  · exact absurd hon (hoff p n)
  · obtain ⟨rfl, rfl⟩ := Prod.mk.inj (Except.ok.inj (hon.symm.trans hok))
    obtain ⟨binds, m', hexecute, hnodes, rfl⟩ := send_ok hsend hm hsent
    obtain ⟨e, hdesc, howns⟩ := owns_startCommand hfind hclient hexecute
    exact ⟨hresult rfl, m', e, hnodes, hdesc, howns⟩

/-! ### What commands settle -/

theorem AgreesBut.command_of_not (h : AgreesBut parse n loose d) (hsame : SameData d d')
    (hnodes : d'.nodes n = d.nodes n) (hsent : SentOk n d' → SentOk n d) :
    AgreesBut parse n loose d' := by
  intro hsent'
  obtain ⟨m, hm, howner, hserves⟩ := h (hsent hsent')
  exact ⟨m, hnodes.trans hm, by rwa [hsame.db], by rwa [hsame.db]⟩

section Stop

variable {result : Except String Unit}

theorem nodes_of_stopProxy (h : d.stopProxy env clientId id = (d', result))
    (hm : d.nodes n = some m) (hsent : SentOk n d') :
    OnNode d.db n clientId id ∧ d'.nodes n = some (m.stopSingleProxy clientId id) ∨
      ¬ OnNode d.db n clientId id ∧ d'.nodes n = some m := by
  by_cases hon : OnNode d.db n clientId id
  · have hrow := hon
    obtain ⟨p, hfind, hnode, hclient⟩ := hrow
    exact .inl ⟨hon, nodes_stopProxy h hm hsent hfind hnode hclient⟩
  · exact .inr ⟨hon, (nodes_stopProxy_of_not h hon).trans hm⟩

/-- A stop loosens at most the proxy that it is sent for. -/
theorem AgreesBut.stopProxy (h : AgreesBut parse n loose d)
    (hstop : d.stopProxy env clientId id = (d', result)) :
    AgreesBut parse n (insert id loose) d' := by
  have hsame := stopProxy_sameData hstop
  intro hsent
  obtain ⟨m, hm, howner, hserves⟩ := h (hsent.of_stopProxy hstop)
  rw [hsame.db]
  rcases nodes_of_stopProxy hstop hm hsent with ⟨-, hm'⟩ | ⟨-, hm'⟩
  · refine ⟨_, hm', fun j c e howns ↦ ?_, fun j hj ↦ ?_⟩
    · exact howner j c e ((Node.ProxyListenerManager.owns_stopSingleProxy ..).mp howns).1
    · obtain ⟨hne, hj⟩ := not_or.mp hj
      refine (hserves j hj).congr fun c e ↦ ?_
      rw [Node.ProxyListenerManager.owns_stopSingleProxy]
      exact and_iff_left fun hkey ↦ hne hkey.2
  · exact ⟨m, hm', howner, fun j hj ↦ hserves j fun hloose ↦ hj (Set.mem_insert_of_mem id hloose)⟩

/-- A stop that the row of its proxy allows leaves nothing running. -/
theorem AgreesBut.stopped_of_stopProxy (h : AgreesBut parse n loose d)
    (hstop : d.stopProxy env clientId id = (d', result))
    (hclient : ∀ p, d.db.proxies.find id = some p → p.nodeId = some n →
      p.clientId.getD "" = clientId) : Stopped n id d' := by
  intro hsent m' hm' c e howns
  obtain ⟨m, hm, howner, -⟩ := h (hsent.of_stopProxy hstop)
  rcases nodes_of_stopProxy hstop hm hsent with ⟨-, hnodes⟩ | ⟨hoff, hnodes⟩
  · obtain rfl := Option.some.inj (hm'.symm.trans hnodes)
    obtain ⟨howns, hne⟩ := (Node.ProxyListenerManager.owns_stopSingleProxy ..).mp howns
    obtain ⟨p, hp, hnode, hc⟩ := howner id c e howns
    exact hne ⟨hc.symm.trans (hclient p hp hnode), rfl⟩
  · obtain rfl := Option.some.inj (hm'.symm.trans hnodes)
    obtain ⟨p, hp, hnode, -⟩ := howner id c e howns
    exact hoff ⟨p, hp, hnode, hclient p hp hnode⟩

/-- What does not run is not started by a stop. -/
theorem Stopped.stopProxy {j : ℤ} (h : Stopped n j d) (hd : AgreesBut parse n loose d)
    (hstop : d.stopProxy env clientId id = (d', result)) : Stopped n j d' := by
  intro hsent m' hm' c e howns
  have hsent₀ := hsent.of_stopProxy hstop
  obtain ⟨m, hm, -⟩ := hd hsent₀
  rcases nodes_of_stopProxy hstop hm hsent with ⟨-, hnodes⟩ | ⟨-, hnodes⟩
  · obtain rfl := Option.some.inj (hm'.symm.trans hnodes)
    exact h hsent₀ m hm c e ((Node.ProxyListenerManager.owns_stopSingleProxy ..).mp howns).1
  · obtain rfl := Option.some.inj (hm'.symm.trans hnodes)
    exact h hsent₀ _ hm c e howns

/-- A start settles its proxy, and only fails for one that is not on the node. -/
theorem AgreesBut.startProxy (h : AgreesBut parse n (insert id loose) d)
    (hstart : d.startProxy parse env clientId id = (d', result))
    (hrow : ∀ p, d.db.proxies.find id = some p → p.nodeId = some n →
      p.enabled = true ∧ p.clientId.getD "" = clientId) :
    AgreesBut parse n loose d' ∧
      ∀ e, result = .error e → SentOk n d' → d'.db.served n id = none := by
  have hsame := startProxy_sameData hstart
  by_cases hon : ∃ p, d.db.proxies.find id = some p ∧ p.nodeId = some n
  · obtain ⟨p, hfind, hnode⟩ := hon
    obtain ⟨henabled, hclient⟩ := hrow p hfind hnode
    constructor
    · intro hsent
      obtain ⟨m, hm, howner, hserves⟩ := h (hsent.of_startProxy hstart)
      obtain ⟨-, m', e, hm', hdesc, howns⟩ := nodes_startProxy hstart hm hsent hfind hnode hclient
      rw [hsame.db]
      refine ⟨m', hm', fun j c e' hc ↦ ?_, fun j hj ↦ ?_⟩
      · rw [howns] at hc
        split_ifs at hc with hkey
        · obtain ⟨rfl, rfl⟩ := hkey
          exact ⟨p, hfind, hnode, hclient⟩
        · exact howner j c e' hc
      · by_cases hid : j = id
        · subst hid
          have hsome : d.db.served n j = some p := served_eq_some.mpr ⟨hfind, henabled, hnode⟩
          rw [hsome]
          refine ⟨e, ⟨p.name, hdesc⟩, fun c e' ↦ ?_⟩
          rw [howns, hclient]
          by_cases hc : c = clientId
          · rw [if_pos ⟨hc, rfl⟩, and_iff_right hc]
          · rw [if_neg fun hkey ↦ hc hkey.1]
            refine ⟨fun hold ↦ ?_, fun hkey ↦ absurd hkey.1 hc⟩
            obtain ⟨q, hq, -, hqc⟩ := howner j c e' hold
            obtain rfl := Option.some.inj (hfind.symm.trans hq)
            exact absurd (hqc.symm.trans hclient) hc
        · have hold := hserves j fun hmem ↦ (Set.mem_insert_iff.mp hmem).elim hid hj
          refine hold.congr fun c e' ↦ ?_
          rw [howns, if_neg fun hkey ↦ hid hkey.2]
    · rintro err rfl hsent
      obtain ⟨m, hm, -⟩ := h (hsent.of_startProxy hstart)
      cases (nodes_startProxy hstart hm hsent hfind hnode hclient).1
  · have hserved : d.db.served n id = none :=
      served_eq_none.mpr fun p hp hnode ↦ absurd ⟨p, hp, hnode⟩ hon
    have hstopped : Stopped n id d := by
      intro hsent m hm c e howns
      obtain ⟨m', hm', howner, -⟩ := h hsent
      obtain rfl := Option.some.inj (hm.symm.trans hm')
      obtain ⟨p, hp, hnode, -⟩ := howner id c e howns
      exact hon ⟨p, hp, hnode⟩
    have hoff : ¬ OnNode d.db n clientId id := fun ⟨p, hp, hnode, _⟩ ↦ hon ⟨p, hp, hnode⟩
    refine ⟨(h.settle hstopped fun _ ↦ hserved).command_of_not hsame (nodes_startProxy_of_not hstart hoff)
      (·.of_startProxy hstart), fun _ _ _ ↦ ?_⟩
    rwa [hsame.db]

end Stop

end Commands

end Oxiproxy.Controller
