import Oxiproxy.Controller.ProxyRules

/-!
# What the checks of the handlers establish
-/

namespace Oxiproxy.Controller

variable {parse : UrlParser} {render : Url → String} {env : HandlerEnv} {d : Deployment}
  {auth : AuthUser}

theorem forM_eq_ok {α : Type} {l : List α} {check : α → Except ApiError Unit} {u : Unit} :
    l.forM check = .ok u ↔ ∀ a ∈ l, check a = .ok () := by
  induction l with
  | nil => simp [pure, Except.pure]
  | cons a l ih =>
      rw [List.forall_mem_cons]
      refine bind_eq_ok.trans ?_
      constructor
      · rintro ⟨v, ha, hl⟩
        exact ⟨ha, ih.mp hl⟩
      · rintro ⟨ha, hl⟩
        exact ⟨(), ha, ih.mpr hl⟩

theorem checkUserLimit_ok {userId : ℤ} {port : UInt16} {label : String} {u : Unit}
    (h : checkUserLimit env d userId port label = .ok u) :
    (validateUserPortLimit d.db userId port).1 = true := by
  simp only [checkUserLimit, bind_eq_ok, require_eq_ok] at h
  obtain ⟨-, -, h⟩ := h
  exact h

theorem checkNodeLimit_ok {nodeId : ℤ} {port : UInt16} {exclude : ℤ} {label : String} {u : Unit}
    (h : checkNodeLimit env d nodeId port exclude label = .ok u) :
    validateNodeProxyLimitExcluding d.db nodeId port exclude = .ok () := by
  simp only [checkNodeLimit, bind_eq_ok] at h
  obtain ⟨-, -, h⟩ := h
  split at h
  · assumption
  · cases h

/-- What is known of the row that a create request inserts. -/
structure CreateAllowed (d : Deployment) (auth : AuthUser) (row : Proxy) : Prop where
  owner : (row.clientId = none ∧ row.userId = some auth.id) ∨
    ∃ clientId id client, row.clientId = some clientId ∧ parseI64 clientId = some id ∧
      d.db.clients.find id = some client ∧
      (auth.isAdmin = false → client.userId = some auth.id)
  enabled : row.enabled = true
  groupId : row.groupId = none
  userLimit : auth.isAdmin = false →
    (validateUserPortLimit d.db auth.id row.remotePort).1 = true
  nodeLimit : ∀ nodeId, row.nodeId = some nodeId →
    validateNodeProxyLimitExcluding d.db nodeId row.remotePort 0 = .ok ()

theorem createProxyChecks_ok {req : CreateProxyRequest} {row : Proxy}
    (h : createProxyChecks parse render env d auth req = .ok row) : CreateAllowed d auth row := by
  simp only [createProxyChecks, bind_eq_ok, onlyIf_eq_ok, ifSome_eq_ok, require_eq_ok, pure,
    Except.pure, Except.ok.injEq] at h
  obtain ⟨upstreamUrl, -, client, hclient, _, huser, -, -, _, hnode, domain, -, -, -, -, -, rfl⟩ := h
  have hadmin : auth.isAdmin = false → (!auth.isAdmin) = true := fun h ↦ by rw [h]; rfl
  refine ⟨?_, rfl, rfl, fun h ↦ ?_, fun nodeId h ↦ checkNodeLimit_ok (hnode nodeId h)⟩
  · by_cases hdirect : (!req.upstreamUrl.isEmpty) = true
    · simp [hdirect]
    · rw [createClient, if_neg hdirect] at hclient
      simp only [bind_eq_ok, okOr_eq_ok, pure, Except.pure, Except.ok.injEq] at hclient
      obtain ⟨id, hid, -, -, found, hfound, rfl⟩ := hclient
      have hsome : ∃ clientId, req.clientId = some clientId := by
        cases hnone : req.clientId with
        | some clientId => exact ⟨clientId, rfl⟩
        | none =>
            have hempty : parseI64 "" = none := by decide +kernel
            rw [hnone, Option.getD_none, hempty] at hid
            cases hid
      obtain ⟨clientId, hclientId⟩ := hsome
      rw [hclientId] at hid
      refine .inr ⟨clientId, id, found, ?_, hid, hfound, fun h ↦ ?_⟩
      · simp [hdirect, hclientId]
      · obtain ⟨_, howner, -⟩ := huser (hadmin h)
        simpa using howner
  · obtain ⟨-, -, hlimit⟩ := huser (hadmin h)
    exact checkUserLimit_ok hlimit

/-- What is known of a proxy that may be updated. -/
structure UpdateAllowed (d : Deployment) (auth : AuthUser) (id : ℤ) (req : UpdateProxyRequest)
    (plan : UpdatePlan) : Prop where
  found : d.db.proxies.find id = some plan.original
  owner : auth.isAdmin = false → plan.original.BelongsTo d.db auth
  userRange : auth.isAdmin = false → plan.original.clientId = none →
    req.remotePort.getD plan.original.remotePort ≠ plan.original.remotePort →
      ∃ user, d.db.users.find auth.id = some user ∧
        ∀ range, user.allowedPortRange = some range → range.isEmpty = false →
          (parsePortRanges range).toOption.any
            (isPortInRanges (req.remotePort.getD plan.original.remotePort)) = true
  directLimit : plan.original.clientId = none → plan.original.enabled = false →
    req.enabled = some true →
      validateNodeProxyLimitExcluding d.db (plan.original.nodeId.getD 0)
        (req.remotePort.getD plan.original.remotePort) id = .ok ()
  nodeLimit : req.remotePort.getD plan.original.remotePort ≠ plan.original.remotePort →
    ∀ nodeId, plan.original.nodeId = some nodeId →
      validateNodeProxyLimitExcluding d.db nodeId
        (req.remotePort.getD plan.original.remotePort) id = .ok ()

theorem updateProxyChecks_ok {id : ℤ} {req : UpdateProxyRequest} {plan : UpdatePlan}
    (h : updateProxyChecks parse render env d auth id req = .ok plan) :
    UpdateAllowed d auth id req plan := by
  simp only [updateProxyChecks, bind_eq_ok, onlyIf_eq_ok, ifSome_eq_ok, okOr_eq_ok, pure,
    Except.pure, Except.ok.injEq] at h
  obtain ⟨-, -, proxy, hproxy, _, hverify, domain, -, -, -, upstreamUrl, -, -, -, _, hdirect, -, -,
    _, hnode, rfl⟩ := h
  have hid : proxy.id = id := Table.key_of_find hproxy
  have hdirect : proxy.clientId = none → checkDirectUpdate env d auth proxy req
      (req.remotePort.getD proxy.remotePort) = .ok () := fun hnone ↦ hdirect (by rw [hnone]; rfl)
  simp only [checkDirectUpdate, bind_eq_ok, onlyIf_eq_ok, okOr_eq_ok, require_eq_ok,
    Bool.and_eq_true, Bool.not_eq_true', bne_iff_ne, beq_iff_eq] at hdirect
  refine ⟨hproxy, fun hadmin ↦ verifyProxyOwnership_ok hadmin hverify, fun hadmin hnone hport ↦ ?_,
    fun hnone hdisabled henabled ↦ ?_, fun hport nodeId hnodeId ↦ ?_⟩
  · obtain ⟨_, huser, -⟩ := hdirect hnone
    obtain ⟨-, -, user, hfind, hrange⟩ := huser ⟨hadmin, hport⟩
    refine ⟨user, hfind, fun range hsome hne ↦ ?_⟩
    simpa [hsome, hne, Option.filter] using hrange
  · obtain ⟨-, -, hlimit⟩ := hdirect hnone
    rw [← hid]
    exact checkNodeLimit_ok (hlimit ⟨hdisabled, henabled⟩)
  · rw [← hid]
    exact checkNodeLimit_ok (hnode (by simpa using hport) nodeId hnodeId)

/-- After an update that succeeds, the rows are those of its one write. -/
theorem updateProxy_ok {id : ℤ} {req : UpdateProxyRequest} {updated : Proxy} {d' : Deployment}
    (h : updateProxy parse render env auth d id req = (d', .ok updated)) :
    ∃ plan d₁, updateProxyChecks parse render env d auth id req = .ok plan ∧
      d.updateProxy env id (plan.active req env.now) = (d₁, .ok updated) ∧ d'.db = d₁.db := by
  unfold updateProxy at h
  split at h
  · cases h
  · rename_i plan hchecks
    split at h
    · cases h
    · rename_i d₁ written hset
      dsimp only at h
      split at h
      · unfold restartUpdated at h
        have hstop : Deployment.SameData d₁
            (d₁.stopProxy env (plan.original.clientId.getD "") written.id).1 :=
          Deployment.stopProxy_sameData Prod.mk.eta.symm
        dsimp only at h
        split at h
        · split at h
          · rename_i d₂ hstart
            cases h
            exact ⟨plan, d₁, hchecks, hset,
              (Deployment.startProxy_sameData hstart).db.trans hstop.db⟩
          · cases h
        · cases h
          exact ⟨plan, d₁, hchecks, hset, hstop.db⟩
      · cases h
        exact ⟨plan, _, hchecks, hset, rfl⟩

theorem deleteProxyChecks_ok {id : ℤ} {proxy : Proxy}
    (h : deleteProxyChecks env d auth id = .ok proxy) :
    d.db.proxies.find id = some proxy ∧
      (auth.isAdmin = false → proxy.BelongsTo d.db auth) := by
  simp only [deleteProxyChecks, bind_eq_ok, okOr_eq_ok, pure, Except.pure, Except.ok.injEq] at h
  obtain ⟨-, -, found, hfound, _, hverify, rfl⟩ := h
  exact ⟨hfound, fun hadmin ↦ verifyProxyOwnership_ok hadmin hverify⟩

/-- What is known before several ports are opened for one client. -/
structure PortsAllowed (d : Deployment) (auth : AuthUser) (clientId : String) (nodeId : Option ℤ)
    (remotePorts : List UInt16) (client : Client) : Prop where
  nonempty : remotePorts ≠ []
  parsed : ∃ id, parseI64 clientId = some id ∧ d.db.clients.find id = some client
  userLimit : auth.isAdmin = false → ∀ userId, client.userId = some userId →
    ∀ port ∈ remotePorts, (validateUserPortLimit d.db userId port).1 = true
  nodeLimit : ∀ id, nodeId = some id → ∀ port ∈ remotePorts,
    validateNodeProxyLimitExcluding d.db id port 0 = .ok ()

section Ports

variable {clientId : String} {nodeId : Option ℤ} {localPorts remotePorts : List UInt16}
  {client : Client}

theorem portsAllowed {u v w : Unit} (hlists : checkPortLists localPorts remotePorts = .ok u)
    (hclient : portsClient env d clientId = .ok client)
    (huser : checkUserLimits env d auth client remotePorts = .ok v)
    (hports : checkPorts env d nodeId remotePorts = .ok w) :
    PortsAllowed d auth clientId nodeId remotePorts client := by
  simp only [checkPortLists, bind_eq_ok, require_eq_ok] at hlists
  simp only [portsClient, bind_eq_ok, okOr_eq_ok] at hclient
  simp only [checkPorts, forM_eq_ok, bind_eq_ok, ifSome_eq_ok] at hports
  obtain ⟨id, hid, -, -, hfound⟩ := hclient
  refine ⟨?_, ⟨id, hid, hfound⟩, fun hadmin userId howner port hport ↦ ?_,
    fun id hnode port hport ↦ ?_⟩
  · rintro rfl
    simp at hlists
  · rw [checkUserLimits, hadmin, howner] at huser
    exact checkUserLimit_ok (forM_eq_ok.mp huser port hport)
  · obtain ⟨_, hlimit, -⟩ := hports port hport
    exact checkNodeLimit_ok (hlimit id hnode)

theorem batchCreateChecks_ok {req : BatchCreateProxyRequest}
    (h : batchCreateChecks env d auth req = .ok ()) :
    ∃ client, PortsAllowed d auth req.clientId req.nodeId req.remotePorts client := by
  simp only [batchCreateChecks, bind_eq_ok] at h
  obtain ⟨-, -, _, hlists, client, hclient, _, huser, -, -, hports⟩ := h
  exact ⟨client, portsAllowed hlists hclient huser hports⟩

theorem addPortsChecks_ok {groupId : String} {req : AddPortsToGroupRequest} {template : Proxy}
    (h : addPortsChecks env d auth groupId req = .ok template) :
    template ∈ d.db.proxies.rows ∧ template.groupId = some groupId ∧
      (auth.isAdmin = false → template.BelongsTo d.db auth) ∧
        ∃ client, PortsAllowed d auth (template.clientId.getD "") template.nodeId req.remotePorts
          client := by
  simp only [addPortsChecks, bind_eq_ok, pure, Except.pure, Except.ok.injEq] at h
  obtain ⟨_, hlists, ⟨first, rest⟩, hverify, client, hclient, _, huser, _, hports, rfl⟩ := h
  obtain ⟨hrows, hverify⟩ := verifyProxyGroupOwnership_ok hverify
  have hmem : first ∈ d.db.proxies.rows.filter (·.groupId == some groupId) := by
    rw [hrows]
    exact List.mem_cons_self
  obtain ⟨hmem, hgroup⟩ := List.mem_filter.mp hmem
  exact ⟨hmem, beq_iff_eq.mp hgroup, fun hadmin ↦ verifyProxyOwnership_ok hadmin hverify, client,
    portsAllowed hlists hclient huser hports⟩

end Ports

end Oxiproxy.Controller
