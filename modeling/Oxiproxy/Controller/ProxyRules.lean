import Oxiproxy.Controller.ProxyHandlers

/-!
# Rules for the handlers of proxies

What single writes and commands keep, the handlers keep: each changes only the
rows it has found or inserted itself.  A property is given with the rows that a
handler may change and insert under it.
-/

namespace Oxiproxy.Controller

open Deployment

/-- A property of the deployment that commands keep, and writes to rows that are
`mine`. -/
structure Rules (env : HandlerEnv) (Inv : Deployment → Prop) (Mine : Deployment → ℤ → Prop)
    (mayInsert : Proxy → Prop) (mayUpdate : ActiveProxy → Prop) : Prop where
  insert : ∀ {d d' : Deployment} {row : Proxy} {result : Except String Proxy}, Inv d →
    mayInsert row → d.insertProxy env row = (d', result) →
      Inv d' ∧ (∀ id, Mine d id → Mine d' id) ∧ ∀ proxy, result = .ok proxy → Mine d' proxy.id
  update : ∀ {d d' : Deployment} {id : ℤ} {active : ActiveProxy} {result : Except String Proxy},
    Inv d → Mine d id → mayUpdate active → d.updateProxy env id active = (d', result) →
      Inv d' ∧ ∀ id, Mine d id → Mine d' id
  delete : ∀ {d d' : Deployment} {id : ℤ} {result : Except String Unit}, Inv d → Mine d id →
    d.deleteProxy env id = (d', result) → Inv d' ∧ ∀ id, Mine d id → Mine d' id
  command : ∀ {d d' : Deployment}, Inv d → SameData d d' → Inv d' ∧ ∀ id, Mine d id → Mine d' id

namespace Rules

variable {parse : UrlParser} {render : Url → String} {env : HandlerEnv} {auth : AuthUser}
  {Inv : Deployment → Prop} {Mine : Deployment → ℤ → Prop} {mayInsert : Proxy → Prop}
  {mayUpdate : ActiveProxy → Prop} {d d' : Deployment} {clientId : String}

variable (parse clientId) in
theorem start (rules : Rules env Inv Mine mayInsert mayUpdate) (hd : Inv d) (proxyId : ℤ) :
    Inv (d.startProxy parse env clientId proxyId).1 ∧
      ∀ id, Mine d id → Mine (d.startProxy parse env clientId proxyId).1 id :=
  rules.command hd (startProxy_sameData Prod.mk.eta.symm)

variable (clientId) in
theorem stop (rules : Rules env Inv Mine mayInsert mayUpdate) (hd : Inv d) (proxyId : ℤ) :
    Inv (d.stopProxy env clientId proxyId).1 ∧
      ∀ id, Mine d id → Mine (d.stopProxy env clientId proxyId).1 id :=
  rules.command hd (stopProxy_sameData Prod.mk.eta.symm)

/-! ## Loops -/

variable (clientId) in
theorem deleteEach (rules : Rules env Inv Mine mayInsert mayUpdate) (hd : Inv d) {ps : List Proxy}
    (hmine : ∀ p ∈ ps, Mine d p.id) :
    Inv (deleteEach env clientId d ps) ∧ ∀ id, Mine d id → Mine (deleteEach env clientId d ps) id := by
  induction ps generalizing d with
  | nil => exact ⟨hd, fun _ h ↦ h⟩
  | cons p ps ih =>
      obtain ⟨hstop, hmine₁⟩ := rules.stop clientId hd p.id
      obtain ⟨hdelete, hmine₂⟩ := rules.delete hstop
        (hmine₁ p.id (hmine p List.mem_cons_self)) Prod.mk.eta.symm
      have hrest : ∀ q ∈ ps, Mine _ q.id := fun q hq ↦
        hmine₂ q.id (hmine₁ q.id (hmine q (List.mem_cons_of_mem p hq)))
      obtain ⟨hinv, hmine₃⟩ := ih hdelete hrest
      exact ⟨hinv, fun id h ↦ hmine₃ id (hmine₂ id (hmine₁ id h))⟩

theorem createEach (rules : Rules env Inv Mine mayInsert mayUpdate) {startError : String}
    {created rows : List Proxy} {result : Except ApiError (List Proxy)}
    (h : createEach parse env clientId startError d created rows = (d', result)) (hd : Inv d)
    (hcreated : ∀ p ∈ created, Mine d p.id) (hrows : ∀ row ∈ rows, mayInsert row) : Inv d' := by
  induction rows generalizing d created with
  | nil =>
      cases h
      exact hd
  | cons row rows ih =>
      have hrow := hrows row List.mem_cons_self
      unfold Controller.createEach at h
      split at h
      · rename_i d₁ e hinsert
        cases h
        obtain ⟨hinv, hmine, -⟩ := rules.insert hd hrow hinsert
        exact (rules.deleteEach clientId hinv fun p hp ↦ hmine p.id (hcreated p hp)).1
      · rename_i d₁ proxy hinsert
        obtain ⟨hinv, hmine, hnew⟩ := rules.insert hd hrow hinsert
        have hnew := hnew proxy rfl
        split at h
        · rename_i d₂ hstart
          obtain ⟨hinv₂, hmine₂⟩ := rules.command hinv (startProxy_sameData hstart)
          refine ih h hinv₂ (fun p hp ↦ ?_) (fun q hq ↦ hrows q (List.mem_cons_of_mem row hq))
          rcases List.mem_append.mp hp with hp | hp
          · exact hmine₂ p.id (hmine p.id (hcreated p hp))
          · rw [List.mem_singleton.mp hp]
            exact hmine₂ proxy.id hnew
        · rename_i d₂ e hstart
          cases h
          obtain ⟨hinv₂, hmine₂⟩ := rules.command hinv (startProxy_sameData hstart)
          obtain ⟨hinv₃, hmine₃⟩ := rules.deleteEach clientId hinv₂ fun p hp ↦
            hmine₂ p.id (hmine p.id (hcreated p hp))
          exact (rules.delete hinv₃ (hmine₃ proxy.id (hmine₂ proxy.id hnew)) Prod.mk.eta.symm).1

theorem toggleEach (rules : Rules env Inv Mine mayInsert mayUpdate) {enabled : Bool} (hd : Inv d)
    {ps : List Proxy} (hmine : ∀ p ∈ ps, Mine d p.id)
    (hupdate : mayUpdate (setEnabled enabled env.now)) :
    Inv (toggleEach parse env clientId enabled d ps) := by
  induction ps generalizing d with
  | nil => exact hd
  | cons p ps ih =>
      have hp := hmine p List.mem_cons_self
      have hps : ∀ q ∈ ps, Mine d q.id := fun q hq ↦ hmine q (List.mem_cons_of_mem p hq)
      unfold Controller.toggleEach
      split
      · exact ih hd hps
      · split
        · rename_i d₁ e hset
          obtain ⟨hinv, hkeep⟩ := rules.update hd hp hupdate hset
          exact ih hinv fun q hq ↦ hkeep q.id (hps q hq)
        · rename_i d₁ updated hset
          obtain ⟨hinv, hkeep⟩ := rules.update hd hp hupdate hset
          split
          · obtain ⟨hinv₂, hkeep₂⟩ := rules.start parse clientId hinv p.id
            exact ih hinv₂ fun q hq ↦ hkeep₂ q.id (hkeep q.id (hps q hq))
          · obtain ⟨hinv₂, hkeep₂⟩ := rules.stop clientId hinv p.id
            exact ih hinv₂ fun q hq ↦ hkeep₂ q.id (hkeep q.id (hps q hq))

theorem updateEach (rules : Rules env Inv Mine mayInsert mayUpdate) {req : UpdateGroupRequest}
    {single : Bool} (hd : Inv d) {ps : List Proxy} (hmine : ∀ p ∈ ps, Mine d p.id)
    (hupdate : mayUpdate (req.active single env.now)) :
    Inv (updateEach env req single d ps) := by
  induction ps generalizing d with
  | nil => exact hd
  | cons p ps ih =>
      have hps : ∀ q ∈ ps, Mine d q.id := fun q hq ↦ hmine q (List.mem_cons_of_mem p hq)
      unfold Controller.updateEach
      split_ifs
      · obtain ⟨hinv, hkeep⟩ := rules.update hd (hmine p List.mem_cons_self) hupdate
          Prod.mk.eta.symm
        exact ih hinv fun q hq ↦ hkeep q.id (hps q hq)
      · exact ih hd hps

theorem restartEach (rules : Rules env Inv Mine mayInsert mayUpdate) (hd : Inv d)
    (ps : List Proxy) : Inv (restartEach parse env clientId d ps) := by
  induction ps generalizing d with
  | nil => exact hd
  | cons p ps ih =>
      unfold Controller.restartEach
      split_ifs
      · exact ih (rules.start parse clientId (rules.stop clientId hd p.id).1 p.id).1
      · exact ih hd

/-! ## Handlers -/

theorem createProxy (rules : Rules env Inv Mine mayInsert mayUpdate) {req : CreateProxyRequest}
    (hd : Inv d)
    (hrow : ∀ row, createProxyChecks parse render env d auth req = .ok row → mayInsert row) :
    Inv (createProxy parse render env auth d req).1 := by
  unfold Controller.createProxy
  split
  · exact hd
  · rename_i row hchecks
    split
    · rename_i d₁ e hinsert
      exact (rules.insert hd (hrow row hchecks) hinsert).1
    · rename_i d₁ proxy hinsert
      obtain ⟨hinv, -, hnew⟩ := rules.insert hd (hrow row hchecks) hinsert
      split
      · rename_i d₂ hstart
        exact (rules.command hinv (startProxy_sameData hstart)).1
      · rename_i d₂ e hstart
        obtain ⟨hinv₂, hkeep⟩ := rules.command hinv (startProxy_sameData hstart)
        exact (rules.delete hinv₂ (hkeep proxy.id (hnew proxy rfl)) Prod.mk.eta.symm).1

theorem revertUpdate (rules : Rules env Inv Mine mayInsert mayUpdate) {original : Proxy}
    (hd : Inv d) (hmine : Mine d original.id) (hrestore : mayUpdate (restore original env.now)) :
    Inv (revertUpdate parse env d clientId original) := by
  unfold Controller.revertUpdate
  split
  · rename_i d₁ e hset
    exact (rules.update hd hmine hrestore hset).1
  · rename_i d₁ restored hset
    have hinv := (rules.update hd hmine hrestore hset).1
    split_ifs
    · exact (rules.start parse clientId hinv original.id).1
    · exact hinv

theorem updateProxy (rules : Rules env Inv Mine mayInsert mayUpdate) {id : ℤ}
    {req : UpdateProxyRequest} (hd : Inv d)
    (hplan : ∀ plan, updateProxyChecks parse render env d auth id req = .ok plan →
      Mine d id ∧ plan.original.id = id ∧ mayUpdate (plan.active req env.now) ∧
        mayUpdate (restore plan.original env.now)) :
    Inv (updateProxy parse render env auth d id req).1 := by
  unfold Controller.updateProxy
  split
  · exact hd
  · rename_i plan hchecks
    obtain ⟨hmine, hid, hactive, hrestore⟩ := hplan plan hchecks
    split
    · rename_i d₁ e hset
      exact (rules.update hd hmine hactive hset).1
    · rename_i d₁ updated hset
      obtain ⟨hinv, hkeep⟩ := rules.update hd hmine hactive hset
      dsimp only
      split_ifs
      · unfold restartUpdated
        obtain ⟨hstop, hkeep₁⟩ := rules.stop
          (plan.original.clientId.getD "") hinv updated.id
        dsimp only
        split_ifs
        · split
          · rename_i d₂ hstart
            exact (rules.command hstop (startProxy_sameData hstart)).1
          · rename_i d₂ e hstart
            obtain ⟨hinv₂, hkeep₂⟩ := rules.command hstop (startProxy_sameData hstart)
            refine rules.revertUpdate hinv₂ ?_ hrestore
            rw [hid]
            exact hkeep₂ id (hkeep₁ id (hkeep id hmine))
        · exact hstop
      · exact hinv

theorem deleteProxy (rules : Rules env Inv Mine mayInsert mayUpdate) {id : ℤ} (hd : Inv d)
    (hmine : ∀ proxy, deleteProxyChecks env d auth id = .ok proxy → Mine d id) :
    Inv (deleteProxy env auth d id).1 := by
  unfold Controller.deleteProxy
  split
  · exact hd
  · rename_i proxy hchecks
    obtain ⟨hinv, hkeep⟩ := rules.stop (proxy.clientId.getD "") hd id
    have hid := hkeep id (hmine proxy hchecks)
    split <;> rename_i hdelete <;> exact (rules.delete hinv hid hdelete).1

theorem batchCreateProxies (rules : Rules env Inv Mine mayInsert mayUpdate)
    {req : BatchCreateProxyRequest} (hd : Inv d)
    (hrows : batchCreateChecks env d auth req = .ok () → ∀ row ∈ batchRows env req, mayInsert row) :
    Inv (batchCreateProxies parse env auth d req).1 := by
  unfold Controller.batchCreateProxies
  split
  · exact hd
  · rename_i u hchecks
    exact rules.createEach Prod.mk.eta.symm hd (by simp) (hrows hchecks)

theorem addPortsToProxyGroup (rules : Rules env Inv Mine mayInsert mayUpdate) {groupId : String}
    {req : AddPortsToGroupRequest} (hd : Inv d)
    (hrows : ∀ template, addPortsChecks env d auth groupId req = .ok template →
      ∀ row ∈ addedRows env groupId template req, mayInsert row) :
    Inv (addPortsToProxyGroup parse env auth d groupId req).1 := by
  unfold Controller.addPortsToProxyGroup
  split
  · exact hd
  · rename_i template hchecks
    exact rules.createEach Prod.mk.eta.symm hd (by simp) (hrows template hchecks)

/-- The proxies of a group whose first one has been checked. -/
def MineInGroup (Mine : Deployment → ℤ → Prop) (env : HandlerEnv) (auth : AuthUser)
    (d : Deployment) (groupId : String) : Prop :=
  ∀ first rest, verifyProxyGroupOwnership env.queries d.db auth groupId = .ok (first, rest) →
    ∀ p ∈ first :: rest, Mine d p.id

variable {groupId : String}

theorem toggleProxyGroup (rules : Rules env Inv Mine mayInsert mayUpdate) {enabled : Bool}
    (hd : Inv d) (hmine : MineInGroup Mine env auth d groupId)
    (hupdate : mayUpdate (setEnabled enabled env.now)) :
    Inv (toggleProxyGroup parse env auth d groupId enabled).1 := by
  unfold Controller.toggleProxyGroup
  split
  · exact hd
  · rename_i first rest hverify
    exact rules.toggleEach hd (hmine first rest hverify) hupdate

theorem deleteProxyGroup (rules : Rules env Inv Mine mayInsert mayUpdate) (hd : Inv d)
    (hmine : MineInGroup Mine env auth d groupId) :
    Inv (deleteProxyGroup env auth d groupId).1 := by
  unfold Controller.deleteProxyGroup
  split
  · exact hd
  · rename_i first rest hverify
    exact (rules.deleteEach _ hd (hmine first rest hverify)).1

theorem updateProxyGroup (rules : Rules env Inv Mine mayInsert mayUpdate)
    {req : UpdateGroupRequest} (hd : Inv d) (hmine : MineInGroup Mine env auth d groupId)
    (hupdate : ∀ single, mayUpdate (req.active single env.now)) :
    Inv (updateProxyGroup parse env auth d groupId req).1 := by
  unfold Controller.updateProxyGroup
  split
  · exact hd
  · rename_i first rest hchecks
    obtain ⟨u, -, hverify⟩ := bind_eq_ok.mp hchecks
    have hinv := rules.updateEach hd (hmine first rest hverify) (hupdate rest.isEmpty)
    dsimp only
    split_ifs
    · exact rules.restartEach hinv _
    · exact hinv

end Rules

end Oxiproxy.Controller
