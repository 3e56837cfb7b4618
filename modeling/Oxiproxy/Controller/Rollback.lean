import Oxiproxy.Controller.Flush
import Oxiproxy.Controller.ProxyOwnership

/-!
# Requests that roll back while traffic is flushed

The requests that put back what they have changed, as procedures that call the
database and the nodes one call after the other.  Between any two calls flushes
may write to the database.  Without flushes a procedure does what its handler
does.
-/

namespace Oxiproxy.Controller

/-! ## Flushes -/

inductive FlushWrite
  | proxy (id : ℤ) (now : NaiveDateTime) (bytes : Bytes)
  | daily (row : TrafficDaily)
  | account (a : AccountId) (now : NaiveDateTime) (f : Counters → Counters)

def FlushWrite.apply (db : Db) : FlushWrite → Db
  | .proxy id now bytes => db.setProxyBytes id now bytes
  | .daily row => db.upsertDaily row
  | .account a now f => db.setCounters now f a

def Db.flush (db : Db) (writes : List FlushWrite) : Db := writes.foldl FlushWrite.apply db

/-- A step of a flush makes at most one of these writes. -/
theorem flushStep_writes {env : StepEnv} {db db' : Db} {f f' : Flush} {app : Option Application}
    (h : flushStep env db f = some (db', f', app)) :
    db' = db ∨ ∃ write : FlushWrite, db' = write.apply db := by
  unfold flushStep at h
  cases hposition : f.position with
  | updateProxy k bytes proxy =>
      simp only [hposition] at h
      split_ifs at h <;> cases h
      · exact .inr ⟨.proxy _ _ _, rfl⟩
      · exact .inl rfl
  | upsertDaily k bytes directUserId client =>
      simp only [hposition] at h
      split_ifs at h <;> cases h
      · exact .inr ⟨.daily _, rfl⟩
      · exact .inl rfl
  | updateAccount a plan read bytes next =>
      simp only [hposition, updateAccount, Option.some.injEq] at h
      by_cases hok : env.ok = true ∧ (db.account a).isSome = true
      · rw [if_pos hok] at h
        cases h
        exact .inr ⟨.account _ _ _, rfl⟩
      · rw [if_neg hok] at h
        cases h
        exact .inl rfl
  | markAccount a next =>
      simp only [hposition, Option.some.injEq] at h
      by_cases hok : env.ok = true
      · rw [if_pos hok] at h
        cases h
        exact .inr ⟨.account _ _ _, rfl⟩
      · rw [if_neg hok] at h
        cases h
        exact .inl rfl
  | done => simp [hposition] at h
  | readToday | readNow | findClient | findUser | nextNode | findNode | refindAccount | nextKey
    | findProxy =>
      simp only [hposition] at h
      first
      | (cases h; exact .inl rfl)
      | (split at h <;> cases h <;> exact .inl rfl)

/-! ## Procedures -/

inductive HandlerCall : Type → Type
  | insert (row : Proxy) : HandlerCall Proxy
  | update (id : ℤ) (active : ActiveProxy) : HandlerCall Proxy
  | delete (id : ℤ) : HandlerCall Unit
  | start (clientId : String) (proxyId : ℤ) : HandlerCall Unit
  | stop (clientId : String) (proxyId : ℤ) : HandlerCall Unit

inductive CallKind
  | insert
  | update
  | delete
  | start
  | stop
  deriving DecidableEq

def HandlerCall.kind {γ : Type} : HandlerCall γ → CallKind
  | .insert _ => .insert
  | .update _ _ => .update
  | .delete _ => .delete
  | .start _ _ => .start
  | .stop _ _ => .stop

def CallKind.isWrite : CallKind → Bool
  | .insert | .update | .delete => true
  | .start | .stop => false

/-- The calls whose failure makes a handler roll back. -/
def CallKind.rollsBack : CallKind → Bool
  | .insert | .start => true
  | .update | .delete | .stop => false

inductive Procedure (α : Type) : Type 1
  | done (a : α)
  | call {γ : Type} (c : HandlerCall γ) (next : Except String γ → Procedure α)

inductive Event
  | flushed (write : FlushWrite)
  | called (kind : CallKind) (ok : Bool)

namespace Event

def flushes : List Event → List FlushWrite
  | [] => []
  | .flushed write :: events => write :: flushes events
  | .called _ _ :: events => flushes events

def failedWrite : Event → Bool
  | .flushed _ => false
  | .called kind ok => kind.isWrite && !ok

/-- No write fails. -/
def WritesSucceed (events : List Event) : Prop := ∀ event ∈ events, event.failedWrite = false

instance : DecidablePred WritesSucceed :=
  fun events ↦ inferInstanceAs (Decidable (∀ event ∈ events, event.failedWrite = false))

/-- No write fails after an insert or a start has failed. -/
def RollbackSucceeds : List Event → Prop
  | [] => True
  | .called kind false :: events =>
      if kind.rollsBack then WritesSucceed events else RollbackSucceeds events
  | _ :: events => RollbackSucceeds events

instance RollbackSucceeds.decidable : DecidablePred RollbackSucceeds
  | [] => .isTrue trivial
  | .called kind false :: events =>
      have := RollbackSucceeds.decidable events
      inferInstanceAs
        (Decidable (if kind.rollsBack then WritesSucceed events else RollbackSucceeds events))
  | .called _ true :: events | .flushed _ :: events => RollbackSucceeds.decidable events

end Event

section Run

variable (parse : UrlParser) (env : HandlerEnv)

def HandlerCall.execute {γ : Type} (d : Deployment) :
    HandlerCall γ → Deployment × Except String γ
  | .insert row => d.insertProxy env row
  | .update id active => d.updateProxy env id active
  | .delete id => d.deleteProxy env id
  | .start clientId proxyId => d.startProxy parse env clientId proxyId
  | .stop clientId proxyId => d.stopProxy env clientId proxyId

theorem HandlerCall.executes {γ : Type} (c : HandlerCall γ) (d : Deployment) :
    ∃ d' result, c.execute parse env d = (d', result) := ⟨_, _, rfl⟩

def Deployment.flush (d : Deployment) (writes : List FlushWrite) : Deployment :=
  { d with db := d.db.flush writes }

/-- The procedure on its own. -/
def Procedure.run {α : Type} : Procedure α → Deployment → Deployment × α
  | .done a, d => (d, a)
  | .call c next, d =>
      let (d, result) := c.execute parse env d
      (next result).run d

/-- How a procedure has run among flushes. -/
structure Interleaved (α : Type) where
  deployment : Deployment
  result : α
  events : List Event

/-- The procedure, with what is flushed before its calls and at its end. -/
def Procedure.interleave {α : Type} (flushes : ℕ → List FlushWrite) :
    Procedure α → ℕ → Deployment → Interleaved α
  | .done a, n, d => ⟨d.flush (flushes n), a, (flushes n).map .flushed⟩
  | .call c next, n, d =>
      let (d, result) := c.execute parse env (d.flush (flushes n))
      let rest := (next result).interleave flushes (n + 1) d
      { rest with
        events := (flushes n).map .flushed ++ .called c.kind result.toBool :: rest.events }

theorem Procedure.interleave_quiet {α : Type} (p : Procedure α) (n : ℕ) (d : Deployment) :
    ((p.interleave parse env (fun _ ↦ []) n d).deployment,
      (p.interleave parse env (fun _ ↦ []) n d).result) = p.run parse env d := by
  induction p generalizing n d with
  | done a => rfl
  | call c next ih => exact ih _ (n + 1) _

end Run

/-! ## The handlers -/

section Handlers

variable (parse : UrlParser) (render : Url → String) (env : HandlerEnv) (auth : AuthUser)

def restartUpdatedProcedure (clientId : String) (original updated : Proxy) :
    Procedure (Except ApiError Proxy) :=
  .call (.stop clientId updated.id) fun _ ↦
    if updated.enabled then
      .call (.start clientId updated.id) fun
        | .ok () => .done (.ok updated)
        | .error e =>
            let failed : Except ApiError Proxy := .error ⟨409, "启动代理监听器失败: " ++ e⟩
            .call (.update original.id (restore original env.now)) fun
              | .error _ => .done failed
              | .ok _ =>
                  if original.enabled then .call (.start clientId original.id) fun _ ↦ .done failed
                  else .done failed
    else .done (.ok updated)

def updateProxyProcedure (d : Deployment) (id : ℤ) (req : UpdateProxyRequest) :
    Procedure (Except ApiError Proxy) :=
  match updateProxyChecks parse render env d auth id req with
  | .error e => .done (.error e)
  | .ok plan =>
      .call (.update id (plan.active req env.now)) fun
        | .error e => .done (.error ⟨500, "Failed to update proxy: " ++ e⟩)
        | .ok updated =>
            let enabledChanged := req.enabled.any (plan.original.enabled != ·)
            if enabledChanged || (plan.configChanged req && updated.enabled) then
              restartUpdatedProcedure env (plan.original.clientId.getD "") plan.original updated
            else .done (.ok updated)

def deleteEachProcedure {α : Type} (clientId : String) (next : Procedure α) :
    List Proxy → Procedure α
  | [] => next
  | p :: ps =>
      .call (.stop clientId p.id) fun _ ↦ .call (.delete p.id) fun _ ↦
        deleteEachProcedure clientId next ps

def createEachProcedure (clientId startError : String) :
    List Proxy → List Proxy → Procedure (Except ApiError (List Proxy))
  | created, [] => .done (.ok created)
  | created, row :: rows =>
      .call (.insert row) fun
        | .error e =>
            deleteEachProcedure clientId (.done (.error ⟨500, "创建代理失败: " ++ e⟩)) created
        | .ok proxy =>
            .call (.start clientId proxy.id) fun
              | .ok () => createEachProcedure clientId startError (created ++ [proxy]) rows
              | .error e =>
                  deleteEachProcedure clientId
                    (.call (.delete proxy.id) fun _ ↦ .done (.error
                      ⟨409, "端口 " ++ toString row.remotePort ++ startError ++ e⟩)) created

def batchCreateProcedure (d : Deployment) (req : BatchCreateProxyRequest) :
    Procedure (Except ApiError (List Proxy)) :=
  match batchCreateChecks env d auth req with
  | .error e => .done (.error e)
  | .ok () => createEachProcedure req.clientId " 启动代理监听器失败: " [] (batchRows env req)

def addPortsProcedure (d : Deployment) (groupId : String) (req : AddPortsToGroupRequest) :
    Procedure (Except ApiError (List Proxy)) :=
  match addPortsChecks env d auth groupId req with
  | .error e => .done (.error e)
  | .ok template =>
      createEachProcedure (template.clientId.getD "") " 启动监听器失败: " []
        (addedRows env groupId template req)

/-! ### Without flushes -/

theorem run_restartUpdated (d : Deployment) (clientId : String) (original updated : Proxy) :
    (restartUpdatedProcedure env clientId original updated).run parse env d =
      restartUpdated parse env d clientId original updated := by
  unfold restartUpdatedProcedure restartUpdated revertUpdate
  simp only [Procedure.run, HandlerCall.execute]
  cases updated.enabled with
  | false => rfl
  | true =>
      rw [if_pos rfl, if_pos rfl]
      simp only [Procedure.run, HandlerCall.execute]
      rcases (d.stopProxy env clientId updated.id).1.startProxy parse env clientId updated.id
        with ⟨d₁, _ | _⟩
      · simp only [Procedure.run, HandlerCall.execute]
        rcases d₁.updateProxy env original.id (restore original env.now) with ⟨d₂, _ | row⟩
        · rfl
        · dsimp only
          split_ifs <;> rfl
      · rfl

theorem run_updateProxy (d : Deployment) (id : ℤ) (req : UpdateProxyRequest) :
    (updateProxyProcedure parse render env auth d id req).run parse env d =
      updateProxy parse render env auth d id req := by
  unfold updateProxyProcedure updateProxy
  cases updateProxyChecks parse render env d auth id req with
  | error e => rfl
  | ok plan =>
      simp only [Procedure.run, HandlerCall.execute]
      rcases d.updateProxy env id (plan.active req env.now) with ⟨d₁, _ | updated⟩
      · rfl
      · dsimp only
        rw [← run_restartUpdated]
        split_ifs <;> rfl

theorem run_deleteEach {α : Type} (clientId : String) (next : Procedure α) (ps : List Proxy)
    (d : Deployment) :
    (deleteEachProcedure clientId next ps).run parse env d =
      next.run parse env (deleteEach env clientId d ps) := by
  induction ps generalizing d with
  | nil => rfl
  | cons p ps ih => exact ih _

theorem run_createEach (clientId startError : String) (d : Deployment) (created rows : List Proxy) :
    (createEachProcedure clientId startError created rows).run parse env d =
      createEach parse env clientId startError d created rows := by
  induction rows generalizing d created with
  | nil => rfl
  | cons row rows ih =>
      rw [createEachProcedure, createEach]
      simp only [Procedure.run, HandlerCall.execute]
      rcases d.insertProxy env row with ⟨d₁, _ | proxy⟩
      · simp only [run_deleteEach]
        rfl
      · simp only [Procedure.run, HandlerCall.execute]
        rcases d₁.startProxy parse env clientId proxy.id with ⟨d₂, _ | _⟩
        · simp only [run_deleteEach]
          rfl
        · exact ih d₂ (created ++ [proxy])

theorem run_batchCreate (d : Deployment) (req : BatchCreateProxyRequest) :
    (batchCreateProcedure env auth d req).run parse env d = batchCreateProxies parse env auth d req := by
  unfold batchCreateProcedure batchCreateProxies
  cases batchCreateChecks env d auth req with
  | error e => rfl
  | ok => exact run_createEach parse env _ _ d [] _

theorem run_addPorts (d : Deployment) (groupId : String) (req : AddPortsToGroupRequest) :
    (addPortsProcedure env auth d groupId req).run parse env d =
      addPortsToProxyGroup parse env auth d groupId req := by
  unfold addPortsProcedure addPortsToProxyGroup
  cases addPortsChecks env d auth groupId req with
  | error e => rfl
  | ok template => exact run_createEach parse env _ _ d [] _

end Handlers

/-! ## What flushes and calls do to the proxies -/

/-- A row without its time stamp. -/
def Proxy.unstamped (p : Proxy) : Proxy := { p with updatedAt := p.createdAt }

/-- Every column but the counters and the time stamp. -/
def Proxy.settings (p : Proxy) : Proxy :=
  { p.unstamped with totalBytesSent := 0, totalBytesReceived := 0 }

def Proxy.bytes (p : Proxy) : Bytes := (p.totalBytesSent, p.totalBytesReceived)

def Proxy.withBytes (p : Proxy) (bytes : Bytes) : Proxy :=
  { p with totalBytesSent := bytes.1, totalBytesReceived := bytes.2 }

/-- A flush write leaves the row of a proxy alone or sets its counters. -/
theorem FlushWrite.find_apply (write : FlushWrite) (id : ℤ) :
    (∀ db, (write.apply db).proxies.find id = db.proxies.find id) ∨
      ∃ now bytes, ∀ db, (write.apply db).proxies.find id =
        (db.proxies.find id).map (Proxy.setBytes now bytes) := by
  cases write with
  | proxy k now bytes =>
      by_cases hid : id = k
      · refine .inr ⟨now, bytes, fun db ↦ ?_⟩
        rw [FlushWrite.apply, Db.setProxyBytes, Table.find_modify, if_pos hid]
      · refine .inl fun db ↦ ?_
        rw [FlushWrite.apply, Db.setProxyBytes, Table.find_modify, if_neg hid]
  | daily row =>
      refine .inl fun db ↦ ?_
      rw [FlushWrite.apply, Db.upsertDaily]
      split_ifs <;> rfl
  | account a now f => exact .inl fun db ↦ by cases a <;> rfl

section Flushes

variable {db db' : Db} {writes : List FlushWrite} {id : ℤ} {view : Proxy → Proxy}

/-- Rows that look the same in two databases still do after the same writes. -/
theorem find_flush_congr
    (hview : ∀ now bytes p, view (p.setBytes now bytes) = (view p).withBytes bytes)
    (h : (db.proxies.find id).map view = (db'.proxies.find id).map Proxy.unstamped) :
    ((db.flush writes).proxies.find id).map view =
      ((db'.flush writes).proxies.find id).map Proxy.unstamped := by
  induction writes generalizing db db' with
  | nil => exact h
  | cons write writes ih =>
      refine ih ?_
      rcases write.find_apply id with hsame | ⟨now, bytes, hset⟩
      · rw [hsame, hsame, h]
      · have hset' := congrArg (Option.map fun p ↦ p.withBytes bytes) h
        rw [Option.map_map, Option.map_map] at hset'
        rw [hset, hset, Option.map_map, Option.map_map]
        refine (Option.map_congr fun p _ ↦ hview now bytes p).trans (hset'.trans ?_)
        rfl

/-- A flush changes nothing but counters and time stamps. -/
theorem settings_flush :
    ((db.flush writes).proxies.find id).map Proxy.settings =
      (db.proxies.find id).map Proxy.settings := by
  induction writes generalizing db with
  | nil => rfl
  | cons write writes ih =>
      refine ih.trans ?_
      rcases write.find_apply id with hsame | ⟨now, bytes, hset⟩
      · rw [hsame]
      · rw [hset, Option.map_map]
        rfl

theorem find_flush_eq_none :
    (db.flush writes).proxies.find id = none ↔ db.proxies.find id = none := by
  have h := @settings_flush db writes id
  rw [← Option.map_eq_none_iff, h, Option.map_eq_none_iff]

theorem flush_append (db : Db) (writes more : List FlushWrite) :
    db.flush (writes ++ more) = (db.flush writes).flush more := List.foldl_append

end Flushes

/-! ## Rows kept during a request -/

/-- Apart from rows that the request has inserted, the rows are those of the
database at its start after the same flushes. -/
structure Kept (start : Db) (writes : List FlushWrite) (inserted : List ℤ) (d : Deployment) :
    Prop where
  fresh : ∀ id ∈ inserted, start.proxies.find id = none
  same : ∀ id, id ∉ inserted → (d.db.proxies.find id).map Proxy.unstamped =
    ((start.flush writes).proxies.find id).map Proxy.unstamped

/-- Apart from the row that the request updates the rows are those of the start,
and that row is too when its configuration is put back. -/
structure Updated (env : HandlerEnv) (original : Proxy) (start : Db) (writes : List FlushWrite)
    (d : Deployment) : Prop where
  others : ∀ id, id ≠ original.id → (d.db.proxies.find id).map Proxy.unstamped =
    ((start.flush writes).proxies.find id).map Proxy.unstamped
  row : (d.db.proxies.find original.id).map
      (fun p ↦ ((restore original env.now).set p).unstamped) =
    ((start.flush writes).proxies.find original.id).map Proxy.unstamped

section Kept

variable {env : HandlerEnv} {start : Db} {writes more : List FlushWrite} {inserted : List ℤ}
  {d d' : Deployment} {original : Proxy} {id : ℤ}

theorem kept_start (d : Deployment) : Kept d.db [] [] d :=
  ⟨fun _ h ↦ absurd h List.not_mem_nil, fun _ _ ↦ rfl⟩

theorem Kept.flush (h : Kept start writes inserted d) (more : List FlushWrite) :
    Kept start (writes ++ more) inserted (d.flush more) := by
  refine ⟨h.fresh, fun id hid ↦ ?_⟩
  rw [flush_append]
  exact find_flush_congr (fun _ _ _ ↦ rfl) (h.same id hid)

theorem Kept.sameData (h : Kept start writes inserted d) (hsame : Deployment.SameData d d') :
    Kept start writes inserted d' := by
  refine ⟨h.fresh, fun id hid ↦ ?_⟩
  rw [hsame.db]
  exact h.same id hid

theorem Kept.congr {inserted' : List ℤ} (h : Kept start writes inserted d)
    (hmem : ∀ id, id ∈ inserted' ↔ id ∈ inserted) : Kept start writes inserted' d :=
  ⟨fun id hid ↦ h.fresh id ((hmem id).mp hid), fun id hid ↦ h.same id fun hid' ↦ hid ((hmem id).mpr hid')⟩

theorem Kept.insert (h : Kept start writes inserted d) {row proxy : Proxy}
    (hinsert : d.insertProxy env row = (d', .ok proxy)) :
    Kept start writes (proxy.id :: inserted) d' := by
  rcases Deployment.insertProxy_cases hinsert with ⟨e, he, -⟩ |
    ⟨proxy', -, hproxy, -, -, hfresh, rfl⟩
  · cases he
  · obtain rfl : proxy = proxy' := Except.ok.inj hproxy
    refine ⟨fun id hid ↦ ?_, fun id hid ↦ ?_⟩
    · by_cases hold : id ∈ inserted
      · exact h.fresh id hold
      · obtain rfl := (List.mem_cons.mp hid).resolve_right hold
        have habsent : d.db.proxies.find proxy.id = none := Table.find_eq_none.mpr hfresh
        have hnone := h.same proxy.id hold
        rw [habsent, Option.map_none, eq_comm, Option.map_eq_none_iff,
          find_flush_eq_none] at hnone
        exact hnone
    · rw [List.mem_cons, not_or] at hid
      have hother : (d.db.proxies.insert proxy hfresh).find id = d.db.proxies.find id :=
        (Table.find_insert d.db.proxies proxy hfresh id).trans (if_neg hid.1)
      rw [hother]
      exact h.same id hid.2

theorem insertProxy_error {row : Proxy} {e : String}
    (hinsert : d.insertProxy env row = (d', .error e)) : d' = d := by
  rcases Deployment.insertProxy_cases hinsert with ⟨e, -, rfl⟩ | ⟨proxy, -, hproxy, -⟩
  · rfl
  · cases hproxy

theorem find_deleteProxies (db : Db) (id k : ℤ) :
    (db.deleteProxies (·.id == id)).proxies.find k =
      if k = id then none else db.proxies.find k := by
  rw [Db.deleteProxies, Table.find_filter]
  cases hrow : db.proxies.find k with
  | none => simp
  | some row =>
      have hkey : row.id = k := Table.key_of_find hrow
      simp [Option.filter_some, hkey]

theorem Kept.delete (h : Kept start writes (id :: inserted) d)
    (hdelete : d.deleteProxy env id = (d', .ok ())) : Kept start writes inserted d' := by
  rcases Deployment.deleteProxy_cases hdelete with ⟨e, -, he, -⟩ | ⟨-, rfl⟩
  · cases he
  · refine ⟨fun k hk ↦ h.fresh k (List.mem_cons_of_mem id hk), fun k hk ↦ ?_⟩
    dsimp only
    rw [find_deleteProxies]
    split_ifs with hid
    · have hnone := h.fresh id List.mem_cons_self
      rw [hid, find_flush_eq_none.mpr hnone]
    · refine h.same k ?_
      rw [List.mem_cons, not_or]
      exact ⟨hid, hk⟩

theorem updated_start (hfound : d.db.proxies.find original.id = some original) :
    Updated env original d.db [] d := by
  refine ⟨fun _ _ ↦ rfl, ?_⟩
  change _ = (d.db.proxies.find original.id).map Proxy.unstamped
  rw [hfound]
  rfl

theorem Updated.flush (h : Updated env original start writes d) (more : List FlushWrite) :
    Updated env original start (writes ++ more) (d.flush more) := by
  refine ⟨fun id hid ↦ ?_, ?_⟩
  · rw [flush_append]
    exact find_flush_congr (fun _ _ _ ↦ rfl) (h.others id hid)
  · rw [flush_append]
    exact find_flush_congr (fun _ _ _ ↦ rfl) h.row

theorem Updated.sameData (h : Updated env original start writes d)
    (hsame : Deployment.SameData d d') : Updated env original start writes d' := by
  refine ⟨fun id hid ↦ ?_, ?_⟩
  · rw [hsame.db]
    exact h.others id hid
  · rw [hsame.db]
    exact h.row

/-- The row of an update that succeeds. -/
theorem find_updateProxy {active : ActiveProxy} {updated : Proxy}
    (hupdate : d.updateProxy env id active = (d', .ok updated)) (k : ℤ) :
    d'.db.proxies.find k = if k = id then (d.db.proxies.find k).map active.set
      else d.db.proxies.find k := by
  rcases Deployment.updateProxy_cases hupdate with ⟨e, he, -⟩ | ⟨row, -, -, -, rfl⟩
  · cases he
  · exact Table.find_modify _ _ _ active.key_set k

theorem updateProxy_error {active : ActiveProxy} {e : String}
    (hupdate : d.updateProxy env id active = (d', .error e)) : d' = d := by
  rcases Deployment.updateProxy_cases hupdate with ⟨e, -, rfl⟩ | ⟨row, -, hrow, -⟩
  · rfl
  · cases hrow

theorem Updated.update {plan : UpdatePlan} {req : UpdateProxyRequest} {updated : Proxy}
    (h : Updated env plan.original start writes d)
    (hupdate : d.updateProxy env plan.original.id (plan.active req env.now) = (d', .ok updated)) :
    Updated env plan.original start writes d' := by
  refine ⟨fun id hid ↦ ?_, ?_⟩
  · rw [find_updateProxy hupdate, if_neg hid]
    exact h.others id hid
  · rw [find_updateProxy hupdate, if_pos rfl, Option.map_map]
    exact h.row

theorem Updated.restore {updated : Proxy} (h : Updated env original start writes d)
    (hupdate : d.updateProxy env original.id (restore original env.now) = (d', .ok updated)) :
    Kept start writes [] d' := by
  refine ⟨fun _ hid ↦ absurd hid List.not_mem_nil, fun id _ ↦ ?_⟩
  rw [find_updateProxy hupdate]
  split_ifs with hid
  · rw [hid, Option.map_map]
    exact h.row
  · exact h.others id hid

end Kept

/-! ## Events -/

namespace Event

variable {writes : List FlushWrite} {events rest : List Event} {kind : CallKind} {ok : Bool}

theorem flushes_append : flushes (events ++ rest) = flushes events ++ flushes rest := by
  induction events with
  | nil => rfl
  | cons event events ih =>
      cases event with
      | flushed write => exact congrArg (write :: ·) ih
      | called kind ok => exact ih

@[simp] theorem flushes_flushed : flushes (writes.map .flushed) = writes := by
  induction writes with
  | nil => rfl
  | cons write writes ih => exact congrArg (write :: ·) ih

theorem flushes_call :
    flushes (writes.map .flushed ++ .called kind ok :: rest) = writes ++ flushes rest := by
  rw [flushes_append, flushes_flushed]
  rfl

theorem WritesSucceed.call (h : WritesSucceed (writes.map .flushed ++ .called kind ok :: rest)) :
    (kind.isWrite = true → ok = true) ∧ WritesSucceed rest := by
  have hcall := h _ (List.mem_append_right _ List.mem_cons_self)
  refine ⟨fun hkind ↦ ?_, fun event hmem ↦
    h event (List.mem_append_right _ (List.mem_cons_of_mem _ hmem))⟩
  rw [failedWrite, hkind, Bool.true_and] at hcall
  simpa using hcall

theorem rollbackSucceeds_flushed :
    RollbackSucceeds (writes.map .flushed ++ rest) ↔ RollbackSucceeds rest := by
  induction writes with
  | nil => rfl
  | cons write writes ih => exact ih

theorem RollbackSucceeds.failed (hkind : kind.rollsBack = true)
    (h : RollbackSucceeds (writes.map .flushed ++ .called kind false :: rest)) :
    WritesSucceed rest := by
  have hrest := rollbackSucceeds_flushed.mp h
  rwa [RollbackSucceeds, if_pos hkind] at hrest

theorem RollbackSucceeds.call (hkind : kind.rollsBack = false ∨ ok = true)
    (h : RollbackSucceeds (writes.map .flushed ++ .called kind ok :: rest)) :
    RollbackSucceeds rest := by
  have hrest := rollbackSucceeds_flushed.mp h
  cases ok with
  | true => exact hrest
  | false =>
      rcases hkind with hkind | hok
      · rwa [RollbackSucceeds, hkind, if_neg Bool.false_ne_true] at hrest
      · cases hok

end Event

/-! ## Rolling back -/

/-- After the run the rows are those of the start after its flushes. -/
def Interleaved.Settles {α : Type} (start : Db) (writes : List FlushWrite) (o : Interleaved α) :
    Prop := Kept start (writes ++ Event.flushes o.events) [] o.deployment

section Rollback

variable {parse : UrlParser} {env : HandlerEnv} {flushes : ℕ → List FlushWrite} {start : Db}
  {α : Type}

theorem settles_done {n : ℕ} {d : Deployment} {writes : List FlushWrite}
    (h : Kept start writes [] d) (a : α) :
    ((Procedure.done a).interleave parse env flushes n d).Settles start writes := by
  unfold Interleaved.Settles Procedure.interleave
  rw [Event.flushes_flushed]
  exact h.flush _

/-- A run settles if what follows its first call does. -/
theorem settles_call {γ : Type} {c : HandlerCall γ} {next : Except String γ → Procedure α} {n : ℕ}
    {d d' : Deployment} {result : Except String γ} {writes : List FlushWrite}
    (hcall : c.execute parse env (d.flush (flushes n)) = (d', result))
    (h : ((next result).interleave parse env flushes (n + 1) d').Settles start
      (writes ++ flushes n)) :
    ((Procedure.call c next).interleave parse env flushes n d).Settles start writes := by
  unfold Interleaved.Settles at h ⊢
  rw [Procedure.interleave, hcall]
  dsimp only
  rw [Event.flushes_call, ← List.append_assoc]
  exact h

theorem events_call {γ : Type} {c : HandlerCall γ} {next : Except String γ → Procedure α} {n : ℕ}
    {d d' : Deployment} {result : Except String γ}
    (hcall : c.execute parse env (d.flush (flushes n)) = (d', result)) :
    ((Procedure.call c next).interleave parse env flushes n d).events =
      (flushes n).map .flushed ++ .called c.kind result.toBool ::
        ((next result).interleave parse env flushes (n + 1) d').events := by
  rw [Procedure.interleave, hcall]

theorem result_call {γ : Type} {c : HandlerCall γ} {next : Except String γ → Procedure α} {n : ℕ}
    {d d' : Deployment} {result : Except String γ}
    (hcall : c.execute parse env (d.flush (flushes n)) = (d', result)) :
    ((Procedure.call c next).interleave parse env flushes n d).result =
      ((next result).interleave parse env flushes (n + 1) d').result := by
  rw [Procedure.interleave, hcall]

/-- Deletes that succeed take the inserted rows out again. -/
theorem settles_deleteEach {clientId : String} {next : Procedure α} {rest : List ℤ}
    (hnext : ∀ n d writes, Kept start writes rest d →
      Event.WritesSucceed (next.interleave parse env flushes n d).events →
        (next.interleave parse env flushes n d).Settles start writes)
    (ps : List Proxy) {n : ℕ} {d : Deployment} {writes : List FlushWrite}
    (h : Kept start writes (ps.map (·.id) ++ rest) d)
    (hsucceed : Event.WritesSucceed
      ((deleteEachProcedure clientId next ps).interleave parse env flushes n d).events) :
    ((deleteEachProcedure clientId next ps).interleave parse env flushes n d).Settles start
      writes := by
  induction ps generalizing n d writes with
  | nil => exact hnext n d writes h hsucceed
  | cons p ps ih =>
      rw [deleteEachProcedure] at hsucceed ⊢
      obtain ⟨d₁, stopped, hstop⟩ :=
        (HandlerCall.stop clientId p.id).executes parse env (d.flush (flushes n))
      have hkept₁ := (h.flush (flushes n)).sameData (Deployment.stopProxy_sameData hstop)
      rw [events_call hstop] at hsucceed
      refine settles_call hstop ?_
      obtain ⟨d₂, deleted, hdelete⟩ :=
        (HandlerCall.delete p.id).executes parse env (d₁.flush (flushes (n + 1)))
      have hrest := hsucceed.call.2
      rw [events_call hdelete] at hrest
      have hok := hrest.call.1 rfl
      cases deleted with
      | error e => cases hok
      | ok =>
          refine settles_call hdelete ?_
          exact ih ((hkept₁.flush _).delete hdelete) hrest.call.2

theorem settles_createEach {clientId startError : String} (rows : List Proxy) {created : List Proxy}
    {n : ℕ} {d : Deployment} {writes : List FlushWrite} {e : ApiError}
    (h : Kept start writes (created.map (·.id)) d)
    (hresult : ((createEachProcedure clientId startError created rows).interleave parse env flushes
      n d).result = .error e)
    (hsucceed : Event.RollbackSucceeds ((createEachProcedure clientId startError created
      rows).interleave parse env flushes n d).events) :
    ((createEachProcedure clientId startError created rows).interleave parse env flushes
      n d).Settles start writes := by
  induction rows generalizing created n d writes with
  | nil => cases hresult
  | cons row rows ih =>
      rw [createEachProcedure] at hresult hsucceed ⊢
      obtain ⟨d₁, inserted, hinsert⟩ :=
        (HandlerCall.insert row).executes parse env (d.flush (flushes n))
      rw [events_call hinsert] at hsucceed
      rw [result_call hinsert] at hresult
      refine settles_call hinsert ?_
      have hkept := h.flush (flushes n)
      cases inserted with
      | error e =>
          obtain rfl := insertProxy_error hinsert
          rw [← List.append_nil (created.map (·.id))] at hkept
          exact settles_deleteEach (fun n d writes h _ ↦ settles_done h _) created hkept
            (hsucceed.failed rfl)
      | ok proxy =>
          have hkept₁ := hkept.insert hinsert
          obtain ⟨d₂, started, hstart⟩ :=
            (HandlerCall.start clientId proxy.id).executes parse env (d₁.flush (flushes (n + 1)))
          have hsucceed₁ := hsucceed.call (.inr rfl)
          rw [events_call hstart] at hsucceed₁
          rw [result_call hstart] at hresult
          refine settles_call hstart ?_
          have hids : ∀ id, id ∈ created.map (·.id) ++ [proxy.id] ↔
              id ∈ proxy.id :: created.map (·.id) := by simp [or_comm]
          have hkept₂ := ((hkept₁.flush (flushes (n + 1))).sameData
            (Deployment.startProxy_sameData hstart)).congr hids
          cases started with
          | error e =>
              refine settles_deleteEach (fun n d writes h hdeletes ↦ ?_) created hkept₂
                (hsucceed₁.failed rfl)
              obtain ⟨d₃, deleted, hdelete⟩ :=
                (HandlerCall.delete proxy.id).executes parse env (d.flush (flushes n))
              rw [events_call hdelete] at hdeletes
              have hok := hdeletes.call.1 rfl
              cases deleted with
              | error e => cases hok
              | ok => exact settles_call hdelete (settles_done ((h.flush _).delete hdelete) _)
          | ok =>
              refine ih ?_ hresult (hsucceed₁.call (.inr rfl))
              rwa [List.map_append, List.map_singleton]

theorem settles_restartUpdated {clientId : String} {original updated : Proxy} {n : ℕ}
    {d : Deployment} {writes : List FlushWrite} {e : ApiError}
    (h : Updated env original start writes d)
    (hresult : ((restartUpdatedProcedure env clientId original updated).interleave parse env flushes
      n d).result = .error e)
    (hsucceed : Event.RollbackSucceeds ((restartUpdatedProcedure env clientId original
      updated).interleave parse env flushes n d).events) :
    ((restartUpdatedProcedure env clientId original updated).interleave parse env flushes
      n d).Settles start writes := by
  rw [restartUpdatedProcedure] at hresult hsucceed ⊢
  obtain ⟨d₁, stopped, hstop⟩ :=
    (HandlerCall.stop clientId updated.id).executes parse env (d.flush (flushes n))
  have h₁ := (h.flush (flushes n)).sameData (Deployment.stopProxy_sameData hstop)
  rw [events_call hstop] at hsucceed
  rw [result_call hstop] at hresult
  refine settles_call hstop ?_
  have hsucceed₁ := hsucceed.call (.inl rfl)
  cases henabled : updated.enabled with
  | false =>
      rw [henabled] at hresult
      cases hresult
  | true =>
      rw [henabled, if_pos rfl] at hresult hsucceed₁
      rw [if_pos rfl]
      obtain ⟨d₂, started, hstart⟩ :=
        (HandlerCall.start clientId updated.id).executes parse env (d₁.flush (flushes (n + 1)))
      have h₂ := (h₁.flush (flushes (n + 1))).sameData (Deployment.startProxy_sameData hstart)
      rw [events_call hstart] at hsucceed₁
      rw [result_call hstart] at hresult
      refine settles_call hstart ?_
      cases started with
      | ok => cases hresult
      | error e =>
          have hwrites := hsucceed₁.failed rfl
          obtain ⟨d₃, restored, hrestore⟩ :=
            (HandlerCall.update original.id (restore original env.now)).executes parse env
              (d₂.flush (flushes (n + 2)))
          dsimp only at hwrites ⊢
          rw [events_call hrestore] at hwrites
          have hok := hwrites.call.1 rfl
          refine settles_call hrestore ?_
          cases restored with
          | error e => cases hok
          | ok row =>
              have hkept := (h₂.flush (flushes (n + 2))).restore hrestore
              dsimp only
              split_ifs
              · obtain ⟨d₄, restarted, hrestart⟩ :=
                  (HandlerCall.start clientId original.id).executes parse env
                    (d₃.flush (flushes (n + 3)))
                refine settles_call hrestart (settles_done ?_ _)
                exact (hkept.flush _).sameData (Deployment.startProxy_sameData hrestart)
              · exact settles_done hkept _

/-- Every row has its old settings and the counters that the flushes of the run
have given it, and no other row is there. -/
def RolledBack (d : Deployment) (o : Interleaved α) : Prop :=
  ∀ id, (o.deployment.db.proxies.find id).map Proxy.settings =
      (d.db.proxies.find id).map Proxy.settings ∧
    (o.deployment.db.proxies.find id).map Proxy.bytes =
      ((d.db.flush (Event.flushes o.events)).proxies.find id).map Proxy.bytes

theorem Interleaved.Settles.rolledBack {d : Deployment} {o : Interleaved α}
    (h : o.Settles d.db []) : RolledBack d o := by
  intro id
  have hsame := h.same id List.not_mem_nil
  rw [List.nil_append] at hsame
  have hsettings := congrArg (Option.map Proxy.settings) hsame
  have hbytes := congrArg (Option.map Proxy.bytes) hsame
  rw [Option.map_map, Option.map_map] at hsettings hbytes
  exact ⟨hsettings.trans settings_flush, hbytes⟩

variable {render : Url → String} {auth : AuthUser} {d : Deployment} {e : ApiError}

theorem rolledBack_updateProxy {id : ℤ} {req : UpdateProxyRequest}
    (hresult : ((updateProxyProcedure parse render env auth d id req).interleave parse env flushes
      0 d).result = .error e)
    (hsucceed : Event.RollbackSucceeds
      ((updateProxyProcedure parse render env auth d id req).interleave parse env flushes
        0 d).events) :
    RolledBack d ((updateProxyProcedure parse render env auth d id req).interleave parse env flushes
      0 d) := by
  refine Interleaved.Settles.rolledBack ?_
  unfold updateProxyProcedure at hresult hsucceed ⊢
  cases hplan : updateProxyChecks parse render env d auth id req with
  | error e => exact settles_done (kept_start d) _
  | ok plan =>
      rw [hplan] at hresult hsucceed
      have hfound := (updateProxyChecks_ok hplan).found
      obtain rfl : plan.original.id = id := Table.key_of_find hfound
      obtain ⟨d₁, changed, hchange⟩ :=
        (HandlerCall.update plan.original.id (plan.active req env.now)).executes parse env
          (d.flush (flushes 0))
      dsimp only at hresult hsucceed ⊢
      rw [events_call hchange] at hsucceed
      rw [result_call hchange] at hresult
      refine settles_call hchange ?_
      have hsucceed₁ := hsucceed.call (.inl rfl)
      cases changed with
      | error e =>
          obtain rfl := updateProxy_error hchange
          exact settles_done ((kept_start d).flush _) _
      | ok updated =>
          have hupdated := ((updated_start hfound).flush (flushes 0)).update hchange
          dsimp only at hresult hsucceed₁ ⊢
          split_ifs at hresult hsucceed₁ ⊢
          · exact settles_restartUpdated hupdated hresult hsucceed₁
          · cases hresult

theorem rolledBack_batchCreate {req : BatchCreateProxyRequest}
    (hresult : ((batchCreateProcedure env auth d req).interleave parse env flushes 0 d).result =
      .error e)
    (hsucceed : Event.RollbackSucceeds
      ((batchCreateProcedure env auth d req).interleave parse env flushes 0 d).events) :
    RolledBack d ((batchCreateProcedure env auth d req).interleave parse env flushes 0 d) := by
  refine Interleaved.Settles.rolledBack ?_
  unfold batchCreateProcedure at hresult hsucceed ⊢
  cases hchecks : batchCreateChecks env d auth req with
  | error e => exact settles_done (kept_start d) _
  | ok =>
      rw [hchecks] at hresult hsucceed
      exact settles_createEach _ (kept_start d) hresult hsucceed

theorem rolledBack_addPorts {groupId : String} {req : AddPortsToGroupRequest}
    (hresult : ((addPortsProcedure env auth d groupId req).interleave parse env flushes
      0 d).result = .error e)
    (hsucceed : Event.RollbackSucceeds
      ((addPortsProcedure env auth d groupId req).interleave parse env flushes 0 d).events) :
    RolledBack d ((addPortsProcedure env auth d groupId req).interleave parse env flushes 0 d) := by
  refine Interleaved.Settles.rolledBack ?_
  unfold addPortsProcedure at hresult hsucceed ⊢
  cases hchecks : addPortsChecks env d auth groupId req with
  | error e => exact settles_done (kept_start d) _
  | ok template =>
      rw [hchecks] at hresult hsucceed
      exact settles_createEach _ (kept_start d) hresult hsucceed

/-- Whatever flushes write between the calls of an update, of a batch or of ports
added to a group, an answer with an error leaves the settings of every row as they
were, its counters as the flushes have set them, and none of the inserted rows, if
the writes of the rollback succeed. -/
theorem rolled_back (parse : UrlParser) (render : Url → String) (env : HandlerEnv)
    (auth : AuthUser) (flushes : ℕ → List FlushWrite) (d : Deployment) (e : ApiError) :
    (∀ id req,
      ((updateProxyProcedure parse render env auth d id req).interleave parse env flushes
        0 d).result = .error e →
      Event.RollbackSucceeds ((updateProxyProcedure parse render env auth d id req).interleave parse
        env flushes 0 d).events →
      RolledBack d ((updateProxyProcedure parse render env auth d id req).interleave parse env
        flushes 0 d)) ∧
    (∀ req,
      ((batchCreateProcedure env auth d req).interleave parse env flushes 0 d).result = .error e →
      Event.RollbackSucceeds
        ((batchCreateProcedure env auth d req).interleave parse env flushes 0 d).events →
      RolledBack d ((batchCreateProcedure env auth d req).interleave parse env flushes 0 d)) ∧
    ∀ groupId req,
      ((addPortsProcedure env auth d groupId req).interleave parse env flushes 0 d).result =
        .error e →
      Event.RollbackSucceeds
        ((addPortsProcedure env auth d groupId req).interleave parse env flushes 0 d).events →
      RolledBack d ((addPortsProcedure env auth d groupId req).interleave parse env flushes 0 d) :=
  ⟨fun _ _ ↦ rolledBack_updateProxy, fun _ ↦ rolledBack_batchCreate, fun _ _ ↦ rolledBack_addPorts⟩

end Rollback

/-! ## A batch whose second proxy does not start -/

def webRow : Proxy :=
  { (default : Proxy) with
    id := 100
    clientId := some "5"
    remotePort := 80
    enabled := true
    nodeId := some 1 }

def webNode : Deployment :=
  { sharedNode with db := { sharedNode.db with proxies := ⟨[webRow], by decide⟩ } }

/-- The second command does not reach the node. -/
def lossyEnv : HandlerEnv :=
  { calmEnv with delivery := fun n ↦ if n = 1 then .undelivered else .answered fun _ _ ↦ .ok () }

/-- Bytes of the existing proxy, flushed before the second row is inserted. -/
def flushSecond (n : ℕ) : List FlushWrite := if n = 2 then [.proxy 100 default (10, 20)] else []

theorem rolled_back_batch :
    ∃ e, ((batchCreateProcedure lossyEnv ⟨1, "ann", true⟩ webNode (tcpBatch [2022, 2023])).interleave
        noUrls lossyEnv flushSecond 0 webNode).result = .error e ∧
      RolledBack webNode ((batchCreateProcedure lossyEnv ⟨1, "ann", true⟩ webNode
        (tcpBatch [2022, 2023])).interleave noUrls lossyEnv flushSecond 0 webNode) := by
  have hfailed : ((batchCreateProcedure lossyEnv ⟨1, "ann", true⟩ webNode
      (tcpBatch [2022, 2023])).interleave noUrls lossyEnv flushSecond 0 webNode).result.toBool =
        false := by decide +kernel
  have hsucceed : Event.RollbackSucceeds ((batchCreateProcedure lossyEnv ⟨1, "ann", true⟩ webNode
      (tcpBatch [2022, 2023])).interleave noUrls lossyEnv flushSecond 0 webNode).events := by
    decide +kernel
  cases hresult : ((batchCreateProcedure lossyEnv ⟨1, "ann", true⟩ webNode
      (tcpBatch [2022, 2023])).interleave noUrls lossyEnv flushSecond 0 webNode).result with
  | ok created =>
      rw [hresult] at hfailed
      cases hfailed
  | error e =>
      exact ⟨e, rfl, (rolled_back noUrls (fun _ ↦ "") lossyEnv ⟨1, "ann", true⟩ flushSecond webNode
        e).2.1 _ hresult hsucceed⟩

end Oxiproxy.Controller
