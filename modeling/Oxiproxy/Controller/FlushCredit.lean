import Oxiproxy.Controller.Flush

/-!
# What a flush still owes

The rows an entry is added to are determined by the links between rows, which
a flush does not change.  At each position a flush owes certain bytes to certain
rows; a step whose database call succeeds either leaves that debt alone or turns
part of it into an application.
-/

namespace Oxiproxy.Controller

/-- The links a flush follows: the node and owner of a proxy, the owner of a
client, and which users and nodes exist. -/
structure Links where
  proxy : ℤ → Option (Option ℤ × Option ℤ)
  client : ℤ → Option (Option ℤ)
  user : ℤ → Bool
  node : ℤ → Bool

def Db.links (db : Db) : Links where
  proxy id := (db.proxies.find id).map fun p ↦ (p.nodeId, p.userId)
  client id := (db.clients.find id).map (·.userId)
  user id := (db.users.find id).isSome
  node id := (db.nodes.find id).isSome

namespace Links

variable (L : Links)

def has : AccountId → Bool
  | .client id => (L.client id).isSome
  | .user id => L.user id
  | .node id => L.node id

def accountRows (a : AccountId) : List RowId := if L.has a then [.account a] else []

def userRows : Option ℤ → List RowId
  | some id => L.accountRows (.user id)
  | none => []

def nodeRows : Option ℤ → List RowId
  | some id => L.accountRows (.node id)
  | none => []

/-- The rows after the daily one: the client and the owner. -/
def clientRows (k : TrafficKey) (directUserId : Option ℤ) : List RowId :=
  L.accountRows (.client k.clientId) ++
    L.userRows (directUserId.or (L.client k.clientId).join)

/-- All rows the bytes of a key are added to on a day. -/
def keyRows (today : String) (k : TrafficKey) : List RowId :=
  match L.proxy k.proxyId with
  | some (nodeId, userId) =>
      .proxy k.proxyId :: .daily k.proxyId today :: (L.clientRows k userId ++ L.nodeRows nodeId)
  | none => []

def resumeRows : Resume → List RowId
  | .owner userId _ => L.userRows userId
  | .nextKey => []
  | .nextNode => []

end Links

def Resume.bytes : Resume → Bytes
  | .owner _ bytes => bytes
  | .nextKey => 0
  | .nextNode => 0

section Credit

variable {M : Type*} [AddCommMonoid M] (w : Bytes → M) (L : Links) (today : String) (r : RowId)

/-- The weight of some bytes, once for each occurrence of row `r`. -/
def rowsCredit (rows : List RowId) (bytes : Bytes) : M := rows.count r • w bytes

/-- What one drained entry adds to row `r`; an entry of zero bytes is skipped. -/
def entryCredit (e : TrafficKey × Bytes) : M :=
  if e.2.1 = 0 ∧ e.2.2 = 0 then 0 else rowsCredit w r (L.keyRows today e.1) e.2

def positionCredit : Position → M
  | .findProxy k bytes => rowsCredit w r (L.keyRows today k) bytes
  | .updateProxy k bytes proxy =>
      rowsCredit w r (.proxy k.proxyId :: .daily k.proxyId today :: L.clientRows k proxy.userId)
        bytes
  | .findClient k bytes directUserId =>
      rowsCredit w r (.daily k.proxyId today :: L.clientRows k directUserId) bytes
  | .upsertDaily k bytes directUserId _ =>
      rowsCredit w r (.daily k.proxyId today :: L.clientRows k directUserId) bytes
  | .findUser id bytes => rowsCredit w r (L.accountRows (.user id)) bytes
  | .findNode id bytes => rowsCredit w r (L.accountRows (.node id)) bytes
  | .updateAccount a _ _ bytes next =>
      rowsCredit w r (L.accountRows a) bytes + rowsCredit w r (L.resumeRows next) next.bytes
  | .refindAccount _ next => rowsCredit w r (L.resumeRows next) next.bytes
  | .markAccount _ next => rowsCredit w r (L.resumeRows next) next.bytes
  | .readToday => 0
  | .readNow => 0
  | .nextKey => 0
  | .nextNode => 0
  | .done => 0

def nodeCredit (id : ℤ) (bytes : Bytes) : M := rowsCredit w r (L.accountRows (.node id)) bytes

/-- What a flush still owes to row `r`. -/
def credit (f : Flush) : M :=
  (f.buffer.map (entryCredit w L today r)).sum + positionCredit w L today r f.position +
    f.nodeTraffic.sumOver (nodeCredit w L r)

/-- What a step has added to row `r`. -/
def applied : Option Application → M
  | some app => if app.row = r then w app.bytes else 0
  | none => 0

@[simp] theorem rowsCredit_nil (bytes : Bytes) : rowsCredit w r [] bytes = 0 := by
  simp [rowsCredit]

theorem rowsCredit_cons (row : RowId) (rows : List RowId) (bytes : Bytes) :
    rowsCredit w r (row :: rows) bytes =
      (if row = r then w bytes else 0) + rowsCredit w r rows bytes := by
  unfold rowsCredit
  rw [List.count_cons, add_nsmul, add_comm]
  by_cases hrow : row = r <;> simp [hrow]

theorem rowsCredit_append (rows rows' : List RowId) (bytes : Bytes) :
    rowsCredit w r (rows ++ rows') bytes =
      rowsCredit w r rows bytes + rowsCredit w r rows' bytes := by
  simp only [rowsCredit, List.count_append, add_nsmul]

theorem rowsCredit_resume (next : Resume) :
    positionCredit w L today r next.position = rowsCredit w r (L.resumeRows next) next.bytes := by
  cases next with
  | owner userId bytes =>
      cases userId with
      | none => simp [Resume.position, positionCredit, Links.resumeRows, Links.userRows]
      | some id => rfl
  | nextKey => simp [Resume.position, positionCredit, Links.resumeRows]
  | nextNode => simp [Resume.position, positionCredit, Links.resumeRows]

theorem rowsCredit_accountRows {a : AccountId} (h : L.has a = true) (bytes : Bytes) :
    rowsCredit w r (L.accountRows a) bytes = if .account a = r then w bytes else 0 := by
  rw [Links.accountRows, if_pos h, rowsCredit_cons, rowsCredit_nil, add_zero]

theorem rowsCredit_accountRows_none {a : AccountId} (h : L.has a = false) (bytes : Bytes) :
    rowsCredit w r (L.accountRows a) bytes = 0 := by
  simp [Links.accountRows, h]

variable {w}

/-- Merging the traffic of a node adds to what is owed to it. -/
theorem sumOver_addNodeTraffic (hw : ∀ a b, w (a + b) = w a + w b)
    (m : AList fun _ : ℤ ↦ Bytes) (nodeId : Option ℤ) (bytes : Bytes) :
    (addNodeTraffic m nodeId bytes).sumOver (nodeCredit w L r) =
      rowsCredit w r (L.nodeRows nodeId) bytes + m.sumOver (nodeCredit w L r) := by
  cases nodeId with
  | none => simp [addNodeTraffic, Links.nodeRows]
  | some id =>
      have hadd : ∀ id a b, nodeCredit w L r id (a + b) =
          nodeCredit w L r id a + nodeCredit w L r id b := by
        intro id a b
        simp only [nodeCredit, rowsCredit, hw, nsmul_add]
      exact AList.sumOver_insert_add (nodeCredit w L r) zero_add hadd id bytes m

end Credit

/-! ## Links are kept -/

theorem Db.links_setCounters (db : Db) (now : NaiveDateTime) (g : Counters → Counters)
    (a : AccountId) : (db.setCounters now g a).links = db.links := by
  cases a with
  | client id =>
      have hclient : ∀ i, ((db.setCounters now g (.client id)).clients.find i).map (·.userId) =
          (db.clients.find i).map (·.userId) := by
        intro i
        rw [Db.setCounters, Table.find_modify]
        split_ifs <;> cases db.clients.find i <;> rfl
      simp only [Db.links, funext hclient]
      rfl
  | user id =>
      have huser : ∀ i, ((db.setCounters now g (.user id)).users.find i).isSome =
          (db.users.find i).isSome := by
        intro i
        rw [Db.setCounters, Table.find_modify]
        split_ifs <;> cases db.users.find i <;> rfl
      simp only [Db.links, funext huser]
      rfl
  | node id =>
      have hnode : ∀ i, ((db.setCounters now g (.node id)).nodes.find i).isSome =
          (db.nodes.find i).isSome := by
        intro i
        rw [Db.setCounters, Table.find_modify]
        split_ifs <;> cases db.nodes.find i <;> rfl
      simp only [Db.links, funext hnode]
      rfl

theorem Db.links_setProxyBytes (db : Db) (id : ℤ) (now : NaiveDateTime) (bytes : Bytes) :
    (db.setProxyBytes id now bytes).links = db.links := by
  have hproxy : ∀ i, ((db.setProxyBytes id now bytes).proxies.find i).map
      (fun p ↦ (p.nodeId, p.userId)) = (db.proxies.find i).map fun p ↦ (p.nodeId, p.userId) := by
    intro i
    rw [Db.setProxyBytes, Table.find_modify]
    split_ifs <;> cases db.proxies.find i <;> rfl
  simp only [Db.links, funext hproxy]
  rfl

theorem Db.links_upsertDaily (db : Db) (daily : TrafficDaily) :
    (db.upsertDaily daily).links = db.links := by
  unfold Db.upsertDaily
  split_ifs <;> rfl

/-- A successful update of an account, and where the flush goes from there. -/
theorem updateAccount_of_ok {env : StepEnv} {db : Db} {a : AccountId} (f : Flush) (plan : Plan)
    (read : Counters) (bytes : Bytes) (next : Resume)
    (h : env.ok = true ∧ (db.account a).isSome = true) :
    ∃ position, (position = .refindAccount a next ∨ position = next.position) ∧
      updateAccount env db f a plan read bytes next =
        (db.setCounters f.now
          (read.addRead (resetDue plan.trafficResetCycle read.lastResetAt env.clock) f.now bytes) a,
          { f with position }, some ⟨.account a, f.now, env.clock, bytes⟩) := by
  simp only [updateAccount, if_pos h]
  refine ⟨_, ?_, rfl⟩
  split_ifs
  · exact .inl rfl
  · exact .inr rfl
  · exact .inl rfl
  · exact .inr rfl

theorem updateAccount_of_not {env : StepEnv} {db : Db} {a : AccountId} (f : Flush) (plan : Plan)
    (read : Counters) (bytes : Bytes) (next : Resume)
    (h : ¬ (env.ok = true ∧ (db.account a).isSome = true)) :
    updateAccount env db f a plan read bytes next =
      (db, { f with position := next.position }, none) := by
  simp only [updateAccount, if_neg h]

theorem links_updateAccount (env : StepEnv) (db : Db) (f : Flush) (a : AccountId) (plan : Plan)
    (read : Counters) (bytes : Bytes) (next : Resume) :
    (updateAccount env db f a plan read bytes next).1.links = db.links := by
  by_cases h : env.ok = true ∧ (db.account a).isSome = true
  · obtain ⟨position, -, heq⟩ := updateAccount_of_ok f plan read bytes next h
    rw [heq]
    exact db.links_setCounters _ _ a
  · rw [updateAccount_of_not f plan read bytes next h]

/-- A flush changes no link between rows. -/
theorem links_flushStep {env : StepEnv} {db db' : Db} {f f' : Flush} {app : Option Application}
    (hstep : flushStep env db f = some (db', f', app)) : db'.links = db.links := by
  unfold flushStep at hstep
  cases hpos : f.position with
  | readToday | readNow | findClient =>
      rw [hpos] at hstep
      cases hstep
      rfl
  | nextKey | nextNode | findProxy | findUser | findNode =>
      rw [hpos] at hstep
      simp only at hstep
      split at hstep <;> cases hstep <;> rfl
  | refindAccount =>
      rw [hpos] at hstep
      simp only at hstep
      split_ifs at hstep <;> cases hstep <;> rfl
  | updateProxy k bytes proxy =>
      rw [hpos] at hstep
      simp only at hstep
      split_ifs at hstep <;> cases hstep
      · exact db.links_setProxyBytes _ _ _
      · rfl
  | upsertDaily =>
      rw [hpos] at hstep
      simp only at hstep
      split_ifs at hstep <;> cases hstep
      · exact db.links_upsertDaily _
      · rfl
  | updateAccount a plan read bytes next =>
      rw [hpos] at hstep
      have hdb := links_updateAccount env db f a plan read bytes next
      rw [Option.some.inj hstep] at hdb
      exact hdb
  | markAccount a next =>
      rw [hpos] at hstep
      simp only at hstep
      cases hstep
      split_ifs
      · exact db.links_setCounters _ _ a
      · rfl
  | done =>
      rw [hpos] at hstep
      cases hstep

/-! ## Every step settles what it removes from the debt -/

/-- The rows a position holds agree with the links. -/
def Flush.Consistent (L : Links) (f : Flush) : Prop :=
  match f.position with
  | .updateProxy k _ proxy =>
      proxy.id = k.proxyId ∧ L.proxy k.proxyId = some (proxy.nodeId, proxy.userId)
  | .upsertDaily k _ _ client => client.map (·.userId) = L.client k.clientId
  | .updateAccount a _ _ _ _ => L.has a = true
  | _ => True

theorem Links.has_eq (db : Db) (a : AccountId) : db.links.has a = (db.account a).isSome := by
  cases a <;> simp [Links.has, Db.links, Db.account]

theorem Resume.consistent_position (L : Links) (f : Flush) (next : Resume) :
    Flush.Consistent L { f with position := next.position } := by
  cases next with
  | owner userId bytes => cases userId <;> trivial
  | nextKey => trivial
  | nextNode => trivial

theorem Flush.Consistent.step {env : StepEnv} {db db' : Db} {f f' : Flush}
    {app : Option Application} (hok : env.ok = true) (hc : f.Consistent db.links)
    (hstep : flushStep env db f = some (db', f', app)) : f'.Consistent db.links := by
  unfold flushStep at hstep
  cases hpos : f.position with
  | readToday | readNow =>
      rw [hpos] at hstep
      cases hstep
      trivial
  | nextKey =>
      rw [hpos] at hstep
      simp only at hstep
      split at hstep <;> cases hstep
      · trivial
      · simp only [Consistent]
        split_ifs <;> trivial
  | findProxy k bytes =>
      rw [hpos] at hstep
      simp only [hok, if_true] at hstep
      split at hstep <;> cases hstep
      · trivial
      · rename_i proxy hproxy
        exact ⟨Table.key_of_find hproxy, by simp [Db.links, hproxy]⟩
  | updateProxy k bytes proxy =>
      rw [hpos] at hstep
      simp only at hstep
      split_ifs at hstep <;> cases hstep <;> trivial
  | findClient k bytes directUserId =>
      rw [hpos] at hstep
      simp only [hok, if_true] at hstep
      cases hstep
      rfl
  | upsertDaily k bytes directUserId client =>
      rw [hpos] at hstep
      simp only [hok, if_true] at hstep
      cases hstep
      cases client with
      | none => exact Resume.consistent_position _ _ _
      | some c =>
          simp only [Consistent, hpos, Option.map_some] at hc
          simp [Consistent, afterDaily, Links.has, ← hc]
  | findUser id bytes =>
      rw [hpos] at hstep
      simp only [hok, if_true] at hstep
      split at hstep <;> cases hstep
      · trivial
      · rename_i plan read hread
        simp only [Consistent, Links.has_eq, hread, Option.isSome_some]
  | nextNode =>
      rw [hpos] at hstep
      simp only at hstep
      split at hstep <;> cases hstep <;> trivial
  | findNode id bytes =>
      rw [hpos] at hstep
      simp only [hok, if_true] at hstep
      split at hstep <;> cases hstep
      · trivial
      · rename_i plan read hread
        simp only [Consistent, Links.has_eq, hread, Option.isSome_some]
  | updateAccount a plan read bytes next =>
      rw [hpos] at hstep
      simp only [Consistent, hpos, Links.has_eq] at hc
      obtain ⟨position, hposition, heq⟩ :=
        updateAccount_of_ok f plan read bytes next ⟨hok, hc⟩
      have hstep := heq.symm.trans (Option.some.inj hstep)
      cases hstep
      rcases hposition with rfl | rfl
      · trivial
      · exact next.consistent_position _ _
  | refindAccount a next =>
      rw [hpos] at hstep
      simp only at hstep
      split_ifs at hstep <;> cases hstep
      · trivial
      · exact next.consistent_position _ _
  | markAccount a next =>
      rw [hpos] at hstep
      simp only [hok, if_true] at hstep
      cases hstep
      exact next.consistent_position _ _
  | done =>
      rw [hpos] at hstep
      cases hstep

section Settle

variable {M : Type*} [AddCommMonoid M] {w : Bytes → M} {today : String} {r : RowId}
  {env : StepEnv} {db db' : Db} {f f' : Flush} {app : Option Application}

theorem credit_position (w : Bytes → M) (L : Links) (today : String) (r : RowId) (f : Flush)
    (position : Position) :
    credit w L today r { f with position } =
      (f.buffer.map (entryCredit w L today r)).sum + positionCredit w L today r position +
        f.nodeTraffic.sumOver (nodeCredit w L r) := rfl

/-- Draining one entry moves its debt from the buffer to the position. -/
theorem sum_entryCredit_eraseIdx (w : Bytes → M) (L : Links) (today : String) (r : RowId)
    {buffer : List (TrafficKey × Bytes)} {i : ℕ} {e : TrafficKey × Bytes}
    (he : buffer[i]? = some e) :
    ((buffer.eraseIdx i).map (entryCredit w L today r)).sum + entryCredit w L today r e =
      (buffer.map (entryCredit w L today r)).sum := by
  obtain ⟨hi, rfl⟩ := List.getElem?_eq_some_iff.mp he
  have hperm := (List.getElem_cons_eraseIdx_perm hi).map (entryCredit w L today r)
  rw [← hperm.sum_eq, List.map_cons, List.sum_cons, add_comm]

/-- The debt to client and owner, once the client is known. -/
theorem owner_credit (w : Bytes → M) (L : Links) (today : String) (r : RowId) (k : TrafficKey)
    (bytes : Bytes) (directUserId : Option ℤ) {client : Option Client}
    (hc : client.map (·.userId) = L.client k.clientId) :
    positionCredit w L today r (afterDaily k bytes directUserId client) =
      rowsCredit w r (L.clientRows k directUserId) bytes := by
  have howner : client.bind (·.userId) = (L.client k.clientId).join := by
    rw [← hc]
    cases client <;> rfl
  rw [Links.clientRows, rowsCredit_append, ← howner]
  cases client with
  | none =>
      have hhas : L.has (.client k.clientId) = false := by simp [Links.has, ← hc]
      rw [rowsCredit_accountRows_none w L r hhas, zero_add]
      exact rowsCredit_resume w L today r _
  | some c => rfl

/-- A step whose database call succeeds applies exactly what it removes from the
debt. -/
theorem flushStep_credit (hw : ∀ a b, w (a + b) = w a + w b) (hok : env.ok = true)
    (hc : f.Consistent db.links) (htoday : f.position ≠ .readToday → f.today = today)
    (hstep : flushStep env db f = some (db', f', app)) :
    credit w db.links today r f' + applied w r app = credit w db.links today r f := by
  unfold flushStep at hstep
  have hcredit : credit w db.links today r f =
      (f.buffer.map (entryCredit w db.links today r)).sum +
        positionCredit w db.links today r f.position +
        f.nodeTraffic.sumOver (nodeCredit w db.links r) := rfl
  cases hpos : f.position with
  | readToday | readNow =>
      rw [hpos] at hstep
      cases hstep
      rw [hcredit, hpos]
      simp [credit, applied, positionCredit]
  | nextKey =>
      rw [hpos] at hstep
      simp only at hstep
      split at hstep
      · cases hstep
        rw [hcredit, hpos, credit_position]
        simp [applied, positionCredit]
      · rename_i k bytes he
        cases hstep
        rw [hcredit, hpos, ← sum_entryCredit_eraseIdx w db.links today r he]
        by_cases hzero : bytes.1 = 0 ∧ bytes.2 = 0
        · simp [credit, applied, positionCredit, entryCredit, hzero]
        · simp [credit, applied, positionCredit, entryCredit, hzero]
  | findProxy k bytes =>
      rw [hpos] at hstep
      simp only [hok, if_true] at hstep
      split at hstep
      · rename_i hnone
        cases hstep
        have hrows : db.links.keyRows today k = [] := by simp [Links.keyRows, Db.links, hnone]
        rw [hcredit, hpos, credit_position]
        simp [applied, positionCredit, hrows]
      · rename_i proxy hproxy
        cases hstep
        have hrows : db.links.keyRows today k = (.proxy k.proxyId :: .daily k.proxyId today ::
            db.links.clientRows k proxy.userId) ++ db.links.nodeRows proxy.nodeId := by
          simp [Links.keyRows, Db.links, hproxy]
        rw [hcredit, hpos]
        simp only [credit, positionCredit, applied, hrows, rowsCredit_append, add_zero,
          sumOver_addNodeTraffic _ _ hw]
        abel
  | updateProxy k bytes proxy =>
      simp only [Flush.Consistent, hpos] at hc
      obtain ⟨hid, hlink⟩ := hc
      have hfind : (db.proxies.find proxy.id).isSome = true := by
        have hsome : ((db.proxies.find k.proxyId).map fun p ↦ (p.nodeId, p.userId)).isSome = true :=
          Option.isSome_of_eq_some hlink
        rwa [Option.isSome_map, ← hid] at hsome
      rw [hpos] at hstep
      simp only [hok, hfind, and_self, if_true] at hstep
      cases hstep
      rw [hcredit, hpos, credit_position]
      simp only [positionCredit, applied, hid, rowsCredit_cons]
      abel
  | findClient k bytes directUserId =>
      rw [hpos] at hstep
      cases hstep
      rw [hcredit, hpos, credit_position]
      simp [applied, positionCredit]
  | upsertDaily k bytes directUserId client =>
      simp only [Flush.Consistent, hpos] at hc
      have hday : f.today = today := htoday (by simp [hpos])
      rw [hpos] at hstep
      simp only [hok, if_true] at hstep
      cases hstep
      rw [hcredit, hpos, credit_position, owner_credit w db.links today r k bytes directUserId hc]
      simp only [positionCredit, applied, hday, rowsCredit_cons]
      abel
  | findUser id bytes =>
      rw [hpos] at hstep
      simp only [hok, if_true] at hstep
      rw [hcredit, hpos]
      split at hstep
      · rename_i hnone
        cases hstep
        have hhas : db.links.has (.user id) = false := by simp [Links.has_eq, hnone]
        simp [credit, applied, positionCredit, rowsCredit_accountRows_none w db.links r hhas]
      · cases hstep
        simp [credit, applied, positionCredit, Links.resumeRows]
  | nextNode =>
      rw [hpos] at hstep
      simp only at hstep
      rw [hcredit, hpos]
      split at hstep
      · cases hstep
        simp [credit, applied, positionCredit]
      · rename_i id bytes he
        cases hstep
        have hlookup : f.nodeTraffic.lookup id = some bytes :=
          AList.mem_lookup_iff.mpr (List.mem_of_getElem? he)
        rw [← AList.sumOver_erase_of_lookup (nodeCredit w db.links r) hlookup]
        simp only [credit, positionCredit, applied, nodeCredit]
        abel
  | findNode id bytes =>
      rw [hpos] at hstep
      simp only [hok, if_true] at hstep
      rw [hcredit, hpos]
      split at hstep
      · rename_i hnone
        cases hstep
        have hhas : db.links.has (.node id) = false := by simp [Links.has_eq, hnone]
        simp [credit, applied, positionCredit, rowsCredit_accountRows_none w db.links r hhas]
      · cases hstep
        simp [credit, applied, positionCredit, Links.resumeRows]
  | updateAccount a plan read bytes next =>
      simp only [Flush.Consistent, hpos] at hc
      rw [hpos] at hstep
      obtain ⟨position, hposition, heq⟩ := updateAccount_of_ok f plan read bytes next
        ⟨hok, (Links.has_eq db a).symm.trans hc⟩
      have hstep := heq.symm.trans (Option.some.inj hstep)
      cases hstep
      have hnext : positionCredit w db.links today r position =
          rowsCredit w r (db.links.resumeRows next) next.bytes := by
        rcases hposition with rfl | rfl
        · rfl
        · exact rowsCredit_resume w db.links today r next
      rw [hcredit, hpos, credit_position, hnext]
      simp only [positionCredit, applied, rowsCredit_accountRows w db.links r hc]
      abel
  | refindAccount a next =>
      rw [hpos] at hstep
      simp only at hstep
      rw [hcredit, hpos]
      split_ifs at hstep <;> cases hstep
      · simp [credit, applied, positionCredit]
      · rw [credit_position, rowsCredit_resume]
        simp [applied, positionCredit]
  | markAccount a next =>
      rw [hpos] at hstep
      cases hstep
      rw [hcredit, hpos, credit_position, rowsCredit_resume]
      simp [applied, positionCredit]
  | done =>
      rw [hpos] at hstep
      cases hstep

end Settle

end Oxiproxy.Controller
