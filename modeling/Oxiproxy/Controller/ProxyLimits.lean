import Oxiproxy.Controller.PortRanges
import Oxiproxy.Foundation.Runs

/-!
# Limits on the number of proxies

A node has a limit of enabled proxies and a user one of proxies.  The handlers
compare each limit with the count before they write, as if they were about to
add one proxy.  The limits are kept as long as there is room for all the
proxies that a request adds or enables.
-/

namespace Oxiproxy.Controller

open Transition Deployment

/-! ## Counting rows -/

section Counting

variable {α : Type*} {R : α → α → Prop} {p q : α → Bool} {l l' : List α}

/-- A row that is counted comes from one that is counted, and no two rows come
from the same one. -/
theorem length_filter_le_of_sublistForall₂ (h : List.SublistForall₂ R l' l)
    (hR : ∀ a b, R a b → p a = true → q b = true) :
    (l'.filter p).length ≤ (l.filter q).length := by
  induction h with
  | nil => exact Nat.zero_le _
  | @cons a b l₁ l₂ hab _ ih =>
      cases hp : p a with
      | true =>
          rw [List.filter_cons_of_pos hp, List.filter_cons_of_pos (hR a b hab hp)]
          exact Nat.succ_le_succ ih
      | false =>
          rw [List.filter_cons_of_neg (by rw [hp]; exact Bool.false_ne_true)]
          exact ih.trans ((List.sublist_cons_self b l₂).filter q).length_le
  | @cons_right b l₁ l₂ _ ih =>
      exact ih.trans ((List.sublist_cons_self b l₂).filter q).length_le

theorem length_filter_or_le (l : List α) :
    (l.filter fun a ↦ p a || q a).length ≤
      (l.filter p).length + (l.filter fun a ↦ !p a && q a).length := by
  induction l with
  | nil => exact le_rfl
  | cons a l ih =>
      cases hp : p a <;> cases hq : q a <;> simp only [List.filter_cons, hp, hq] <;>
        simp only [Bool.or_false, Bool.or_true, Bool.not_false, Bool.not_true, Bool.and_true,
          Bool.and_false, if_true, if_false, Bool.false_eq_true, List.length_cons] <;> omega

end Counting

/-! ## The limits -/

/-- The enabled proxies of a node. -/
def nodeLoad (db : Db) (nodeId : ℤ) : ℕ :=
  (db.proxies.rows.filter fun p ↦ p.nodeId = some nodeId ∧ p.enabled = true).length

/-- A node may take so many further enabled proxies. -/
def NodeRoom (db : Db) (nodeId : ℤ) (n : ℕ) : Prop :=
  ∀ node, db.nodes.find nodeId = some node → ∀ maxCount, node.maxProxyCount = some maxCount →
    ((nodeLoad db nodeId + n : ℕ) : ℤ) ≤ maxCount

/-- A user who is no administrator may have so many further proxies. -/
def UserRoom (db : Db) (userId : ℤ) (n : ℕ) : Prop :=
  ∀ user, db.users.find userId = some user → user.isAdmin = false →
    ∀ maxCount, user.maxPortCount = some maxCount →
      ((getUserPortCount db userId + n : ℕ) : ℤ) ≤ maxCount

/-- Every node has at most `max_proxy_count` enabled proxies, and every user who
is no administrator at most `max_port_count` proxies. -/
structure LimitsKept (db : Db) : Prop where
  node : ∀ nodeId, NodeRoom db nodeId 0
  user : ∀ userId, UserRoom db userId 0

/-- The limits are `i64` values and not negative, and ids start at one. -/
structure LimitsValid (db : Db) : Prop where
  node : ∀ node ∈ db.nodes.rows, ∀ maxCount, node.maxProxyCount = some maxCount →
    0 ≤ maxCount ∧ maxCount < 2 ^ 63
  user : ∀ user ∈ db.users.rows, ∀ maxCount, user.maxPortCount = some maxCount →
    0 ≤ maxCount ∧ maxCount < 2 ^ 63
  ids : ∀ p ∈ db.proxies.rows, 0 < p.id

/-- There is room for several ports of one client. -/
def PortsRoom (db : Db) (clientId : String) (nodeId : Option ℤ) (n : ℕ) : Prop :=
  (∀ id, nodeId = some id → NodeRoom db id n) ∧
    ∀ id client userId, parseI64 clientId = some id → db.clients.find id = some client →
      client.userId = some userId → UserRoom db userId n

/-- There is room for all the proxies that a request adds or enables, where the
handler does not look. -/
def HasRoom (db : Db) : ProxyRequest → Prop
  | .batchCreate req => PortsRoom db req.clientId req.nodeId req.remotePorts.length
  | .addPorts groupId req =>
      ∀ template, db.proxies.rows.find? (·.groupId == some groupId) = some template →
        PortsRoom db (template.clientId.getD "") template.nodeId req.remotePorts.length
  | .update id req =>
      ∀ row nodeId, db.proxies.find id = some row → row.clientId.isSome = true →
        row.enabled = false → req.enabled = some true →
          req.remotePort.getD row.remotePort = row.remotePort → row.nodeId = some nodeId →
            NodeRoom db nodeId 1
  | .toggleGroup groupId true =>
      ∀ nodeId, NodeRoom db nodeId (db.proxies.rows.filter fun p ↦
        p.nodeId = some nodeId ∧ p.enabled = false ∧ p.groupId = some groupId).length
  | _ => True

section Limits

variable {parse : UrlParser} {render : Url → String} {env : HandlerEnv} {auth : AuthUser}
  {d d' : Deployment} {db db₀ : Db} {nodeId userId : ℤ} {may : ℤ → Bool}

theorem lt_asU64 {n : ℕ} {limit : ℤ} (h : n < asU64 limit) (hlimit : 0 ≤ limit ∧ limit < 2 ^ 63) :
    ((n + 1 : ℕ) : ℤ) ≤ limit := by
  unfold asU64 at h
  omega

/-- The check of a node leaves room for one more enabled proxy, if the excluded
one is not enabled. -/
theorem nodeRoom_one {port : UInt16} {exclude : ℤ} (hvalid : LimitsValid db)
    (hexclude : ∀ p ∈ db.proxies.rows, p.id = exclude → p.enabled = false)
    (h : validateNodeProxyLimitExcluding db nodeId port exclude = .ok ()) :
    NodeRoom db nodeId 1 := by
  intro node hnode maxCount hmax
  obtain ⟨checked, hchecked, -, hcount⟩ := validateNodeProxyLimitExcluding_ok h
  obtain rfl := Option.some.inj (hchecked.symm.trans hnode)
  have hsame : nodeProxyCount db nodeId exclude = nodeLoad db nodeId := by
    unfold nodeProxyCount nodeLoad
    refine congrArg List.length (List.filter_congr fun p hp ↦ decide_eq_decide.mpr ?_)
    refine and_congr_right fun _ ↦ and_iff_left_of_imp fun henabled hid ↦ ?_
    rw [hexclude p hp hid] at henabled
    cases henabled
  rw [← hsame]
  exact lt_asU64 (hcount maxCount hmax)
    (hvalid.node checked (Table.find_eq_some.mp hchecked).1 maxCount hmax)

theorem userRoom_one {port : UInt16} (hvalid : LimitsValid db)
    (h : (validateUserPortLimit db userId port).1 = true) : UserRoom db userId 1 := by
  intro user huser _ maxCount hmax
  obtain ⟨checked, hchecked, -, hcount⟩ := validateUserPortLimit_ok h
  obtain rfl := Option.some.inj (hchecked.symm.trans huser)
  exact lt_asU64 (hcount maxCount hmax)
    (hvalid.user checked (Table.find_eq_some.mp hchecked).1 maxCount hmax)

/-- The proxies that count towards the limit of a user. -/
def countsFor (db : Db) (userId : ℤ) (p : Proxy) : Bool :=
  match p.clientId with
  | some clientId =>
      ((db.clients.rows.filter (·.userId = some userId)).map (toString ·.id)).contains clientId
  | none => p.userId = some userId

theorem getUserPortCount_eq (db : Db) (userId : ℤ) :
    getUserPortCount db userId = (db.proxies.rows.filter (countsFor db userId)).length := rfl

theorem countsFor_owner {p : Proxy} {clientId : String} {id : ℤ} {client : Client}
    (hcounts : countsFor db userId p = true) (hclientId : p.clientId = some clientId)
    (hid : parseI64 clientId = some id) (hclient : db.clients.find id = some client) :
    client.userId = some userId := by
  unfold countsFor at hcounts
  rw [hclientId] at hcounts
  simp only [List.contains_iff_mem, List.mem_map, List.mem_filter, decide_eq_true_eq] at hcounts
  obtain ⟨other, ⟨hother, howner⟩, rfl⟩ := hcounts
  have hfind : db.clients.find other.id = some other := Table.mem_iff_find.mp hother
  rw [eq_of_parseI64_toString hid, hfind] at hclient
  obtain rfl := Option.some.inj hclient
  exact howner

/-! ## Handlers that insert no row -/

/-- The row comes from another, and it is enabled only if that one was or may be. -/
def ComesFrom (may : ℤ → Bool) (p q : Proxy) : Prop :=
  p.place = q.place ∧ (p.enabled = true → q.enabled = true ∨ may q.id = true)

instance : Std.Refl (ComesFrom may) := ⟨fun _ ↦ ⟨rfl, Or.inl⟩⟩

instance : IsTrans Proxy (ComesFrom may) where
  trans a b c hab hbc := by
    refine ⟨hab.1.trans hbc.1, fun ha ↦ ?_⟩
    have hid : b.id = c.id := congrArg Prod.fst hbc.1
    rcases hab.2 ha with hb | hb
    · exact hbc.2 hb
    · exact Or.inr (hid ▸ hb)

/-- Users, clients and nodes are those of the database, and all rows come from
its rows. -/
structure Unextended (may : ℤ → Bool) (db₀ db : Db) : Prop where
  users : db.users = db₀.users
  clients : db.clients = db₀.clients
  nodes : db.nodes = db₀.nodes
  rows : List.SublistForall₂ (ComesFrom may) db.proxies.rows db₀.proxies.rows

theorem Unextended.refl (may : ℤ → Bool) (db : Db) : Unextended may db db :=
  ⟨rfl, rfl, rfl, refl_of (List.SublistForall₂ (ComesFrom may)) db.proxies.rows⟩

theorem comesFrom_modify (t : Table Proxy) (id : ℤ) (active : ActiveProxy)
    (hactive : ∀ p ∈ t.rows, p.id = id → (active.set p).enabled = true →
      p.enabled = true ∨ may p.id = true) :
    List.SublistForall₂ (ComesFrom may) (t.modify id active.set active.key_set).rows t.rows := by
  change List.SublistForall₂ _ (t.rows.map _) _
  rw [List.sublistForall₂_map_left_iff, List.sublistForall₂_iff]
  refine ⟨t.rows, List.forall₂_same.mpr fun p hp ↦ ?_, List.Sublist.refl _⟩
  split_ifs with hid
  · exact ⟨active.place_set p, hactive p hp hid⟩
  · exact refl_of (ComesFrom may) p

theorem exists_of_mem_sublistForall₂ {α : Type*} {R : α → α → Prop} {l l' : List α}
    (h : List.SublistForall₂ R l' l) {a : α} (ha : a ∈ l') : ∃ b ∈ l, R a b := by
  obtain ⟨m, hm, hsub⟩ := List.sublistForall₂_iff.mp h
  obtain ⟨i, hi, rfl⟩ := List.getElem_of_mem ha
  have hlen : i < m.length := hm.length_eq ▸ hi
  exact ⟨m[i], hsub.subset (List.getElem_mem hlen), (List.forall₂_iff_get.mp hm).2 i hi hlen⟩

/-- What a request that inserts no row leaves has room, if what it may enable has. -/
theorem Unextended.limitsKept (h : Unextended may db₀ db) (hkept : LimitsKept db₀)
    (hroom : ∀ nodeId, NodeRoom db₀ nodeId (db₀.proxies.rows.filter fun p ↦
      p.nodeId = some nodeId ∧ p.enabled = false ∧ may p.id = true).length) : LimitsKept db where
  node nodeId node hnode maxCount hmax := by
    rw [h.nodes] at hnode
    have hload : nodeLoad db nodeId ≤ nodeLoad db₀ nodeId + (db₀.proxies.rows.filter fun p ↦
        p.nodeId = some nodeId ∧ p.enabled = false ∧ may p.id = true).length := by
      have hfrom : ∀ p q : Proxy, ComesFrom may p q →
          decide (p.nodeId = some nodeId ∧ p.enabled = true) = true →
            (decide (q.nodeId = some nodeId ∧ q.enabled = true) ||
              decide (q.nodeId = some nodeId ∧ may q.id = true)) = true := by
        intro p q hpq hp
        obtain ⟨hnodeId, henabled⟩ := of_decide_eq_true hp
        have hplace : p.nodeId = q.nodeId := congrArg (·.2.2.2.1) hpq.1
        rw [hplace] at hnodeId
        rw [Bool.or_eq_true, decide_eq_true_eq, decide_eq_true_eq]
        exact (hpq.2 henabled).imp (⟨hnodeId, ·⟩) (⟨hnodeId, ·⟩)
      refine (length_filter_le_of_sublistForall₂ h.rows hfrom).trans
        ((length_filter_or_le _).trans (Nat.add_le_add_left (le_of_eq ?_) _))
      refine congrArg List.length (List.filter_congr fun p _ ↦ ?_)
      rw [Bool.eq_iff_iff, Bool.and_eq_true, Bool.not_eq_true', decide_eq_false_iff_not,
        decide_eq_true_eq, decide_eq_true_eq]
      cases p.enabled with
      | true =>
          simp only [and_true, Bool.true_eq_false, false_and, and_false, iff_false]
          exact fun h ↦ h.1 h.2.1
      | false => simp
    exact (Int.ofNat_le.mpr hload).trans (hroom nodeId node hnode maxCount hmax)
  user userId user huser hadmin maxCount hmax := by
    rw [h.users] at huser
    have hcount : getUserPortCount db userId ≤ getUserPortCount db₀ userId := by
      rw [getUserPortCount_eq, getUserPortCount_eq]
      refine length_filter_le_of_sublistForall₂ h.rows fun p q hpq hp ↦ ?_
      have hclient : p.clientId = q.clientId := congrArg (·.2.1) hpq.1
      have hown : p.userId = q.userId := congrArg (·.2.2.1) hpq.1
      unfold countsFor at hp ⊢
      rwa [hclient, hown, h.clients] at hp
    exact (Int.ofNat_le.mpr hcount).trans (hkept.user userId user huser hadmin maxCount hmax)

theorem Unextended.limitsKept_of_enabled (h : Unextended (fun _ ↦ false) db₀ db)
    (hkept : LimitsKept db₀) : LimitsKept db := by
  refine h.limitsKept hkept fun nodeId ↦ ?_
  have hnone : (db₀.proxies.rows.filter fun p ↦
      decide (p.nodeId = some nodeId ∧ p.enabled = false ∧ false = true)) = [] :=
    List.filter_eq_nil_iff.mpr fun p _ hp ↦ Bool.false_ne_true (of_decide_eq_true hp).2.2
  rw [hnone]
  exact hkept.node nodeId

theorem Unextended.limitsValid (h : Unextended may db₀ db) (hvalid : LimitsValid db₀) :
    LimitsValid db where
  node := by
    rw [h.nodes]
    exact hvalid.node
  user := by
    rw [h.users]
    exact hvalid.user
  ids p hp := by
    obtain ⟨q, hq, hplace, -⟩ := exists_of_mem_sublistForall₂ h.rows hp
    rw [show p.id = q.id from congrArg Prod.fst hplace]
    exact hvalid.ids q hq

/-- Updates of rows that are `mine` enable only what may be enabled. -/
theorem unextended_rules (env : HandlerEnv) (mine may : ℤ → Bool) (db₀ : Db) :
    Rules env (fun d ↦ Unextended may db₀ d.db) (fun _ id ↦ mine id = true) (fun _ ↦ False)
      (fun active ↦ ∀ p, mine p.id = true → (active.set p).enabled = true →
        p.enabled = true ∨ may p.id = true) where
  insert _ hrow _ := hrow.elim
  update {d d' id active result} hd hmine hactive h := by
    refine ⟨?_, fun _ h ↦ h⟩
    rcases updateProxy_cases h with ⟨e, rfl, rfl⟩ | ⟨row, hrow, rfl, -, rfl⟩
    · exact hd
    · refine ⟨hd.users, hd.clients, hd.nodes, ?_⟩
      refine trans_of (List.SublistForall₂ (ComesFrom may))
        (comesFrom_modify d.db.proxies id active fun p _ hid ↦ hactive p ?_) hd.rows
      rw [hid]
      exact hmine
  delete {d d' id result} hd _ h := by
    refine ⟨?_, fun _ h ↦ h⟩
    rcases deleteProxy_cases h with ⟨e, -, rfl, rfl⟩ | ⟨rfl, rfl⟩
    · exact hd
    · exact ⟨hd.users, hd.clients, hd.nodes, trans_of (List.SublistForall₂ (ComesFrom may))
        (List.filter_sublist.sublistForall₂) hd.rows⟩
  command {d d'} hd h := by
    refine ⟨?_, fun _ h ↦ h⟩
    rw [h.db]
    exact hd

/-! ## Handlers that insert rows -/

/-- Users, clients and nodes are those of the database, and rows have been added. -/
structure Extended (db₀ : Db) (news : List Proxy) (db : Db) : Prop where
  users : db.users = db₀.users
  clients : db.clients = db₀.clients
  nodes : db.nodes = db₀.nodes
  rows : db.proxies.rows = db₀.proxies.rows ++ news

variable {news rows : List Proxy}

theorem Extended.limitsKept (h : Extended db₀ news db) (hkept : LimitsKept db₀)
    (hnode : ∀ p ∈ news, ∀ nodeId, p.nodeId = some nodeId → NodeRoom db₀ nodeId news.length)
    (huser : ∀ p ∈ news, ∀ userId, countsFor db₀ userId p = true →
      UserRoom db₀ userId news.length) : LimitsKept db where
  node nodeId node hfind maxCount hmax := by
    rw [h.nodes] at hfind
    have hload : nodeLoad db nodeId = nodeLoad db₀ nodeId + (news.filter fun p ↦
        p.nodeId = some nodeId ∧ p.enabled = true).length := by
      rw [nodeLoad, h.rows, List.filter_append, List.length_append]
      rfl
    cases hnews : news.filter fun p ↦ p.nodeId = some nodeId ∧ p.enabled = true with
    | nil =>
        rw [hnews] at hload
        rw [hload]
        exact hkept.node nodeId node hfind maxCount hmax
    | cons p ps =>
        have hp : p ∈ news.filter fun p ↦ p.nodeId = some nodeId ∧ p.enabled = true := by
          rw [hnews]
          exact List.mem_cons_self
        rw [List.mem_filter, decide_eq_true_eq] at hp
        have hle : nodeLoad db nodeId + 0 ≤ nodeLoad db₀ nodeId + news.length := by
          rw [hload]
          exact Nat.add_le_add_left List.filter_sublist.length_le _
        exact (Int.ofNat_le.mpr hle).trans (hnode p hp.1 nodeId hp.2.1 node hfind maxCount hmax)
  user userId user hfind hadmin maxCount hmax := by
    rw [h.users] at hfind
    have hsame : ∀ p, countsFor db userId p = countsFor db₀ userId p := by
      intro p
      unfold countsFor
      rw [h.clients]
    have hcount : getUserPortCount db userId = getUserPortCount db₀ userId +
        (news.filter (countsFor db₀ userId)).length := by
      rw [getUserPortCount_eq, getUserPortCount_eq, h.rows, funext hsame, List.filter_append,
        List.length_append]
    cases hnews : news.filter (countsFor db₀ userId) with
    | nil =>
        rw [hnews] at hcount
        rw [hcount]
        exact hkept.user userId user hfind hadmin maxCount hmax
    | cons p ps =>
        have hp : p ∈ news.filter (countsFor db₀ userId) := by
          rw [hnews]
          exact List.mem_cons_self
        rw [List.mem_filter] at hp
        have hle : getUserPortCount db userId + 0 ≤ getUserPortCount db₀ userId + news.length := by
          rw [hcount]
          exact Nat.add_le_add_left List.filter_sublist.length_le _
        exact (Int.ofNat_le.mpr hle).trans
          (huser p hp.1 userId hp.2 user hfind hadmin maxCount hmax)

theorem Extended.limitsValid (h : Extended db₀ news db) (hvalid : LimitsValid db₀)
    (hids : ∀ p ∈ news, 0 < p.id) : LimitsValid db where
  node := by
    rw [h.nodes]
    exact hvalid.node
  user := by
    rw [h.users]
    exact hvalid.user
  ids p hp := by
    rw [h.rows] at hp
    exact (List.mem_append.mp hp).elim (hvalid.ids p) (hids p)

theorem Extended.insertProxy {row proxy : Proxy} (hd : Extended db₀ news d.db)
    (h : d.insertProxy env row = (d', .ok proxy)) :
    Extended db₀ (news ++ [proxy]) d'.db ∧ proxy = { row with id := proxy.id } ∧ 0 < proxy.id := by
  rcases insertProxy_cases h with ⟨e, herror, -⟩ | ⟨inserted, hinserted, hok, -, -, hfresh, rfl⟩
  · cases herror
  · obtain rfl := Except.ok.inj hok
    refine ⟨⟨hd.users, hd.clients, hd.nodes, ?_⟩, ?_, ?_⟩
    · change d.db.proxies.rows ++ [proxy] = _
      rw [hd.rows, List.append_assoc]
    · rw [hinserted]
    · rw [hinserted]
      exact env.newId_pos _

/-- When all rows have been created, they are the rows that were added. -/
theorem createEach_ok {clientId startError : String} {created all : List Proxy}
    (hd : Extended db₀ news d.db)
    (h : createEach parse env clientId startError d created rows = (d', .ok all)) :
    ∃ added, Extended db₀ (news ++ added) d'.db ∧ added.length = rows.length ∧
      ∀ p ∈ added, 0 < p.id ∧ ∃ row ∈ rows, p = { row with id := p.id } := by
  induction rows generalizing d news created with
  | nil =>
      cases h
      refine ⟨[], ?_, rfl, fun p hp ↦ (by cases hp)⟩
      rwa [List.append_nil]
  | cons row rows ih =>
      unfold createEach at h
      split at h
      · cases h
      · rename_i d₁ proxy hinsert
        obtain ⟨hd₁, hrow, hpos⟩ := hd.insertProxy hinsert
        split at h
        · rename_i d₂ hstart
          have hd₂ : Extended db₀ (news ++ [proxy]) d₂.db := by
            rw [(startProxy_sameData hstart).db]
            exact hd₁
          obtain ⟨added, hextended, hlen, hadded⟩ := ih hd₂ h
          refine ⟨proxy :: added, ?_, congrArg Nat.succ hlen, ?_⟩
          · rwa [List.append_assoc] at hextended
          · intro p hp
            rcases List.mem_cons.mp hp with rfl | hp
            · exact ⟨hpos, row, List.mem_cons_self, hrow⟩
            · obtain ⟨hp₀, other, hother, hpo⟩ := hadded p hp
              exact ⟨hp₀, other, List.mem_cons_of_mem row hother, hpo⟩
        · cases h

/-- The ports of one client are added within its room. -/
theorem ports_limits {clientId startError : String} {nodeId : Option ℤ}
    {remotePorts : List UInt16} {all : List Proxy} {client : Client}
    (hkept : LimitsKept d.db) (hvalid : LimitsValid d.db)
    (hallowed : PortsAllowed d auth clientId nodeId remotePorts client)
    (hroom : PortsRoom d.db clientId nodeId remotePorts.length)
    (hlen : rows.length = remotePorts.length)
    (hrows : ∀ row ∈ rows, row.clientId = some clientId ∧ row.nodeId = nodeId)
    (h : createEach parse env clientId startError d [] rows = (d', .ok all)) :
    LimitsKept d'.db ∧ LimitsValid d'.db := by
  have hstart : Extended d.db [] d.db := ⟨rfl, rfl, rfl, (List.append_nil _).symm⟩
  obtain ⟨added, hextended, hadded, hfrom⟩ := createEach_ok hstart h
  rw [List.nil_append] at hextended
  rw [hlen] at hadded
  obtain ⟨id, hid, hclient⟩ := hallowed.parsed
  refine ⟨hextended.limitsKept hkept (fun p hp i hi ↦ ?_) fun p hp userId hcounts ↦ ?_,
    hextended.limitsValid hvalid fun p hp ↦ (hfrom p hp).1⟩
  · obtain ⟨-, row, hrow, hsame⟩ := hfrom p hp
    rw [hadded]
    refine hroom.1 i ?_
    rw [← (hrows row hrow).2, ← hi, hsame]
  · obtain ⟨-, row, hrow, hsame⟩ := hfrom p hp
    have hclientId : p.clientId = some clientId := by rw [hsame, (hrows row hrow).1]
    rw [hadded]
    exact hroom.2 id client userId hid hclient (countsFor_owner hcounts hclientId hid hclient)

theorem createProxy_ok {req : CreateProxyRequest} {proxy : Proxy}
    (h : createProxy parse render env auth d req = (d', .ok proxy)) :
    ∃ row, createProxyChecks parse render env d auth req = .ok row ∧
      Extended d.db [proxy] d'.db ∧ proxy = { row with id := proxy.id } ∧ 0 < proxy.id := by
  unfold createProxy at h
  split at h
  · cases h
  · rename_i row hchecks
    split at h
    · cases h
    · rename_i d₁ inserted hinsert
      have hstart : Extended d.db [] d.db := ⟨rfl, rfl, rfl, (List.append_nil _).symm⟩
      obtain ⟨hd₁, hrow, hpos⟩ := hstart.insertProxy hinsert
      split at h
      · rename_i d₂ hsent
        cases h
        refine ⟨row, hchecks, ?_, hrow, hpos⟩
        rw [(startProxy_sameData hsent).db]
        exact hd₁
      · cases h

theorem CreateAllowed.limits {row proxy : Proxy} (hallowed : CreateAllowed d auth row)
    (hadmin : auth.isAdmin = false) (hkept : LimitsKept d.db) (hvalid : LimitsValid d.db)
    (hsame : proxy = { row with id := proxy.id }) (hpos : 0 < proxy.id) {db : Db}
    (h : Extended d.db [proxy] db) : LimitsKept db ∧ LimitsValid db := by
  refine ⟨h.limitsKept hkept (fun p hp nodeId hnodeId ↦ ?_) fun p hp userId hcounts ↦ ?_,
    h.limitsValid hvalid fun p hp ↦ ?_⟩
  · obtain rfl := List.mem_singleton.mp hp
    have hnode : row.nodeId = some nodeId := by rw [← hnodeId, hsame]
    refine nodeRoom_one hvalid (fun q hq hid ↦ ?_) (hallowed.nodeLimit nodeId hnode)
    have hq := hvalid.ids q hq
    omega
  · obtain rfl := List.mem_singleton.mp hp
    have howner : userId = auth.id := by
      rcases hallowed.owner with ⟨hnone, huser⟩ | ⟨clientId, id, client, hclientId, hid, hfind, hown⟩
      · have hclient : p.clientId = none := by rw [hsame, hnone]
        have huserId : p.userId = some auth.id := by rw [hsame, huser]
        unfold countsFor at hcounts
        rw [hclient, huserId] at hcounts
        exact (Option.some.inj (of_decide_eq_true hcounts)).symm
      · have hclient : p.clientId = some clientId := by rw [hsame, hclientId]
        have hcounted := countsFor_owner hcounts hclient hid hfind
        exact Option.some.inj (hcounted.symm.trans (hown hadmin))
    rw [howner]
    exact userRoom_one hvalid (hallowed.userLimit hadmin)
  · rwa [List.mem_singleton.mp hp]

/-! ## Requests -/

theorem NodeRoom.mono {m n : ℕ} (h : NodeRoom db nodeId n) (hmn : m ≤ n) : NodeRoom db nodeId m := by
  intro node hnode maxCount hmax
  exact (Int.ofNat_le.mpr (Nat.add_le_add_left hmn _)).trans (h node hnode maxCount hmax)

theorem answer_ok {α : Type} {response : Deployment × Except ApiError α}
    (h : answer response = (d', .ok ())) : ∃ a, response = (d', .ok a) := by
  obtain ⟨d₁, result⟩ := response
  cases result with
  | error e => cases h
  | ok a =>
      cases h
      exact ⟨a, rfl⟩

theorem updateProxy_limits {id : ℤ} {req : UpdateProxyRequest} {updated : Proxy}
    (hkept : LimitsKept d.db) (hvalid : LimitsValid d.db) (hroom : HasRoom d.db (.update id req))
    (h : updateProxy parse render env auth d id req = (d', .ok updated)) :
    LimitsKept d'.db ∧ LimitsValid d'.db := by
  obtain ⟨plan, d₁, hchecks, hset, hdb⟩ := updateProxy_ok h
  have hallowed := updateProxyChecks_ok hchecks
  rw [hdb]
  rcases updateProxy_cases hset with ⟨e, herror, -⟩ | ⟨row, hrow, -, -, rfl⟩
  · cases herror
  obtain rfl := Option.some.inj (hallowed.found.symm.trans hrow)
  have honly : ∀ p ∈ d.db.proxies.rows, p.id = id → p = plan.original := by
    intro p hp hid
    have hfind : d.db.proxies.find id = some p := Table.find_eq_some.mpr ⟨hp, hid⟩
    exact Option.some.inj (hfind.symm.trans hrow)
  have hunextended : ∀ may : ℤ → Bool,
      ((req.enabled.getD plan.original.enabled) = true →
        plan.original.enabled = true ∨ may id = true) →
      Unextended may d.db { d.db with
        proxies := d.db.proxies.modify id (plan.active req env.now).set
          (plan.active req env.now).key_set } := by
    intro may hmay
    refine ⟨rfl, rfl, rfl, comesFrom_modify d.db.proxies id _ fun p hp hid henabled ↦ ?_⟩
    obtain rfl := honly p hp hid
    rw [hid]
    exact hmay henabled
  by_cases henabling : plan.original.enabled = false ∧ req.enabled = some true
  · -- The only row that may be enabled is the one that is updated.
    have hone := hunextended (· == id) fun _ ↦ Or.inr (beq_self_eq_true id)
    refine ⟨hone.limitsKept hkept fun nodeId ↦ ?_, hone.limitsValid hvalid⟩
    have hdisabled : ∀ p ∈ d.db.proxies.rows, p.id = id → p.enabled = false := by
      intro p hp hid
      rw [honly p hp hid]
      exact henabling.1
    have hcount : (d.db.proxies.rows.filter fun p ↦
        p.nodeId = some nodeId ∧ p.enabled = false ∧ (p.id == id) = true).length ≤ 1 := by
      have hkey := congrArg List.length (Table.rows_filter_key d.db.proxies id)
      rw [hrow] at hkey
      refine (List.Sublist.length_le (List.monotone_filter_right _ fun p hp ↦ ?_)).trans hkey.le
      obtain ⟨-, -, hid⟩ := of_decide_eq_true hp
      exact decide_eq_true (beq_iff_eq.mp hid)
    by_cases hnode : plan.original.nodeId = some nodeId
    · refine NodeRoom.mono ?_ hcount
      cases hbound : plan.original.clientId with
      | none =>
          have hlimit := hallowed.directLimit hbound henabling.1 henabling.2
          rw [hnode, Option.getD_some] at hlimit
          exact nodeRoom_one hvalid hdisabled hlimit
      | some clientId =>
          by_cases hport : req.remotePort.getD plan.original.remotePort = plan.original.remotePort
          · exact hroom plan.original nodeId hrow (by rw [hbound]; rfl) henabling.1 henabling.2
              hport hnode
          · exact nodeRoom_one hvalid hdisabled (hallowed.nodeLimit hport nodeId hnode)
    · refine (hkept.node nodeId).mono (le_of_eq (List.length_eq_zero_iff.mpr ?_))
      refine List.filter_eq_nil_iff.mpr fun p hp hcounted ↦ ?_
      obtain ⟨hnodeId, -, hid⟩ := of_decide_eq_true hcounted
      rw [honly p hp (beq_iff_eq.mp hid)] at hnodeId
      exact hnode hnodeId
  · have hnone := hunextended (fun _ ↦ false) fun henabled ↦ by
      cases hold : plan.original.enabled with
      | true => exact Or.inl rfl
      | false =>
          cases hreq : req.enabled with
          | none =>
              rw [hreq, hold] at henabled
              cases henabled
          | some enabled =>
              rw [hreq] at henabled
              exact (henabling ⟨hold, by rw [hreq, show enabled = true from henabled]⟩).elim
    exact ⟨hnone.limitsKept_of_enabled hkept, hnone.limitsValid hvalid⟩

theorem toggleProxyGroup_limits {groupId : String} (hkept : LimitsKept d.db)
    (hvalid : LimitsValid d.db) (hroom : HasRoom d.db (.toggleGroup groupId true)) :
    LimitsKept (toggleProxyGroup parse env auth d groupId true).1.db ∧
      LimitsValid (toggleProxyGroup parse env auth d groupId true).1.db := by
  let inGroup : ℤ → Bool := fun id ↦ d.db.proxies.rows.any fun p ↦
    p.id = id ∧ p.groupId = some groupId
  have hmine : Rules.MineInGroup (fun _ id ↦ inGroup id = true) env auth d groupId := by
    intro first rest hverify p hp
    rw [← (verifyProxyGroupOwnership_ok hverify).1] at hp
    obtain ⟨hmem, hgroup⟩ := List.mem_filter.mp hp
    exact List.any_eq_true.mpr ⟨p, hmem, decide_eq_true ⟨rfl, beq_iff_eq.mp hgroup⟩⟩
  have hunextended : Unextended inGroup d.db (toggleProxyGroup parse env auth d groupId true).1.db :=
    (unextended_rules env inGroup inGroup d.db).toggleProxyGroup (Unextended.refl inGroup d.db)
      hmine fun p hp _ ↦ Or.inr hp
  refine ⟨hunextended.limitsKept hkept fun nodeId ↦ ?_, hunextended.limitsValid hvalid⟩
  refine (hroom nodeId).mono (le_of_eq (congrArg List.length (List.filter_congr fun p hp ↦ ?_)))
  refine decide_eq_decide.mpr (and_congr_right fun _ ↦ and_congr_right fun _ ↦ ?_)
  rw [List.any_eq_true]
  constructor
  · rintro ⟨q, hq, hsame⟩
    obtain ⟨hid, hgroup⟩ := of_decide_eq_true hsame
    have hfind : d.db.proxies.find p.id = some p := Table.mem_iff_find.mp hp
    have hfind' : d.db.proxies.find p.id = some q := Table.find_eq_some.mpr ⟨hq, hid⟩
    obtain rfl := Option.some.inj (hfind.symm.trans hfind')
    exact hgroup
  · exact fun hgroup ↦ ⟨p, hp, decide_eq_true ⟨rfl, hgroup⟩⟩

/-- A request of a user that succeeds keeps the limits if there is room. -/
theorem handleProxy_limits {request : ProxyRequest} (hadmin : auth.isAdmin = false)
    (hkept : LimitsKept d.db) (hvalid : LimitsValid d.db) (hroom : HasRoom d.db request)
    (h : handleProxy parse render env auth d request = (d', .ok ())) :
    LimitsKept d'.db ∧ LimitsValid d'.db := by
  have hd' : d' = (handleProxy parse render env auth d request).1 := by rw [h]
  -- Requests that enable nothing and insert nothing.
  have hrules := unextended_rules env (fun _ ↦ true) (fun _ ↦ false) d.db
  have hrefl := Unextended.refl (fun _ ↦ false) d.db
  have hmine : ∀ groupId, Rules.MineInGroup (fun _ _ ↦ true = true) env auth d groupId :=
    fun _ _ _ _ _ _ ↦ rfl
  have hquiet : Unextended (fun _ ↦ false) d.db d'.db → LimitsKept d'.db ∧ LimitsValid d'.db :=
    fun h ↦ ⟨h.limitsKept_of_enabled hkept, h.limitsValid hvalid⟩
  cases request with
  | create req =>
      obtain ⟨proxy, hcreate⟩ := answer_ok h
      obtain ⟨row, hchecks, hextended, hsame, hpos⟩ := createProxy_ok hcreate
      exact (createProxyChecks_ok hchecks).limits hadmin hkept hvalid hsame hpos hextended
  | batchCreate req =>
      obtain ⟨all, hbatch⟩ := answer_ok h
      unfold batchCreateProxies at hbatch
      split at hbatch
      · cases hbatch
      · rename_i u hchecks
        obtain ⟨client, hallowed⟩ := batchCreateChecks_ok hchecks
        refine ports_limits hkept hvalid hallowed hroom ?_ (fun row hrow ↦ ?_) hbatch
        · rw [batchRows, List.length_map, List.length_zipIdx]
        · exact ⟨batchRows_clientId hrow, (batchRows_port hrow).1⟩
  | addPorts groupId req =>
      obtain ⟨all, hadd⟩ := answer_ok h
      unfold addPortsToProxyGroup at hadd
      split at hadd
      · cases hadd
      · rename_i template hchecks
        have htemplate : d.db.proxies.rows.find? (·.groupId == some groupId) = some template := by
          simp only [addPortsChecks, bind_eq_ok, pure, Except.pure, Except.ok.injEq] at hchecks
          obtain ⟨_, -, ⟨first, rest⟩, hverify, client, -, _, -, _, -, rfl⟩ := hchecks
          rw [← List.head?_filter, (verifyProxyGroupOwnership_ok hverify).1]
          rfl
        obtain ⟨-, -, -, client, hallowed⟩ := addPortsChecks_ok hchecks
        refine ports_limits hkept hvalid hallowed (hroom template htemplate) ?_ (fun row hrow ↦ ?_)
          hadd
        · rw [addedRows, List.length_map, List.length_zipIdx]
        · exact ⟨addedRows_clientId hrow, (addedRows_port hrow).1⟩
  | update id req =>
      obtain ⟨updated, hupdate⟩ := answer_ok h
      exact updateProxy_limits hkept hvalid hroom hupdate
  | toggleGroup groupId enabled =>
      cases enabled with
      | true =>
          rw [hd']
          exact toggleProxyGroup_limits hkept hvalid hroom
      | false =>
          refine hquiet (hd' ▸ hrules.toggleProxyGroup hrefl (hmine groupId) fun p _ henabled ↦ ?_)
          cases henabled
  | delete id => exact hquiet (hd' ▸ hrules.deleteProxy hrefl fun _ _ ↦ rfl)
  | deleteGroup groupId => exact hquiet (hd' ▸ hrules.deleteProxyGroup hrefl (hmine groupId))
  | updateGroup groupId req =>
      exact hquiet (hd' ▸ hrules.updateProxyGroup hrefl (hmine groupId) fun _ p _ henabled ↦
        Or.inl henabled)

end Limits

/-! ## Runs of requests -/

structure ProxyCall where
  env : HandlerEnv
  auth : AuthUser
  request : ProxyRequest

/-- One request that succeeds. -/
def proxyStep (parse : UrlParser) (render : Url → String) (d : Deployment) (call : ProxyCall) :
    Option Deployment :=
  match handle parse render call.env (some call.auth) d (.proxy call.request) with
  | (d, .ok ()) => some d
  | (_, .error _) => none

/-- Requests of users who are no administrators keep the limits of nodes and of
users, as long as there is room for what their handlers do not count. -/
theorem limits_kept (parse : UrlParser) (render : Url → String) (d d' : Deployment)
    (calls : List ProxyCall) (hvalid : LimitsValid d.db) (hkept : LimitsKept d.db)
    (hcalls : Within (proxyStep parse render)
      (fun d call ↦ call.auth.isAdmin = false ∧ HasRoom d.db call.request) d calls)
    (hrun : run (proxyStep parse render) d calls = some d') : LimitsKept d'.db := by
  have hstep : ∀ (d : Deployment) (call : ProxyCall) (d' : Deployment),
      LimitsKept d.db ∧ LimitsValid d.db →
        call.auth.isAdmin = false ∧ HasRoom d.db call.request →
          proxyStep parse render d call = some d' → LimitsKept d'.db ∧ LimitsValid d'.db := by
    rintro d call d' ⟨hkept, hvalid⟩ ⟨hadmin, hroom⟩ h
    unfold proxyStep at h
    split at h
    · rename_i d₁ hhandle
      cases h
      exact handleProxy_limits (d := { d with commands := [], written := [] }) hadmin hkept hvalid
        hroom hhandle
    · cases h
  exact (run_invariant hstep ⟨hkept, hvalid⟩ hcalls hrun).1

/-! ## Batches at both limits -/

/-- So many proxies fit on the node, and user 2 may have as many. -/
def limitedNode (limit : ℤ) : Deployment :=
  { sharedNode with
    db := { sharedNode.db with
      users := ⟨[{ (default : User) with id := 2, maxPortCount := some limit }],
        List.nodup_singleton _⟩
      nodes := ⟨[{ (default : Node) with
        id := 1, nodeType := "shared", maxProxyCount := some limit }], List.nodup_singleton _⟩ } }

section LimitedNode

variable {limit : ℤ}

theorem limitsValid_limitedNode (hlimit : 0 ≤ limit ∧ limit < 2 ^ 63) :
    LimitsValid (limitedNode limit).db where
  node node hnode maxCount hmax := by
    obtain rfl := List.mem_singleton.mp hnode
    obtain rfl := Option.some.inj hmax
    exact hlimit
  user user huser maxCount hmax := by
    obtain rfl := List.mem_singleton.mp huser
    obtain rfl := Option.some.inj hmax
    exact hlimit
  ids _ hp := (List.not_mem_nil hp).elim

/-- There is no proxy yet, so the limits leave room for as many as they say. -/
theorem nodeRoom_limitedNode (nodeId : ℤ) {n : ℕ} (hn : (n : ℤ) ≤ limit) :
    NodeRoom (limitedNode limit).db nodeId n := by
  intro node hnode maxCount hmax
  obtain rfl := List.mem_singleton.mp (Table.find_eq_some.mp hnode).1
  obtain rfl := Option.some.inj hmax
  have hload : nodeLoad (limitedNode limit).db nodeId = 0 := rfl
  rwa [hload, Nat.zero_add]

theorem userRoom_limitedNode (userId : ℤ) {n : ℕ} (hn : (n : ℤ) ≤ limit) :
    UserRoom (limitedNode limit).db userId n := by
  intro user huser _ maxCount hmax
  obtain rfl := List.mem_singleton.mp (Table.find_eq_some.mp huser).1
  obtain rfl := Option.some.inj hmax
  have hcount : getUserPortCount (limitedNode limit).db userId = 0 := rfl
  rwa [hcount, Nat.zero_add]

theorem limitsKept_limitedNode (hlimit : 0 ≤ limit) : LimitsKept (limitedNode limit).db :=
  ⟨fun nodeId ↦ nodeRoom_limitedNode nodeId hlimit, fun userId ↦ userRoom_limitedNode userId hlimit⟩

end LimitedNode

/-- User 2 opens these ports for its client on the node. -/
def bobBatch (remotePorts : List UInt16) : ProxyCall :=
  ⟨calmEnv, ⟨2, "bob", false⟩, .batchCreate (tcpBatch remotePorts)⟩

/-- A batch that uses up both limits. -/
theorem limits_kept_batch :
    ∃ d', run (proxyStep noUrls fun _ ↦ "") (limitedNode 2) [bobBatch [2022, 2023]] = some d' ∧
      d'.db.proxies.rows.length = 2 ∧ LimitsKept d'.db := by
  have hrows : (run (proxyStep noUrls fun _ ↦ "") (limitedNode 2) [bobBatch [2022, 2023]]).map
      (fun d ↦ d.db.proxies.rows.length) = some 2 := by
    decide +kernel
  obtain ⟨d', hrun, hd'⟩ := Option.map_eq_some_iff.mp hrows
  have hroom : HasRoom (limitedNode 2).db (.batchCreate (tcpBatch [2022, 2023])) :=
    ⟨fun id _ ↦ nodeRoom_limitedNode id (by decide),
      fun _ _ userId _ _ _ ↦ userRoom_limitedNode userId (by decide)⟩
  exact ⟨d', hrun, hd', limits_kept noUrls (fun _ ↦ "") (limitedNode 2) d' [bobBatch [2022, 2023]]
    (limitsValid_limitedNode (by decide)) (limitsKept_limitedNode (by decide))
    ⟨⟨rfl, hroom⟩, fun _ _ ↦ trivial⟩ hrun⟩

theorem not_limits_kept_batch :
    LimitsValid (limitedNode 1).db ∧ LimitsKept (limitedNode 1).db ∧
      ∃ d', run (proxyStep noUrls fun _ ↦ "") (limitedNode 1) [bobBatch [2022, 2023]] = some d' ∧
        ¬ LimitsKept d'.db := by
  have hcounts : (run (proxyStep noUrls fun _ ↦ "") (limitedNode 1) [bobBatch [2022, 2023]]).map
      (fun d ↦ (nodeLoad d.db 1, (d.db.nodes.find 1).bind (·.maxProxyCount))) =
        some (2, some 1) := by
    decide +kernel
  obtain ⟨d', hrun, hd'⟩ := Option.map_eq_some_iff.mp hcounts
  refine ⟨limitsValid_limitedNode (by decide), limitsKept_limitedNode (by decide), d', hrun,
    fun hkept ↦ ?_⟩
  obtain ⟨hload, hlimit⟩ := Prod.mk.inj hd'
  obtain ⟨node, hnode, hmax⟩ := Option.bind_eq_some_iff.mp hlimit
  have hle := hkept.node 1 node hnode 1 hmax
  rw [hload] at hle
  exact absurd hle (by decide)

end Oxiproxy.Controller
