import Oxiproxy.Controller.Access
import Oxiproxy.Foundation.HashMap

/-!
# What a user sees

The listing of proxies, the traffic overview and the dashboard select a user's
rows from whole tables, each with its own test.  For a user who is no
administrator they depend on that user's rows only.  Queries succeed here, and
counters stay far below `2 ^ 63`.
-/

namespace Oxiproxy.Controller

/-! ## The listing of proxies -/

/-- The proxies of a user's clients and its direct proxies. -/
def proxiesOfUser (db : Db) (userId : ℤ) : List Proxy :=
  let clientIds := (db.clients.rows.filter (·.userId = some userId)).map (toString ·.id)
  db.proxies.rows.filter fun p ↦
    match p.clientId with
    | some clientId => clientIds.contains clientId
    | none => p.userId = some userId

def listProxies (db : Db) : Option AuthUser → Except ApiError (List Proxy)
  | none => .error ⟨401, "Not authenticated"⟩
  | some auth => .ok (if auth.isAdmin then db.proxies.rows else proxiesOfUser db auth.id)

/-! ## The traffic overview -/

structure TotalTraffic where
  totalBytesSent : ℤ
  totalBytesReceived : ℤ
  totalBytes : ℤ
  deriving DecidableEq

def TotalTraffic.of (sent received : ℤ) : TotalTraffic := ⟨sent, received, sent + received⟩

structure UserTraffic where
  userId : ℤ
  username : String
  total : TotalTraffic
  deriving DecidableEq

structure ClientTraffic where
  clientId : ℤ
  clientName : String
  total : TotalTraffic
  deriving DecidableEq

structure ProxyTraffic where
  proxyId : ℤ
  proxyName : String
  clientId : ℤ
  clientName : String
  total : TotalTraffic
  deriving DecidableEq

structure DailyTraffic where
  date : String
  total : TotalTraffic
  deriving DecidableEq

structure TrafficOverview where
  totalTraffic : TotalTraffic
  byUser : List UserTraffic
  byClient : List ClientTraffic
  byProxy : List ProxyTraffic
  dailyTraffic : List DailyTraffic
  deriving DecidableEq

def hasClientAccess (db : Db) (userId clientId : ℤ) : Bool :=
  match db.clients.find clientId with
  | some client => client.userId == some userId
  | none => false

/-- A client id that does not parse reads as zero. -/
def proxyClientId (proxy : Proxy) : ℤ := (proxy.clientId.bind parseI64).getD 0

/-- A test made for a user who is no administrator. -/
def mayShow (isAdmin : Bool) (userId : Option ℤ) (allowed : ℤ → Bool) : Bool :=
  isAdmin || match userId with
    | some userId => allowed userId
    | none => true

def userTraffic (user : User) : UserTraffic :=
  ⟨user.id, user.username, .of user.totalBytesSent user.totalBytesReceived⟩

def clientTraffic (client : Client) : ClientTraffic :=
  ⟨client.id, client.name, .of client.totalBytesSent client.totalBytesReceived⟩

def proxyTraffic (db : Db) (proxy : Proxy) : ProxyTraffic :=
  let clientName :=
    if proxy.clientId.isNone then "公网直连"
    else match db.clients.find (proxyClientId proxy) with
      | some client => client.name
      | none => "Unknown"
  ⟨proxy.id, proxy.name, proxyClientId proxy, clientName,
    .of proxy.totalBytesSent proxy.totalBytesReceived⟩

def proxyAllowed (db : Db) (proxy : Proxy) (userId : ℤ) : Bool :=
  if proxy.clientId.isNone then proxy.userId == some userId
  else hasClientAccess db userId (proxyClientId proxy)

def dailyAllowed (db : Db) (d : TrafficDaily) (userId : ℤ) : Bool :=
  match d.clientId with
  | some clientId => hasClientAccess db userId clientId
  | none =>
      match db.proxies.find d.proxyId with
      | some proxy => proxy.userId == some userId
      | none => false

/-- The entries of `daily_map`; their dates are distinct. -/
def dailyMap (rows : List TrafficDaily) : AList fun _ : String ↦ ℤ × ℤ :=
  rows.foldl (fun m d ↦
    let entry := (m.lookup d.date).getD (0, 0)
    m.insert d.date (entry.1 + d.bytesSent, entry.2 + d.bytesReceived)) ∅

def dailyTraffic (rows : List TrafficDaily) : List DailyTraffic :=
  ((dailyMap rows).entries.map fun e ↦ ⟨e.1, .of e.2.1 e.2.2⟩).mergeSort
    fun a b ↦ decide (a.date ≤ b.date)

/-- `daysAgo` gives the date some days before now, or nothing where its
computation panics. -/
def getTrafficOverview (daysAgo : ℤ → Option String) (db : Db) (userId : Option ℤ) (days : ℤ) :
    Option TrafficOverview := do
  let user := userId.bind db.users.find
  let isAdmin := user.any (·.isAdmin)
  let users := if isAdmin then db.users.rows else user.toList
  let clients := db.clients.rows.filter fun c ↦
    mayShow isAdmin userId fun userId ↦ hasClientAccess db userId c.id
  let total :=
    if isAdmin then
      TotalTraffic.of (clients.map (·.totalBytesSent)).sum (clients.map (·.totalBytesReceived)).sum
    else TotalTraffic.of (users.map (·.totalBytesSent)).sum (users.map (·.totalBytesReceived)).sum
  let proxies := db.proxies.rows.filter fun p ↦ mayShow isAdmin userId (proxyAllowed db p)
  let startDate ← daysAgo days
  let daily := (db.trafficDaily.rows.filter (startDate ≤ ·.date)).filter fun d ↦
    mayShow isAdmin userId (dailyAllowed db d)
  return {
    totalTraffic := total
    byUser := users.map userTraffic
    byClient := clients.map clientTraffic
    byProxy := proxies.map (proxyTraffic db)
    dailyTraffic := dailyTraffic daily }

/-! ## The dashboard -/

structure DashboardStats where
  totalClients : ℕ
  totalProxies : ℕ
  onlineClients : ℕ
  enabledProxies : ℕ
  totalNodes : ℕ
  onlineNodes : ℕ
  userTotalQuotaGb : Option ℚ
  userTraffic : TotalTraffic
  deriving DecidableEq

/-- The ids of the clients and of the nodes with an open session. -/
structure LiveSessions where
  client : ℤ → Bool
  node : ℤ → Bool

def getUserDashboardStats (live : LiveSessions) (db : Db) (userId : ℤ) :
    Option AuthUser → Except String DashboardStats
  | none => .error "Not authenticated"
  | some auth =>
      if !auth.isAdmin && auth.id ≠ userId then .error "无权访问此用户的统计数据"
      else
        match db.users.find userId with
        | none => .error "User not found"
        | some user =>
            let clients :=
              if user.isAdmin then db.clients.rows
              else db.clients.rows.filter (·.userId = some userId)
            let proxies := if user.isAdmin then db.proxies.rows else proxiesOfUser db userId
            .ok {
              totalClients := clients.length
              totalProxies := proxies.length
              onlineClients := (clients.filter (live.client ·.id)).length
              enabledProxies := (proxies.filter (·.enabled)).length
              totalNodes := db.nodes.rows.length
              onlineNodes := (db.nodes.rows.filter (live.node ·.id)).length
              userTotalQuotaGb := user.trafficQuotaGb
              userTraffic := .of (proxies.map (·.totalBytesSent)).sum
                (proxies.map (·.totalBytesReceived)).sum }

/-- The counts of clients and proxies and the traffic. -/
def DashboardStats.tenantPart (s : DashboardStats) : List ℕ × Option ℚ × TotalTraffic :=
  ([s.totalClients, s.totalProxies, s.onlineClients, s.enabledProxies], s.userTotalQuotaGb,
    s.userTraffic)

/-! ## A user's own rows -/

/-- The proxy is attached to a client of the user, by the text of the client's
id or by the number it reads as, or it is a direct proxy of the user. -/
def Proxy.OfUser (db : Db) (userId : ℤ) (proxy : Proxy) : Bool :=
  match proxy.clientId with
  | some clientId => db.clients.rows.any fun c ↦
      c.userId = some userId ∧ (clientId = toString c.id ∨ proxyClientId proxy = c.id)
  | none => proxy.userId = some userId

/-- A row of a client of the user or, with no client, of a proxy among those given. -/
def TrafficDaily.OfUser (ofProxy : Proxy → Bool) (db : Db) (userId : ℤ) (d : TrafficDaily) : Bool :=
  match d.clientId with
  | some clientId => db.clients.rows.any fun c ↦ c.userId = some userId ∧ c.id = clientId
  | none => db.proxies.rows.any fun p ↦ p.id = d.proxyId ∧ ofProxy p = true

/-- The direct proxies of a user. -/
def Proxy.DirectOf (userId : ℤ) (proxy : Proxy) : Bool :=
  proxy.clientId = none ∧ proxy.userId = some userId

/-- The proxies that carry the user's id. -/
def Proxy.Carries (userId : ℤ) (proxy : Proxy) : Bool := proxy.userId = some userId

/-- The two databases agree on the user's rows. -/
structure SameTenant (ofProxy : Proxy → Bool) (userId : ℤ) (db₁ db₂ : Db) : Prop where
  user : db₁.users.find userId = db₂.users.find userId
  clients : db₁.clients.rows.filter (·.userId = some userId) =
    db₂.clients.rows.filter (·.userId = some userId)
  proxies : db₁.proxies.rows.filter (·.OfUser db₁ userId) =
    db₂.proxies.rows.filter (·.OfUser db₂ userId)
  daily : db₁.trafficDaily.rows.filter (·.OfUser ofProxy db₁ userId) =
    db₂.trafficDaily.rows.filter (·.OfUser ofProxy db₂ userId)

/-- A query that selects within the part on which two tables agree. -/
theorem filter_eq_of_part {α : Type*} {p₁ p₂ q₁ q₂ : α → Bool} {l₁ l₂ : List α}
    (hpart : l₁.filter p₁ = l₂.filter p₂) (h₁ : ∀ a, q₁ a = true → p₁ a = true)
    (h₂ : ∀ a, q₂ a = true → p₂ a = true)
    (hq : ∀ a, q₁ a = q₂ a) : l₁.filter q₁ = l₂.filter q₂ := by
  have hq₁ : ∀ a, (q₁ a && p₁ a) = q₁ a := fun a ↦ by
    rw [Bool.and_eq_left_iff_imp]
    exact h₁ a
  have hq₂ : ∀ a, (q₂ a && p₂ a) = q₂ a := fun a ↦ by
    rw [Bool.and_eq_left_iff_imp]
    exact h₂ a
  calc l₁.filter q₁ = (l₁.filter p₁).filter q₁ := by simp only [List.filter_filter, hq₁]
    _ = (l₂.filter p₂).filter q₂ := by rw [hpart, funext hq]
    _ = l₂.filter q₂ := by simp only [List.filter_filter, hq₂]

variable {db db₁ db₂ : Db} {userId clientId : ℤ} {ofProxy : Proxy → Bool}

theorem hasClientAccess_iff :
    hasClientAccess db userId clientId = true ↔
      ∃ c ∈ db.clients.rows.filter (·.userId = some userId), c.id = clientId := by
  unfold hasClientAccess
  constructor
  · intro h
    split at h
    · next client hclient =>
        have hmem := (Table.mem_iff_find (r := client)).mpr
          ((Table.key_of_find hclient).symm ▸ hclient)
        refine ⟨client, ?_, Table.key_of_find hclient⟩
        simpa [hmem] using h
    · cases h
  · rintro ⟨client, hclient, rfl⟩
    rw [List.mem_filter] at hclient
    have hfind : db.clients.find client.id = some client := Table.mem_iff_find.mp hclient.1
    rw [hfind]
    simpa using hclient.2

theorem dailyAllowed_eq (d : TrafficDaily) :
    dailyAllowed db d userId = d.OfUser (Proxy.Carries userId) db userId := by
  unfold dailyAllowed TrafficDaily.OfUser
  cases hclient : d.clientId with
  | some clientId =>
      rw [Bool.eq_iff_iff]
      change hasClientAccess db userId clientId = true ↔ _
      rw [hasClientAccess_iff]
      simp [and_assoc]
  | none =>
      cases hproxy : db.proxies.find d.proxyId with
      | some proxy =>
          obtain ⟨hmem, hid⟩ := Table.find_eq_some.mp hproxy
          rw [Bool.eq_iff_iff, List.any_eq_true]
          constructor
          · intro hcarries
            refine ⟨proxy, hmem, ?_⟩
            simpa [Proxy.Carries, show proxy.id = d.proxyId from hid] using hcarries
          · rintro ⟨other, hother, hcarries⟩
            rw [decide_eq_true_eq] at hcarries
            have hfind : db.proxies.find d.proxyId = some other :=
              Table.find_eq_some.mpr ⟨hother, hcarries.1⟩
            obtain rfl := Option.some.inj (hproxy.symm.trans hfind)
            simpa [Proxy.Carries] using hcarries.2
      | none =>
          symm
          rw [List.any_eq_false]
          intro proxy hmem hcarries
          rw [decide_eq_true_eq] at hcarries
          exact Table.find_eq_none.mp hproxy (List.mem_map.mpr ⟨proxy, hmem, hcarries.1⟩)

theorem proxyAllowed_ofUser (proxy : Proxy) (h : proxyAllowed db proxy userId = true) :
    proxy.OfUser db userId = true := by
  unfold proxyAllowed at h
  unfold Proxy.OfUser
  cases hclient : proxy.clientId with
  | none =>
      rw [hclient] at h
      simpa using h
  | some clientId =>
      rw [hclient] at h
      obtain ⟨client, hmem, hid⟩ := hasClientAccess_iff.mp h
      rw [List.mem_filter, decide_eq_true_eq] at hmem
      rw [List.any_eq_true]
      exact ⟨client, hmem.1, decide_eq_true ⟨hmem.2, Or.inr hid.symm⟩⟩

namespace SameTenant

section

variable (h : SameTenant ofProxy userId db₁ db₂)
include h

theorem hasClientAccess_eq (clientId : ℤ) :
    hasClientAccess db₁ userId clientId = hasClientAccess db₂ userId clientId := by
  rw [Bool.eq_iff_iff, hasClientAccess_iff, hasClientAccess_iff, h.clients]

/-- A client of the user is the same row in both databases. -/
theorem find_client {client : Client} (hclient : db₁.clients.find clientId = some client)
    (howner : client.userId = some userId) : db₂.clients.find clientId = some client := by
  obtain ⟨hmem, hid⟩ := Table.find_eq_some.mp hclient
  have hown : client ∈ db₁.clients.rows.filter (·.userId = some userId) :=
    List.mem_filter.mpr ⟨hmem, decide_eq_true howner⟩
  rw [h.clients] at hown
  exact Table.find_eq_some.mpr ⟨(List.mem_filter.mp hown).1, hid⟩

theorem proxyAllowed_eq (proxy : Proxy) :
    proxyAllowed db₁ proxy userId = proxyAllowed db₂ proxy userId := by
  unfold proxyAllowed
  rw [h.hasClientAccess_eq]

theorem proxyTraffic_eq {proxy : Proxy} (hallowed : proxyAllowed db₁ proxy userId = true) :
    proxyTraffic db₁ proxy = proxyTraffic db₂ proxy := by
  unfold proxyTraffic
  unfold proxyAllowed at hallowed
  cases hbound : proxy.clientId.isNone with
  | true => rfl
  | false =>
      rw [hbound, if_neg Bool.false_ne_true] at hallowed
      unfold hasClientAccess at hallowed
      split at hallowed
      · next client hclient =>
          rw [beq_iff_eq] at hallowed
          rw [h.find_client hclient hallowed]
      · cases hallowed

theorem proxiesOfUser_eq : proxiesOfUser db₁ userId = proxiesOfUser db₂ userId := by
  have hselect : ∀ db : Db, ∀ proxy : Proxy,
      (match proxy.clientId with
        | some clientId => ((db.clients.rows.filter (·.userId = some userId)).map
            (toString ·.id)).contains clientId
        | none => decide (proxy.userId = some userId)) = true → proxy.OfUser db userId = true := by
    intro db proxy hproxy
    unfold Proxy.OfUser
    cases hclient : proxy.clientId with
    | none =>
        rw [hclient] at hproxy
        exact hproxy
    | some clientId =>
        rw [hclient] at hproxy
        simp only [List.contains_iff_mem, List.mem_map, List.mem_filter, decide_eq_true_eq]
          at hproxy
        obtain ⟨client, ⟨hmem, howner⟩, htext⟩ := hproxy
        exact List.any_eq_true.mpr ⟨client, hmem, decide_eq_true ⟨howner, Or.inl htext.symm⟩⟩
  refine filter_eq_of_part h.proxies (hselect db₁) (hselect db₂) fun proxy ↦ ?_
  rw [h.clients]

end

/-! ## The views -/

theorem getTrafficOverview_eq (h : SameTenant (Proxy.Carries userId) userId db₁ db₂)
    (hadmin : ∀ user, db₁.users.find userId = some user → user.isAdmin = false)
    (daysAgo : ℤ → Option String) (days : ℤ) :
    getTrafficOverview daysAgo db₁ (some userId) days =
      getTrafficOverview daysAgo db₂ (some userId) days := by
  have hnot : (db₂.users.find userId).any (·.isAdmin) = false := by
    rw [← h.user]
    cases huser : db₁.users.find userId with
    | none => rfl
    | some user => exact hadmin user huser
  have hclients : db₁.clients.rows.filter (fun c ↦ hasClientAccess db₁ userId c.id) =
      db₂.clients.rows.filter fun c ↦ hasClientAccess db₂ userId c.id := by
    have hown : ∀ db : Db, db.clients.rows.filter (fun c ↦ hasClientAccess db userId c.id) =
        db.clients.rows.filter (·.userId = some userId) := by
      intro db
      refine List.filter_congr fun client hmem ↦ ?_
      have hfind : db.clients.find client.id = some client := Table.mem_iff_find.mp hmem
      rw [hasClientAccess, hfind]
      exact beq_eq_decide client.userId (some userId)
    rw [hown, hown, h.clients]
  have hproxies : db₁.proxies.rows.filter (proxyAllowed db₁ · userId) =
      db₂.proxies.rows.filter (proxyAllowed db₂ · userId) :=
    filter_eq_of_part h.proxies (fun p ↦ proxyAllowed_ofUser p) (fun p ↦ proxyAllowed_ofUser p)
      h.proxyAllowed_eq
  have hrows : (db₁.proxies.rows.filter (proxyAllowed db₁ · userId)).map (proxyTraffic db₁) =
      (db₂.proxies.rows.filter (proxyAllowed db₂ · userId)).map (proxyTraffic db₂) := by
    rw [← hproxies]
    exact List.map_congr_left fun p hp ↦ h.proxyTraffic_eq (List.mem_filter.mp hp).2
  have hdaily : ∀ start : String,
      (db₁.trafficDaily.rows.filter (start ≤ ·.date)).filter (dailyAllowed db₁ · userId) =
        (db₂.trafficDaily.rows.filter (start ≤ ·.date)).filter (dailyAllowed db₂ · userId) := by
    intro start
    have hown : ∀ db : Db,
        (db.trafficDaily.rows.filter (start ≤ ·.date)).filter (dailyAllowed db · userId) =
          (db.trafficDaily.rows.filter (·.OfUser (Proxy.Carries userId) db userId)).filter
            (start ≤ ·.date) := by
      intro db
      simp only [dailyAllowed_eq, List.filter_filter, Bool.and_comm]
    rw [hown, hown, h.daily]
  simp only [getTrafficOverview, mayShow, Option.bind_some, h.user, hnot, Bool.false_or,
    Bool.false_eq_true, if_false, hclients, hrows, hdaily]

theorem dashboard_eq (h : SameTenant ofProxy userId db₁ db₂)
    (hadmin : ∀ user, db₁.users.find userId = some user → user.isAdmin = false)
    (live : LiveSessions) (auth : Option AuthUser) :
    (getUserDashboardStats live db₁ userId auth).map DashboardStats.tenantPart =
      (getUserDashboardStats live db₂ userId auth).map DashboardStats.tenantPart := by
  cases auth with
  | none => rfl
  | some auth =>
      unfold getUserDashboardStats
      dsimp only
      rw [← h.user]
      split
      · rfl
      · cases huser : db₁.users.find userId with
        | none => rfl
        | some user =>
            simp only [hadmin user huser, Bool.false_eq_true, if_false, h.clients,
              h.proxiesOfUser_eq]
            rfl

/-- In databases whose client-bound proxies carry no user id, as every handler
writes them, the proxies that carry a user's id are its direct proxies. -/
theorem carries (h : SameTenant (Proxy.DirectOf userId) userId db₁ db₂)
    (h₁ : ∀ p ∈ db₁.proxies.rows, p.clientId ≠ none → p.userId = none)
    (h₂ : ∀ p ∈ db₂.proxies.rows, p.clientId ≠ none → p.userId = none) :
    SameTenant (Proxy.Carries userId) userId db₁ db₂ := by
  have hsame : ∀ db : Db, (∀ p ∈ db.proxies.rows, p.clientId ≠ none → p.userId = none) →
      ∀ d : TrafficDaily, d.OfUser (Proxy.Carries userId) db userId =
        d.OfUser (Proxy.DirectOf userId) db userId := by
    intro db hdb d
    unfold TrafficDaily.OfUser
    cases d.clientId with
    | some clientId => rfl
    | none =>
        rw [Bool.eq_iff_iff, List.any_eq_true, List.any_eq_true]
        refine exists_congr fun p ↦ and_congr_right fun hmem ↦ ?_
        simp only [decide_eq_true_eq, Proxy.Carries, Proxy.DirectOf]
        refine and_congr_right fun _ ↦ ⟨fun howner ↦ ⟨?_, howner⟩, fun hdirect ↦ hdirect.2⟩
        by_contra hbound
        rw [hdb p hmem hbound] at howner
        cases howner
  refine ⟨h.user, h.clients, h.proxies, ?_⟩
  rw [List.filter_congr fun d _ ↦ hsame db₁ h₁ d, List.filter_congr fun d _ ↦ hsame db₂ h₂ d]
  exact h.daily

end SameTenant

/-- Two databases that agree on the rows of a user who is no administrator, and
on the daily rows without a client of the proxies that carry its id, show it the
same proxies, the same traffic and the same counts. -/
theorem views_isolated (auth : AuthUser) (db₁ db₂ : Db) (hauth : auth.isAdmin = false)
    (hadmin : ∀ user, db₁.users.find auth.id = some user → user.isAdmin = false)
    (h : SameTenant (Proxy.Carries auth.id) auth.id db₁ db₂) :
    listProxies db₁ (some auth) = listProxies db₂ (some auth) ∧
      (∀ daysAgo days, getTrafficOverview daysAgo db₁ (some auth.id) days =
        getTrafficOverview daysAgo db₂ (some auth.id) days) ∧
      ∀ live, (getUserDashboardStats live db₁ auth.id (some auth)).map DashboardStats.tenantPart =
        (getUserDashboardStats live db₂ auth.id (some auth)).map DashboardStats.tenantPart := by
  refine ⟨?_, h.getTrafficOverview_eq hadmin, fun live ↦ h.dashboard_eq hadmin live (some auth)⟩
  simp only [listProxies, hauth, Bool.false_eq_true, if_false, h.proxiesOfUser_eq]

/-! ## Two tenants -/

/-- Two users with one client each, and a proxy of the second client that
carries the id of the first user. -/
def twoTenants (daily : Table TrafficDaily) : Db where
  users := twoUsers
  clients := ⟨[{ (default : Client) with id := 1, userId := some 1 },
    { (default : Client) with id := 2, userId := some 2 }], by decide⟩
  nodes := .empty
  proxies := ⟨[{ (default : Proxy) with id := 7, clientId := some "2", userId := some 1 }],
    by decide⟩
  trafficDaily := daily
  userSubscriptions := .empty

/-- Traffic of the proxy that was recorded without a client. -/
def strayDaily : Table TrafficDaily :=
  ⟨[{ (default : TrafficDaily) with proxyId := 7, date := "2026-01-01", bytesSent := 5 }],
    by decide⟩

/-- The first user has a client with one proxy, a direct proxy, and traffic of both on
one day.  The second has a client and a proxy of its own, through which as many
bytes have been sent as given. -/
def ownRows (otherSent : ℤ) : Db where
  users := twoUsers
  clients := ⟨[{ (default : Client) with id := 1, userId := some 1, totalBytesSent := 20 },
    { (default : Client) with id := 2, userId := some 2, totalBytesSent := otherSent }],
    (by decide : ([1, 2] : List ℤ).Nodup)⟩
  nodes := .empty
  proxies := ⟨[{ (default : Proxy) with id := 7, clientId := some "1", totalBytesSent := 20 },
    { (default : Proxy) with id := 8, userId := some 1, enabled := true, totalBytesSent := 5 },
    { (default : Proxy) with id := 9, clientId := some "2", totalBytesSent := otherSent }],
    (by decide : ([7, 8, 9] : List ℤ).Nodup)⟩
  trafficDaily := ⟨[
    { (default : TrafficDaily) with
      proxyId := 7, clientId := some 1, date := "2026-01-02", bytesSent := 20 },
    { (default : TrafficDaily) with proxyId := 8, date := "2026-01-02", bytesSent := 5 },
    { (default : TrafficDaily) with
      proxyId := 9, clientId := some 2, date := "2026-01-02", bytesSent := otherSent }],
    (by decide : [((7 : ℤ), "2026-01-02"), (8, "2026-01-02"), (9, "2026-01-02")].Nodup)⟩
  userSubscriptions := .empty

/-- The listing, the overview and the dashboard show the first user its own rows, and
the same when the second user's traffic is another. -/
theorem views_isolated_ownRows :
    (let shown := listProxies (ownRows 0) (some ⟨1, "a", false⟩)
     shown.map (·.map (·.id)) = .ok [7, 8] ∧
      shown = listProxies (ownRows 700) (some ⟨1, "a", false⟩)) ∧
    (let shown := getTrafficOverview (fun _ ↦ some "2026-01-01") (ownRows 0) (some 1) 1
     shown.map (fun o ↦ (o.byClient.map (·.clientId), o.byProxy.map (·.proxyId), o.dailyTraffic)) =
        some ([1], [7, 8], [⟨"2026-01-02", .of 25 0⟩]) ∧
      shown = getTrafficOverview (fun _ ↦ some "2026-01-01") (ownRows 700) (some 1) 1) ∧
    let live : LiveSessions := ⟨fun _ ↦ true, fun _ ↦ false⟩
    let shown := (getUserDashboardStats live (ownRows 0) 1 (some ⟨1, "a", false⟩)).map
      DashboardStats.tenantPart
    shown = .ok ([1, 2, 1, 1], none, .of 25 0) ∧
      shown = (getUserDashboardStats live (ownRows 700) 1 (some ⟨1, "a", false⟩)).map
        DashboardStats.tenantPart := by
  have h := views_isolated ⟨1, "a", false⟩ (ownRows 0) (ownRows 700) rfl (by decide +kernel)
    ⟨rfl, rfl, by decide +kernel, by decide +kernel⟩
  exact ⟨⟨by decide +kernel, h.1⟩, ⟨by decide +kernel, h.2.1 _ _⟩, by decide +kernel, h.2.2 _⟩

theorem not_isolated_stray :
    ∃ (auth : AuthUser) (db₁ db₂ : Db) (daysAgo : ℤ → Option String) (days : ℤ),
      auth.isAdmin = false ∧
        (∀ user, db₁.users.find auth.id = some user → user.isAdmin = false) ∧
        SameTenant (Proxy.DirectOf auth.id) auth.id db₁ db₂ ∧
        getTrafficOverview daysAgo db₁ (some auth.id) days ≠
          getTrafficOverview daysAgo db₂ (some auth.id) days :=
  ⟨⟨1, "a", false⟩, twoTenants .empty, twoTenants strayDaily, fun _ ↦ some "2025-12-31", 1, rfl,
    by decide +kernel, ⟨rfl, rfl, rfl, by decide +kernel⟩, by decide +kernel⟩

end Oxiproxy.Controller
