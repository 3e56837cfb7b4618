import Oxiproxy.Controller.Access
import Oxiproxy.Controller.TrafficVerdict
import Oxiproxy.Foundation.Runs

/-!
# The allocation of quotas

A user hands out the user's quota to clients.  What has been handed out is
summed over the clients that the user owns where an increase is checked, and over
the clients linked to the user where the user's own quota is lowered or shown.
Calls to the database succeed here, quotas are exact numbers, and the sum of a
user's two counters fits in an `i64`.
-/

namespace Oxiproxy.Controller

open Transition

structure UserClient where
  userId : ℤ
  clientId : ℤ

/-- Links are unique by user and client. -/
instance : Keyed (ℤ × ℤ) UserClient := ⟨fun link ↦ (link.userId, link.clientId)⟩

/-- The database with the links of users to clients that exist. -/
structure QuotaDb extends Db where
  userClients : Table UserClient
  client_exists : ∀ link ∈ userClients.rows, link.clientId ∈ clients.rows.map key

structure UserQuotaInfo where
  userId : ℤ
  username : String
  totalQuotaGb : Option ℚ
  usedGb : ℚ
  allocatedToClientsGb : ℚ
  availableGb : WithTop ℚ
  quotaUsagePercent : Option (WithBot ℚ)

structure CreateClientRequest where
  name : String
  token : Option String
  region : Option String
  trafficResetCycle : Option String
  trafficQuotaGb : Option ℚ

/-- The time of a request, and what it gets for a client it creates. -/
structure CreateClientEnv where
  now : NaiveDateTime
  newToken : String
  newId : ℤ
  insertError : String

/-- A quotient of floats, in percent and at most a hundred; it is infinite or no
number where the quota is zero. -/
def usagePercent (needed quota : ℚ) : WithBot ℚ :=
  if quota = 0 then if needed < 0 then ⊥ else 100 else ↑(min (needed / quota * 100) 100)

/-- A client without a quota takes nothing of its user's. -/
def Client.allocatedGb (client : Client) : ℚ := client.trafficQuotaGb.getD 0

namespace QuotaDb

variable (db : QuotaDb)

/-- The quotas of the clients in whose row the user is. -/
def ownedQuotaGb (userId : ℤ) : ℚ :=
  ((db.clients.rows.filter (·.userId = some userId)).map Client.allocatedGb).sum

/-- The quotas of the clients linked to the user. -/
def linkedQuotaGb (userId : ℤ) : ℚ :=
  ((db.userClients.rows.filter (·.userId = userId)).map fun link ↦
    ((db.clients.find link.clientId).map Client.allocatedGb).getD 0).sum

def checkUserQuotaAllocation (userId : ℤ) (additionalQuotaGb : ℚ) : Bool × String :=
  match db.users.find userId with
  | none => (false, "用户不存在")
  | some user =>
      match (getUserFinalQuota user).1 with
      | none => (true, "")
      | some userQuotaGb =>
          let userUsedGb := bytesToGb user.totalUsed
          let totalAllocatedGb := db.ownedQuotaGb userId
          if userQuotaGb < userUsedGb + totalAllocatedGb + additionalQuotaGb then
            let available := max (userQuotaGb - userUsedGb - totalAllocatedGb) 0
            (false, "配额不足: 可用 " ++ formatTwoPlaces available ++ " GB，需要 " ++
              formatTwoPlaces additionalQuotaGb ++ " GB (用户配额: " ++
              formatTwoPlaces userQuotaGb ++ " GB，已使用: " ++ formatTwoPlaces userUsedGb ++
              " GB，已分配: " ++ formatTwoPlaces totalAllocatedGb ++ " GB)")
          else (true, "")

/-- Give a client a quota. -/
def setClientQuota (now : NaiveDateTime) (clientId : ℤ) (quotaGb : ℚ) : QuotaDb :=
  { db with
    clients := db.clients.modify clientId
      (fun client ↦ { client with trafficQuotaGb := some quotaGb, updatedAt := now })
      fun _ ↦ rfl
    client_exists := fun link hlink ↦ by
      rw [Table.keys_modify]
      exact db.client_exists link hlink }

def allocateClientQuota (now : NaiveDateTime) (auth : Option AuthUser) (clientId : ℤ)
    (quotaGb : ℚ) : Except ApiError (QuotaDb × String) := do
  let auth ← okOr 401 "未认证" auth
  require (0 ≤ quotaGb) 400 "配额不能为负数"
  let client ← okOr 404 "客户端不存在" (db.clients.find clientId)
  let quotaDiff := quotaGb - client.allocatedGb
  onlyIf (!auth.isAdmin) do
    require (db.userClients.find (auth.id, clientId)).isSome 403 "无权限访问此客户端"
    onlyIf (0 < quotaDiff) do
      let (allowed, reason) := db.checkUserQuotaAllocation auth.id quotaDiff
      require allowed 400 reason
  return (db.setClientQuota now clientId quotaGb,
    "配额分配成功: " ++ formatTwoPlaces quotaGb ++ " GB")

/-- Add a client under an id and a token that are not in use. -/
def insertClient (client : Client) (insertError : String) : Except ApiError (QuotaDb × Client) :=
  if hfresh : key client ∉ db.clients.rows.map key ∧
      client.token ∉ db.clients.rows.map (·.token) then
    .ok ({ db with
      clients := db.clients.insert client hfresh.1
      client_exists := fun link hlink ↦ by
        rw [Table.insert, List.map_append]
        exact List.mem_append_left _ (db.client_exists link hlink) }, client)
  else .error ⟨500, "Failed to create client: " ++ insertError⟩

/-- The row of a new client. -/
def newClient (env : CreateClientEnv) (auth : AuthUser) (req : CreateClientRequest) : Client where
  id := env.newId
  name := req.name
  token := req.token.getD env.newToken
  isOnline := false
  publicIp := none
  region := req.region
  totalBytesSent := 0
  totalBytesReceived := 0
  trafficResetCycle := req.trafficResetCycle.getD "none"
  lastResetAt := none
  isTrafficExceeded := false
  trafficQuotaGb := req.trafficQuotaGb
  userId := some auth.id
  version := none
  lastOnlineAt := none
  createdAt := env.now
  updatedAt := env.now

def createClient (env : CreateClientEnv) (auth : Option AuthUser) (req : CreateClientRequest) :
    Except ApiError (QuotaDb × Client) := do
  let auth ← okOr 401 "未认证" auth
  ifSome (db.users.find auth.id) fun user ↦
    ifSome (getUserFinalQuota user).2.2.2 fun maxCount ↦
      let currentCount := (db.clients.rows.filter (·.userId = some auth.id)).length
      require (currentCount < asU64 maxCount) 400
        ("已达到最大客户端数量限制: " ++ toString currentCount ++ "/" ++ toString maxCount)
  db.insertClient (newClient env auth req) env.insertError

/-- Give a user a quota. -/
def setUserQuota (now : NaiveDateTime) (userId : ℤ) (quotaGb : ℚ) : QuotaDb :=
  { db with
    users := db.users.modify userId
      (fun user ↦ { user with trafficQuotaGb := some quotaGb, updatedAt := now }) fun _ ↦ rfl }

def adjustUserQuota (now : NaiveDateTime) (auth : Option AuthUser) (userId : ℤ)
    (quotaChangeGb : ℚ) : Except ApiError (QuotaDb × String) := do
  let auth ← okOr 401 "未认证" auth
  require auth.isAdmin 403 "只有管理员可以调整用户配额"
  let user ← okOr 404 "用户不存在" (db.users.find userId)
  let newQuota := user.trafficQuotaGb.getD 0 + quotaChangeGb
  require (0 ≤ newQuota) 400 "配额不能为负数"
  onlyIf (quotaChangeGb < 0) do
    let userUsedGb := bytesToGb user.totalUsed
    let totalAllocatedGb := db.linkedQuotaGb userId
    require (userUsedGb + totalAllocatedGb ≤ newQuota) 400
      ("配额不足: 新配额 " ++ formatTwoPlaces newQuota ++ " GB 小于已使用 " ++
        formatTwoPlaces userUsedGb ++ " GB + 已分配 " ++ formatTwoPlaces totalAllocatedGb ++
        " GB = " ++ formatTwoPlaces (userUsedGb + totalAllocatedGb) ++ " GB")
  let message :=
    if 0 < quotaChangeGb then
      "配额增加成功: +" ++ formatTwoPlaces quotaChangeGb ++ " GB，当前配额: " ++
        formatTwoPlaces newQuota ++ " GB"
    else
      "配额减少成功: " ++ formatTwoPlaces quotaChangeGb ++ " GB，当前配额: " ++
        formatTwoPlaces newQuota ++ " GB"
  return (db.setUserQuota now userId newQuota, message)

def getUserQuotaInfo (auth : Option AuthUser) (userId : ℤ) : Except ApiError UserQuotaInfo := do
  let auth ← okOr 401 "未认证" auth
  require (auth.isAdmin || auth.id = userId) 403 "无权限查看此用户配额"
  let user ← okOr 404 "用户不存在" (db.users.find userId)
  let usedGb := bytesToGb user.totalUsed
  let allocatedToClientsGb := db.linkedQuotaGb userId
  let totalQuotaGb := (getUserFinalQuota user).1
  return {
    userId := user.id
    username := user.username
    totalQuotaGb
    usedGb
    allocatedToClientsGb
    availableGb := match totalQuotaGb with
      | some quota => ↑(max (quota - usedGb - allocatedToClientsGb) 0)
      | none => ⊤
    quotaUsagePercent := totalQuotaGb.map (usagePercent (usedGb + allocatedToClientsGb)) }

/-! ## The two sums -/

/-- The quotas of the clients that the user owns without a link to them. -/
def unlinkedQuotaGb (userId : ℤ) : ℚ :=
  ((db.clients.rows.filter fun client ↦ client.userId = some userId ∧
    (db.userClients.find (userId, client.id)).isNone).map Client.allocatedGb).sum

/-- The quotas of the clients that are linked to the user but not the user's. -/
def foreignQuotaGb (userId : ℤ) : ℚ :=
  ((db.clients.rows.filter fun client ↦ client.userId ≠ some userId ∧
    (db.userClients.find (userId, client.id)).isSome).map Client.allocatedGb).sum

variable {db} {userId : ℤ}

theorem ownedQuotaGb_eq : db.ownedQuotaGb userId =
    db.clients.sumOver fun client ↦
      if client.userId = some userId then client.allocatedGb else 0 :=
  (db.clients.sumOver_ite Client.allocatedGb fun client ↦ client.userId = some userId).symm

/-- The clients linked to the user are those with a row under the user's id. -/
theorem mem_linkedClients {clientId : ℤ} :
    clientId ∈ (db.userClients.rows.filter (·.userId = userId)).map (·.clientId) ↔
      (db.userClients.find (userId, clientId)).isSome := by
  rw [Option.isSome_iff_exists]
  simp only [List.mem_map, List.mem_filter, decide_eq_true_eq, Table.find_eq_some]
  constructor
  · rintro ⟨link, ⟨hmem, rfl⟩, rfl⟩
    exact ⟨link, hmem, rfl⟩
  · rintro ⟨link, hmem, hkey⟩
    obtain ⟨rfl, rfl⟩ := Prod.mk.inj hkey
    exact ⟨link, ⟨hmem, rfl⟩, rfl⟩

theorem nodup_linkedClients :
    ((db.userClients.rows.filter (·.userId = userId)).map (·.clientId)).Nodup := by
  have hkeys : ((db.userClients.rows.filter (·.userId = userId)).map key).Nodup :=
    db.userClients.nodup.sublist (List.filter_sublist.map key)
  refine (List.nodup_map_iff_inj_on (List.Nodup.of_map _ hkeys)).mpr ?_
  intro a ha b hb hclient
  refine List.inj_on_of_nodup_map hkeys ha hb (Prod.ext ?_ hclient)
  exact (of_decide_eq_true (List.mem_filter.mp ha).2).trans
    (of_decide_eq_true (List.mem_filter.mp hb).2).symm

theorem linkedQuotaGb_eq : db.linkedQuotaGb userId =
    db.clients.sumOver fun client ↦
      if (db.userClients.find (userId, client.id)).isSome then client.allocatedGb
      else 0 := by
  have hnodup : ((db.userClients.rows.filter (·.userId = userId)).map (·.clientId)).Nodup :=
    nodup_linkedClients
  have hsum := db.clients.sum_find Client.allocatedGb hnodup
  simp only [mem_linkedClients, List.map_map] at hsum
  exact hsum

/-- The two sums differ by what the clients outside of both make up. -/
theorem ownedQuotaGb_eq_linkedQuotaGb_iff :
    db.ownedQuotaGb userId = db.linkedQuotaGb userId ↔
      db.unlinkedQuotaGb userId = db.foreignQuotaGb userId := by
  have hdiff : db.ownedQuotaGb userId + db.foreignQuotaGb userId =
      db.linkedQuotaGb userId + db.unlinkedQuotaGb userId := by
    rw [ownedQuotaGb_eq, linkedQuotaGb_eq, foreignQuotaGb, unlinkedQuotaGb,
      ← Table.sumOver_ite, ← Table.sumOver_ite, Table.sumOver, Table.sumOver, Table.sumOver,
      Table.sumOver, ← List.sum_map_add, ← List.sum_map_add]
    refine congrArg List.sum (List.map_congr_left fun client _ ↦ ?_)
    by_cases howned : client.userId = some userId <;>
      cases db.userClients.find (userId, client.id) <;> simp [howned]
  constructor <;> intro h <;> linarith

/-! ## What the requests do -/

variable {now : NaiveDateTime} {client : Client} {clientId : ℤ} {quotaGb : ℚ}

theorem ownedQuotaGb_setClientQuota (hclient : db.clients.find clientId = some client) :
    (db.setClientQuota now clientId quotaGb).ownedQuotaGb userId = db.ownedQuotaGb userId +
      if client.userId = some userId then quotaGb - client.allocatedGb else 0 := by
  have hsum := db.clients.sumOver_modify (fun client : Client ↦
    if client.userId = some userId then client.allocatedGb else 0) hclient
    (fun client ↦ { client with trafficQuotaGb := some quotaGb, updatedAt := now }) fun _ ↦ rfl
  rw [ownedQuotaGb_eq, ownedQuotaGb_eq, setClientQuota]
  dsimp only at hsum ⊢
  split_ifs at hsum ⊢ <;> simp only [Client.allocatedGb, Option.getD_some] at hsum ⊢ <;> linarith

theorem linkedQuotaGb_setClientQuota (hclient : db.clients.find clientId = some client) :
    (db.setClientQuota now clientId quotaGb).linkedQuotaGb userId = db.linkedQuotaGb userId +
      if (db.userClients.find (userId, clientId)).isSome then
        quotaGb - client.allocatedGb else 0 := by
  have hsum := db.clients.sumOver_modify (fun client : Client ↦
    if (db.userClients.find (userId, client.id)).isSome then client.allocatedGb else 0)
    hclient
    (fun client ↦ { client with trafficQuotaGb := some quotaGb, updatedAt := now }) fun _ ↦ rfl
  obtain rfl : client.id = clientId := Table.key_of_find hclient
  rw [linkedQuotaGb_eq, linkedQuotaGb_eq, setClientQuota]
  dsimp only at hsum ⊢
  split_ifs at hsum ⊢ <;> simp only [Client.allocatedGb, Option.getD_some] at hsum ⊢ <;> linarith

theorem insertClient_ok {insertError : String} {result : QuotaDb × Client}
    (h : db.insertClient client insertError = .ok result) :
    result.1.users = db.users ∧ result.1.userClients = db.userClients ∧
      ∃ hfresh, result.1.clients = db.clients.insert client hfresh := by
  unfold insertClient at h
  split_ifs at h with hfresh
  obtain rfl := Except.ok.inj h
  exact ⟨rfl, rfl, hfresh.1, rfl⟩

/-- A new client is linked to nobody. -/
theorem sums_insertClient {insertError : String} {result : QuotaDb × Client}
    (h : db.insertClient client insertError = .ok result) :
    result.1.ownedQuotaGb userId = db.ownedQuotaGb userId +
        (if client.userId = some userId then client.allocatedGb else 0) ∧
      result.1.linkedQuotaGb userId = db.linkedQuotaGb userId := by
  obtain ⟨-, hlinks, hfresh, hclients⟩ := insertClient_ok h
  have hunlinked : db.userClients.find (userId, client.id) = none := by
    cases hfind : db.userClients.find (userId, client.id) with
    | none => rfl
    | some link =>
        obtain ⟨hmem, hkey⟩ := Table.find_eq_some.mp hfind
        have hexists := db.client_exists link hmem
        rw [(Prod.mk.inj hkey).2] at hexists
        exact absurd hexists hfresh
  constructor
  · rw [ownedQuotaGb_eq, ownedQuotaGb_eq, hclients, Table.sumOver_insert]
  · rw [linkedQuotaGb_eq, linkedQuotaGb_eq, hlinks, hclients, Table.sumOver_insert, hunlinked]
    simp

/-- What the user uses, has handed out and is about to hand out stays within the
user's quota. -/
def HasRoom (db : QuotaDb) (userId : ℤ) (additionalQuotaGb : ℚ) : Prop :=
  ∀ user ∈ db.users.find userId, ∀ quota ∈ user.trafficQuotaGb,
    bytesToGb user.totalUsed + db.ownedQuotaGb userId + additionalQuotaGb ≤ quota

theorem checkUserQuotaAllocation_iff {additionalQuotaGb : ℚ} :
    (db.checkUserQuotaAllocation userId additionalQuotaGb).1 = true ↔
      (db.users.find userId).isSome ∧ db.HasRoom userId additionalQuotaGb := by
  unfold checkUserQuotaAllocation HasRoom
  cases huser : db.users.find userId with
  | none => simp
  | some user =>
      cases hquota : user.trafficQuotaGb with
      | none => simp [getUserFinalQuota, hquota]
      | some quota =>
          simp only [getUserFinalQuota, hquota, Option.isSome_some, true_and, Option.mem_def,
            Option.some.injEq, forall_eq']
          rw [← not_lt]
          split_ifs with hlt <;> simp [hlt]

theorem allocateClientQuota_eq_ok {auth : AuthUser} (hadmin : auth.isAdmin = false)
    {result : QuotaDb × String} :
    db.allocateClientQuota now (some auth) clientId quotaGb = .ok result ↔
      0 ≤ quotaGb ∧ ∃ client, db.clients.find clientId = some client ∧
        (db.userClients.find (auth.id, clientId)).isSome ∧
        (0 < quotaGb - client.allocatedGb →
          (db.checkUserQuotaAllocation auth.id (quotaGb - client.allocatedGb)).1 = true) ∧
        result = (db.setClientQuota now clientId quotaGb,
          "配额分配成功: " ++ formatTwoPlaces quotaGb ++ " GB") := by
  simp only [allocateClientQuota, bind_eq_ok, okOr_eq_ok, require_eq_ok, onlyIf_eq_ok,
    decide_eq_true_eq, pure, Except.pure, Except.ok.injEq, Option.some.injEq, exists_eq_left',
    hadmin, Bool.not_false, forall_const]
  constructor
  · rintro ⟨-, hquota, client, hclient, -, ⟨-, hlink, hcheck⟩, rfl⟩
    exact ⟨hquota, client, hclient, hlink, hcheck, rfl⟩
  · rintro ⟨hquota, client, hclient, hlink, hcheck, rfl⟩
    exact ⟨(), hquota, client, hclient, (), ⟨(), hlink, hcheck⟩, rfl⟩

theorem createClient_ok {env : CreateClientEnv} {auth : AuthUser} {req : CreateClientRequest}
    {result : QuotaDb × Client} (h : db.createClient env (some auth) req = .ok result) :
    db.insertClient (newClient env auth req) env.insertError = .ok result := by
  simp only [createClient, bind_eq_ok, okOr_eq_ok, Option.some.injEq, exists_eq_left'] at h
  obtain ⟨-, -, hinsert⟩ := h
  exact hinsert

theorem adjustUserQuota_eq_ok {auth : AuthUser} {quotaChangeGb : ℚ} {db' : QuotaDb} :
    (∃ message, db.adjustUserQuota now (some auth) userId quotaChangeGb = .ok (db', message)) ↔
      auth.isAdmin = true ∧ ∃ user, db.users.find userId = some user ∧
        0 ≤ user.trafficQuotaGb.getD 0 + quotaChangeGb ∧
        (quotaChangeGb < 0 → bytesToGb user.totalUsed + db.linkedQuotaGb userId ≤
          user.trafficQuotaGb.getD 0 + quotaChangeGb) ∧
        db' = db.setUserQuota now userId (user.trafficQuotaGb.getD 0 + quotaChangeGb) := by
  simp only [adjustUserQuota, bind_eq_ok, okOr_eq_ok, require_eq_ok, onlyIf_eq_ok,
    decide_eq_true_eq, pure, Except.pure, Except.ok.injEq, Prod.mk.injEq, Option.some.injEq,
    exists_eq_left']
  constructor
  · rintro ⟨_, -, hadmin, user, huser, -, hquota, -, hcheck, rfl, -⟩
    exact ⟨hadmin, user, huser, hquota, hcheck, rfl⟩
  · rintro ⟨hadmin, user, huser, hquota, hcheck, rfl⟩
    exact ⟨_, (), hadmin, user, huser, (), hquota, (), hcheck, rfl, rfl⟩

theorem getUserQuotaInfo_ok {auth : Option AuthUser} {info : UserQuotaInfo}
    (h : db.getUserQuotaInfo auth userId = .ok info) :
    info.allocatedToClientsGb = db.linkedQuotaGb userId ∧
      ∃ user, db.users.find userId = some user ∧
        (user.trafficQuotaGb = none ∧ info.availableGb = ⊤ ∨
          ∃ quota, user.trafficQuotaGb = some quota ∧ info.availableGb =
            ↑(max (quota - bytesToGb user.totalUsed - db.linkedQuotaGb userId) 0)) := by
  simp only [getUserQuotaInfo, bind_eq_ok, okOr_eq_ok, require_eq_ok, pure, Except.pure,
    Except.ok.injEq] at h
  obtain ⟨_, rfl, -, -, user, huser, rfl⟩ := h
  refine ⟨rfl, user, huser, ?_⟩
  cases hquota : user.trafficQuotaGb with
  | none => exact .inl ⟨rfl, by simp only [getUserFinalQuota, hquota]⟩
  | some quota => exact .inr ⟨quota, rfl, by simp only [getUserFinalQuota, hquota]⟩

/-! ## The paths -/

/-- What the user uses and has handed out stays within the user's quota. -/
def FitsQuota (db : QuotaDb) (userId : ℤ) : Prop :=
  ∀ user ∈ db.users.find userId, ∀ quota ∈ user.trafficQuotaGb,
    bytesToGb user.totalUsed + db.ownedQuotaGb userId ≤ quota

/-- The sum that decides on the quotas of clients is shown to the user, decides on
a decrease of the user's quota, and leaves available what is shown to be so. -/
structure PathsAgree (db : QuotaDb) (userId : ℤ) : Prop where
  sums : db.ownedQuotaGb userId = db.linkedQuotaGb userId
  shown : ∀ auth info, db.getUserQuotaInfo auth userId = .ok info →
    info.allocatedToClientsGb = db.ownedQuotaGb userId
  decrease : ∀ now auth user quotaChangeGb, auth.isAdmin = true →
    db.users.find userId = some user → quotaChangeGb < 0 →
    0 ≤ user.trafficQuotaGb.getD 0 + quotaChangeGb →
    ((∃ db' message, db.adjustUserQuota now (some auth) userId quotaChangeGb = .ok (db', message)) ↔
      bytesToGb user.totalUsed + db.ownedQuotaGb userId ≤
        user.trafficQuotaGb.getD 0 + quotaChangeGb)
  increase : ∀ now auth clientId client quotaGb info, auth.id = userId → auth.isAdmin = false →
    (db.userClients.find (userId, clientId)).isSome → db.clients.find clientId = some client →
    0 ≤ quotaGb → client.allocatedGb < quotaGb →
    db.getUserQuotaInfo (some auth) userId = .ok info →
    ((∃ result, db.allocateClientQuota now (some auth) clientId quotaGb = .ok result) ↔
      ↑(quotaGb - client.allocatedGb) ≤ info.availableGb)

/-- An increase finds room exactly when it is at most what is shown to be available. -/
theorem hasRoom_iff_le_available (hsums : db.ownedQuotaGb userId = db.linkedQuotaGb userId)
    {auth : Option AuthUser} {info : UserQuotaInfo}
    (hinfo : db.getUserQuotaInfo auth userId = .ok info) {diff : ℚ} (hdiff : 0 < diff) :
    db.HasRoom userId diff ↔ ↑diff ≤ info.availableGb := by
  obtain ⟨-, user, huser, ⟨hquota, havailable⟩ | ⟨quota, hquota, havailable⟩⟩ :=
    getUserQuotaInfo_ok hinfo
  · simp [HasRoom, huser, hquota, havailable]
  · simp only [HasRoom, huser, hquota, havailable, Option.mem_def, Option.some.injEq, forall_eq',
      WithTop.coe_le_coe, le_max_iff, hdiff.not_ge, or_false, hsums]
    constructor <;> intro h <;> linarith

theorem pathsAgree_iff :
    db.PathsAgree userId ↔ db.ownedQuotaGb userId = db.linkedQuotaGb userId := by
  refine ⟨PathsAgree.sums, fun hsums ↦ ⟨hsums, ?_, ?_, ?_⟩⟩
  · intro auth info hinfo
    rw [(getUserQuotaInfo_ok hinfo).1, hsums]
  · intro now auth user change hadmin huser hneg hnew
    simp only [adjustUserQuota_eq_ok, huser, hadmin, hsums, hnew, hneg, Option.some.injEq,
      exists_eq_left', true_and, forall_const]
    simp
  · intro now auth clientId client quotaGb info hid hadmin hlink hclient hquota hlt hinfo
    subst hid
    have hdiff : 0 < quotaGb - client.allocatedGb := sub_pos.mpr hlt
    rw [← hasRoom_iff_le_available hsums hinfo hdiff]
    simp only [allocateClientQuota_eq_ok hadmin, hclient, hlink, hquota, Option.some.injEq,
      exists_eq_left', true_and, hdiff, forall_const, checkUserQuotaAllocation_iff]
    obtain ⟨-, user, huser, -⟩ := getUserQuotaInfo_ok hinfo
    simp [huser]

/-! ## Runs -/

inductive Request
  | allocate (now : NaiveDateTime) (auth : AuthUser) (clientId : ℤ) (quotaGb : ℚ)
  | create (env : CreateClientEnv) (auth : AuthUser) (req : CreateClientRequest)
  | adjust (now : NaiveDateTime) (auth : AuthUser) (userId : ℤ) (quotaChangeGb : ℚ)

/-- A request that succeeds; no administrator allocates. -/
def step (db : QuotaDb) : Request → Option QuotaDb
  | .allocate now auth clientId quotaGb =>
      if auth.isAdmin then none
      else (db.allocateClientQuota now (some auth) clientId quotaGb).toOption.map Prod.fst
  | .create env auth req => (db.createClient env (some auth) req).toOption.map Prod.fst
  | .adjust now auth userId quotaChangeGb =>
      (db.adjustUserQuota now (some auth) userId quotaChangeGb).toOption.map Prod.fst

theorem toOption_map_fst_eq_some {ε α β : Type*} {e : Except ε (α × β)} {a : α} :
    e.toOption.map Prod.fst = some a ↔ ∃ b, e = .ok (a, b) := by
  cases e <;> simp [Except.toOption, Prod.ext_iff]

/-- The condition on a request, for a user and as to whether the user's quota is to be kept.
An allocation goes to a client that the user owns and is linked to, or neither, and one that
another user makes has room.  A client that the user creates has no quota.  A user without a
quota gets one that suffices. -/
def Regular (userId : ℤ) (limited : Prop) (db : QuotaDb) : Request → Prop
  | .allocate _ auth clientId quotaGb => ∀ client ∈ db.clients.find clientId,
      (quotaGb = client.allocatedGb ∨
        (client.userId = some userId ↔ (db.userClients.find (userId, clientId)).isSome)) ∧
      (limited → client.userId = some userId → auth.id ≠ userId →
        db.HasRoom userId (quotaGb - client.allocatedGb))
  | .create _ auth req => auth.id = userId → req.trafficQuotaGb.getD 0 = 0
  | .adjust _ _ id quotaChangeGb => limited → id = userId → ∀ user ∈ db.users.find userId,
      user.trafficQuotaGb = none →
        bytesToGb user.totalUsed + db.ownedQuotaGb userId ≤ quotaChangeGb

section Step

variable {db' : QuotaDb} {limited : Prop}

theorem hasRoom_zero_iff : db.HasRoom userId 0 ↔ db.FitsQuota userId := by
  simp only [HasRoom, FitsQuota, add_zero]

theorem FitsQuota.hasRoom (h : db.FitsQuota userId) {diff : ℚ} (hdiff : diff ≤ 0) :
    db.HasRoom userId diff := by
  intro user huser quota hquota
  have hfits := h user huser quota hquota
  linarith

/-- A change of the two sums keeps them equal if it is one change, and the quota if
there is room for it. -/
theorem keeps_iff (hsums : db.ownedQuotaGb userId = db.linkedQuotaGb userId)
    (husers : db'.users = db.users) {a b : ℚ}
    (howned : db'.ownedQuotaGb userId = db.ownedQuotaGb userId + a)
    (hlinked : db'.linkedQuotaGb userId = db.linkedQuotaGb userId + b) :
    db'.PathsAgree userId ∧ (limited → db'.FitsQuota userId) ↔
      a = b ∧ (limited → db.HasRoom userId a) := by
  refine and_congr ?_ (imp_congr_right fun _ ↦ ?_)
  · rw [pathsAgree_iff, howned, hlinked, hsums, add_right_inj]
  · simp only [FitsQuota, HasRoom, husers, howned, add_assoc]

theorem allocate_keeps_iff {auth : AuthUser} (hadmin : auth.isAdmin = false)
    (hsums : db.ownedQuotaGb userId = db.linkedQuotaGb userId)
    (hfits : limited → db.FitsQuota userId) {message : String}
    (h : db.allocateClientQuota now (some auth) clientId quotaGb = .ok (db', message)) :
    db'.PathsAgree userId ∧ (limited → db'.FitsQuota userId) ↔
      Regular userId limited db (.allocate now auth clientId quotaGb) := by
  obtain ⟨-, client, hclient, -, hcheck, hresult⟩ := (allocateClientQuota_eq_ok hadmin).mp h
  obtain ⟨rfl, -⟩ := Prod.mk.inj hresult
  have husers : (db.setClientQuota now clientId quotaGb).users = db.users := rfl
  rw [keeps_iff hsums husers (ownedQuotaGb_setClientQuota hclient)
    (linkedQuotaGb_setClientQuota hclient)]
  simp only [Regular, hclient, Option.mem_def, Option.some.injEq, forall_eq']
  refine and_congr ?_ (imp_congr_right fun hlimited ↦ ?_)
  · by_cases howned : client.userId = some userId <;>
      by_cases hlinked : (db.userClients.find (userId, clientId)).isSome <;>
      simp [howned, hlinked, sub_eq_zero, eq_comm (a := (0 : ℚ))]
  · by_cases howned : client.userId = some userId
    · simp only [howned, if_true, forall_const]
      refine ⟨fun hroom _ ↦ hroom, fun hroom ↦ ?_⟩
      by_cases hid : auth.id = userId
      · -- The user's own request was checked, or it is no increase.
        subst hid
        rcases lt_or_ge 0 (quotaGb - client.allocatedGb) with hpos | hneg
        · exact (checkUserQuotaAllocation_iff.mp (hcheck hpos)).2
        · exact (hfits hlimited).hasRoom hneg
      · exact hroom hid
    · simp only [howned, if_false, false_implies, iff_true]
      exact hasRoom_zero_iff.mpr (hfits hlimited)

theorem create_keeps_iff {env : CreateClientEnv} {auth : AuthUser} {req : CreateClientRequest}
    (hsums : db.ownedQuotaGb userId = db.linkedQuotaGb userId)
    (hfits : limited → db.FitsQuota userId)
    (h : db.createClient env (some auth) req = .ok (db', client)) :
    db'.PathsAgree userId ∧ (limited → db'.FitsQuota userId) ↔
      Regular userId limited db (.create env auth req) := by
  have hinsert := createClient_ok h
  obtain ⟨howned, hlinked⟩ := sums_insertClient hinsert
  rw [keeps_iff hsums (insertClient_ok hinsert).1 howned (hlinked.trans (add_zero _).symm)]
  simp only [newClient, Option.some.injEq, Client.allocatedGb, Regular]
  rw [← ite_eq_right_iff]
  refine and_iff_left_of_imp fun hzero hlimited ↦ ?_
  rw [hzero]
  exact hasRoom_zero_iff.mpr (hfits hlimited)

theorem adjust_keeps_iff {auth : AuthUser} {id : ℤ} {quotaChangeGb : ℚ}
    (hsums : db.ownedQuotaGb userId = db.linkedQuotaGb userId)
    (hfits : limited → db.FitsQuota userId) {message : String}
    (h : db.adjustUserQuota now (some auth) id quotaChangeGb = .ok (db', message)) :
    db'.PathsAgree userId ∧ (limited → db'.FitsQuota userId) ↔
      Regular userId limited db (.adjust now auth id quotaChangeGb) := by
  obtain ⟨-, user, huser, -, hcheck, rfl⟩ := adjustUserQuota_eq_ok.mp ⟨message, h⟩
  have hagree : (db.setUserQuota now id (user.trafficQuotaGb.getD 0 + quotaChangeGb)).PathsAgree
      userId := pathsAgree_iff.mpr hsums
  rw [and_iff_right hagree]
  refine imp_congr_right fun hlimited ↦ ?_
  by_cases hid : id = userId
  · subst hid
    simp only [FitsQuota, setUserQuota, Table.find_modify, if_true, huser, Option.map_some,
      Option.mem_def, Option.some.injEq, forall_eq', forall_const]
    change bytesToGb user.totalUsed + db.ownedQuotaGb id ≤ _ ↔ _
    cases hquota : user.trafficQuotaGb with
    | none => simp
    | some quota =>
        simp only [reduceCtorEq, false_implies, iff_true, Option.getD_some]
        rcases lt_or_ge quotaChangeGb 0 with hneg | hpos
        · -- A decrease was checked against the other sum.
          have hcovered := hcheck hneg
          rw [hquota, Option.getD_some, ← hsums] at hcovered
          exact hcovered
        · have hbefore := hfits hlimited user huser quota hquota
          linarith
  · simp only [hid, false_implies, iff_true]
    have hother : (db.setUserQuota now id (user.trafficQuotaGb.getD 0 + quotaChangeGb)).users.find
        userId = db.users.find userId := by
      rw [setUserQuota, Table.find_modify, if_neg (Ne.symm hid)]
    intro user' huser'
    rw [hother] at huser'
    exact hfits hlimited user' huser'

/-- A request keeps the paths in agreement exactly when it is regular. -/
theorem step_keeps_iff {request : Request} (hsums : db.PathsAgree userId)
    (hfits : limited → db.FitsQuota userId) (hstep : step db request = some db') :
    db'.PathsAgree userId ∧ (limited → db'.FitsQuota userId) ↔
      Regular userId limited db request := by
  cases request with
  | allocate now auth clientId quotaGb =>
      simp only [step] at hstep
      split_ifs at hstep with hadmin
      obtain ⟨message, h⟩ := toOption_map_fst_eq_some.mp hstep
      exact allocate_keeps_iff (Bool.eq_false_iff.mpr hadmin) hsums.sums hfits h
  | create env auth req =>
      obtain ⟨client, h⟩ := toOption_map_fst_eq_some.mp hstep
      exact create_keeps_iff hsums.sums hfits h
  | adjust now auth id quotaChangeGb =>
      obtain ⟨message, h⟩ := toOption_map_fst_eq_some.mp hstep
      exact adjust_keeps_iff hsums.sums hfits h

end Step

/-- Throughout a run the paths agree for a user, and the user's quota is kept if it
was at first, exactly when the clients that only one of the sums counts make up the same
at first, and every request is regular. -/
theorem pathsAgree_throughout_iff (userId : ℤ) (db : QuotaDb) (requests : List Request) :
    Throughout step (fun db' ↦
        db'.PathsAgree userId ∧ (db.FitsQuota userId → db'.FitsQuota userId)) db requests ↔
      db.unlinkedQuotaGb userId = db.foreignQuotaGb userId ∧
        Within step (fun db' request ↦ (step db' request).isSome →
          Regular userId (db.FitsQuota userId) db' request) db requests := by
  have hstep : ∀ s request t, s.PathsAgree userId ∧ (db.FitsQuota userId → s.FitsQuota userId) →
      step s request = some t →
      (t.PathsAgree userId ∧ (db.FitsQuota userId → t.FitsQuota userId) ↔
        Regular userId (db.FitsQuota userId) s request) :=
    fun s request t hs ht ↦ step_keeps_iff hs.1 hs.2 ht
  rw [throughout_iff_within hstep, pathsAgree_iff, and_iff_left id,
    ownedQuotaGb_eq_linkedQuotaGb_iff]

/-- A user with a quota of ten creates a client with one of twenty.  The client is not
linked to the user, so that nothing is shown to be handed out. -/
theorem not_pathsAgree_createdClient : ∃ (db db' : QuotaDb) (request : Request),
    db.FitsQuota 1 ∧ db.PathsAgree 1 ∧ step db request = some db' ∧
      db'.ownedQuotaGb 1 = 20 ∧ db'.linkedQuotaGb 1 = 0 ∧ ¬ db'.FitsQuota 1 ∧
      ¬ db'.PathsAgree 1 := by
  let user : User := { marchUser false with trafficQuotaGb := some 10 }
  let db : QuotaDb :=
    { marchDb false with
      users := ⟨[user], List.nodup_singleton _⟩
      clients := .empty
      userClients := .empty
      client_exists := fun _ h ↦ (by cases h) }
  let env : CreateClientEnv := ⟨firstOfApril, "token", 2, ""⟩
  let auth : AuthUser := ⟨1, "ann", false⟩
  let req : CreateClientRequest := ⟨"box", none, none, none, some 20⟩
  have hsome : ((step db (.create env auth req)).any fun db' ↦
      db'.ownedQuotaGb 1 = 20 ∧ db'.linkedQuotaGb 1 = 0 ∧ db'.users.find 1 = some user) = true := by
    decide +kernel
  obtain ⟨db', hstep, hdb'⟩ := (Option.any_eq_true _ _).mp hsome
  obtain ⟨howned, hlinked, huser⟩ := of_decide_eq_true hdb'
  have hused : bytesToGb user.totalUsed = 1 := by decide +kernel
  refine ⟨db, db', .create env auth req, ?_, ?_, hstep, howned, hlinked, fun h ↦ ?_, fun h ↦ ?_⟩
  · have howned₀ : db.ownedQuotaGb 1 = 0 := by decide +kernel
    intro user' huser' quota hquota
    obtain rfl : user = user' := Option.some.inj huser'
    obtain rfl : (10 : ℚ) = quota := Option.some.inj hquota
    rw [hused, howned₀]
    norm_num
  · exact pathsAgree_iff.mpr (by decide +kernel)
  · have hfits := h user huser 10 rfl
    rw [hused, howned] at hfits
    norm_num at hfits
  · have hsums := h.sums
    rw [howned, hlinked] at hsums
    norm_num at hsums

end QuotaDb

end Oxiproxy.Controller
