import Oxiproxy.Common.Float
import Oxiproxy.Controller.Access
import Oxiproxy.Foundation.Runs

/-!
# User subscriptions

Creating, updating, deleting and expiring the subscriptions of users.  Every
database call is one step and may fail; the handlers run one at a time, while
the expiry sweep may take its steps between theirs.  The quotas of a
subscription are merged into the columns of its user and rolled back from them.
-/

namespace Oxiproxy.Controller

structure Subscription where
  id : ℤ
  durationType : String
  durationValue : ℤ
  trafficQuotaGb : ℚ
  maxPortCount : Option ℤ
  maxNodeCount : Option ℤ
  maxClientCount : Option ℤ
  deriving DecidableEq

structure CreateUserSubscriptionRequest where
  userId : ℤ
  subscriptionId : ℤ
  startDate : Option String

structure UpdateUserSubscriptionRequest where
  isActive : Option Bool
  trafficUsedGb : Option ℚ

/-- The date functions of the time library. -/
structure Chrono where
  /-- `NaiveDateTime::parse_from_str` with `"%Y-%m-%d %H:%M:%S"` -/
  parseDateTime : String → Option NaiveDateTime
  addDays : NaiveDateTime → ℤ → NaiveDateTime

/-- The quotas a subscription adds to its user. -/
structure QuotaSnapshot where
  trafficQuotaGb : ℚ
  maxPortCount : Option ℤ
  maxNodeCount : Option ℤ
  maxClientCount : Option ℤ
  deriving DecidableEq

def UserSubscription.snapshot (sub : UserSubscription) : QuotaSnapshot :=
  ⟨sub.trafficQuotaGb, sub.maxPortCountSnapshot, sub.maxNodeCountSnapshot,
    sub.maxClientCountSnapshot⟩

def Subscription.endDate (chrono : Chrono) (s : Subscription) (start : NaiveDateTime) :
    NaiveDateTime :=
  chrono.addDays start <| match s.durationType with
    | "daily" => s.durationValue
    | "weekly" => 7 * s.durationValue
    | "monthly" => 30 * s.durationValue
    | "yearly" => 365 * s.durationValue
    | _ => 30

def Subscription.subscribe (chrono : Chrono) (s : Subscription)
    (req : CreateUserSubscriptionRequest) (id : ℤ) (now : NaiveDateTime) : UserSubscription :=
  let start := (req.startDate.bind chrono.parseDateTime).getD now
  { id
    userId := req.userId
    subscriptionId := req.subscriptionId
    startDate := start
    endDate := s.endDate chrono start
    trafficQuotaGb := s.trafficQuotaGb
    trafficUsedGb := 0
    isActive := true
    maxPortCountSnapshot := s.maxPortCount
    maxNodeCountSnapshot := s.maxNodeCount
    maxClientCountSnapshot := s.maxClientCount
    quotaMerged := true
    createdAt := now
    updatedAt := now }

/-- What the machine keeps of an exact result: of a quota in gigabytes and of a limit. -/
structure Numbers where
  gb : ℚ → ℚ
  limit : ℤ → ℤ

namespace Numbers

/-- As if every result could be kept. -/
def exact : Numbers := ⟨id, id⟩

/-- `f64`, and `i32` that wraps around -/
def machine : Numbers := ⟨F64.nearest, (Int.bmod · (2 ^ 32))⟩

end Numbers

inductive QuotaChange
  | merge
  | rollback
  deriving DecidableEq

/-- A new quota from the one that was read; a rollback stops at zero. -/
def QuotaChange.amount {G : Type*} [AddGroup G] [LinearOrder G] (keep : G → G) :
    QuotaChange → G → G → G
  | .merge, current, q => keep (current + q)
  | .rollback, current, q => max (keep (current - q)) 0

def QuotaChange.limit (numbers : Numbers) (change : QuotaChange) (read q current : Option ℤ) :
    Option ℤ :=
  match q with
  | some n => some (change.amount numbers.limit (read.getD 0) n)
  | none => current

/-- `merge_subscription_quota_to_user` and `rollback_subscription_quota_from_user`:
the columns written to the user's row, computed from the user that was read. -/
def QuotaChange.apply (numbers : Numbers) (change : QuotaChange) (read : User) (q : QuotaSnapshot)
    (now : NaiveDateTime) (u : User) : User :=
  { u with
    trafficQuotaGb :=
      some (change.amount numbers.gb (read.trafficQuotaGb.getD 0) q.trafficQuotaGb)
    maxPortCount := change.limit numbers read.maxPortCount q.maxPortCount u.maxPortCount
    maxNodeCount := change.limit numbers read.maxNodeCount q.maxNodeCount u.maxNodeCount
    maxClientCount := change.limit numbers read.maxClientCount q.maxClientCount u.maxClientCount
    updatedAt := now }

theorem QuotaChange.key_apply (numbers : Numbers) (change : QuotaChange) (read : User)
    (q : QuotaSnapshot) (now : NaiveDateTime) (u : User) :
    key (change.apply numbers read q now u) = key u := rfl

/-- The two database calls of a change of quota. -/
inductive QuotaStage
  | findUser
  | updateUser (read : User)
  deriving DecidableEq

/-- What a request is answered. -/
inductive SubscriptionReply
  | created (sub : UserSubscription)
  | updated (sub : UserSubscription)
  | deleted
  | error (e : ApiError)
  deriving DecidableEq

inductive SubscriptionHandler
  | idle (reply : Option SubscriptionReply)
  | findUser (req : CreateUserSubscriptionRequest)
  | findSubscription (req : CreateUserSubscriptionRequest)
  | insert (req : CreateUserSubscriptionRequest) (plan : Subscription)
  | mergeCreated (sub : UserSubscription) (stage : QuotaStage)
  | findToUpdate (id : ℤ) (req : UpdateUserSubscriptionRequest)
  | adjust (sub : UserSubscription) (req : UpdateUserSubscriptionRequest) (change : QuotaChange)
      (stage : QuotaStage)
  /-- With the change of quota that was attempted, and whether it took place. -/
  | updateRow (sub : UserSubscription) (req : UpdateUserSubscriptionRequest)
      (changed : Option (QuotaChange × Bool))
  | findToDelete (id : ℤ)
  | rollbackDeleted (sub : UserSubscription) (stage : QuotaStage)
  | deleteRow (sub : UserSubscription) (changed : Option (QuotaChange × Bool))

/-- `expire_subscriptions` -/
inductive ExpirySweep
  | idle
  | find (now : NaiveDateTime)
  | next (subs : List UserSubscription) (now : NaiveDateTime)
  | rollback (sub : UserSubscription) (rest : List UserSubscription) (now : NaiveDateTime)
      (stage : QuotaStage)
  | deactivate (sub : UserSubscription) (rest : List UserSubscription) (now : NaiveDateTime)
      (changed : Option (QuotaChange × Bool))

structure SubscriptionState where
  db : Db
  handler : SubscriptionHandler
  sweep : ExpirySweep
  /-- The quotas that have been merged, and to which user. -/
  merges : List (ℤ × QuotaSnapshot)

/-- One database call: its outcome, the clock, and for the calls that need it
the id of a new row or the subscription that is found. -/
structure SubscriptionEnv where
  ok : Bool
  error : String
  now : NaiveDateTime
  rowId : ℤ
  plan : Option Subscription

inductive SubscriptionInput
  | create (auth : Option AuthUser) (req : CreateUserSubscriptionRequest)
  | update (auth : Option AuthUser) (id : ℤ) (req : UpdateUserSubscriptionRequest)
  | delete (auth : Option AuthUser) (id : ℤ)
  | handler (env : SubscriptionEnv)
  | expire (now : NaiveDateTime)
  | sweep (env : SubscriptionEnv)

/-- One call of a change of quota: the next stage, or whether it took place. -/
def quotaStep (numbers : Numbers) (env : SubscriptionEnv) (db : Db) (change : QuotaChange)
    (sub : UserSubscription) : QuotaStage → Db × (QuotaStage ⊕ Bool)
  | .findUser =>
      match if env.ok then db.users.find sub.userId else none with
      | some read => (db, .inl (.updateUser read))
      | none => (db, .inr false)
  | .updateUser read =>
      if env.ok ∧ (db.users.find read.id).isSome then
        ({ db with
            users := db.users.modify read.id (change.apply numbers read sub.snapshot env.now)
              (QuotaChange.key_apply numbers change read sub.snapshot env.now) }, .inr true)
      else (db, .inr false)

/-- The merges that a call has completed. -/
def quotaMerges (change : QuotaChange) (sub : UserSubscription) :
    QuotaStage ⊕ Bool → List (ℤ × QuotaSnapshot)
  | .inr true => if change = .merge then [(sub.userId, sub.snapshot)] else []
  | _ => []

/-- Only an authenticated admin gets past the first checks. -/
def requireAdmin (auth : Option AuthUser) (next : SubscriptionHandler) : SubscriptionHandler :=
  match auth with
  | none => .idle (some (.error ⟨401, "未认证"⟩))
  | some user => if user.isAdmin then next else .idle (some (.error ⟨403, "需要管理员权限"⟩))

/-- The columns `update_user_subscription` sets. -/
def UserSubscription.applyUpdate (req : UpdateUserSubscriptionRequest)
    (changed : Option (QuotaChange × Bool)) (now : NaiveDateTime) (row : UserSubscription) :
    UserSubscription :=
  { row with
    isActive := req.isActive.getD row.isActive
    quotaMerged := row.quotaMerged || changed.any (·.1 = .merge)
    trafficUsedGb := req.trafficUsedGb.getD row.trafficUsedGb
    updatedAt := now }

theorem UserSubscription.key_applyUpdate (req : UpdateUserSubscriptionRequest)
    (changed : Option (QuotaChange × Bool)) (now : NaiveDateTime) (row : UserSubscription) :
    key (row.applyUpdate req changed now) = key row := rfl

def UserSubscription.deactivate (now : NaiveDateTime) (row : UserSubscription) :
    UserSubscription :=
  { row with isActive := false, updatedAt := now }

theorem UserSubscription.key_deactivate (now : NaiveDateTime) (row : UserSubscription) :
    key (row.deactivate now) = key row := rfl

/-- Where an update goes once it has read the row. -/
def updateFound (sub : UserSubscription) (req : UpdateUserSubscriptionRequest) :
    SubscriptionHandler :=
  if sub.isActive ∧ req.isActive = some false ∧ sub.quotaMerged then
    .adjust sub req .rollback .findUser
  else if ¬ sub.isActive ∧ req.isActive = some true then .adjust sub req .merge .findUser
  else .updateRow sub req none

def handlerStep (numbers : Numbers) (chrono : Chrono) (env : SubscriptionEnv)
    (s : SubscriptionState) : Option SubscriptionState :=
  match s.handler with
  | .idle _ => none
  | .findUser req =>
      if env.ok ∧ (s.db.users.find req.userId).isSome then
        some { s with handler := .findSubscription req }
      else some { s with handler := .idle (some (.error ⟨400, "用户不存在"⟩)) }
  | .findSubscription req =>
      if ¬ env.ok then
        some { s with handler := .idle (some (.error ⟨500, "查询订阅套餐失败: " ++ env.error⟩)) }
      else
        match env.plan with
        | some plan => some { s with handler := .insert req plan }
        | none => some { s with handler := .idle (some (.error ⟨400, "订阅套餐不存在"⟩)) }
  | .insert req plan =>
      if ¬ env.ok then
        some { s with handler := .idle (some (.error ⟨500, "创建用户订阅失败: " ++ env.error⟩)) }
      else
        let sub := plan.subscribe chrono req env.rowId env.now
        if hfresh : key sub ∉ s.db.userSubscriptions.rows.map key then
          some { s with
            db := { s.db with userSubscriptions := s.db.userSubscriptions.insert sub hfresh }
            handler := .mergeCreated sub .findUser }
        else none
  | .mergeCreated sub stage =>
      let (db, result) := quotaStep numbers env s.db .merge sub stage
      let handler := match result with
        | .inl stage => .mergeCreated sub stage
        | .inr _ => .idle (some (.created sub))
      some { s with db, handler, merges := s.merges ++ quotaMerges .merge sub result }
  | .findToUpdate id req =>
      if ¬ env.ok then
        some { s with handler := .idle (some (.error ⟨500, "查询用户订阅失败: " ++ env.error⟩)) }
      else
        match s.db.userSubscriptions.find id with
        | some sub => some { s with handler := updateFound sub req }
        | none => some { s with handler := .idle (some (.error ⟨404, "用户订阅不存在"⟩)) }
  | .adjust sub req change stage =>
      let (db, result) := quotaStep numbers env s.db change sub stage
      let handler := match result with
        | .inl stage => .adjust sub req change stage
        | .inr done => .updateRow sub req (some (change, done))
      some { s with db, handler, merges := s.merges ++ quotaMerges change sub result }
  | .updateRow sub req changed =>
      match if env.ok then s.db.userSubscriptions.find sub.id else none with
      | some row =>
          some { s with
            db := { s.db with
              userSubscriptions := s.db.userSubscriptions.modify sub.id
                (·.applyUpdate req changed env.now)
                (UserSubscription.key_applyUpdate req changed env.now) }
            handler := .idle (some (.updated (row.applyUpdate req changed env.now))) }
      | none =>
          some { s with handler := .idle (some (.error ⟨500, "更新用户订阅失败: " ++ env.error⟩)) }
  | .findToDelete id =>
      if ¬ env.ok then
        some { s with handler := .idle (some (.error ⟨500, "查询用户订阅失败: " ++ env.error⟩)) }
      else
        match s.db.userSubscriptions.find id with
        | some sub =>
            let handler := if sub.isActive && sub.quotaMerged then .rollbackDeleted sub .findUser
              else .deleteRow sub none
            some { s with handler }
        | none => some { s with handler := .idle (some (.error ⟨404, "用户订阅不存在"⟩)) }
  | .rollbackDeleted sub stage =>
      let (db, result) := quotaStep numbers env s.db .rollback sub stage
      let handler := match result with
        | .inl stage => .rollbackDeleted sub stage
        | .inr done => .deleteRow sub (some (.rollback, done))
      some { s with db, handler }
  | .deleteRow sub _ =>
      if env.ok then
        some { s with
          db := { s.db with userSubscriptions := s.db.userSubscriptions.erase sub.id }
          handler := .idle (some .deleted) }
      else
        some { s with handler := .idle (some (.error ⟨500, "删除用户订阅失败: " ++ env.error⟩)) }

def sweepStep (numbers : Numbers) (env : SubscriptionEnv) (s : SubscriptionState) :
    Option SubscriptionState :=
  match s.sweep with
  | .idle => none
  | .find now =>
      if env.ok then
        let expired := s.db.userSubscriptions.rows.filter fun sub ↦ sub.isActive && sub.endDate < now
        some { s with sweep := .next expired now }
      else some { s with sweep := .idle }
  | .next [] _ => some { s with sweep := .idle }
  | .next (sub :: rest) now =>
      let sweep := if sub.quotaMerged then .rollback sub rest now .findUser
        else .deactivate sub rest now none
      some { s with sweep }
  | .rollback sub rest now stage =>
      let (db, result) := quotaStep numbers env s.db .rollback sub stage
      let sweep := match result with
        | .inl stage => .rollback sub rest now stage
        | .inr true => .deactivate sub rest now (some (.rollback, true))
        | .inr false => .next rest now
      some { s with db, sweep }
  | .deactivate sub rest now _ =>
      if env.ok then
        some { s with
          db := { s.db with
            userSubscriptions := s.db.userSubscriptions.modify sub.id (·.deactivate now)
              (UserSubscription.key_deactivate now) }
          sweep := .next rest now }
      else some { s with sweep := .next rest now }

def subscriptionStep (numbers : Numbers) (chrono : Chrono) (s : SubscriptionState) :
    SubscriptionInput → Option SubscriptionState
  | .create auth req =>
      match s.handler with
      | .idle _ => some { s with handler := requireAdmin auth (.findUser req) }
      | _ => none
  | .update auth id req =>
      match s.handler with
      | .idle _ => some { s with handler := requireAdmin auth (.findToUpdate id req) }
      | _ => none
  | .delete auth id =>
      match s.handler with
      | .idle _ => some { s with handler := requireAdmin auth (.findToDelete id) }
      | _ => none
  | .handler env => handlerStep numbers chrono env s
  | .expire now =>
      match s.sweep with
      | .idle => some { s with sweep := .find now }
      | _ => none
  | .sweep env => sweepStep numbers env s

/-- No request and no sweep is under way. -/
def SubscriptionState.Quiescent (s : SubscriptionState) : Prop :=
  (∃ reply, s.handler = .idle reply) ∧ s.sweep = .idle

end Oxiproxy.Controller
