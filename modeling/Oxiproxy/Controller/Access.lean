import Oxiproxy.Common.Rust
import Oxiproxy.Controller.Entity

/-!
# Access to clients and proxies

The user behind a request, the errors it is answered with, and the checks that
a client, a proxy or a group of proxies belongs to the user.
-/

namespace Oxiproxy.Controller

structure AuthUser where
  id : ℤ
  username : String
  isAdmin : Bool

structure ApiError where
  status : ℕ
  message : String
  deriving DecidableEq

/-- The database queries a request makes. -/
inductive Query
  | client
  | proxy
  | group
  | node
  | userNode
  | userLimit (port : UInt16)
  | nodeLimit (port : UInt16)
  | route (port : UInt16)
  | directProxies
  deriving DecidableEq

/-- The errors of the queries that fail. -/
abbrev QueryErrors := Query → Option String

def QueryErrors.check (errors : QueryErrors) (query : Query) (label : String) :
    Except ApiError Unit :=
  match errors query with
  | none => .ok ()
  | some e => .error ⟨500, label ++ e⟩

def require (condition : Bool) (status : ℕ) (message : String) : Except ApiError Unit :=
  if condition then .ok () else .error ⟨status, message⟩

/-- `ok_or` -/
def okOr {α : Type} (status : ℕ) (message : String) : Option α → Except ApiError α
  | some a => .ok a
  | none => .error ⟨status, message⟩

/-- A check made only under a condition. -/
def onlyIf (condition : Bool) (check : Except ApiError Unit) : Except ApiError Unit :=
  if condition then check else .ok ()

/-- A check of a value, if there is one. -/
def ifSome {α : Type} (o : Option α) (check : α → Except ApiError Unit) : Except ApiError Unit :=
  match o with
  | some a => check a
  | none => .ok ()

section Check

variable {α : Type}

theorem require_eq_ok {condition : Bool} {status : ℕ} {message : String} {u : Unit} :
    require condition status message = .ok u ↔ condition = true := by
  cases condition <;> simp [require]

theorem okOr_eq_ok {status : ℕ} {message : String} {o : Option α} {a : α} :
    okOr status message o = .ok a ↔ o = some a := by
  cases o <;> simp [okOr]

theorem onlyIf_eq_ok {condition : Bool} {check : Except ApiError Unit} {u : Unit} :
    onlyIf condition check = .ok u ↔ (condition = true → check = .ok u) := by
  cases condition <;> simp [onlyIf]

theorem ifSome_eq_ok {o : Option α} {check : α → Except ApiError Unit} {u : Unit} :
    ifSome o check = .ok u ↔ ∀ a, o = some a → check a = .ok u := by
  cases o <;> simp [ifSome]

end Check

variable (errors : QueryErrors) (db : Db) (auth : AuthUser)

def verifyClientOwnership (clientId : ℤ) : Except ApiError Client := do
  errors.check .client "数据库查询失败: "
  let client ← okOr 404 "客户端不存在" (db.clients.find clientId)
  require (auth.isAdmin || client.userId == some auth.id) 403 "无权访问此客户端"
  return client

def verifyProxyOwnership (proxy : Proxy) : Except ApiError Unit :=
  if auth.isAdmin then .ok ()
  else
    match proxy.clientId with
    | none => require (proxy.userId == some auth.id) 403 "无权访问此代理"
    | some clientId => do
        let clientId ← okOr 500 "无效的客户端 ID" (parseI64 clientId)
        errors.check .client "数据库查询失败: "
        let client ← okOr 404 "关联客户端不存在" (db.clients.find clientId)
        require (client.userId == some auth.id) 403 "无权访问此代理"

/-- Only the first proxy of the group is checked; it is returned apart. -/
def verifyProxyGroupOwnership (groupId : String) : Except ApiError (Proxy × List Proxy) := do
  errors.check .group "查询代理组失败: "
  match db.proxies.rows.filter (·.groupId == some groupId) with
  | [] => .error ⟨404, "代理组不存在"⟩
  | first :: rest =>
      verifyProxyOwnership errors db auth first
      return (first, rest)

/-- The proxy belongs to the user, through its client or as a direct proxy. -/
def Proxy.BelongsTo (proxy : Proxy) : Prop :=
  match proxy.clientId with
  | none => proxy.userId = some auth.id
  | some clientId => ∃ id client, parseI64 clientId = some id ∧ db.clients.find id = some client ∧
      client.userId = some auth.id

variable {errors db auth} {proxy : Proxy}

theorem verifyProxyOwnership_ok (hadmin : auth.isAdmin = false)
    (h : verifyProxyOwnership errors db auth proxy = .ok ()) : proxy.BelongsTo db auth := by
  unfold verifyProxyOwnership at h
  unfold Proxy.BelongsTo
  rw [hadmin, if_neg Bool.false_ne_true] at h
  split at h
  · rw [require_eq_ok, beq_iff_eq] at h
    exact h
  · simp only [bind_eq_ok, okOr_eq_ok, require_eq_ok, beq_iff_eq] at h
    obtain ⟨id, hid, -, -, client, hclient, howner⟩ := h
    exact ⟨id, client, hid, hclient, howner⟩

theorem verifyProxyGroupOwnership_ok {groupId : String} {first : Proxy} {rest : List Proxy}
    (h : verifyProxyGroupOwnership errors db auth groupId = .ok (first, rest)) :
    db.proxies.rows.filter (·.groupId == some groupId) = first :: rest ∧
      verifyProxyOwnership errors db auth first = .ok () := by
  simp only [verifyProxyGroupOwnership, bind_eq_ok] at h
  obtain ⟨-, -, h⟩ := h
  split at h
  · cases h
  · rename_i hrows
    obtain ⟨u, hverify, h⟩ := bind_eq_ok.mp h
    cases h
    exact ⟨hrows, hverify⟩

end Oxiproxy.Controller
