import Oxiproxy.Controller.QuotaAllocation
import Oxiproxy.Foundation.CheckThenAct

/-!
# The number of clients and nodes of a user

A user may have so many clients, and so many nodes may be assigned to a user.  A
request counts what there is and inserts its row in a later statement, while other
requests are handled.  A limit is compared as an unsigned number, so that a negative
one limits nothing.
-/

namespace Oxiproxy.Controller

open Transition CheckThenAct

/-- Whether a statement to the database succeeds, and the text of its error. -/
structure Statement where
  ok : Bool
  error : String

/-! ## Creating a client -/

inductive CreateStage
  | findUser
  | countClients (auth : AuthUser) (maxCount : ℤ)
  | insert (auth : AuthUser)
  | returned (result : Except ApiError Client)

/-- A call of `create_client`. -/
structure CreateCall where
  env : CreateClientEnv
  auth : Option AuthUser
  req : CreateClientRequest
  stage : CreateStage

def clientCount (db : QuotaDb) (userId : ℤ) : ℕ :=
  (db.clients.rows.filter (·.userId = some userId)).length

namespace CreateCall

def reply (call : CreateCall) (result : Except ApiError Client) : CreateCall :=
  { call with stage := .returned result }

/-- The next statement of a call. -/
def next (db : QuotaDb) (call : CreateCall) (statement : Statement) :
    Option (QuotaDb × CreateCall) :=
  match call.stage with
  | .findUser =>
      match call.auth with
      | none => some (db, call.reply (.error ⟨401, "未认证"⟩))
      | some auth =>
          -- without the row of the user there is no limit
          match if statement.ok then db.users.find auth.id else none with
          | some user =>
              match (getUserFinalQuota user).2.2.2 with
              | some maxCount => some (db, { call with stage := .countClients auth maxCount })
              | none => some (db, { call with stage := .insert auth })
          | none => some (db, { call with stage := .insert auth })
  | .countClients auth maxCount =>
      if statement.ok then
        let currentCount := clientCount db auth.id
        if currentCount < asU64 maxCount then some (db, { call with stage := .insert auth })
        else some (db, call.reply (.error ⟨400,
          "已达到最大客户端数量限制: " ++ toString currentCount ++ "/" ++ toString maxCount⟩))
      else some (db, call.reply (.error ⟨500, "查询客户端数量失败: " ++ statement.error⟩))
  | .insert auth =>
      if statement.ok then
        match db.insertClient (QuotaDb.newClient call.env auth call.req) call.env.insertError with
        | .ok (db', client) => some (db', call.reply (.ok client))
        | .error e => some (db, call.reply (.error e))
      else some (db, call.reply (.error ⟨500, "Failed to create client: " ++ statement.error⟩))
  | .returned _ => none

def start (env : CreateClientEnv) (auth : Option AuthUser) (req : CreateClientRequest) :
    CreateCall := ⟨env, auth, req, .findUser⟩

/-- The call is of the user and has not returned. -/
def isLive (userId : ℤ) (call : CreateCall) : Bool :=
  match call.stage with
  | .findUser => call.auth.map (·.id) = some userId
  | .countClients auth _ | .insert auth => auth.id = userId
  | .returned _ => false

/-- The call is of the user, and its next statement inserts the row. -/
def hasPassed (userId : ℤ) (call : CreateCall) : Bool :=
  match call.stage with
  | .insert auth => auth.id = userId
  | _ => false

def gauge (userId : ℤ) : Gauge QuotaDb CreateCall where
  count db := clientCount db userId
  live := isLive userId
  passed := hasPassed userId
  live_of_passed call h := by
    unfold hasPassed at h
    unfold isLive
    cases hstage : call.stage <;> simp_all

/-- A limit of the user that the call has read is within the bound. -/
def Reads (userId : ℤ) (limit : ℕ) (call : CreateCall) : Prop :=
  ∀ auth maxCount, call.stage = .countClients auth maxCount → auth.id = userId →
    asU64 maxCount ≤ limit

/-- The row of the user is found, with a limit within the bound. -/
def FindsLimit (userId : ℤ) (limit : ℕ) (db : QuotaDb) (call : CreateCall)
    (statement : Statement) : Prop :=
  ∀ auth, call.stage = .findUser → call.auth = some auth → auth.id = userId →
    statement.ok = true ∧ ∃ user maxCount, db.users.find userId = some user ∧
      user.maxClientCount = some maxCount ∧ asU64 maxCount ≤ limit

/-- At most so many calls of the user are handled at a time, each reads a limit within
the bound, and nothing else gives the user clients. -/
def AtATime (userId : ℤ) (limit requests : ℕ) (s : Shared QuotaDb CreateCall) :
    Input QuotaDb CreateCall Statement → Prop :=
  (gauge userId).Bounded (Reads userId limit) (FindsLimit userId limit) requests s

variable {userId : ℤ} {limit : ℕ} {db db' : QuotaDb} {call call' : CreateCall}
  {statement : Statement}

/-- What the next statement can do. -/
theorem next_cases (h : next db call statement = some (db', call')) :
    (∃ result, call'.stage = .returned result ∧ db' = db) ∨
    (∃ auth, call.stage = .findUser ∧ call.auth = some auth ∧ db' = db ∧
      ((∃ user maxCount, db.users.find auth.id = some user ∧
          user.maxClientCount = some maxCount ∧ call'.stage = .countClients auth maxCount) ∨
        call'.stage = .insert auth ∧ ¬ (statement.ok = true ∧ ∃ user maxCount,
          db.users.find auth.id = some user ∧ user.maxClientCount = some maxCount))) ∨
    (∃ auth maxCount, call.stage = .countClients auth maxCount ∧ call'.stage = .insert auth ∧
      db' = db ∧ clientCount db auth.id < asU64 maxCount) ∨
    (∃ auth client, call.stage = .insert auth ∧ call'.stage = .returned (.ok client) ∧
      db.insertClient (QuotaDb.newClient call.env auth call.req) call.env.insertError =
        .ok (db', client)) := by
  unfold next at h
  cases hstage : call.stage with
  | findUser =>
      simp only [hstage] at h
      cases hauth : call.auth with
      | none =>
          simp only [hauth, Option.some.injEq, Prod.mk.injEq] at h
          obtain ⟨rfl, rfl⟩ := h
          exact .inl ⟨_, rfl, rfl⟩
      | some auth =>
          simp only [hauth] at h
          refine .inr (.inl ⟨auth, rfl, rfl, ?_⟩)
          cases huser : (if statement.ok then db.users.find auth.id else none) with
          | none =>
              simp only [huser, Option.some.injEq, Prod.mk.injEq] at h
              obtain ⟨rfl, rfl⟩ := h
              refine ⟨rfl, .inr ⟨rfl, ?_⟩⟩
              rintro ⟨hok, user, maxCount, hfind, -⟩
              rw [if_pos hok, hfind] at huser
              cases huser
          | some user =>
              simp only [huser, getUserFinalQuota] at h
              split_ifs at huser
              cases hmax : user.maxClientCount with
              | none =>
                  simp only [hmax, Option.some.injEq, Prod.mk.injEq] at h
                  obtain ⟨rfl, rfl⟩ := h
                  refine ⟨rfl, .inr ⟨rfl, ?_⟩⟩
                  rintro ⟨-, user', maxCount, hfind, hmax'⟩
                  obtain rfl := Option.some.inj (huser.symm.trans hfind)
                  cases hmax.symm.trans hmax'
              | some maxCount =>
                  simp only [hmax, Option.some.injEq, Prod.mk.injEq] at h
                  obtain ⟨rfl, rfl⟩ := h
                  exact ⟨rfl, .inl ⟨user, maxCount, huser, hmax, rfl⟩⟩
  | countClients auth maxCount =>
      simp only [hstage] at h
      split_ifs at h with hok hlt
      · simp only [Option.some.injEq, Prod.mk.injEq] at h
        obtain ⟨rfl, rfl⟩ := h
        exact .inr (.inr (.inl ⟨auth, maxCount, rfl, rfl, rfl, hlt⟩))
      all_goals
        simp only [Option.some.injEq, Prod.mk.injEq] at h
        obtain ⟨rfl, rfl⟩ := h
        exact .inl ⟨_, rfl, rfl⟩
  | insert auth =>
      simp only [hstage] at h
      split_ifs at h
      · cases hinsert : db.insertClient (QuotaDb.newClient call.env auth call.req) call.env.insertError with
        | ok result =>
            simp only [hinsert, Option.some.injEq, Prod.mk.injEq] at h
            obtain ⟨rfl, rfl⟩ := h
            exact .inr (.inr (.inr ⟨auth, result.2, rfl, rfl, hinsert⟩))
        | error e =>
            simp only [hinsert, Option.some.injEq, Prod.mk.injEq] at h
            obtain ⟨rfl, rfl⟩ := h
            exact .inl ⟨_, rfl, rfl⟩
      · simp only [Option.some.injEq, Prod.mk.injEq] at h
        obtain ⟨rfl, rfl⟩ := h
        exact .inl ⟨_, rfl, rfl⟩
  | returned result => simp [hstage] at h

theorem clientCount_insertClient {client : Client} {insertError : String} {result : Client}
    (h : db.insertClient client insertError = .ok (db', result)) :
    clientCount db' userId = clientCount db userId + if client.userId = some userId then 1 else 0 := by
  unfold QuotaDb.insertClient at h
  split_ifs at h with hfresh
  obtain ⟨rfl, -⟩ := Prod.mk.inj (Except.ok.inj h)
  simp only [clientCount, Table.insert, List.filter_append, List.length_append]
  split_ifs with huser <;> simp [huser]

theorem guarded (userId : ℤ) (limit : ℕ) :
    (gauge userId).Guarded next (Reads userId limit) (FindsLimit userId limit) limit where
  stays db call statement db' call' _ hfinds h auth maxCount hstage huser := by
    rcases next_cases h with ⟨result, hresult, -⟩ |
      ⟨auth', hfind, hauth, -, ⟨user, maxCount', hrow, hmax, hcount⟩ | ⟨hinsert, -⟩⟩ |
      ⟨auth', maxCount', -, hinsert, -, -⟩ | ⟨auth', client, -, hresult, -⟩
    · cases hresult.symm.trans hstage
    · cases hcount.symm.trans hstage
      obtain ⟨-, user', maxCount', hrow', hmax', hle⟩ := hfinds auth hfind hauth huser
      obtain rfl := Option.some.inj (hrow.symm.trans (huser ▸ hrow'))
      obtain rfl := Option.some.inj (hmax.symm.trans hmax')
      exact hle
    · cases hinsert.symm.trans hstage
    · cases hinsert.symm.trans hstage
    · cases hresult.symm.trans hstage
  live db call statement db' call' h hlive := by
    simp only [gauge, isLive] at hlive ⊢
    rcases next_cases h with ⟨result, hresult, -⟩ |
      ⟨auth', hfind, hauth, -, ⟨user, maxCount', -, -, hcount⟩ | ⟨hinsert, -⟩⟩ |
      ⟨auth', maxCount', hcount, hinsert, -, -⟩ | ⟨auth', client, -, hresult, -⟩
    · simp [hresult] at hlive
    · simpa [hfind, hauth, hcount] using hlive
    · simpa [hfind, hauth, hinsert] using hlive
    · simpa [hcount, hinsert] using hlive
    · simp [hresult] at hlive
  count db call statement db' call' hreads hfinds h := by
    simp only [gauge, hasPassed]
    rcases next_cases h with ⟨result, hresult, rfl⟩ |
      ⟨auth', hfind, hauth, rfl, ⟨user, maxCount', -, -, hcount⟩ | ⟨hinsert, hnone⟩⟩ |
      ⟨auth', maxCount', hcount, hinsert, rfl, hlt⟩ | ⟨auth', client, hinsert, hresult, hsaved⟩
    · exact .inl (by simp [hresult])
    · exact .inl (by simp [hcount])
    · refine .inl ?_
      by_cases huser : auth'.id = userId
      · obtain ⟨hok, user, maxCount, hrow, hmax, -⟩ := hfinds auth' hfind hauth huser
        exact (hnone ⟨hok, user, maxCount, huser ▸ hrow, hmax⟩).elim
      · simp [hinsert, huser]
    · by_cases huser : auth'.id = userId
      · exact .inr ((huser ▸ hlt).trans_le (hreads auth' maxCount' hcount huser))
      · exact .inl (by simp [hinsert, huser])
    · refine .inl ?_
      rw [clientCount_insertClient hsaved]
      simp only [hresult, hinsert, QuotaDb.newClient, Option.some.injEq]
      by_cases huser : auth'.id = userId <;> simp [huser]

/-- The state in which a single call leaves the database. -/
def returned (db : QuotaDb) (call : CreateCall) :
    Except ApiError (QuotaDb × Client) → Shared QuotaDb CreateCall
  | .ok (db', client) => ⟨db', [call.reply (.ok client)]⟩
  | .error e => ⟨db, [call.reply (.error e)]⟩

theorem next_insert (db : QuotaDb) {call : CreateCall} {auth : AuthUser} (error : String)
    (hstage : call.stage = .insert auth) :
    step next ⟨db, [call]⟩ (.next 0 ⟨true, error⟩) = some (returned db call
      (db.insertClient (QuotaDb.newClient call.env auth call.req) call.env.insertError)) := by
  simp only [step, List.getElem?_cons_zero, Option.bind_some, next, hstage, if_true]
  cases db.insertClient (QuotaDb.newClient call.env auth call.req) call.env.insertError <;> rfl

theorem returned_congr (db : QuotaDb) (call : CreateCall) (stage : CreateStage)
    (result : Except ApiError (QuotaDb × Client)) :
    returned db { call with stage } result = returned db call result := by
  cases result <;> rfl

/-- A call that is handled alone does what `createClient` says. -/
theorem run_alone (db : QuotaDb) (env : CreateClientEnv) (auth : Option AuthUser)
    (req : CreateClientRequest) (error : String) :
    ∃ n, run (step next) ⟨db, []⟩
        (.spawn (start env auth req) :: List.replicate n (.next 0 ⟨true, error⟩)) =
      some (returned db (start env auth req) (db.createClient env auth req)) := by
  cases auth with
  | none => exact ⟨1, rfl⟩
  | some auth =>
      set call := start env (some auth) req with hcall
      have hspawn : step next ⟨db, []⟩ (.spawn call) = some ⟨db, [call]⟩ := rfl
      have hinsert : step next ⟨db, [{ call with stage := .insert auth }]⟩
          (.next 0 ⟨true, error⟩) = some (returned db call
            (db.insertClient (QuotaDb.newClient env auth req) env.insertError)) := by
        rw [next_insert db error rfl, returned_congr]
        rfl
      have hunlimited (hfind : step next ⟨db, [call]⟩ (.next 0 ⟨true, error⟩) =
            some ⟨db, [{ call with stage := .insert auth }]⟩)
          (hcreate : db.createClient env (some auth) req =
            db.insertClient (QuotaDb.newClient env auth req) env.insertError) :
          ∃ n, run (step next) ⟨db, []⟩
              (.spawn call :: List.replicate n (.next 0 ⟨true, error⟩)) =
            some (returned db call (db.createClient env (some auth) req)) := by
        refine ⟨2, ?_⟩
        rw [List.replicate_succ, List.replicate_one, run_cons, hspawn, Option.bind_some, run_cons,
          hfind, Option.bind_some, run_cons, hinsert, Option.bind_some, run_nil, hcreate]
      cases huser : db.users.find auth.id with
      | none =>
          refine hunlimited ?_ ?_
          · simp [step, next, hcall, start, huser]
          · simp only [QuotaDb.createClient, okOr, bind, Except.bind, huser, ifSome]
      | some user =>
          cases hmax : user.maxClientCount with
          | none =>
              refine hunlimited ?_ ?_
              · simp [step, next, hcall, start, huser, getUserFinalQuota, hmax]
              · simp only [QuotaDb.createClient, okOr, bind, Except.bind, huser, ifSome,
                  getUserFinalQuota, hmax]
          | some maxCount =>
              have hfind : step next ⟨db, [call]⟩ (.next 0 ⟨true, error⟩) =
                  some ⟨db, [{ call with stage := .countClients auth maxCount }]⟩ := by
                simp [step, next, hcall, start, huser, getUserFinalQuota, hmax]
              by_cases hlt : clientCount db auth.id < asU64 maxCount
              · have hpass : step next ⟨db, [{ call with stage := .countClients auth maxCount }]⟩
                    (.next 0 ⟨true, error⟩) =
                      some ⟨db, [{ call with stage := .insert auth }]⟩ := by
                  simp [step, next, hlt]
                have hcreate : db.createClient env (some auth) req =
                    db.insertClient (QuotaDb.newClient env auth req) env.insertError := by
                  simp only [clientCount] at hlt
                  simp only [QuotaDb.createClient, okOr, bind, Except.bind, huser, ifSome,
                    getUserFinalQuota, hmax, require, hlt, decide_true, if_true]
                refine ⟨3, ?_⟩
                rw [List.replicate_succ, List.replicate_succ, List.replicate_one, run_cons, hspawn,
                  Option.bind_some, run_cons, hfind, Option.bind_some, run_cons, hpass,
                  Option.bind_some, run_cons, hinsert, Option.bind_some, run_nil, hcreate]
              · refine ⟨2, ?_⟩
                rw [List.replicate_succ, List.replicate_one, run_cons, hspawn, Option.bind_some,
                  run_cons, hfind, Option.bind_some]
                simp only [clientCount] at hlt
                simp [step, next, clientCount, QuotaDb.createClient, okOr, bind, Except.bind, huser,
                  ifSome, getUserFinalQuota, hmax, require, hlt, returned, reply]

end CreateCall

/-- With so many requests of a user handled at a time, each of which finds the limit of
the user, the user has at most as many clients as before, or as the limit and the
requests but one. -/
theorem clientCount_le {userId : ℤ} {limit requests : ℕ} {db : QuotaDb}
    {inputs : List (Input QuotaDb CreateCall Statement)} {s : Shared QuotaDb CreateCall}
    (hok : Within (step CreateCall.next) (CreateCall.AtATime userId limit requests) ⟨db, []⟩ inputs)
    (hrun : run (step CreateCall.next) ⟨db, []⟩ inputs = some s) :
    clientCount s.store userId ≤ max (clientCount db userId) (limit + requests - 1) :=
  Gauge.count_le (CreateCall.guarded userId limit) hok hrun

/-- User 1 may have one client and one node. -/
def oneClientDb : QuotaDb where
  users := ⟨[{ (default : User) with id := 1, maxNodeCount := some 1, maxClientCount := some 1 }],
    List.nodup_singleton _⟩
  clients := .empty
  nodes := .empty
  proxies := .empty
  trafficDaily := .empty
  userSubscriptions := .empty
  userClients := .empty
  client_exists _ h := (List.not_mem_nil h).elim

def createBox (newId : ℤ) (token : String) : CreateCall :=
  CreateCall.start ⟨default, token, newId, ""⟩ (some ⟨1, "ann", false⟩)
    ⟨"box", none, none, none, none⟩

/-- Two requests count before either inserts. -/
def createTwice : List (Input QuotaDb CreateCall Statement) :=
  [.spawn (createBox 1 "a"), .spawn (createBox 2 "b")] ++
    [0, 1, 0, 1, 0, 1].map fun k ↦ .next k ⟨true, ""⟩

theorem atATime_createTwice :
    Within (step CreateCall.next) (CreateCall.AtATime 1 1 2) ⟨oneClientDb, []⟩ createTwice := by
  have hreads (newId : ℤ) (token : String) : CreateCall.Reads 1 1 (createBox newId token) := by
    intro auth maxCount hstage
    cases hstage
  have hfinds (newId : ℤ) (token : String) :
      CreateCall.FindsLimit 1 1 oneClientDb (createBox newId token) ⟨true, ""⟩ :=
    fun _ _ _ _ ↦ ⟨rfl, _, 1, rfl, rfl, by decide⟩
  refine .cons ⟨hreads 1 "a", rfl, fun _ ↦ by decide⟩ rfl (.cons ⟨hreads 2 "b", rfl,
    fun _ ↦ by decide⟩ rfl (.cons ?_ rfl (.cons ?_ rfl (.cons ?_ rfl (.cons ?_ rfl
      (.cons ?_ rfl (.cons ?_ rfl trivial)))))))
  · intro call hcall
    obtain rfl := Option.some.inj hcall
    exact hfinds 1 "a"
  · intro call hcall
    obtain rfl := Option.some.inj hcall
    exact hfinds 2 "b"
  all_goals
    intro call hcall auth hstage
    obtain rfl := Option.some.inj hcall
    cases hstage

theorem clientCount_le_createTwice :
    ∃ s, run (step CreateCall.next) ⟨oneClientDb, []⟩ createTwice = some s ∧
      clientCount s.store 1 = 2 ∧
      clientCount s.store 1 ≤ max (clientCount oneClientDb 1) (1 + 2 - 1) :=
  ⟨_, rfl, by decide +kernel, clientCount_le atATime_createTwice rfl⟩

/-! ## Assigning a node -/

structure UserNode where
  userId : ℤ
  nodeId : ℤ
  deriving DecidableEq

/-- Assignments are unique by user and node. -/
instance : Keyed (ℤ × ℤ) UserNode := ⟨fun link ↦ (link.userId, link.nodeId)⟩

/-- The database with the assignments of nodes to users, both of which exist. -/
structure AssignmentDb extends Db where
  userNodes : Table UserNode
  user_exists : ∀ link ∈ userNodes.rows, (users.find link.userId).isSome = true
  node_exists : ∀ link ∈ userNodes.rows, (nodes.find link.nodeId).isSome = true

def nodeCount (db : AssignmentDb) (userId : ℤ) : ℕ :=
  (db.userNodes.rows.filter (·.userId = userId)).length

/-- Insert a row that the index and the foreign keys allow. -/
def AssignmentDb.insertUserNode (db : AssignmentDb) (link : UserNode) : Option AssignmentDb :=
  if h : key link ∉ db.userNodes.rows.map key ∧ (db.users.find link.userId).isSome = true ∧
      (db.nodes.find link.nodeId).isSome = true then some
    { db with
      userNodes := db.userNodes.insert link h.1
      user_exists := fun l hl ↦ (List.mem_append.mp hl).elim (db.user_exists l)
        fun hnew ↦ List.mem_singleton.mp hnew ▸ h.2.1
      node_exists := fun l hl ↦ (List.mem_append.mp hl).elim (db.node_exists l)
        fun hnew ↦ List.mem_singleton.mp hnew ▸ h.2.2 }
  else none

inductive AssignStage
  | findUser
  | findNode (user : User)
  | countNodes (maxCount : ℤ)
  | findAssignment
  | insert
  | returned (result : Except ApiError String)

/-- A call of `assign_node_to_user`. -/
structure AssignCall where
  auth : Option AuthUser
  userId : ℤ
  nodeId : ℤ
  stage : AssignStage

namespace AssignCall

def start (auth : Option AuthUser) (userId nodeId : ℤ) : AssignCall :=
  ⟨auth, userId, nodeId, .findUser⟩

def reply (call : AssignCall) (result : Except ApiError String) : AssignCall :=
  { call with stage := .returned result }

/-- The checks before the first statement. -/
def checkAdmin : Option AuthUser → Except ApiError Unit
  | none => .error ⟨401, "Not authenticated"⟩
  | some auth => require auth.isAdmin 403 "需要管理员权限"

/-- The next statement of a call. -/
def next (db : AssignmentDb) (call : AssignCall) (statement : Statement) :
    Option (AssignmentDb × AssignCall) :=
  match call.stage with
  | .findUser =>
      match checkAdmin call.auth with
      | .error e => some (db, call.reply (.error e))
      | .ok _ =>
          if statement.ok then
            match db.users.find call.userId with
            | some user => some (db, { call with stage := .findNode user })
            | none => some (db, call.reply (.error ⟨404, "User not found"⟩))
          else some (db, call.reply (.error ⟨500, "Failed to find user: " ++ statement.error⟩))
  | .findNode user =>
      if statement.ok then
        match db.nodes.find call.nodeId with
        | some node =>
            if node.nodeType = "shared" then
              some (db, call.reply (.error ⟨400, "共享节点无需分配，所有用户均可使用"⟩))
            else
              match (getUserFinalQuota user).2.2.1 with
              | some maxCount => some (db, { call with stage := .countNodes maxCount })
              | none => some (db, { call with stage := .findAssignment })
        | none => some (db, call.reply (.error ⟨404, "Node not found"⟩))
      else some (db, call.reply (.error ⟨500, "Failed to find node: " ++ statement.error⟩))
  | .countNodes maxCount =>
      if statement.ok then
        let currentCount := nodeCount db call.userId
        if currentCount < asU64 maxCount then some (db, { call with stage := .findAssignment })
        else some (db, call.reply (.error ⟨400,
          "已达到最大节点数量限制: " ++ toString currentCount ++ "/" ++ toString maxCount⟩))
      else some (db, call.reply (.error ⟨500, "Failed to count nodes: " ++ statement.error⟩))
  | .findAssignment =>
      if statement.ok then
        match db.userNodes.find (call.userId, call.nodeId) with
        | some _ => some (db, call.reply (.error ⟨409, "Node already assigned to user"⟩))
        | none => some (db, { call with stage := .insert })
      else some (db, call.reply (.error ⟨500, "Failed to check assignment: " ++ statement.error⟩))
  | .insert =>
      match if statement.ok then db.insertUserNode ⟨call.userId, call.nodeId⟩ else none with
      | some db' => some (db', call.reply (.ok "Node assigned successfully"))
      | none =>
          some (db, call.reply (.error ⟨500, "Failed to assign node: " ++ statement.error⟩))
  | .returned _ => none

/-- The call is about the user and has not returned. -/
def isLive (userId : ℤ) (call : AssignCall) : Bool :=
  call.userId = userId && match call.stage with
    | .returned _ => false
    | _ => true

/-- The call is about the user and has passed the check of the limit. -/
def hasPassed (userId : ℤ) (call : AssignCall) : Bool :=
  call.userId = userId && match call.stage with
    | .findAssignment | .insert => true
    | _ => false

def gauge (userId : ℤ) : Gauge AssignmentDb AssignCall where
  count db := nodeCount db userId
  live := isLive userId
  passed := hasPassed userId
  live_of_passed call h := by
    simp only [hasPassed, isLive, Bool.and_eq_true] at h ⊢
    cases hstage : call.stage <;> simp_all

/-- The row of a user has a limit within the bound. -/
def LimitIn (limit : ℕ) (user : User) : Prop :=
  ∃ maxCount, user.maxNodeCount = some maxCount ∧ asU64 maxCount ≤ limit

/-- A limit of the user that the call has read is within the bound. -/
def Reads (userId : ℤ) (limit : ℕ) (call : AssignCall) : Prop :=
  call.userId = userId → (∀ user, call.stage = .findNode user → LimitIn limit user) ∧
    ∀ maxCount, call.stage = .countNodes maxCount → asU64 maxCount ≤ limit

/-- Where the row of the user is looked up, its limit is within the bound. -/
def FindsLimit (userId : ℤ) (limit : ℕ) (db : AssignmentDb) (call : AssignCall)
    (_ : Statement) : Prop :=
  call.userId = userId → call.stage = .findUser →
    ∀ user, db.users.find userId = some user → LimitIn limit user

/-- At most so many calls about the user are handled at a time, each reads a limit
within the bound, and nothing else gives the user nodes. -/
def AtATime (userId : ℤ) (limit requests : ℕ) (s : Shared AssignmentDb AssignCall) :
    Input AssignmentDb AssignCall Statement → Prop :=
  (gauge userId).Bounded (Reads userId limit) (FindsLimit userId limit) requests s

variable {userId : ℤ} {limit : ℕ} {db db' : AssignmentDb} {call call' : AssignCall}
  {statement : Statement}

theorem nodeCount_insertUserNode {link : UserNode} (h : db.insertUserNode link = some db') :
    nodeCount db' userId = nodeCount db userId + if link.userId = userId then 1 else 0 := by
  unfold AssignmentDb.insertUserNode at h
  split_ifs at h with hallowed
  obtain rfl := Option.some.inj h
  simp only [nodeCount, Table.insert, List.filter_append, List.length_append]
  split_ifs with huser <;> simp [huser]

/-- What the next statement can do. -/
theorem next_cases (h : next db call statement = some (db', call')) :
    call'.userId = call.userId ∧
    ((∃ result, call'.stage = .returned result ∧ db' = db) ∨
    (∃ user, call.stage = .findUser ∧ db.users.find call.userId = some user ∧
      call'.stage = .findNode user ∧ db' = db) ∨
    (∃ user, call.stage = .findNode user ∧ db' = db ∧
      ((∃ maxCount, user.maxNodeCount = some maxCount ∧ call'.stage = .countNodes maxCount) ∨
        user.maxNodeCount = none ∧ call'.stage = .findAssignment)) ∨
    (∃ maxCount, call.stage = .countNodes maxCount ∧ call'.stage = .findAssignment ∧ db' = db ∧
      nodeCount db call.userId < asU64 maxCount) ∨
    (call.stage = .findAssignment ∧ call'.stage = .insert ∧ db' = db) ∨
    (∃ result, call.stage = .insert ∧ call'.stage = .returned result ∧
      db.insertUserNode ⟨call.userId, call.nodeId⟩ = some db')) := by
  unfold next at h
  have hreply : ∀ result, some (db, call.reply result) = some (db', call') →
      call'.userId = call.userId ∧ ∃ result, call'.stage = .returned result ∧ db' = db := by
    intro result hsame
    obtain ⟨rfl, rfl⟩ := Prod.mk.inj (Option.some.inj hsame)
    exact ⟨rfl, result, rfl, rfl⟩
  cases hstage : call.stage with
  | findUser =>
      simp only [hstage] at h
      cases hadmin : checkAdmin call.auth with
      | error e => exact (hreply _ (by simpa only [hadmin] using h)).imp_right .inl
      | ok _ =>
          simp only [hadmin] at h
          split_ifs at h
          · cases huser : db.users.find call.userId with
            | none => exact (hreply _ (by simpa only [huser] using h)).imp_right .inl
            | some user =>
                simp only [huser] at h
                obtain ⟨rfl, rfl⟩ := Prod.mk.inj (Option.some.inj h)
                exact ⟨rfl, .inr (.inl ⟨user, rfl, rfl, rfl, rfl⟩)⟩
          · exact (hreply _ h).imp_right .inl
  | findNode user =>
      simp only [hstage] at h
      split_ifs at h
      · cases hnode : db.nodes.find call.nodeId with
        | none => exact (hreply _ (by simpa only [hnode] using h)).imp_right .inl
        | some node =>
            simp only [hnode] at h
            split_ifs at h
            · exact (hreply _ h).imp_right .inl
            · simp only [getUserFinalQuota] at h
              cases hmax : user.maxNodeCount with
              | none =>
                  simp only [hmax] at h
                  obtain ⟨rfl, rfl⟩ := Prod.mk.inj (Option.some.inj h)
                  exact ⟨rfl, .inr (.inr (.inl ⟨user, rfl, rfl, .inr ⟨hmax, rfl⟩⟩))⟩
              | some maxCount =>
                  simp only [hmax] at h
                  obtain ⟨rfl, rfl⟩ := Prod.mk.inj (Option.some.inj h)
                  exact ⟨rfl, .inr (.inr (.inl ⟨user, rfl, rfl, .inl ⟨maxCount, hmax, rfl⟩⟩))⟩
      · exact (hreply _ h).imp_right .inl
  | countNodes maxCount =>
      simp only [hstage] at h
      split_ifs at h with hok hlt
      · obtain ⟨rfl, rfl⟩ := Prod.mk.inj (Option.some.inj h)
        exact ⟨rfl, .inr (.inr (.inr (.inl ⟨maxCount, rfl, rfl, rfl, hlt⟩)))⟩
      all_goals exact (hreply _ h).imp_right .inl
  | findAssignment =>
      simp only [hstage] at h
      split_ifs at h
      · cases hlink : db.userNodes.find (call.userId, call.nodeId) with
        | some link => exact (hreply _ (by simpa only [hlink] using h)).imp_right .inl
        | none =>
            simp only [hlink] at h
            obtain ⟨rfl, rfl⟩ := Prod.mk.inj (Option.some.inj h)
            exact ⟨rfl, .inr (.inr (.inr (.inr (.inl ⟨rfl, rfl, rfl⟩))))⟩
      · exact (hreply _ h).imp_right .inl
  | insert =>
      simp only [hstage] at h
      cases hinsert : (if statement.ok then db.insertUserNode ⟨call.userId, call.nodeId⟩ else none) with
      | none => exact (hreply _ (by simpa only [hinsert] using h)).imp_right .inl
      | some saved =>
          simp only [hinsert] at h
          split_ifs at hinsert
          obtain ⟨rfl, rfl⟩ := Prod.mk.inj (Option.some.inj h)
          exact ⟨rfl, .inr (.inr (.inr (.inr (.inr ⟨_, rfl, rfl, hinsert⟩))))⟩
  | returned result => simp [hstage] at h

theorem guarded (userId : ℤ) (limit : ℕ) :
    (gauge userId).Guarded next (Reads userId limit) (FindsLimit userId limit) limit where
  stays db call statement db' call' hreads hfinds h huser := by
    obtain ⟨hsame, hcases⟩ := next_cases h
    have huser' : call.userId = userId := hsame.symm.trans huser
    obtain ⟨hfound, -⟩ := hreads huser'
    rcases hcases with ⟨result, hresult, -⟩ | ⟨user, hfind, hrow, hnode, -⟩ |
      ⟨user, hfound', -, ⟨maxCount, hmax, hcount⟩ | ⟨-, hassign⟩⟩ | ⟨maxCount, -, hassign, -, -⟩ |
      ⟨-, hinsert, -⟩ | ⟨result, -, hresult, -⟩
    · simp [hresult]
    · refine ⟨fun user' hstage ↦ ?_, by simp [hnode]⟩
      cases hnode.symm.trans hstage
      exact hfinds huser' hfind user (huser' ▸ hrow)
    · refine ⟨by simp [hcount], fun maxCount' hstage ↦ ?_⟩
      cases hcount.symm.trans hstage
      obtain ⟨maxCount', hmax', hle⟩ := hfound user hfound'
      obtain rfl := Option.some.inj (hmax.symm.trans hmax')
      exact hle
    · simp [hassign]
    · simp [hassign]
    · simp [hinsert]
    · simp [hresult]
  live db call statement db' call' h hlive := by
    obtain ⟨hsame, hcases⟩ := next_cases h
    simp only [gauge, isLive, hsame] at hlive ⊢
    rcases hcases with ⟨result, hresult, -⟩ | ⟨user, hstage, -⟩ | ⟨user, hstage, -⟩ |
      ⟨maxCount, hstage, -⟩ | ⟨hstage, -⟩ | ⟨result, hstage, -⟩
    · simp [hresult] at hlive
    all_goals
      simp only [Bool.and_eq_true] at hlive
      simp [hstage, hlive.1]
  count db call statement db' call' hreads hfinds h := by
    obtain ⟨hsame, hcases⟩ := next_cases h
    by_cases huser : call.userId = userId
    · obtain ⟨hfound, hread⟩ := hreads huser
      simp only [gauge, hasPassed, hsame, huser]
      rcases hcases with ⟨result, hresult, rfl⟩ | ⟨user, -, -, hnode, rfl⟩ |
        ⟨user, hstage, rfl, ⟨maxCount, -, hcount⟩ | ⟨hnone, -⟩⟩ | ⟨maxCount, hstage, -, rfl, hlt⟩ |
        ⟨hstage, hinsert, rfl⟩ | ⟨result, hstage, hresult, hsaved⟩
      · exact .inl (by simp [hresult])
      · exact .inl (by simp [hnode])
      · exact .inl (by simp [hcount])
      · obtain ⟨maxCount, hmax, -⟩ := hfound user hstage
        cases hnone.symm.trans hmax
      · exact .inr ((huser ▸ hlt).trans_le (hread maxCount hstage))
      · exact .inl (by simp [hstage, hinsert])
      · refine .inl ?_
        rw [nodeCount_insertUserNode hsaved]
        simp [hstage, hresult, huser]
    · refine .inl ?_
      have hcount : nodeCount db' userId = nodeCount db userId := by
        rcases hcases with ⟨-, -, rfl⟩ | ⟨-, -, -, -, rfl⟩ | ⟨-, -, rfl, -⟩ | ⟨-, -, -, rfl, -⟩ |
          ⟨-, -, rfl⟩ | ⟨-, -, -, hsaved⟩
        iterate 5 rfl
        rw [nodeCount_insertUserNode hsaved, if_neg huser, Nat.add_zero]
      simp [gauge, hasPassed, hsame, huser, hcount]

end AssignCall

/-- The table's index keeps the nodes of a user apart. -/
theorem nodes_nodup (db : AssignmentDb) (userId : ℤ) :
    ((db.userNodes.rows.filter (·.userId = userId)).map (·.nodeId)).Nodup := by
  have hkeys := (db.userNodes.nodup.of_map key).filter (fun link ↦ decide (link.userId = userId))
  refine hkeys.map_on fun link hlink link' hlink' hnode ↦ ?_
  obtain ⟨hmem, huser⟩ := List.mem_filter.mp hlink
  obtain ⟨hmem', huser'⟩ := List.mem_filter.mp hlink'
  refine List.inj_on_of_nodup_map db.userNodes.nodup hmem hmem' (Prod.ext ?_ hnode)
  exact (of_decide_eq_true huser).trans (of_decide_eq_true huser').symm

/-- With so many assignments to a user handled at a time, the user has at most as many
nodes as before, or as the limit and the requests but one, and no node twice. -/
theorem nodeCount_le {userId : ℤ} {limit requests : ℕ} {db : AssignmentDb}
    {inputs : List (Input AssignmentDb AssignCall Statement)} {s : Shared AssignmentDb AssignCall}
    (hok : Within (step AssignCall.next) (AssignCall.AtATime userId limit requests) ⟨db, []⟩ inputs)
    (hrun : run (step AssignCall.next) ⟨db, []⟩ inputs = some s) :
    nodeCount s.store userId ≤ max (nodeCount db userId) (limit + requests - 1) ∧
      ((s.store.userNodes.rows.filter (·.userId = userId)).map (·.nodeId)).Nodup :=
  ⟨Gauge.count_le (AssignCall.guarded userId limit) hok hrun, nodes_nodup s.store userId⟩

/-- Nodes 5 and 6 are dedicated. -/
def oneNodeDb : AssignmentDb where
  users := oneClientDb.users
  clients := .empty
  nodes := ⟨[{ (default : Node) with id := 5, nodeType := "dedicated" },
    { (default : Node) with id := 6, nodeType := "dedicated" }], by decide⟩
  proxies := .empty
  trafficDaily := .empty
  userSubscriptions := .empty
  userNodes := .empty
  user_exists _ h := (List.not_mem_nil h).elim
  node_exists _ h := (List.not_mem_nil h).elim

def assignNode (nodeId : ℤ) : AssignCall :=
  AssignCall.start (some ⟨9, "admin", true⟩) 1 nodeId

/-- Two assignments count before either inserts. -/
def assignTwice : List (Input AssignmentDb AssignCall Statement) :=
  [.spawn (assignNode 5), .spawn (assignNode 6)] ++
    [0, 1, 0, 1, 0, 1, 0, 1, 0, 1].map fun k ↦ .next k ⟨true, ""⟩

theorem atATime_assignTwice :
    Within (step AssignCall.next) (AssignCall.AtATime 1 1 2) ⟨oneNodeDb, []⟩ assignTwice := by
  have hreads (nodeId : ℤ) : AssignCall.Reads 1 1 (assignNode nodeId) := by
    refine fun _ ↦ ⟨fun user hstage ↦ ?_, fun maxCount hstage ↦ ?_⟩ <;> cases hstage
  have hfinds (nodeId : ℤ) : AssignCall.FindsLimit 1 1 oneNodeDb (assignNode nodeId) ⟨true, ""⟩ := by
    intro _ _ user hrow
    obtain rfl := Option.some.inj hrow
    exact ⟨1, rfl, by decide⟩
  refine .cons ⟨hreads 5, rfl, fun _ ↦ by decide⟩ rfl (.cons ⟨hreads 6, rfl, fun _ ↦ by decide⟩ rfl
    (.cons ?_ rfl (.cons ?_ rfl (.cons ?_ rfl (.cons ?_ rfl (.cons ?_ rfl (.cons ?_ rfl
      (.cons ?_ rfl (.cons ?_ rfl (.cons ?_ rfl (.cons ?_ rfl trivial)))))))))))
  · intro call hcall
    obtain rfl := Option.some.inj hcall
    exact hfinds 5
  · intro call hcall
    obtain rfl := Option.some.inj hcall
    exact hfinds 6
  all_goals
    intro call hcall _ hstage
    obtain rfl := Option.some.inj hcall
    cases hstage

theorem nodeCount_le_assignTwice :
    ∃ s, run (step AssignCall.next) ⟨oneNodeDb, []⟩ assignTwice = some s ∧
      nodeCount s.store 1 = 2 ∧ nodeCount s.store 1 ≤ max (nodeCount oneNodeDb 1) (1 + 2 - 1) ∧
        ((s.store.userNodes.rows.filter (·.userId = 1)).map (·.nodeId)).Nodup :=
  ⟨_, rfl, by decide +kernel, nodeCount_le atATime_assignTwice rfl⟩

end Oxiproxy.Controller
