import Oxiproxy.Common.Rust
import Oxiproxy.Controller.TrafficLimiter
import Oxiproxy.Foundation.HashMap

/-!
# Flushing traffic to the database

`flush_buffer` drains the aggregated traffic of a buffer and adds every entry to
its proxy, to the proxy's row of the day, to the client, to the owner and, at the
end and merged, to the nodes.  Each database call and each reading of the clock
is one step of a machine whose position holds what the task has read so far.

Counters are integers: the `i64` of a column or of a buffer is the one that its
integer wraps around to, as sums of counters do.  The sums of one buffer, which a
flush compares with zero, are taken to stay below `2 ^ 63`.
-/

namespace Oxiproxy.Controller

/-- Bytes sent and bytes received. -/
abbrev Bytes := ℤ × ℤ

structure TrafficKey where
  proxyId : ℤ
  clientId : ℤ
  userId : Option ℤ
  deriving DecidableEq, Repr

/-- The columns of a client, user or node that a flush writes. -/
structure Counters where
  bytes : Bytes
  isTrafficExceeded : Bool
  lastResetAt : Option NaiveDateTime
  deriving DecidableEq

/-- The columns that govern those counters. -/
structure Plan where
  trafficResetCycle : String
  trafficQuotaGb : Option ℚ
  deriving DecidableEq

/-- A row with counters that are reset in each period. -/
inductive AccountId
  | client (id : ℤ)
  | user (id : ℤ)
  | node (id : ℤ)
  deriving DecidableEq, Repr

def Client.counters (c : Client) : Counters :=
  ⟨(c.totalBytesSent, c.totalBytesReceived), c.isTrafficExceeded, c.lastResetAt⟩

def User.counters (u : User) : Counters :=
  ⟨(u.totalBytesSent, u.totalBytesReceived), u.isTrafficExceeded, u.lastResetAt⟩

def Node.counters (n : Node) : Counters :=
  ⟨(n.totalBytesSent, n.totalBytesReceived), n.isTrafficExceeded, n.lastResetAt⟩

def Client.setCounters (now : NaiveDateTime) (f : Counters → Counters) (c : Client) : Client :=
  { c with
    totalBytesSent := (f c.counters).bytes.1
    totalBytesReceived := (f c.counters).bytes.2
    isTrafficExceeded := (f c.counters).isTrafficExceeded
    lastResetAt := (f c.counters).lastResetAt
    updatedAt := now }

theorem Client.key_setCounters (now : NaiveDateTime) (f : Counters → Counters) (c : Client) :
    key (c.setCounters now f) = key c := rfl

def User.setCounters (now : NaiveDateTime) (f : Counters → Counters) (u : User) : User :=
  { u with
    totalBytesSent := (f u.counters).bytes.1
    totalBytesReceived := (f u.counters).bytes.2
    isTrafficExceeded := (f u.counters).isTrafficExceeded
    lastResetAt := (f u.counters).lastResetAt
    updatedAt := now }

theorem User.key_setCounters (now : NaiveDateTime) (f : Counters → Counters) (u : User) :
    key (u.setCounters now f) = key u := rfl

def Node.setCounters (now : NaiveDateTime) (f : Counters → Counters) (n : Node) : Node :=
  { n with
    totalBytesSent := (f n.counters).bytes.1
    totalBytesReceived := (f n.counters).bytes.2
    isTrafficExceeded := (f n.counters).isTrafficExceeded
    lastResetAt := (f n.counters).lastResetAt
    updatedAt := now }

theorem Node.key_setCounters (now : NaiveDateTime) (f : Counters → Counters) (n : Node) :
    key (n.setCounters now f) = key n := rfl

def Proxy.setBytes (now : NaiveDateTime) (bytes : Bytes) (p : Proxy) : Proxy :=
  { p with totalBytesSent := bytes.1, totalBytesReceived := bytes.2, updatedAt := now }

theorem Proxy.key_setBytes (now : NaiveDateTime) (bytes : Bytes) (p : Proxy) :
    key (p.setBytes now bytes) = key p := rfl

/-- The update of an existing daily row on conflict with an inserted one. -/
def TrafficDaily.addBytes (daily d : TrafficDaily) : TrafficDaily :=
  { d with
    bytesSent := d.bytesSent + daily.bytesSent
    bytesReceived := d.bytesReceived + daily.bytesReceived
    updatedAt := daily.updatedAt }

theorem TrafficDaily.key_addBytes (daily d : TrafficDaily) : key (addBytes daily d) = key d := rfl

namespace Db

/-- What a flush reads of an account. -/
def account (db : Db) : AccountId → Option (Plan × Counters)
  | .client id => (db.clients.find id).map fun c ↦
      (⟨c.trafficResetCycle, c.trafficQuotaGb⟩, c.counters)
  | .user id => (db.users.find id).map fun u ↦
      (⟨u.trafficResetCycle, u.trafficQuotaGb⟩, u.counters)
  | .node id => (db.nodes.find id).map fun n ↦
      (⟨n.trafficResetCycle, n.trafficQuotaGb⟩, n.counters)

/-- Write the counters of an account, if the row exists. -/
def setCounters (db : Db) (now : NaiveDateTime) (f : Counters → Counters) : AccountId → Db
  | .client id =>
      { db with
        clients := db.clients.modify id (·.setCounters now f) (Client.key_setCounters now f) }
  | .user id =>
      { db with users := db.users.modify id (·.setCounters now f) (User.key_setCounters now f) }
  | .node id =>
      { db with nodes := db.nodes.modify id (·.setCounters now f) (Node.key_setCounters now f) }

def setProxyBytes (db : Db) (id : ℤ) (now : NaiveDateTime) (bytes : Bytes) : Db :=
  { db with
    proxies := db.proxies.modify id (·.setBytes now bytes) (Proxy.key_setBytes now bytes) }

/-- Insert the row of a proxy and day, or add to it when it exists. -/
def upsertDaily (db : Db) (daily : TrafficDaily) : Db :=
  if hfresh : key daily ∉ db.trafficDaily.rows.map key then
    { db with trafficDaily := db.trafficDaily.insert daily hfresh }
  else
    { db with
      trafficDaily := db.trafficDaily.modify (key daily)
        (TrafficDaily.addBytes daily) (TrafficDaily.key_addBytes daily) }

end Db

/-- The counters after adding bytes to what was read; columns that the update
does not set keep the value they have in the database. -/
def Counters.addRead (read : Counters) (needsReset : Bool) (now : NaiveDateTime) (bytes : Bytes)
    (current : Counters) : Counters :=
  if needsReset then ⟨bytes, false, some now⟩
  else { current with bytes := read.bytes + bytes }

def Counters.markExceeded (current : Counters) : Counters :=
  { current with isTrafficExceeded := true }

/-- Where a flush continues after an account. -/
inductive Resume
  | owner (userId : Option ℤ) (bytes : Bytes)
  | nextKey
  | nextNode
  deriving DecidableEq

/-- The position of a flush, with the rows it holds. -/
inductive Position
  | readToday
  | readNow
  | nextKey
  | findProxy (k : TrafficKey) (bytes : Bytes)
  | updateProxy (k : TrafficKey) (bytes : Bytes) (proxy : Proxy)
  | findClient (k : TrafficKey) (bytes : Bytes) (directUserId : Option ℤ)
  | upsertDaily (k : TrafficKey) (bytes : Bytes) (directUserId : Option ℤ) (client : Option Client)
  | findUser (id : ℤ) (bytes : Bytes)
  | nextNode
  | findNode (id : ℤ) (bytes : Bytes)
  | updateAccount (a : AccountId) (plan : Plan) (read : Counters) (bytes : Bytes) (next : Resume)
  | refindAccount (a : AccountId) (next : Resume)
  | markAccount (a : AccountId) (next : Resume)
  | done
  deriving DecidableEq

structure Flush where
  today : String
  now : NaiveDateTime
  /-- The entries not yet drained, in any order. -/
  buffer : List (TrafficKey × Bytes)
  nodeTraffic : AList fun _ : ℤ ↦ Bytes
  position : Position

/-- What the surroundings contribute to one step: the clock, the outcome of a
database call and the entry a hash map yields next. -/
structure StepEnv where
  clock : NaiveDateTime
  ok : Bool
  choice : ℕ

/-- A row whose totals a flush adds to. -/
inductive RowId
  | proxy (id : ℤ)
  | daily (proxyId : ℤ) (date : String)
  | account (a : AccountId)
  deriving DecidableEq, Repr

/-- Bytes added to a row, with the start of the flush and the instant of the
reset check. -/
structure Application where
  row : RowId
  start : NaiveDateTime
  instant : NaiveDateTime
  bytes : Bytes

def Resume.position : Resume → Position
  | .owner (some id) bytes => .findUser id bytes
  | .owner none _ => .nextKey
  | .nextKey => .nextKey
  | .nextNode => .nextNode

/-- From the daily row to the client, or past a missing client to the owner. -/
def afterDaily (k : TrafficKey) (bytes : Bytes) (directUserId : Option ℤ) (client : Option Client) :
    Position :=
  let ownerId := directUserId.or (client.bind (·.userId))
  match client with
  | some c => .updateAccount (.client k.clientId) ⟨c.trafficResetCycle, c.trafficQuotaGb⟩
      c.counters bytes (.owner ownerId bytes)
  | none => (Resume.owner ownerId bytes).position

def addNodeTraffic (m : AList fun _ : ℤ ↦ Bytes) (nodeId : Option ℤ) (bytes : Bytes) :
    AList fun _ : ℤ ↦ Bytes :=
  match nodeId with
  | some id => m.insert id ((m.lookup id).getD 0 + bytes)
  | none => m

/-- The update of an account and, when it succeeds, the check of its quota. -/
def updateAccount (env : StepEnv) (db : Db) (f : Flush) (a : AccountId) (plan : Plan)
    (read : Counters) (bytes : Bytes) (next : Resume) : Db × Flush × Option Application :=
  let needsReset := resetDue plan.trafficResetCycle read.lastResetAt env.clock
  if env.ok ∧ (db.account a).isSome then
    let new := if needsReset then bytes else read.bytes + bytes
    let exhausted := quotaExhausted plan.trafficQuotaGb (wrapI64 (new.1 + new.2))
    (db.setCounters f.now (read.addRead needsReset f.now bytes) a,
      { f with
        position := if exhausted && !read.isTrafficExceeded then .refindAccount a next
          else next.position },
      some ⟨.account a, f.now, env.clock, bytes⟩)
  else (db, { f with position := next.position }, none)

/-- One step of `flush_buffer`, with the bytes it has added to some row. -/
def flushStep (env : StepEnv) (db : Db) (f : Flush) : Option (Db × Flush × Option Application) :=
  match f.position with
  | .readToday => some (db, { f with today := env.clock.date.format, position := .readNow }, none)
  | .readNow => some (db, { f with now := env.clock, position := .nextKey }, none)
  | .nextKey =>
      match f.buffer[env.choice % f.buffer.length]? with
      | none => some (db, { f with position := .nextNode }, none)
      | some (k, bytes) =>
          let buffer := f.buffer.eraseIdx (env.choice % f.buffer.length)
          let position := if bytes.1 = 0 ∧ bytes.2 = 0 then .nextKey else .findProxy k bytes
          some (db, { f with buffer, position }, none)
  | .findProxy k bytes =>
      match if env.ok then db.proxies.find k.proxyId else none with
      | none => some (db, { f with position := .nextKey }, none)
      | some proxy =>
          some (db,
            { f with
              nodeTraffic := addNodeTraffic f.nodeTraffic proxy.nodeId bytes
              position := .updateProxy k bytes proxy },
            none)
  | .updateProxy k bytes proxy =>
      let position := .findClient k bytes proxy.userId
      if env.ok ∧ (db.proxies.find proxy.id).isSome then
        some (db.setProxyBytes proxy.id f.now
            (proxy.totalBytesSent + bytes.1, proxy.totalBytesReceived + bytes.2),
          { f with position }, some ⟨.proxy proxy.id, f.now, env.clock, bytes⟩)
      else some (db, { f with position }, none)
  | .findClient k bytes directUserId =>
      let client := if env.ok then db.clients.find k.clientId else none
      some (db, { f with position := .upsertDaily k bytes directUserId client }, none)
  | .upsertDaily k bytes directUserId client =>
      let position := afterDaily k bytes directUserId client
      if env.ok then
        some (db.upsertDaily
            { proxyId := k.proxyId
              clientId := client.map (·.id)
              bytesSent := bytes.1
              bytesReceived := bytes.2
              date := f.today
              createdAt := f.now
              updatedAt := f.now },
          { f with position }, some ⟨.daily k.proxyId f.today, f.now, env.clock, bytes⟩)
      else some (db, { f with position }, none)
  | .findUser id bytes =>
      match if env.ok then db.account (.user id) else none with
      | none => some (db, { f with position := .nextKey }, none)
      | some (plan, read) =>
          some (db, { f with position := .updateAccount (.user id) plan read bytes .nextKey }, none)
  | .nextNode =>
      match f.nodeTraffic.entries[env.choice % f.nodeTraffic.entries.length]? with
      | none => some (db, { f with position := .done }, none)
      | some ⟨id, bytes⟩ =>
          some (db,
            { f with nodeTraffic := f.nodeTraffic.erase id, position := .findNode id bytes }, none)
  | .findNode id bytes =>
      match if env.ok then db.account (.node id) else none with
      | none => some (db, { f with position := .nextNode }, none)
      | some (plan, read) =>
          some (db, { f with position := .updateAccount (.node id) plan read bytes .nextNode }, none)
  | .updateAccount a plan read bytes next => some (updateAccount env db f a plan read bytes next)
  | .refindAccount a next =>
      if env.ok ∧ (db.account a).isSome then
        some (db, { f with position := .markAccount a next }, none)
      else some (db, { f with position := next.position }, none)
  | .markAccount a next =>
      some (if env.ok then db.setCounters f.now Counters.markExceeded a else db,
        { f with position := next.position }, none)
  | .done => none

/-- A flush of a buffer, before its first step. -/
def Flush.start (buffer : List (TrafficKey × Bytes)) (today : String) (now : NaiveDateTime) :
    Flush :=
  ⟨today, now, buffer, ∅, .readToday⟩

end Oxiproxy.Controller
