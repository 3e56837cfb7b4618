import Oxiproxy.Foundation.HashMap
import Oxiproxy.Foundation.Runs

/-!
# Pending requests

Requests and responses on a stream are matched by request ids.  A table keeps
the sending half of a oneshot channel for each request that is still open, and
a background task drops what is older than a fixed bound.  The tables of a
process and the callers that wait on them form one machine.
-/

namespace Oxiproxy

open Transition

/-! Times are in nanoseconds. -/

def seconds (n : ℕ) : ℕ := n * 1000000000

def STALE_REQUEST_TIMEOUT : ℕ := seconds 60

def CLEANUP_INTERVAL : ℕ := seconds 30

structure PendingEntry where
  /-- The number of the call that holds the receiver. -/
  sender : ℕ
  createdAt : ℕ
  deriving DecidableEq

structure PendingRequests where
  pending : AList fun _ : String ↦ PendingEntry
  /-- When the cleanup task wakes up next. -/
  nextTick : ℕ

namespace PendingRequests

/-- The first tick of the interval is skipped. -/
def new (now : ℕ) : PendingRequests := ⟨∅, now + CLEANUP_INTERVAL⟩

def register (t : PendingRequests) (requestId : String) (sender now : ℕ) : PendingRequests :=
  { t with pending := t.pending.insert requestId ⟨sender, now⟩ }

def remove (t : PendingRequests) (requestId : String) : PendingRequests :=
  { t with pending := t.pending.erase requestId }

def fresh (now : ℕ) (entry : PendingEntry) : Bool :=
  decide (now - entry.createdAt < STALE_REQUEST_TIMEOUT)

def cleanup (t : PendingRequests) (now : ℕ) : PendingRequests :=
  { pending := t.pending.retain fun _ entry ↦ fresh now entry
    nextTick := t.nextTick + CLEANUP_INTERVAL }

/-- The senders that are dropped with the entries for which `p` fails. -/
def dropped (t : PendingRequests) (p : PendingEntry → Bool) : List ℕ :=
  (t.pending.entries.filter fun entry ↦ !p entry.2).map fun entry ↦ entry.2.sender

theorem mem_dropped {t : PendingRequests} {p : PendingEntry → Bool} {k : ℕ} :
    k ∈ t.dropped p ↔
      ∃ id entry, t.pending.lookup id = some entry ∧ p entry = false ∧ entry.sender = k := by
  simp only [dropped, List.mem_map, List.mem_filter, Bool.not_eq_true']
  constructor
  · rintro ⟨⟨id, entry⟩, ⟨hmem, hp⟩, hk⟩
    exact ⟨id, entry, AList.mem_lookup_iff.mpr hmem, hp, hk⟩
  · rintro ⟨id, entry, hlookup, hp, hk⟩
    exact ⟨⟨id, entry⟩, ⟨AList.mem_lookup_iff.mp hlookup, hp⟩, hk⟩

end PendingRequests

/-! ## The callers -/

/-- A oneshot channel as its receiver sees it. -/
inductive Oneshot (T : Type)
  | empty
  | full (response : T)
  | closed
  deriving DecidableEq

/-- What polling `wait` gives; nothing while it goes on waiting. -/
def Oneshot.wait {T : Type} (rx : Oneshot T) (deadline now : ℕ) : Option (Except String T) :=
  match rx with
  | .full response => some (.ok response)
  | .closed => some (.error "响应通道已关闭")
  | .empty => if deadline ≤ now then some (.error "请求超时") else none

theorem Oneshot.wait_eq_ok {T : Type} {rx : Oneshot T} {deadline now : ℕ} {response : T} :
    rx.wait deadline now = some (.ok response) ↔ rx = .full response := by
  cases rx with
  | empty =>
      rw [Oneshot.wait]
      split_ifs <;> simp
  | full response' => simp [Oneshot.wait]
  | closed => simp [Oneshot.wait]

/-- The functions that register a request, send it and wait. -/
inductive Caller
  | sendCommandAndWait
  | sendSoftwareUpdate
  | fetchClientLogs
  | sendClientSoftwareUpdate
  | sendClientRestart
  | validateToken
  | setClientOnline
  | checkTrafficLimit
  | checkDirectProxyLimit
  | getClientProxies
  deriving DecidableEq

/-- The timeout that the caller passes to `wait`. -/
def Caller.timeout : Caller → ℕ
  | .sendSoftwareUpdate | .sendClientSoftwareUpdate => seconds 120
  | .setClientOnline => seconds 5
  | _ => seconds 10

inductive Phase (T : Type)
  /-- The request is registered and not yet sent. -/
  | sending
  | waiting (deadline : ℕ)
  | done (result : Except String T)
  /-- The caller stopped before its wait was over. -/
  | gone

def Phase.isSending {T : Type} : Phase T → Bool
  | .sending => true
  | _ => false

/-- The receiver has not been dropped. -/
def Phase.isListening {T : Type} : Phase T → Bool
  | .sending | .waiting _ => true
  | .done _ | .gone => false

structure Call (T : Type) where
  table : ℕ
  requestId : String
  caller : Caller
  createdAt : ℕ
  rx : Oneshot T
  phase : Phase T

namespace Call

variable {T : Type}

def Listening (c : Call T) : Bool := c.phase.isListening

/-- `Sender::send`, which fails when nobody listens. -/
def answer (response : T) (c : Call T) : Call T :=
  { c with rx := if c.Listening then .full response else .closed }

/-- The sender is dropped unused. -/
def hangUp (c : Call T) : Call T := { c with rx := .closed }

/-- The timeout of the caller has not elapsed. -/
def StillWaiting (now : ℕ) (c : Call T) : Prop :=
  match c.phase with
  | .sending => True
  | .waiting deadline => now < deadline
  | .done _ | .gone => False

end Call

/-! ## The machine -/

inductive PendingInput (T : Type)
  | new
  | register (table : ℕ) (requestId : String) (caller : Caller)
  /-- The request of the call is sent, and it begins to wait. -/
  | wait (call : ℕ)
  | poll (call : ℕ)
  | giveUp (call : ℕ)
  | complete (table : ℕ) (requestId : String) (response : T)
  | cleanup (table : ℕ)
  /-- The last handle of the table is dropped. -/
  | drop (table : ℕ)
  | advance (duration : ℕ)

/-- The input registers and answers nothing and drops no table. -/
def PendingInput.IsQuiet {T : Type} : PendingInput T → Prop
  | .wait _ | .poll _ | .giveUp _ | .cleanup _ | .advance _ => True
  | _ => False

structure Pool (T : Type) where
  now : ℕ
  /-- The tables by number; nothing where a table has been dropped. -/
  tables : List (Option PendingRequests)
  calls : List (Call T)
  /-- The completions that returned true. -/
  answered : List (String × T)

namespace Pool

variable {T : Type}

def empty : Pool T := ⟨0, [], [], []⟩

def table? (p : Pool T) (j : ℕ) : Option PendingRequests := (p.tables[j]?).join

def setTable (p : Pool T) (j : ℕ) (t : Option PendingRequests) : Pool T :=
  { p with tables := p.tables.set j t }

def setPhase (p : Pool T) (k : ℕ) (phase : Phase T) : Pool T :=
  { p with calls := p.calls.modify k fun c ↦ { c with phase := phase } }

def dropSenders (p : Pool T) (senders : List ℕ) : Pool T :=
  { p with calls := p.calls.mapIdx fun k c ↦ if k ∈ senders then c.hangUp else c }

def complete (p : Pool T) (j : ℕ) (t : PendingRequests) (requestId : String) (response : T) :
    Pool T :=
  match t.pending.lookup requestId with
  | none => p
  | some entry =>
      { p.setTable j (some (t.remove requestId)) with
        calls := p.calls.modify entry.sender (Call.answer response)
        answered :=
          if (p.calls[entry.sender]?).any Call.Listening then p.answered ++ [(requestId, response)]
          else p.answered }

def register (p : Pool T) (j : ℕ) (t : PendingRequests) (requestId : String) (caller : Caller) :
    Pool T where
  now := p.now
  tables := p.tables.set j (some (t.register requestId p.calls.length p.now))
  calls := p.calls ++ [⟨j, requestId, caller, p.now, .empty, .sending⟩]
  answered := p.answered

/-- The table goes over into `t'`, and the entries for which `keep` fails lose
their senders. -/
def prune (p : Pool T) (j : ℕ) (t : PendingRequests) (t' : Option PendingRequests)
    (keep : PendingEntry → Bool) : Pool T :=
  (p.setTable j t').dropSenders (t.dropped keep)

def step (p : Pool T) : PendingInput T → Option (Pool T)
  | .new => some { p with tables := p.tables ++ [some (PendingRequests.new p.now)] }
  | .register j requestId caller => do
      let t ← p.table? j
      -- the ids are random UUIDs
      if requestId ≠ "" ∧ ∀ c ∈ p.calls, c.requestId ≠ requestId then
        some (p.register j t requestId caller)
      else none
  | .wait k => do
      let c ← p.calls[k]?
      match c.phase with
      | .sending => some (p.setPhase k (.waiting (p.now + c.caller.timeout)))
      | _ => none
  | .poll k => do
      let c ← p.calls[k]?
      match c.phase with
      | .waiting deadline => (c.rx.wait deadline p.now).map fun result ↦ p.setPhase k (.done result)
      | _ => none
  | .giveUp k => do
      let c ← p.calls[k]?
      if c.Listening then some (p.setPhase k .gone) else none
  | .complete j requestId response => do
      let t ← p.table? j
      some (p.complete j t requestId response)
  | .cleanup j => do
      let t ← p.table? j
      if t.nextTick ≤ p.now then
        some (p.prune j t (some (t.cleanup p.now)) (PendingRequests.fresh p.now))
      else none
  | .drop j => do
      let t ← p.table? j
      some (p.prune j t none fun _ ↦ false)
  | .advance duration => some { p with now := p.now + duration }

/-! ## What each operation does -/

variable {p q : Pool T} {j j' k k' : ℕ} {t : PendingRequests} {t' : Option PendingRequests}
  {id : String} {entry : PendingEntry} {c : Call T} {response : T}

/-- The entry under an id in one table. -/
def findEntry (p : Pool T) (j : ℕ) (id : String) : Option PendingEntry :=
  (p.table? j).bind fun t ↦ t.pending.lookup id

theorem findEntry_of_table (ht : p.table? j = some t) (id : String) :
    p.findEntry j id = t.pending.lookup id := by
  rw [findEntry, ht, Option.bind_some]

theorem table?_setTable (ht : p.table? j = some t) (j' : ℕ) :
    (p.setTable j t').table? j' = if j = j' then t' else p.table? j' := by
  have hj : j < p.tables.length := by
    by_contra hge
    rw [table?, List.getElem?_eq_none (Nat.le_of_not_lt hge)] at ht
    cases ht
  by_cases h : j = j'
  · subst h
    simp [table?, setTable, hj]
  · simp [table?, setTable, h]

theorem findEntry_setTable (ht : p.table? j = some t) (j' : ℕ) (id : String) :
    (p.setTable j t').findEntry j' id =
      if j = j' then t'.bind fun t ↦ t.pending.lookup id else p.findEntry j' id := by
  rw [findEntry, table?_setTable ht]
  split_ifs
  · rfl
  · rfl

theorem table?_new (p : Pool T) (t : PendingRequests) (j : ℕ) :
    ({ p with tables := p.tables ++ [some t] } : Pool T).table? j =
      if j = p.tables.length then some t else p.table? j := by
  rcases Nat.lt_trichotomy j p.tables.length with hlt | heq | hgt
  · have hne : j ≠ p.tables.length := Nat.ne_of_lt hlt
    simp [table?, List.getElem?_append_left hlt, hne]
  · simp [table?, heq]
  · have hne : j ≠ p.tables.length := Nat.ne_of_gt hgt
    have hout : p.tables.length + 1 ≤ j := hgt
    simp [table?, hne, List.getElem?_eq_none (Nat.le_of_lt hgt),
      List.getElem?_eq_none (l := p.tables ++ [some t]) (i := j) (by simpa using hout)]

theorem calls_setPhase (p : Pool T) (k k' : ℕ) (phase : Phase T) :
    (p.setPhase k phase).calls[k']? =
      (p.calls[k']?).map fun c ↦ if k = k' then { c with phase := phase } else c := by
  simp only [setPhase, List.getElem?_modify]
  rfl

theorem calls_dropSenders (p : Pool T) (senders : List ℕ) (k : ℕ) :
    (p.dropSenders senders).calls[k]? =
      (p.calls[k]?).map fun c ↦ if k ∈ senders then c.hangUp else c := by
  simp only [dropSenders, List.getElem?_mapIdx]

/-! ## Tables and receivers agree -/

/-- The open receivers are those of the entries, and what a receiver holds was
sent under its own id. -/
structure Consistent (p : Pool T) : Prop where
  entry : ∀ j id entry, p.findEntry j id = some entry → ∃ c, p.calls[entry.sender]? = some c ∧
    c.table = j ∧ c.requestId = id ∧ c.createdAt = entry.createdAt ∧ c.rx = .empty
  registered : ∀ (k : ℕ) c, p.calls[k]? = some c → c.rx = .empty →
    p.findEntry c.table c.requestId = some ⟨k, c.createdAt⟩
  distinct : ∀ (k k' : ℕ) c c', p.calls[k]? = some c → p.calls[k']? = some c' →
    c.requestId = c'.requestId → k = k'
  named : ∀ (k : ℕ) c, p.calls[k]? = some c → c.requestId ≠ ""
  full : ∀ (k : ℕ) c response, p.calls[k]? = some c → c.rx = .full response →
    (c.requestId, response) ∈ p.answered
  received : ∀ (k : ℕ) c response, p.calls[k]? = some c → c.phase = .done (.ok response) →
    c.rx = .full response
  answered : ∀ id response, (id, response) ∈ p.answered →
    ∃ (k : ℕ) (c : Call T), p.calls[k]? = some c ∧ c.requestId = id ∧ c.rx = .full response
  once : (p.answered.map Prod.fst).Nodup

theorem consistent_empty : (empty : Pool T).Consistent where
  entry j id entry h := by simp [findEntry, table?, empty] at h
  registered k c h := by simp [empty] at h
  distinct k k' c c' h := by simp [empty] at h
  named k c h := by simp [empty] at h
  full k c response h := by simp [empty] at h
  received k c response h := by simp [empty] at h
  answered id response h := by simp [empty] at h
  once := List.nodup_nil

theorem Consistent.new (hp : p.Consistent) :
    Consistent { p with tables := p.tables ++ [some (PendingRequests.new p.now)] } := by
  have hentry : ∀ j id, findEntry ({ p with
      tables := p.tables ++ [some (PendingRequests.new p.now)] } : Pool T) j id = p.findEntry j id := by
    intro j id
    rw [findEntry, table?_new]
    split_ifs with hj
    · subst hj
      simp [findEntry, table?, PendingRequests.new]
    · rfl
  exact {
    entry := fun j id entry h ↦ hp.entry j id entry (hentry j id ▸ h)
    registered := fun k c hk hrx ↦ (hentry c.table c.requestId).trans (hp.registered k c hk hrx)
    distinct := hp.distinct
    named := hp.named
    full := hp.full
    received := hp.received
    answered := hp.answered
    once := hp.once }

/-- Every call of `q` is rewritten from the call of `p` with its number, which
keeps what identifies it. -/
structure Rewrites (p q : Pool T) (f : ℕ → Call T → Call T) : Prop where
  calls : ∀ k : ℕ, q.calls[k]? = (p.calls[k]?).map (f k)
  table : ∀ k c, (f k c).table = c.table
  requestId : ∀ k c, (f k c).requestId = c.requestId
  createdAt : ∀ k c, (f k c).createdAt = c.createdAt
  caller : ∀ k c, (f k c).caller = c.caller

section Rewrites

variable {f : ℕ → Call T → Call T}

theorem rewrites_setPhase (p : Pool T) (k : ℕ) (phase : Phase T) :
    Rewrites p (p.setPhase k phase) fun k' c ↦ if k = k' then { c with phase := phase } else c := by
  refine ⟨fun k' ↦ calls_setPhase p k k' phase, ?_, ?_, ?_, ?_⟩ <;>
  · intro k' c
    split_ifs <;> rfl

theorem rewrites_prune (p : Pool T) (j : ℕ) (t : PendingRequests) (t' : Option PendingRequests)
    (keep : PendingEntry → Bool) :
    Rewrites p (p.prune j t t' keep)
      fun k c ↦ if k ∈ t.dropped keep then c.hangUp else c := by
  refine ⟨calls_dropSenders (p.setTable j t') (t.dropped keep), ?_, ?_, ?_, ?_⟩ <;>
  · intro k c
    split_ifs <;> rfl

theorem Rewrites.get (h : Rewrites p q f) (hk : p.calls[k]? = some c) :
    q.calls[k]? = some (f k c) := by
  rw [h.calls, hk, Option.map_some]

theorem Rewrites.get_inv (h : Rewrites p q f) {c' : Call T} (hk : q.calls[k]? = some c') :
    ∃ c, p.calls[k]? = some c ∧ f k c = c' := by
  rw [h.calls] at hk
  exact Option.map_eq_some_iff.mp hk

theorem Rewrites.distinct (h : Rewrites p q f) (hp : p.Consistent) (k k' : ℕ) (c c' : Call T)
    (hk : q.calls[k]? = some c) (hk' : q.calls[k']? = some c')
    (hid : c.requestId = c'.requestId) : k = k' := by
  obtain ⟨d, hd, rfl⟩ := h.get_inv hk
  obtain ⟨d', hd', rfl⟩ := h.get_inv hk'
  rw [h.requestId, h.requestId] at hid
  exact hp.distinct k k' d d' hd hd' hid

theorem Rewrites.named (h : Rewrites p q f) (hp : p.Consistent) (k : ℕ) (c : Call T)
    (hk : q.calls[k]? = some c) : c.requestId ≠ "" := by
  obtain ⟨d, hd, rfl⟩ := h.get_inv hk
  rw [h.requestId]
  exact hp.named k d hd

end Rewrites

/-- The caller's progress does not matter to the table. -/
theorem Consistent.setPhase (hp : p.Consistent) {phase : Phase T}
    (hreceived : ∀ c response, p.calls[k]? = some c → phase = .done (.ok response) →
      c.rx = .full response) : (p.setPhase k phase).Consistent := by
  have h := rewrites_setPhase p k phase
  have hrx : ∀ (k' : ℕ) (c : Call T),
      (if k = k' then { c with phase := phase } else c).rx = c.rx := by
    intro k' c
    split_ifs <;> rfl
  refine ⟨?_, ?_, h.distinct hp, h.named hp, ?_, ?_, ?_, hp.once⟩
  · intro j id entry hentry
    obtain ⟨c, hc, htable, hid, hcreated, hempty⟩ := hp.entry j id entry hentry
    exact ⟨_, h.get hc, (h.table _ c).trans htable, (h.requestId _ c).trans hid,
      (h.createdAt _ c).trans hcreated, (hrx _ c).trans hempty⟩
  · intro k' c' hk' hempty
    obtain ⟨c, hc, rfl⟩ := h.get_inv hk'
    rw [h.table, h.requestId, h.createdAt]
    exact hp.registered k' c hc ((hrx k' c).symm.trans hempty)
  · intro k' c' response hk' hfull
    obtain ⟨c, hc, rfl⟩ := h.get_inv hk'
    rw [h.requestId]
    exact hp.full k' c response hc ((hrx k' c).symm.trans hfull)
  · intro k' c' response hk' hdone
    obtain ⟨c, hc, rfl⟩ := h.get_inv hk'
    rw [hrx]
    split_ifs at hdone with hk
    · subst hk
      exact hreceived c response hc hdone
    · exact hp.received k' c response hc hdone
  · intro id response hanswered
    obtain ⟨k', c, hc, hid, hfull⟩ := hp.answered id response hanswered
    exact ⟨k', _, h.get hc, (h.requestId _ c).trans hid, (hrx _ c).trans hfull⟩

theorem findEntry_prune (ht : p.table? j = some t) {keep : PendingEntry → Bool}
    (hlookup : ∀ id entry, (t'.bind fun t ↦ t.pending.lookup id) = some entry ↔
      t.pending.lookup id = some entry ∧ keep entry = true) (j' : ℕ) (id : String)
    (entry : PendingEntry) :
    (p.prune j t t' keep).findEntry j' id = some entry ↔
      p.findEntry j' id = some entry ∧ (j = j' → keep entry = true) := by
  change (p.setTable j t').findEntry j' id = some entry ↔ _
  rw [findEntry_setTable ht]
  split_ifs with hj
  · subst hj
    rw [hlookup, findEntry_of_table ht]
    exact ⟨fun ⟨h, hkeep⟩ ↦ ⟨h, fun _ ↦ hkeep⟩, fun ⟨h, hkeep⟩ ↦ ⟨h, hkeep rfl⟩⟩
  · exact ⟨fun h ↦ ⟨h, fun hj' ↦ (hj hj').elim⟩, fun h ↦ h.1⟩

theorem lookup_cleanup (t : PendingRequests) (now : ℕ) (id : String) (entry : PendingEntry) :
    ((some (t.cleanup now)).bind fun t ↦ t.pending.lookup id) = some entry ↔
      t.pending.lookup id = some entry ∧ PendingRequests.fresh now entry = true :=
  AList.lookup_retain_eq_some

theorem Consistent.empty_of_dropped (hp : p.Consistent) (ht : p.table? j = some t)
    {keep : PendingEntry → Bool} (hk : p.calls[k]? = some c) (hmem : k ∈ t.dropped keep) :
    c.rx = .empty := by
  obtain ⟨id, entry, hlookup, -, rfl⟩ := PendingRequests.mem_dropped.mp hmem
  obtain ⟨d, hd, -, -, -, hempty⟩ := hp.entry j id entry ((findEntry_of_table ht id).trans hlookup)
  rwa [Option.some.inj (hk.symm.trans hd)]

/-- The senders of the entries that leave a table are dropped. -/
theorem Consistent.prune (hp : p.Consistent) (ht : p.table? j = some t) {keep : PendingEntry → Bool}
    (hlookup : ∀ id entry, (t'.bind fun t ↦ t.pending.lookup id) = some entry ↔
      t.pending.lookup id = some entry ∧ keep entry = true) :
    (p.prune j t t' keep).Consistent := by
  have h := rewrites_prune p j t t' keep
  have hentry := findEntry_prune ht hlookup
  -- an entry whose sender is dropped is not kept
  have hkept : ∀ j' id entry, p.findEntry j' id = some entry → entry.sender ∈ t.dropped keep →
      j = j' ∧ keep entry = false := by
    intro j' id entry hfound hmem
    obtain ⟨id', entry', hlookup', hkeep, hsender⟩ := PendingRequests.mem_dropped.mp hmem
    have hfound' : p.findEntry j id' = some entry' := (findEntry_of_table ht id').trans hlookup'
    obtain ⟨c, hc, htable, hid, -, -⟩ := hp.entry j' id entry hfound
    obtain ⟨c', hc', htable', hid', -, -⟩ := hp.entry j id' entry' hfound'
    obtain rfl := Option.some.inj (hc'.symm.trans (hsender ▸ hc))
    have hj : j = j' := htable'.symm.trans htable
    subst hj
    have heq : id' = id := hid'.symm.trans hid
    subst heq
    obtain rfl := Option.some.inj (hfound.symm.trans hfound')
    exact ⟨rfl, hkeep⟩
  refine ⟨?_, ?_, h.distinct hp, h.named hp, ?_, ?_, ?_, hp.once⟩
  · intro j' id entry hfound
    obtain ⟨hfound, hkeep⟩ := (hentry j' id entry).mp hfound
    obtain ⟨c, hc, htable, hid, hcreated, hempty⟩ := hp.entry j' id entry hfound
    have hmem : entry.sender ∉ t.dropped keep := by
      intro hmem
      obtain ⟨hj, hfalse⟩ := hkept j' id entry hfound hmem
      rw [hkeep hj] at hfalse
      cases hfalse
    have hget := h.get hc
    rw [if_neg hmem] at hget
    exact ⟨c, hget, htable, hid, hcreated, hempty⟩
  · intro k c' hk hempty
    obtain ⟨c, hc, rfl⟩ := h.get_inv hk
    split_ifs at hempty ⊢ with hmem
    · cases hempty
    · have hfound := hp.registered k c hc hempty
      refine (hentry _ _ _).mpr ⟨hfound, fun hj ↦ ?_⟩
      by_contra hkeep
      refine hmem (PendingRequests.mem_dropped.mpr ⟨c.requestId, ⟨k, c.createdAt⟩, ?_,
        Bool.eq_false_of_not_eq_true hkeep, rfl⟩)
      rw [← findEntry_of_table ht, hj]
      exact hfound
  · intro k c' response hk hfull
    obtain ⟨c, hc, rfl⟩ := h.get_inv hk
    split_ifs at hfull ⊢ with hmem
    · cases hfull
    · exact hp.full k c response hc hfull
  · intro k c' response hk hdone
    obtain ⟨c, hc, rfl⟩ := h.get_inv hk
    split_ifs at hdone ⊢ with hmem
    · have hfull := hp.received k c response hc hdone
      rw [hp.empty_of_dropped ht hc hmem] at hfull
      cases hfull
    · exact hp.received k c response hc hdone
  · intro id response hanswered
    obtain ⟨k, c, hc, hid, hfull⟩ := hp.answered id response hanswered
    refine ⟨k, _, h.get hc, ?_⟩
    split_ifs with hmem
    · rw [hp.empty_of_dropped ht hc hmem] at hfull
      cases hfull
    · exact ⟨hid, hfull⟩

theorem findEntry_register (ht : p.table? j = some t) (id : String) (caller : Caller) (j' : ℕ)
    (id' : String) :
    (p.register j t id caller).findEntry j' id' =
      if j = j' ∧ id' = id then some ⟨p.calls.length, p.now⟩ else p.findEntry j' id' := by
  change (p.setTable j (some (t.register id p.calls.length p.now))).findEntry j' id' = _
  rw [findEntry_setTable ht]
  by_cases hj : j = j'
  · subst hj
    rw [if_pos rfl, Option.bind_some, PendingRequests.register, AList.lookup_insert_eq_ite,
      findEntry_of_table ht]
    simp
  · simp [hj]

theorem calls_register (p : Pool T) (j : ℕ) (t : PendingRequests) (id : String) (caller : Caller)
    (k : ℕ) (c : Call T) :
    (p.register j t id caller).calls[k]? = some c ↔ p.calls[k]? = some c ∨
      k = p.calls.length ∧ c = ⟨j, id, caller, p.now, .empty, .sending⟩ := by
  change (p.calls ++ [⟨j, id, caller, p.now, .empty, .sending⟩])[k]? = some c ↔ _
  rcases Nat.lt_trichotomy k p.calls.length with hlt | rfl | hgt
  · simp [List.getElem?_append_left hlt, Nat.ne_of_lt hlt]
  · simp [eq_comm]
  · have hne : k ≠ p.calls.length := Nat.ne_of_gt hgt
    have hout : (p.calls ++ [⟨j, id, caller, p.now, .empty, .sending⟩])[k]? = none :=
      List.getElem?_eq_none (by simpa using hgt)
    simp [hout, List.getElem?_eq_none (Nat.le_of_lt hgt), hne]

theorem Consistent.register (hp : p.Consistent) (ht : p.table? j = some t) (hid : id ≠ "")
    (hfresh : ∀ c ∈ p.calls, c.requestId ≠ id) (caller : Caller) :
    (p.register j t id caller).Consistent := by
  have hcalls := calls_register p j t id caller
  have hentry := findEntry_register ht id caller
  have hnot : ∀ (k : ℕ) c, p.calls[k]? = some c → c.requestId ≠ id :=
    fun k c hk ↦ hfresh c (List.mem_of_getElem? hk)
  refine ⟨?_, ?_, ?_, ?_, ?_, ?_, ?_, hp.once⟩
  · intro j' id' entry hfound
    replace hfound := (hentry j' id').symm.trans hfound
    split_ifs at hfound with hnew
    · obtain ⟨rfl, rfl⟩ := hnew
      obtain rfl := Option.some.inj hfound
      exact ⟨_, (hcalls _ _).mpr (.inr ⟨rfl, rfl⟩), rfl, rfl, rfl, rfl⟩
    · obtain ⟨c, hc, hrest⟩ := hp.entry j' id' entry hfound
      exact ⟨c, (hcalls _ _).mpr (.inl hc), hrest⟩
  · intro k c hk hempty
    refine (hentry c.table c.requestId).trans ?_
    rcases (hcalls k c).mp hk with hold | ⟨rfl, rfl⟩
    · rw [if_neg fun h ↦ hnot k c hold h.2]
      exact hp.registered k c hold hempty
    · exact if_pos ⟨rfl, rfl⟩
  · intro k k' c c' hk hk' hsame
    rcases (hcalls k c).mp hk with hold | ⟨rfl, rfl⟩
    · rcases (hcalls k' c').mp hk' with hold' | ⟨rfl, rfl⟩
      · exact hp.distinct k k' c c' hold hold' hsame
      · exact (hnot k c hold hsame).elim
    · rcases (hcalls k' c').mp hk' with hold' | ⟨rfl, rfl⟩
      · exact (hnot k' c' hold' hsame.symm).elim
      · rfl
  · intro k c hk
    rcases (hcalls k c).mp hk with hold | ⟨rfl, rfl⟩
    · exact hp.named k c hold
    · exact hid
  · intro k c response hk hfull
    rcases (hcalls k c).mp hk with hold | ⟨rfl, rfl⟩
    · exact hp.full k c response hold hfull
    · cases hfull
  · intro k c response hk hdone
    rcases (hcalls k c).mp hk with hold | ⟨rfl, rfl⟩
    · exact hp.received k c response hold hdone
    · cases hdone
  · intro id' response hanswered
    obtain ⟨k, c, hc, hrest⟩ := hp.answered id' response hanswered
    exact ⟨k, c, (hcalls k c).mpr (.inl hc), hrest⟩

theorem rewrites_complete {p : Pool T} {t : PendingRequests} {id : String} {entry : PendingEntry}
    (hlookup : t.pending.lookup id = some entry) (j : ℕ) (response : T) :
    Rewrites p (p.complete j t id response)
      fun k c ↦ if entry.sender = k then c.answer response else c := by
  refine ⟨fun k ↦ ?_, ?_, ?_, ?_, ?_⟩
  · simp only [Pool.complete, hlookup, List.getElem?_modify]
    rfl
  all_goals
    intro k c
    split_ifs <;> rfl

theorem Consistent.complete (hp : p.Consistent) (ht : p.table? j = some t) (response : T) :
    (p.complete j t id response).Consistent := by
  cases hlookup : t.pending.lookup id with
  | none =>
      have hsame : p.complete j t id response = p := by simp only [Pool.complete, hlookup]
      rwa [hsame]
  | some entry =>
      obtain ⟨c₀, hc₀, htable₀, hid₀, -, hempty₀⟩ :=
        hp.entry j id entry ((findEntry_of_table ht id).trans hlookup)
      have h := rewrites_complete (p := p) hlookup j response
      have hentry : ∀ j' id', (p.complete j t id response).findEntry j' id' =
          if j = j' ∧ id' = id then none else p.findEntry j' id' := by
        intro j' id'
        simp only [Pool.complete, hlookup]
        change (p.setTable j (some (t.remove id))).findEntry j' id' = _
        rw [findEntry_setTable ht]
        by_cases hj : j = j'
        · subst hj
          rw [if_pos rfl, Option.bind_some, PendingRequests.remove, AList.lookup_erase_eq_ite,
            findEntry_of_table ht]
          simp
        · simp [hj]
      have hanswered : (p.complete j t id response).answered =
          if c₀.Listening then p.answered ++ [(id, response)] else p.answered := by
        simp only [Pool.complete, hlookup, hc₀, Option.any_some]
      have hgrows : ∀ x ∈ p.answered, x ∈ (p.complete j t id response).answered := by
        intro x hx
        rw [hanswered]
        split_ifs
        · exact List.mem_append_left _ hx
        · exact hx
      refine ⟨?_, ?_, h.distinct hp, h.named hp, ?_, ?_, ?_, ?_⟩
      · intro j' id' entry' hfound
        rw [hentry] at hfound
        split_ifs at hfound with hremoved
        obtain ⟨c, hc, htable, hid, hcreated, hempty⟩ := hp.entry j' id' entry' hfound
        have hne : entry.sender ≠ entry'.sender := by
          intro heq
          obtain rfl := Option.some.inj (hc₀.symm.trans (heq ▸ hc))
          exact hremoved ⟨htable₀.symm.trans htable, hid.symm.trans hid₀⟩
        have hget := h.get hc
        rw [if_neg hne] at hget
        exact ⟨c, hget, htable, hid, hcreated, hempty⟩
      · intro k c' hk hempty
        obtain ⟨c, hc, rfl⟩ := h.get_inv hk
        rw [hentry]
        split_ifs at hempty ⊢ with hsender hremoved hremoved
        · simp only [Call.answer] at hempty
          split_ifs at hempty
        · simp only [Call.answer] at hempty
          split_ifs at hempty
        · have hk₀ := hp.distinct k entry.sender c c₀ hc hc₀ (hremoved.2.trans hid₀.symm)
          exact (hsender hk₀.symm).elim
        · exact hp.registered k c hc hempty
      · intro k c' response' hk hfull
        obtain ⟨c, hc, rfl⟩ := h.get_inv hk
        split_ifs at hfull ⊢ with hsender
        · subst hsender
          obtain rfl := Option.some.inj (hc₀.symm.trans hc)
          simp only [Call.answer] at hfull
          split_ifs at hfull with hlistening
          cases hfull
          rw [hanswered, if_pos hlistening]
          exact List.mem_append_right _ (List.mem_singleton.mpr (by rw [← hid₀]; rfl))
        · exact hgrows _ (hp.full k c response' hc hfull)
      · intro k c' response' hk hdone
        obtain ⟨c, hc, rfl⟩ := h.get_inv hk
        split_ifs at hdone ⊢ with hsender
        · subst hsender
          obtain rfl := Option.some.inj (hc₀.symm.trans hc)
          have hfull := hp.received _ c₀ response' hc₀ hdone
          rw [hempty₀] at hfull
          cases hfull
        · exact hp.received k c response' hc hdone
      · intro id' response' hmem
        have hcases : (id', response') ∈ p.answered ∨
            c₀.Listening = true ∧ (id', response') = (id, response) := by
          rw [hanswered] at hmem
          split_ifs at hmem with hlistening
          · rcases List.mem_append.mp hmem with hold | hnew
            · exact .inl hold
            · exact .inr ⟨hlistening, List.mem_singleton.mp hnew⟩
          · exact .inl hmem
        rcases hcases with hold | ⟨hlistening, hnew⟩
        · obtain ⟨k, c, hc, hid, hfull⟩ := hp.answered id' response' hold
          have hne : entry.sender ≠ k := by
            rintro rfl
            obtain rfl := Option.some.inj (hc₀.symm.trans hc)
            rw [hempty₀] at hfull
            cases hfull
          have hget := h.get hc
          rw [if_neg hne] at hget
          exact ⟨k, c, hget, hid, hfull⟩
        · obtain ⟨rfl, rfl⟩ := Prod.mk.inj hnew
          have hget := h.get hc₀
          rw [if_pos rfl] at hget
          refine ⟨entry.sender, _, hget, hid₀, ?_⟩
          simp only [Call.answer, hlistening, if_true]
      · rw [hanswered]
        split_ifs with hlistening
        · rw [List.map_append, List.map_singleton]
          refine List.nodup_append.mpr ⟨hp.once, List.nodup_singleton _, ?_⟩
          rintro id' hid' id'' hid'' rfl
          rw [List.mem_singleton] at hid''
          obtain ⟨⟨id', response'⟩, hmem, rfl⟩ := List.mem_map.mp hid'
          obtain ⟨k, c, hc, hid, hfull⟩ := hp.answered id' response' hmem
          obtain rfl := hp.distinct k entry.sender c c₀ hc hc₀ (hid.trans (hid''.trans hid₀.symm))
          obtain rfl := Option.some.inj (hc₀.symm.trans hc)
          rw [hempty₀] at hfull
          cases hfull
        · exact hp.once

/-! ## What each step does -/

theorem step_register {caller : Caller} (h : p.step (.register j id caller) = some q) :
    ∃ t, p.table? j = some t ∧ id ≠ "" ∧ (∀ c ∈ p.calls, c.requestId ≠ id) ∧
      q = p.register j t id caller := by
  obtain ⟨t, ht, hrest⟩ := Option.bind_eq_some_iff.mp h
  split_ifs at hrest with hfresh
  exact ⟨t, ht, hfresh.1, hfresh.2, (Option.some.inj hrest).symm⟩

theorem step_wait (h : p.step (.wait k) = some q) :
    ∃ c, p.calls[k]? = some c ∧ c.phase = .sending ∧
      q = p.setPhase k (.waiting (p.now + c.caller.timeout)) := by
  obtain ⟨c, hc, hrest⟩ := Option.bind_eq_some_iff.mp h
  split at hrest
  · next hphase => exact ⟨c, hc, hphase, (Option.some.inj hrest).symm⟩
  · cases hrest

theorem step_poll (h : p.step (.poll k) = some q) :
    ∃ c deadline result, p.calls[k]? = some c ∧ c.phase = .waiting deadline ∧
      c.rx.wait deadline p.now = some result ∧ q = p.setPhase k (.done result) := by
  obtain ⟨c, hc, hrest⟩ := Option.bind_eq_some_iff.mp h
  split at hrest
  · next deadline hphase =>
      obtain ⟨result, hresult, hq⟩ := Option.map_eq_some_iff.mp hrest
      exact ⟨c, deadline, result, hc, hphase, hresult, hq.symm⟩
  · cases hrest

theorem step_giveUp (h : p.step (.giveUp k) = some q) :
    ∃ c, p.calls[k]? = some c ∧ c.Listening = true ∧ q = p.setPhase k .gone := by
  obtain ⟨c, hc, hrest⟩ := Option.bind_eq_some_iff.mp h
  split_ifs at hrest with hlistening
  exact ⟨c, hc, hlistening, (Option.some.inj hrest).symm⟩

theorem step_complete (h : p.step (.complete j id response) = some q) :
    ∃ t, p.table? j = some t ∧ q = p.complete j t id response := by
  obtain ⟨t, ht, hq⟩ := Option.bind_eq_some_iff.mp h
  exact ⟨t, ht, (Option.some.inj hq).symm⟩

theorem step_cleanup (h : p.step (.cleanup j) = some q) :
    ∃ t, p.table? j = some t ∧ t.nextTick ≤ p.now ∧
      q = p.prune j t (some (t.cleanup p.now)) (PendingRequests.fresh p.now) := by
  obtain ⟨t, ht, hrest⟩ := Option.bind_eq_some_iff.mp h
  split_ifs at hrest with htick
  exact ⟨t, ht, htick, (Option.some.inj hrest).symm⟩

theorem step_drop (h : p.step (.drop j) = some q) :
    ∃ t, p.table? j = some t ∧ q = p.prune j t none fun _ ↦ false := by
  obtain ⟨t, ht, hq⟩ := Option.bind_eq_some_iff.mp h
  exact ⟨t, ht, (Option.some.inj hq).symm⟩

theorem Consistent.step {input : PendingInput T} (hp : p.Consistent)
    (hstep : p.step input = some q) : q.Consistent := by
  cases input with
  | new =>
      cases hstep
      exact hp.new
  | register j id caller =>
      obtain ⟨t, ht, hid, hfresh, rfl⟩ := step_register hstep
      exact hp.register ht hid hfresh caller
  | wait k =>
      obtain ⟨c, -, -, rfl⟩ := step_wait hstep
      exact hp.setPhase fun _ _ _ hphase ↦ by cases hphase
  | poll k =>
      obtain ⟨c, deadline, result, hc, -, hresult, rfl⟩ := step_poll hstep
      refine hp.setPhase fun c' response hc' hphase ↦ ?_
      cases hphase
      obtain rfl := Option.some.inj (hc.symm.trans hc')
      exact Oneshot.wait_eq_ok.mp hresult
  | giveUp k =>
      obtain ⟨c, -, -, rfl⟩ := step_giveUp hstep
      exact hp.setPhase fun _ _ _ hphase ↦ by cases hphase
  | complete j id response =>
      obtain ⟨t, ht, rfl⟩ := step_complete hstep
      exact hp.complete ht response
  | cleanup j =>
      obtain ⟨t, ht, -, rfl⟩ := step_cleanup hstep
      exact hp.prune ht (lookup_cleanup t p.now)
  | drop j =>
      obtain ⟨t, ht, rfl⟩ := step_drop hstep
      exact hp.prune ht fun id entry ↦ by simp
  | advance duration =>
      cases hstep
      exact ⟨hp.entry, hp.registered, hp.distinct, hp.named, hp.full, hp.received, hp.answered,
        hp.once⟩

/-- A step that registers nothing only rewrites the calls. -/
theorem step_rewrites {input : PendingInput T} (h : p.step input = some q)
    (hregister : ∀ j id caller, input ≠ .register j id caller) : ∃ f, Rewrites p q f := by
  have hrefl : ∀ r : Pool T, r.calls = p.calls → Rewrites p r fun _ c ↦ c := by
    intro r hcalls
    exact ⟨fun k ↦ by rw [hcalls]; simp, fun _ _ ↦ rfl, fun _ _ ↦ rfl, fun _ _ ↦ rfl,
      fun _ _ ↦ rfl⟩
  cases input with
  | new =>
      cases h
      exact ⟨_, hrefl _ rfl⟩
  | register j id caller => exact (hregister j id caller rfl).elim
  | wait k =>
      obtain ⟨c, -, -, rfl⟩ := step_wait h
      exact ⟨_, rewrites_setPhase p k _⟩
  | poll k =>
      obtain ⟨c, deadline, result, -, -, -, rfl⟩ := step_poll h
      exact ⟨_, rewrites_setPhase p k _⟩
  | giveUp k =>
      obtain ⟨c, -, -, rfl⟩ := step_giveUp h
      exact ⟨_, rewrites_setPhase p k _⟩
  | complete j id response =>
      obtain ⟨t, ht, rfl⟩ := step_complete h
      cases hlookup : t.pending.lookup id with
      | none => exact ⟨_, hrefl _ (by simp only [Pool.complete, hlookup])⟩
      | some entry => exact ⟨_, rewrites_complete hlookup j response⟩
  | cleanup j =>
      obtain ⟨t, -, -, rfl⟩ := step_cleanup h
      exact ⟨_, rewrites_prune p j t _ _⟩
  | drop j =>
      obtain ⟨t, -, rfl⟩ := step_drop h
      exact ⟨_, rewrites_prune p j t _ _⟩
  | advance duration =>
      cases h
      exact ⟨_, hrefl _ rfl⟩

theorem Rewrites.length {f : ℕ → Call T → Call T} (h : Rewrites p q f) :
    q.calls.length = p.calls.length := by
  refine Nat.le_antisymm ?_ ?_
  · rw [← List.getElem?_eq_none_iff, h.calls, Option.map_eq_none_iff, List.getElem?_eq_none_iff]
  · rw [← List.getElem?_eq_none_iff, ← Option.map_eq_none_iff (f := f _), ← h.calls,
      List.getElem?_eq_none_iff]

theorem live_setTable (ht : p.table? j = some t) (t' : PendingRequests) {j' : ℕ}
    {u : PendingRequests} (hu : p.table? j' = some u) :
    ∃ u', (p.setTable j (some t')).table? j' = some u' := by
  rw [table?_setTable ht]
  split_ifs
  · exact ⟨t', rfl⟩
  · exact ⟨u, hu⟩

theorem live_complete (ht : p.table? j = some t) (id : String) (response : T) {j' : ℕ}
    {u : PendingRequests} (hu : p.table? j' = some u) :
    ∃ u', (p.complete j t id response).table? j' = some u' := by
  cases hlookup : t.pending.lookup id with
  | none =>
      simp only [Pool.complete, hlookup]
      exact ⟨u, hu⟩
  | some entry =>
      simp only [Pool.complete, hlookup]
      exact live_setTable ht (t.remove id) hu

theorem length_complete (p : Pool T) (j : ℕ) (t : PendingRequests) (id : String) (response : T) :
    (p.complete j t id response).tables.length = p.tables.length := by
  unfold Pool.complete
  split
  · rfl
  · exact List.length_set

/-- A table in use is not taken by the number of the next one. -/
theorem table?_new_of_live {t₀ : PendingRequests} {u : PendingRequests} {j' : ℕ}
    (hu : p.table? j' = some u) :
    ({ p with tables := p.tables ++ [some t₀] } : Pool T).table? j' = some u := by
  rw [table?_new, if_neg, hu]
  rintro rfl
  simp [table?] at hu

/-- A new table, and the table of a replaced stream dropped. -/
theorem replace_run {replaced : Option ℕ}
    (h : run step p (.new :: (replaced.map PendingInput.drop).toList) = some q) :
    (∃ f, Rewrites p q f) ∧ q.tables.length = p.tables.length + 1 ∧ q.answered = p.answered ∧
      (replaced ≠ some p.tables.length → ∃ t, q.table? p.tables.length = some t) ∧
      ∀ j t, p.table? j = some t → replaced ≠ some j → ∃ t', q.table? j = some t' := by
  have hnew : ∀ j, ({ p with tables := p.tables ++ [some (PendingRequests.new p.now)] } :
      Pool T).table? j = if j = p.tables.length then some (PendingRequests.new p.now)
        else p.table? j := table?_new p _
  obtain ⟨p', hp', hrest⟩ := run_cons_eq_some.mp h
  obtain ⟨f, hf⟩ := step_rewrites hp' fun _ _ _ hinput ↦ by cases hinput
  cases hp'
  cases replaced with
  | none =>
      cases hrest
      refine ⟨⟨f, hf⟩, by simp, rfl, fun _ ↦ ⟨_, (hnew _).trans (if_pos rfl)⟩, fun j t ht _ ↦ ?_⟩
      exact ⟨t, table?_new_of_live ht⟩
  | some old =>
      obtain ⟨q', hq', hrest⟩ := run_cons_eq_some.mp hrest
      cases hrest
      obtain ⟨t, ht, rfl⟩ := step_drop hq'
      have hf := rewrites_prune ({ p with
        tables := p.tables ++ [some (PendingRequests.new p.now)] } : Pool T) old t none fun _ ↦ false
      refine ⟨⟨_, hf.calls, hf.table, hf.requestId, hf.createdAt, hf.caller⟩, ?_, rfl, ?_, ?_⟩
      · change (List.set _ _ _).length = _
        simp
      · intro hne
        refine ⟨PendingRequests.new p.now, ?_⟩
        change (Pool.setTable _ old none).table? _ = _
        rw [table?_setTable ht, if_neg fun heq ↦ hne (congrArg some heq), hnew, if_pos rfl]
      · intro j u hu hne
        refine ⟨u, ?_⟩
        change (Pool.setTable _ old none).table? _ = _
        rw [table?_setTable ht, if_neg fun heq ↦ hne (congrArg some heq)]
        exact table?_new_of_live hu

/-- What a step does that neither registers nor answers anything and drops no
table. -/
structure Quiet (p q : Pool T) : Prop where
  rewrites : ∃ f, Rewrites p q f
  length : q.tables.length = p.tables.length
  live : ∀ j t, p.table? j = some t → ∃ t', q.table? j = some t'
  answered : q.answered = p.answered

theorem quiet_setPhase (p : Pool T) (k : ℕ) (phase : Phase T) : Quiet p (p.setPhase k phase) :=
  ⟨⟨_, rewrites_setPhase p k phase⟩, rfl, fun _ t ht ↦ ⟨t, ht⟩, rfl⟩

theorem quiet_step {input : PendingInput T} (h : p.step input = some q)
    (hquiet : input.IsQuiet) : Quiet p q := by
  cases input with
  | wait k =>
      obtain ⟨c, -, -, rfl⟩ := step_wait h
      exact quiet_setPhase p k _
  | poll k =>
      obtain ⟨c, deadline, result, -, -, -, rfl⟩ := step_poll h
      exact quiet_setPhase p k _
  | giveUp k =>
      obtain ⟨c, -, -, rfl⟩ := step_giveUp h
      exact quiet_setPhase p k _
  | cleanup j =>
      obtain ⟨t, ht, -, rfl⟩ := step_cleanup h
      exact ⟨⟨_, rewrites_prune p j t _ _⟩, List.length_set,
        fun j' t' ht' ↦ live_setTable ht (t.cleanup p.now) ht', rfl⟩
  | advance duration =>
      obtain ⟨f, hf⟩ := step_rewrites h fun _ _ _ ↦ nofun
      cases h
      exact ⟨⟨f, hf⟩, rfl, fun _ t ht ↦ ⟨t, ht⟩, rfl⟩
  | new | register | complete | drop => exact hquiet.elim

/-! ## What a caller sees -/

variable (id response) in
/-- A completion leaves the calls with other ids as they are. -/
theorem Consistent.complete_other (hp : p.Consistent) (ht : p.table? j = some t)
    (hk : p.calls[k]? = some c) (hid : c.requestId ≠ id) :
    (p.complete j t id response).calls[k]? = some c := by
  cases hlookup : t.pending.lookup id with
  | none => simp only [Pool.complete, hlookup, hk]
  | some entry =>
      have hget := (rewrites_complete hlookup j response).get hk
      obtain ⟨d, hd, -, hid', -, -⟩ :=
        hp.entry j id entry ((findEntry_of_table ht id).trans hlookup)
      have hne : entry.sender ≠ k := by
        rintro rfl
        obtain rfl := Option.some.inj (hk.symm.trans hd)
        exact hid hid'
      rwa [if_neg hne] at hget

variable (response) in
/-- A completion reaches the call of its id if the call is open in this table. -/
theorem Consistent.complete_own (hp : p.Consistent) (hk : p.calls[k]? = some c)
    (ht : p.table? c.table = some t) (hempty : c.rx = .empty) (hlistening : c.Listening = true) :
    (p.complete c.table t c.requestId response).calls[k]? =
      some { c with rx := .full response } := by
  have hlookup := (findEntry_of_table ht c.requestId).symm.trans (hp.registered k c hk hempty)
  have hget := (rewrites_complete hlookup c.table response).get hk
  rwa [if_pos rfl, Call.answer, if_pos hlistening] at hget

variable (id response) in
/-- A completion of another table does not reach the call. -/
theorem Consistent.complete_elsewhere (hp : p.Consistent) (ht : p.table? j = some t)
    (hk : p.calls[k]? = some c) (htable : c.table ≠ j) :
    (p.complete j t id response).calls[k]? = some c := by
  cases hlookup : t.pending.lookup id with
  | none => simp only [Pool.complete, hlookup, hk]
  | some entry =>
      have hget := (rewrites_complete hlookup j response).get hk
      obtain ⟨d, hd, htable', -, -, -⟩ :=
        hp.entry j id entry ((findEntry_of_table ht id).trans hlookup)
      have hne : entry.sender ≠ k := by
        rintro rfl
        obtain rfl := Option.some.inj (hk.symm.trans hd)
        exact htable htable'
      rwa [if_neg hne] at hget

/-- The call has its response: it has returned it, or its next poll will,
unless the caller goes away. -/
def Answered (p : Pool T) (k : ℕ) (response : T) : Prop :=
  ∃ c : Call T, p.calls[k]? = some c ∧ c.rx = .full response ∧
    (c.Listening = true ∨ c.phase = .done (.ok response) ∨ c.phase = .gone)

theorem Answered.rewrites {f : ℕ → Call T → Call T} (hp : p.Answered k response)
    (h : Rewrites p q f)
    (hkeep : ∀ c, p.calls[k]? = some c → c.rx = .full response →
      (f k c).rx = c.rx ∧ (f k c).phase = c.phase) : q.Answered k response := by
  obtain ⟨c, hc, hfull, hphase⟩ := hp
  obtain ⟨hrx, hsame⟩ := hkeep c hc hfull
  refine ⟨_, h.get hc, hrx.trans hfull, ?_⟩
  unfold Call.Listening at hphase ⊢
  rwa [hsame]

theorem Answered.setPhase {phase : Phase T} (hp : p.Answered k response)
    (hphase : k' = k → phase.isListening = true ∨ phase = .done (.ok response) ∨ phase = .gone) :
    (p.setPhase k' phase).Answered k response := by
  obtain ⟨c, hc, hfull, hkeep⟩ := hp
  refine ⟨_, (rewrites_setPhase p k' phase).get hc, ?_⟩
  split_ifs with hk
  · exact ⟨hfull, hphase hk⟩
  · exact ⟨hfull, hkeep⟩

theorem Answered.prune (hanswered : p.Answered k response) (hp : p.Consistent)
    (ht : p.table? j = some t) {keep : PendingEntry → Bool} :
    (p.prune j t t' keep).Answered k response := by
  refine hanswered.rewrites (rewrites_prune p j t t' keep) fun c hc hfull ↦ ?_
  have hmem : k ∉ t.dropped keep := by
    intro hmem
    rw [hp.empty_of_dropped ht hc hmem] at hfull
    cases hfull
  rw [if_neg hmem]
  exact ⟨rfl, rfl⟩

theorem Answered.step {input : PendingInput T} (hanswered : p.Answered k response)
    (hp : p.Consistent) (h : p.step input = some q) : q.Answered k response := by
  obtain ⟨c, hc, hfull, hphase⟩ := id hanswered
  cases input with
  | new =>
      cases h
      exact hanswered
  | register j id caller =>
      obtain ⟨t, -, -, -, rfl⟩ := step_register h
      exact ⟨c, (calls_register p j t id caller k c).mpr (.inl hc), hfull, hphase⟩
  | wait k' =>
      obtain ⟨c', -, -, rfl⟩ := step_wait h
      exact hanswered.setPhase fun _ ↦ .inl rfl
  | poll k' =>
      obtain ⟨c', deadline, result, hc', -, hresult, rfl⟩ := step_poll h
      refine hanswered.setPhase fun hk ↦ .inr (.inl ?_)
      subst hk
      obtain rfl := Option.some.inj (hc.symm.trans hc')
      rw [hfull, Oneshot.wait] at hresult
      rw [← Option.some.inj hresult]
  | giveUp k' =>
      obtain ⟨c', -, -, rfl⟩ := step_giveUp h
      exact hanswered.setPhase fun _ ↦ .inr (.inr rfl)
  | complete j id response' =>
      obtain ⟨t, ht, rfl⟩ := step_complete h
      cases hlookup : t.pending.lookup id with
      | none =>
          have hsame : p.complete j t id response' = p := by simp only [Pool.complete, hlookup]
          rwa [hsame]
      | some entry =>
          refine hanswered.rewrites (rewrites_complete hlookup j response') fun d hd hfull' ↦ ?_
          obtain ⟨d', hd', -, -, -, hempty⟩ :=
            hp.entry j id entry ((findEntry_of_table ht id).trans hlookup)
          have hne : entry.sender ≠ k := by
            rintro rfl
            obtain rfl := Option.some.inj (hd.symm.trans hd')
            rw [hempty] at hfull'
            cases hfull'
          rw [if_neg hne]
          exact ⟨rfl, rfl⟩
  | cleanup j =>
      obtain ⟨t, ht, -, rfl⟩ := step_cleanup h
      exact hanswered.prune hp ht
  | drop j =>
      obtain ⟨t, ht, rfl⟩ := step_drop h
      exact hanswered.prune hp ht
  | advance duration =>
      cases h
      exact hanswered

end Pool

end Oxiproxy
