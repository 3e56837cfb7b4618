import Oxiproxy.Controller.FanOut
import Oxiproxy.Common.Rust

/-!
# Concurrent traffic reports

Every report gets a traffic manager of its own, which aggregates the records of
the report and flushes them.  The managers share the database and nothing else,
so the steps of their flushes interleave.

The totals are compared as integers; the `i64` columns hold what these wrap around
to, so totals that agree here agree there.
-/

namespace Oxiproxy.Controller

open Transition

structure TrafficRecord where
  proxyId : ℤ
  clientId : String
  userId : Option ℤ
  bytesSent : ℤ
  bytesReceived : ℤ
  deriving DecidableEq

structure TrafficEvent where
  proxyId : ℤ
  clientId : ℤ
  userId : Option ℤ
  bytesSent : ℤ
  bytesReceived : ℤ
  deriving DecidableEq

def TrafficRecord.event (r : TrafficRecord) : TrafficEvent :=
  ⟨r.proxyId, (parseI64 r.clientId).getD 0, r.userId, r.bytesSent, r.bytesReceived⟩

def TrafficEvent.key (e : TrafficEvent) : TrafficKey := ⟨e.proxyId, e.clientId, e.userId⟩

def TrafficEvent.bytes (e : TrafficEvent) : Bytes := (e.bytesSent, e.bytesReceived)

/-- The handler of one report together with the task that aggregates it. -/
structure TrafficManager where
  /-- The records of the report that are still to be recorded. -/
  records : List TrafficRecord
  channel : List TrafficEvent
  buffer : AList fun _ : TrafficKey ↦ Bytes
  /-- The events the buffer is made of, until its flush has read the day. -/
  buffered : List TrafficEvent
  flush : Option Flush

namespace TrafficManager

def new (records : List TrafficRecord) : TrafficManager := ⟨records, [], ∅, [], none⟩

/-- Send the next record to the task; the channel holds 10000 events. -/
def recordTraffic (m : TrafficManager) : Option TrafficManager :=
  match m.records with
  | [] => none
  | r :: records =>
      if r.bytesSent = 0 ∧ r.bytesReceived = 0 then some { m with records }
      else if m.channel.length < 10000 then
        some { m with records, channel := m.channel ++ [r.event] }
      else none

/-- Start `flush_buffer` on the entries of the buffer. -/
def startFlush (m : TrafficManager) : TrafficManager :=
  { m with
    buffer := ∅
    flush := some (Flush.start (m.buffer.entries.map fun e ↦ (e.1, e.2)) "" default) }

/-- Add one event to its entry of the buffer. -/
def aggregate (m : TrafficManager) (e : TrafficEvent) : TrafficManager :=
  { m with
    buffer := m.buffer.insert e.key ((m.buffer.lookup e.key).getD 0 + e.bytes)
    buffered := m.buffered ++ [e] }

/-- The task receives an event while it is not flushing. -/
def receive (m : TrafficManager) : Option TrafficManager :=
  match m.flush, m.channel with
  | none, e :: channel =>
      let m := aggregate { m with channel } e
      some (if 1000 < m.buffer.entries.length then m.startFlush else m)
  | _, _ => none

/-- The tick of the interval while the task is not flushing. -/
def tick (m : TrafficManager) : Option TrafficManager :=
  match m.flush with
  | none => some (if m.buffer.entries = [] then m else m.startFlush)
  | some _ => none

/-- After a step of the flush from `f` to `f'`. -/
def flushed (m : TrafficManager) (f f' : Flush) : TrafficManager :=
  { m with
    buffered := if f.position = .readToday then [] else m.buffered
    flush := if f'.position = .done then none else some f' }

end TrafficManager

/-- All reports so far: their managers over one database.  The events of a flush
are settled under the day it reads in its first step. -/
structure Reports where
  db : Db
  managers : List TrafficManager
  reported : List TrafficRecord
  settled : List (String × TrafficEvent)

namespace Reports

inductive Input
  | report (records : List TrafficRecord)
  | recordTraffic (i : ℕ)
  | receive (i : ℕ)
  | tick (i : ℕ)
  | step (i : ℕ) (env : StepEnv)

def update (s : Reports) (i : ℕ) (op : TrafficManager → Option TrafficManager) : Option Reports :=
  s.managers[i]?.bind fun m ↦ (op m).map fun m' ↦ { s with managers := s.managers.set i m' }

def next (s : Reports) : Input → Option Reports
  | .report records =>
      some { s with
        managers := s.managers ++ [.new records]
        reported := s.reported ++ records }
  | .recordTraffic i => s.update i TrafficManager.recordTraffic
  | .receive i => s.update i TrafficManager.receive
  | .tick i => s.update i TrafficManager.tick
  | .step i env =>
      s.managers[i]?.bind fun m ↦ m.flush.bind fun f ↦ (flushStep env s.db f).map fun t ↦
        { s with
          db := t.1
          managers := s.managers.set i (m.flushed f t.2.1)
          settled := s.settled ++
            if f.position = .readToday then m.buffered.map (t.2.1.today, ·) else [] }

/-- Before the first report. -/
def idle (db : Db) : Reports := ⟨db, [], [], []⟩

/-- Every report has been recorded, aggregated and flushed. -/
def Completed (s : Reports) : Prop :=
  ∀ m ∈ s.managers, m.records = [] ∧ m.channel = [] ∧ m.buffer.entries = [] ∧ m.flush = none

/-- Database calls succeed and no reset is due. -/
def Premise (s : Reports) : Input → Prop
  | .step i env =>
      env.ok = true ∧ ∀ m ∈ s.managers[i]?, ∀ f ∈ m.flush, f.needsReset env = false
  | _ => True

/-- The totals a task is about to write back are computed from those in the
database. -/
def Unraced (s : Reports) : Input → Prop
  | .step i _ => ∀ m ∈ s.managers[i]?, ∀ f ∈ m.flush, f.Current Meter.bytes s.db
  | _ => True

instance (f : Flush) (db : Db) : Decidable (f.Current Meter.bytes db) := by
  unfold Flush.Current
  split <;> infer_instance

instance (s : Reports) : ∀ i, Decidable (s.Premise i)
  | .step i env =>
      inferInstanceAs (Decidable
        (env.ok = true ∧ ∀ m ∈ s.managers[i]?, ∀ f ∈ m.flush, f.needsReset env = false))
  | .report _ | .recordTraffic _ | .receive _ | .tick _ => .isTrue trivial

instance (s : Reports) : ∀ i, Decidable (s.Unraced i)
  | .step i _ =>
      inferInstanceAs (Decidable
        (∀ m ∈ s.managers[i]?, ∀ f ∈ m.flush, f.Current Meter.bytes s.db))
  | .report _ | .recordTraffic _ | .receive _ | .tick _ => .isTrue trivial

instance (s : Reports) : Decidable s.Completed :=
  decidable_of_iff
    (∀ m ∈ s.managers, m.records.isEmpty ∧ m.channel.isEmpty ∧ m.buffer.entries.isEmpty ∧
      m.flush.isNone)
    (by simp [Completed])

/-- Nothing reported is lost: every record with bytes is settled under exactly
one day, and each row holds what it had and what is settled on it. -/
def Accounted (db : Db) (s : Reports) : Prop :=
  (s.settled.map Prod.snd).Perm
      ((s.reported.map TrafficRecord.event).filter fun e ↦ e.bytes ≠ 0) ∧
    ∀ r, (s.db.totals r).getD 0 = (db.totals r).getD 0 +
      ((s.settled.filter fun x ↦ r ∈ db.links.keyRows x.1 x.2.key).map (·.2.bytes)).sum

end Reports

/-! ## What a manager still owes -/

/-- The bytes of an entry that go to a row on a day. -/
def share (L : Links) (today : String) (r : RowId) (k : TrafficKey) (bytes : Bytes) : Bytes :=
  if r ∈ L.keyRows today k then bytes else 0

theorem share_add (L : Links) (today : String) (r : RowId) (k : TrafficKey) (a b : Bytes) :
    share L today r k (a + b) = share L today r k a + share L today r k b := by
  unfold share
  split_ifs <;> simp

theorem entryCredit_share (L : Links) (today : String) (r : RowId) (e : TrafficKey × Bytes) :
    entryCredit (fun b ↦ b) L today r e = share L today r e.1 e.2 := by
  rw [entryCredit_eq, share]
  split_ifs with hr hzero
  · exact hzero.symm
  · rfl
  · rfl

def sharesOf (L : Links) (today : String) (r : RowId) (events : List TrafficEvent) : Bytes :=
  (events.map fun e ↦ share L today r e.key e.bytes).sum

/-- What the flush of a manager owes a row, once it has read the day. -/
def TrafficManager.owed (L : Links) (r : RowId) (m : TrafficManager) : Bytes :=
  match m.flush with
  | none => 0
  | some f => if f.position = .readToday then 0 else credit (fun b ↦ b) L f.today r f

/-- The events of a manager that are not settled yet. -/
def TrafficManager.outstanding (m : TrafficManager) : Multiset TrafficEvent :=
  ↑(m.buffered ++ m.channel ++
    (m.records.map TrafficRecord.event).filter fun e ↦ e.bytes ≠ 0)

/-- The buffer, and the flush that drains it, hold what the buffered events add up to. -/
structure TrafficManager.Sound (db : Db) (m : TrafficManager) : Prop where
  buffer : m.flush = none → ∀ today r,
    m.buffer.sumOver (share db.links today r) = sharesOf db.links today r m.buffered
  empty : m.flush = none → m.buffer.entries = [] → m.buffered = []
  drained : m.flush ≠ none → m.buffer = ∅
  flush : ∀ f ∈ m.flush,
    f.Consistent db.links ∧ f.Holds Meter.reset db ∧ f.Drained ∧ f.position ≠ .done
  entries : ∀ f ∈ m.flush, f.position = .readToday → f.nodeTraffic = ∅ ∧ ∀ today r,
    (f.buffer.map (entryCredit (fun b ↦ b) db.links today r)).sum =
      sharesOf db.links today r m.buffered
  settled : ∀ f ∈ m.flush, f.position ≠ .readToday → m.buffered = []

namespace TrafficManager

variable {db : Db} {m m' : TrafficManager}

theorem Sound.of_idle (hidle : m.flush = none)
    (hbuffer : ∀ today r, m.buffer.sumOver (share db.links today r) =
      sharesOf db.links today r m.buffered)
    (hempty : m.buffer.entries = [] → m.buffered = []) : m.Sound db where
  buffer _ := hbuffer
  empty _ := hempty
  drained h := (h hidle).elim
  flush f hf := absurd (hidle ▸ hf) (Option.not_mem_none f)
  entries f hf := absurd (hidle ▸ hf) (Option.not_mem_none f)
  settled f hf := absurd (hidle ▸ hf) (Option.not_mem_none f)

theorem Sound.new (db : Db) (records : List TrafficRecord) : (new records).Sound db :=
  .of_idle rfl (fun _ _ ↦ rfl) fun _ ↦ rfl

theorem Sound.startFlush (hm : m.Sound db) (hidle : m.flush = none) : m.startFlush.Sound db where
  buffer h := nomatch h
  empty h := nomatch h
  drained _ := rfl
  flush f hf := by
    obtain rfl := Option.some.inj hf
    exact ⟨trivial, trivial, .of_not_perNode id, nofun⟩
  entries f hf _ := by
    obtain rfl := Option.some.inj hf
    refine ⟨rfl, fun today r ↦ Eq.trans ?_ (hm.buffer hidle today r)⟩
    simp only [Flush.start, List.map_map, AList.sumOver]
    exact congrArg List.sum (List.map_congr_left fun e _ ↦ entryCredit_share _ _ _ _)
  settled f hf hpos := by
    obtain rfl := Option.some.inj hf
    exact (hpos rfl).elim

theorem Sound.aggregate (hm : m.Sound db) (hidle : m.flush = none) (e : TrafficEvent) :
    (m.aggregate e).Sound db := by
  refine .of_idle hidle (fun today r ↦ ?_) fun h ↦ absurd h ?_
  on_goal 2 =>
    rw [TrafficManager.aggregate, AList.entries_insert]
    exact List.cons_ne_nil _ _
  have hinsert := AList.sumOver_insert_add (share db.links today r) zero_add
    (share_add db.links today r) e.key e.bytes m.buffer
  rw [TrafficManager.aggregate, hinsert, hm.buffer hidle today r]
  simp [sharesOf, add_comm]

/-- A step of a manager that neither touches the database nor settles an event. -/
structure Quiet (db : Db) (m m' : TrafficManager) : Prop where
  sound : m'.Sound db
  owed : ∀ r, m'.owed db.links r = m.owed db.links r
  outstanding : m'.outstanding = m.outstanding

theorem owed_of_idle (L : Links) (r : RowId) (hidle : m.flush = none) : m.owed L r = 0 := by
  rw [owed, hidle]

theorem Quiet.recordTraffic (hm : m.Sound db) (h : m.recordTraffic = some m') :
    Quiet db m m' := by
  unfold TrafficManager.recordTraffic at h
  split at h
  · cases h
  · rename_i r records hrecords
    have hzero : r.event.bytes = 0 ↔ r.bytesSent = 0 ∧ r.bytesReceived = 0 :=
      Prod.ext_iff (y := (0 : Bytes))
    split_ifs at h with hskip hroom <;> cases h
    · refine ⟨⟨hm.buffer, hm.empty, hm.drained, hm.flush, hm.entries, hm.settled⟩, fun _ ↦ rfl, ?_⟩
      simp [TrafficManager.outstanding, hrecords, hzero.mpr hskip]
    · refine ⟨⟨hm.buffer, hm.empty, hm.drained, hm.flush, hm.entries, hm.settled⟩, fun _ ↦ rfl, ?_⟩
      have hne : r.event.bytes ≠ 0 := fun heq ↦ hskip (hzero.mp heq)
      simp [TrafficManager.outstanding, hrecords, hne]

theorem Quiet.receive (hm : m.Sound db) (h : m.receive = some m') : Quiet db m m' := by
  unfold TrafficManager.receive at h
  split at h
  · rename_i e channel hidle hchannel
    have hsound : (aggregate { m with channel } e).Sound db :=
      Sound.aggregate (m := { m with channel })
        ⟨hm.buffer, hm.empty, hm.drained, hm.flush, hm.entries, hm.settled⟩ hidle e
    have hout : (aggregate { m with channel } e).outstanding = m.outstanding := by
      simp [TrafficManager.outstanding, aggregate, hchannel]
    have howed : ∀ r, m.owed db.links r = 0 := fun r ↦ owed_of_idle db.links r hidle
    simp only at h
    split_ifs at h <;> cases h
    · exact ⟨hsound.startFlush hidle, fun r ↦ (howed r).symm, hout⟩
    · exact ⟨hsound, fun r ↦ (owed_of_idle db.links r hidle).trans (howed r).symm, hout⟩
  · cases h

theorem Quiet.tick (hm : m.Sound db) (h : m.tick = some m') : Quiet db m m' := by
  unfold TrafficManager.tick at h
  split at h
  · rename_i hidle
    split_ifs at h <;> cases h
    · exact ⟨hm, fun _ ↦ rfl, rfl⟩
    · exact ⟨hm.startFlush hidle, fun r ↦ (owed_of_idle db.links r hidle).symm, rfl⟩
  · cases h

end TrafficManager

/-! ## A step of a flush without a reset -/

/-- Periods and resets of the accounts are the same. -/
def SameResets (db db' : Db) : Prop :=
  ∀ a, (db'.meter (.account a)).map Meter.reset = (db.meter (.account a)).map Meter.reset

theorem Db.reset_proxy (db : Db) (id : ℤ) : ∀ m ∈ db.meter (.proxy id), m.reset = none := by
  intro m hm
  obtain ⟨p, -, rfl⟩ := Option.map_eq_some_iff.mp hm
  rfl

theorem Flush.Holds.congr_reset {db db' : Db} {f : Flush} (hsame : SameResets db db')
    (hf : f.Holds Meter.reset db) : f.Holds Meter.reset db' := by
  have haccount : ∀ a x, (∀ m ∈ db.meter (.account a), m.reset = x) →
      ∀ m ∈ db'.meter (.account a), m.reset = x := by
    intro a x h m hm
    have hmap := hsame a
    rw [Option.mem_def.mp hm, Option.map_some, eq_comm] at hmap
    obtain ⟨m', hm', hreset⟩ := Option.map_eq_some_iff.mp hmap
    exact hreset ▸ h m' hm'
  unfold Flush.Holds Flush.Current at hf ⊢
  cases hpos : f.position with
  | updateProxy k bytes proxy => exact fun m hm ↦ db'.reset_proxy proxy.id m hm
  | upsertDaily k bytes directUserId client =>
      simp only [hpos] at hf
      cases client with
      | none => trivial
      | some c => exact haccount _ _ hf
  | updateAccount a plan read bytes next =>
      simp only [hpos] at hf
      exact haccount _ _ hf
  | _ => trivial

section Step

variable {env : StepEnv} {db db' : Db} {f f' : Flush} {app : Option Application}

/-- No reset is due for the row of an application. -/
theorem due_eq_false {x : Application} (hcurrent : f.Current (fun m ↦ m) db)
    (hneeds : f.needsReset env = false)
    (hstep : flushStep env db f = some (db', f', some x)) :
    ((db.meter x.row).getD Meter.zero).due x.instant = false := by
  have hinstant : x.instant = env.clock := by
    rcases flushStep_times hstep with ⟨-, -, -, h⟩ | ⟨-, -, -, -, h⟩ | ⟨-, -, -, -, h⟩
    · cases h
    · cases h
    · exact (h x rfl).2
  have hnone : ∀ m : Meter, m.reset = none → m.due x.instant = false := by
    intro m hm
    rw [Meter.due, hm, Option.any_none]
  cases hrow : x.row with
  | proxy id =>
      refine hnone _ ?_
      cases hm : db.meter (.proxy id) with
      | none => rfl
      | some m => exact db.reset_proxy id m hm
  | daily proxyId date => exact hnone _ (db.reset_daily proxyId date)
  | account a =>
      obtain ⟨hsome, plan, read, bytes, next, hpos⟩ := flushStep_account hstep hrow
      obtain ⟨y, hy⟩ := Option.isSome_iff_exists.mp hsome
      have hmeter : db.meter (.account a) = some (.ofAccount y) := by simp [Db.meter, hy]
      simp only [Flush.Current, hpos] at hcurrent
      simp only [Flush.needsReset, hpos] at hneeds
      rw [hmeter, Option.getD_some, hcurrent _ hmeter, hinstant]
      exact hneeds

theorem flushStep_totals (hcurrent : f.Current (fun m ↦ m) db) (hneeds : f.needsReset env = false)
    (hstep : flushStep env db f = some (db', f', app)) (r : RowId) :
    (db'.totals r).getD 0 = (db.totals r).getD 0 + applied (fun b ↦ b) r app := by
  have hmeter := flushStep_meter hcurrent hstep r
  unfold Db.totals
  rw [hmeter]
  cases app with
  | none => simp [Meter.apply, applied]
  | some x =>
      unfold Meter.apply applied
      simp only
      split_ifs with hrow
      · have hdue := due_eq_false hcurrent hneeds hstep
        rw [hrow] at hdue
        rw [Meter.add, hdue, if_neg Bool.false_ne_true]
        cases db.meter r <;> simp [Meter.zero]
      · rw [add_zero]

theorem flushStep_sameResets (hcurrent : f.Current (fun m ↦ m) db)
    (hneeds : f.needsReset env = false)
    (hstep : flushStep env db f = some (db', f', app)) : SameResets db db' := by
  intro a
  rw [flushStep_meter hcurrent hstep]
  cases app with
  | none => rfl
  | some x =>
      unfold Meter.apply
      simp only
      split_ifs with hrow
      · have hdue := due_eq_false hcurrent hneeds hstep
        obtain ⟨hsome, -⟩ := flushStep_account hstep hrow
        obtain ⟨y, hy⟩ := Option.isSome_iff_exists.mp hsome
        have hmeter : db.meter (.account a) = some (.ofAccount y) := by simp [Db.meter, hy]
        rw [hrow] at hdue
        rw [Meter.add, hdue, if_neg Bool.false_ne_true, hmeter]
        rfl
      · rfl

end Step

namespace TrafficManager

variable {env : StepEnv} {db db₁ db' : Db} {m : TrafficManager} {f f' : Flush}
  {app : Option Application}

/-- A step of a manager's flush pays out of what the manager owes, and the first
step makes the buffered events its debt. -/
theorem owed_flushed (hm : m.Sound db) (hf : m.flush = some f) (hlinks : db₁.links = db.links)
    (hok : env.ok = true) (hstep : flushStep env db₁ f = some (db', f', app)) (r : RowId) :
    (m.flushed f f').owed db.links r + applied (fun b ↦ b) r app =
      m.owed db.links r +
        if f.position = .readToday then sharesOf db.links f'.today r m.buffered else 0 := by
  obtain ⟨hconsistent, -, hdrained, -⟩ := hm.flush f hf
  have htimes := flushStep_times hstep
  have htoday : f.position ≠ .readToday → f.today = f'.today := by
    intro hpos
    rcases htimes with ⟨h, -⟩ | ⟨-, h, -⟩ | ⟨-, h, -⟩
    · exact (hpos h).elim
    · exact h.symm
    · exact h.symm
  have hpos' := flushStep_position hstep
  have hafter : (m.flushed f f').owed db.links r =
      credit (fun b ↦ b) db.links f'.today r f' := by
    unfold owed flushed
    by_cases hdone : f'.position = .done
    · rw [if_pos hdone]
      exact ((hdrained.step hstep).credit_done hdone ..).symm
    · simp only [if_neg hdone, if_neg hpos']
  have hbefore : credit (fun b ↦ b) db.links f'.today r f = m.owed db.links r +
      if f.position = .readToday then sharesOf db.links f'.today r m.buffered else 0 := by
    unfold owed
    rw [hf]
    by_cases hpos : f.position = .readToday
    · obtain ⟨hnodes, hentries⟩ := hm.entries f hf hpos
      simp only [if_pos hpos, credit, hentries, hnodes, AList.sumOver_empty]
      simp [hpos, positionCredit]
    · simp only [if_neg hpos, htoday hpos, add_zero]
  have hcredit := flushStep_credit (w := fun b ↦ b) (r := r)
    (fun _ _ ↦ rfl) hok (hlinks ▸ hconsistent) htoday hstep
  rw [hlinks] at hcredit
  rw [hafter, hcredit, hbefore]

/-- The events that a step of the flush settles. -/
theorem outstanding_flushed (m : TrafficManager) (f f' : Flush) :
    (m.flushed f f').outstanding +
        ↑(if f.position = .readToday then m.buffered else ([] : List TrafficEvent)) =
      m.outstanding := by
  unfold outstanding flushed
  by_cases hpos : f.position = .readToday
  · have hperm := @List.perm_append_comm _ (m.channel ++
      (m.records.map TrafficRecord.event).filter fun e ↦ e.bytes ≠ 0) m.buffered
    simpa only [if_pos hpos, Multiset.coe_add, Multiset.coe_eq_coe, List.nil_append,
      List.append_assoc] using hperm
  · simp only [if_neg hpos, Multiset.coe_nil, add_zero]

theorem Sound.flushed (hm : m.Sound db) (hf : m.flush = some f) (hlinks : db₁.links = db.links)
    (hsame : SameResets db db₁) (hsame' : SameResets db db') (hok : env.ok = true)
    (hstep : flushStep env db₁ f = some (db', f', app)) : (m.flushed f f').Sound db := by
  obtain ⟨hconsistent, hholds, hdrained, -⟩ := hm.flush f hf
  have hempty : m.buffer = ∅ := hm.drained (by rw [hf]; exact nofun)
  have hconsistent' := (hlinks ▸ hconsistent : f.Consistent db₁.links).step hok hstep
  have hholds' := ((hholds.congr_reset hsame).step hstep).congr_reset fun a ↦ (hsame' a).symm
  have hpos' := flushStep_position hstep
  have hbuffered : (m.flushed f f').buffered = [] := by
    unfold TrafficManager.flushed
    by_cases hpos : f.position = .readToday
    · rw [if_pos hpos]
    · rw [if_neg hpos, hm.settled f hf hpos]
  by_cases hdone : f'.position = .done
  · have hidle : (m.flushed f f').flush = none := if_pos hdone
    refine .of_idle hidle (fun today r ↦ ?_) fun _ ↦ hbuffered
    rw [hbuffered]
    change m.buffer.sumOver _ = _
    rw [hempty]
    rfl
  · have hbusy : (m.flushed f f').flush = some f' := if_neg hdone
    have hne : (m.flushed f f').flush ≠ none := by
      rw [hbusy]
      exact nofun
    refine ⟨fun h ↦ (hne h).elim, fun h ↦ (hne h).elim, fun _ ↦ hempty, ?_, ?_,
      fun _ _ _ ↦ hbuffered⟩
    · intro g hg
      obtain rfl := Option.some.inj (hbusy.symm.trans hg)
      exact ⟨hlinks ▸ hconsistent', hholds', hdrained.step hstep, hdone⟩
    · intro g hg hpos
      obtain rfl := Option.some.inj (hbusy.symm.trans hg)
      exact (hpos' hpos).elim

end TrafficManager

/-! ## Runs -/

namespace Reports

structure Inv (db : Db) (s : Reports) : Prop where
  links : s.db.links = db.links
  resets : SameResets db s.db
  sound : ∀ m ∈ s.managers, m.Sound db
  totals : ∀ r, (s.db.totals r).getD 0 + (s.managers.map (·.owed db.links r)).sum =
    (db.totals r).getD 0 + (s.settled.map fun x ↦ share db.links x.1 r x.2.key x.2.bytes).sum
  events : (↑(s.settled.map Prod.snd) : Multiset TrafficEvent) +
      (s.managers.map TrafficManager.outstanding).sum =
    ↑((s.reported.map TrafficRecord.event).filter fun e ↦ e.bytes ≠ 0)

variable {db : Db} {s t : Reports}

theorem Inv.idle (db : Db) : (Reports.idle db).Inv db where
  links := rfl
  resets _ := rfl
  sound _ hm := absurd hm List.not_mem_nil
  totals _ := rfl
  events := rfl

theorem Inv.report (hs : s.Inv db) (records : List TrafficRecord)
    (hstep : s.next (.report records) = some t) : t.Inv db := by
  cases hstep
  refine ⟨hs.links, hs.resets, ?_, fun r ↦ ?_, ?_⟩
  · intro m hm
    rcases List.mem_append.mp hm with hm | hm
    · exact hs.sound m hm
    · obtain rfl := List.mem_singleton.mp hm
      exact .new db records
  · have howed : (TrafficManager.new records).owed db.links r = 0 := rfl
    simpa [howed] using hs.totals r
  · have hout : (TrafficManager.new records).outstanding =
        ↑((records.map TrafficRecord.event).filter fun e ↦ e.bytes ≠ 0) := rfl
    rw [List.map_append, List.sum_append, List.map_singleton, List.sum_singleton, hout,
      ← add_assoc, hs.events, Multiset.coe_add, ← List.filter_append, ← List.map_append]

theorem Inv.update (hs : s.Inv db) (i : ℕ) {op : TrafficManager → Option TrafficManager}
    (hop : ∀ m m', m.Sound db → op m = some m' → TrafficManager.Quiet db m m')
    (hstep : s.update i op = some t) : t.Inv db := by
  obtain ⟨m, hm, hmap⟩ := Option.bind_eq_some_iff.mp hstep
  obtain ⟨m', hm', rfl⟩ := Option.map_eq_some_iff.mp hmap
  have hquiet := hop m m' (hs.sound m (List.mem_of_getElem? hm)) hm'
  refine ⟨hs.links, hs.resets, ?_, fun r ↦ ?_, ?_⟩
  · intro a ha
    rcases List.mem_or_eq_of_mem_set ha with ha | rfl
    · exact hs.sound a ha
    · exact hquiet.sound
  · have hsum := List.sum_map_set (·.owed db.links r) m' hm
    rw [hquiet.owed r] at hsum
    rw [add_right_cancel hsum]
    exact hs.totals r
  · have hsum := List.sum_map_set TrafficManager.outstanding m' hm
    rw [hquiet.outstanding] at hsum
    rw [add_right_cancel hsum]
    exact hs.events

theorem Inv.step (hs : s.Inv db) (i : ℕ) (env : StepEnv) (hpremise : s.Premise (.step i env))
    (hunraced : s.Unraced (.step i env)) (hstep : s.next (.step i env) = some t) : t.Inv db := by
  obtain ⟨m, hm, hbind⟩ := Option.bind_eq_some_iff.mp hstep
  obtain ⟨f, hf, hmap⟩ := Option.bind_eq_some_iff.mp hbind
  obtain ⟨⟨db', f', app⟩, hflush, rfl⟩ := Option.map_eq_some_iff.mp hmap
  obtain ⟨hok, hneeds⟩ := hpremise
  have hneeds := hneeds m hm f hf
  have hsound := hs.sound m (List.mem_of_getElem? hm)
  have hcurrent : f.Current (fun m ↦ m) s.db :=
    .of_bytes_reset (hunraced m hm f hf) (((hsound.flush f hf).2.1.congr_reset hs.resets).current)
  have hresets := flushStep_sameResets hcurrent hneeds hflush
  have hresets' : SameResets db db' := fun a ↦ (hresets a).trans (hs.resets a)
  refine ⟨(links_flushStep hflush).trans hs.links, hresets', ?_, fun r ↦ ?_, ?_⟩
  · intro a ha
    rcases List.mem_or_eq_of_mem_set ha with ha | rfl
    · exact hs.sound a ha
    · exact hsound.flushed hf hs.links hs.resets hresets' hok hflush
  · have hsum := List.sum_map_set (·.owed db.links r) (m.flushed f f') hm
    have howed := TrafficManager.owed_flushed hsound hf hs.links hok hflush r
    have htotals := flushStep_totals hcurrent hneeds hflush r
    have hsettled : ((if f.position = .readToday then m.buffered.map (f'.today, ·) else []).map
        fun x ↦ share db.links x.1 r x.2.key x.2.bytes).sum =
        if f.position = .readToday then sharesOf db.links f'.today r m.buffered else 0 := by
      split_ifs
      · rw [List.map_map]
        rfl
      · rfl
    simp only [List.map_append, List.sum_append, hsettled, htotals, ← add_assoc, ← hs.totals r]
    linear_combination hsum + howed
  · have hsum := List.sum_map_set TrafficManager.outstanding (m.flushed f f') hm
    have hout := m.outstanding_flushed f f'
    have hsettled : (if f.position = .readToday then m.buffered.map (f'.today, ·) else []).map
        Prod.snd = if f.position = .readToday then m.buffered else [] := by
      split_ifs
      · rw [List.map_map]
        exact List.map_id m.buffered
      · rfl
    have hcancel : ↑(if f.position = .readToday then m.buffered else ([] : List TrafficEvent)) +
        ((s.managers.set i (m.flushed f f')).map TrafficManager.outstanding).sum =
          (s.managers.map TrafficManager.outstanding).sum := by
      rw [← hout, ← add_assoc, add_right_comm] at hsum
      rw [add_comm]
      exact add_right_cancel hsum
    rw [List.map_append, hsettled, ← Multiset.coe_add, ← hs.events, add_assoc, hcancel]

theorem Inv.next {i : Input} (hs : s.Inv db) (hpremise : s.Premise i) (hunraced : s.Unraced i)
    (hstep : s.next i = some t) : t.Inv db := by
  cases i with
  | report records => exact hs.report records hstep
  | recordTraffic i => exact hs.update i (fun _ _ ↦ .recordTraffic) hstep
  | receive i => exact hs.update i (fun _ _ ↦ .receive) hstep
  | tick i => exact hs.update i (fun _ _ ↦ .tick) hstep
  | step i env => exact hs.step i env hpremise hunraced hstep

theorem sum_filter_share (L : Links) (r : RowId) (settled : List (String × TrafficEvent)) :
    (settled.map fun x ↦ share L x.1 r x.2.key x.2.bytes).sum =
      ((settled.filter fun x ↦ r ∈ L.keyRows x.1 x.2.key).map (·.2.bytes)).sum := by
  induction settled with
  | nil => rfl
  | cons x settled ih =>
      rw [List.map_cons, List.sum_cons, ih, share]
      by_cases hr : r ∈ L.keyRows x.1 x.2.key
      · rw [if_pos hr, List.filter_cons_of_pos (by simpa using hr), List.map_cons, List.sum_cons]
      · rw [if_neg hr, List.filter_cons_of_neg (by simpa using hr), zero_add]

theorem Inv.accounted (hs : s.Inv db) (hdone : s.Completed) : s.Accounted db := by
  have howed : ∀ r, (s.managers.map (·.owed db.links r)).sum = 0 := by
    intro r
    refine List.sum_eq_zero fun x hx ↦ ?_
    obtain ⟨m, hm, rfl⟩ := List.mem_map.mp hx
    exact TrafficManager.owed_of_idle db.links r (hdone m hm).2.2.2
  have hout : (s.managers.map TrafficManager.outstanding).sum = 0 := by
    refine List.sum_eq_zero fun x hx ↦ ?_
    obtain ⟨m, hm, rfl⟩ := List.mem_map.mp hx
    obtain ⟨hrecords, hchannel, hbuffer, hidle⟩ := hdone m hm
    have hbuffered := (hs.sound m hm).empty hidle hbuffer
    rw [TrafficManager.outstanding, hbuffered, hchannel, hrecords]
    rfl
  refine ⟨?_, fun r ↦ ?_⟩
  · have hevents := hs.events
    rw [hout, add_zero] at hevents
    exact Multiset.coe_eq_coe.mp hevents
  · have htotals := hs.totals r
    rw [howed r, add_zero, sum_filter_share] at htotals
    exact htotals

end Reports

/-- No reported byte is lost in a run in which every task writes back totals that
are still the ones it read. -/
theorem reports_accounted (db : Db) (inputs : List Reports.Input) (s : Reports)
    (hwithin : Within Reports.next (fun s i ↦ s.Premise i ∧ s.Unraced i) (Reports.idle db) inputs)
    (hrun : run Reports.next (Reports.idle db) inputs = some s) (hdone : s.Completed) :
    s.Accounted db := by
  have hend : s.Inv db :=
    run_invariant (fun s i t hs hi hstep ↦ hs.next hi.1 hi.2 hstep) (Reports.Inv.idle db) hwithin
      hrun
  exact hend.accounted hdone

/-- One report of 10 bytes and one of 20 for the same proxy. -/
def twoReports (schedule : List ℕ) : List Reports.Input :=
  [.report [⟨1, "", none, 10, 0⟩], .report [⟨1, "", none, 20, 0⟩],
      .recordTraffic 0, .recordTraffic 1, .receive 0, .receive 1, .tick 0, .tick 1] ++
    schedule.map (.step · ⟨lastSecondOfMarch, true, 0⟩)

/-- Each flush takes nine steps; the fourth reads the proxy and the fifth writes it. -/
def oneAfterTheOther : List ℕ := List.replicate 9 0 ++ List.replicate 9 1

def interleaved : List ℕ := List.replicate 4 0 ++ List.replicate 9 1 ++ List.replicate 5 0

theorem reports_accounted_oneAfterTheOther :
    ∃ s, run Reports.next (Reports.idle (webDb 0 none)) (twoReports oneAfterTheOther) = some s ∧
      s.Accounted (webDb 0 none) := by
  have hrun : ∃ s ∈ run Reports.next (Reports.idle (webDb 0 none)) (twoReports oneAfterTheOther),
      s.Completed := by decide +kernel
  obtain ⟨s, hs, hdone⟩ := hrun
  exact ⟨s, hs, reports_accounted (webDb 0 none) _ s (by decide +kernel) hs hdone⟩

/-- Both flushes read the proxy before either writes it back: the 20 bytes of
the flush that writes first are lost. -/
theorem not_accounted_interleaved :
    Within Reports.next Reports.Premise (Reports.idle (webDb 0 none)) (twoReports interleaved) ∧
      ∃ s, run Reports.next (Reports.idle (webDb 0 none)) (twoReports interleaved) = some s ∧
        s.Completed ∧ s.db.totals (.proxy 1) = some (10, 0) ∧ ¬ s.Accounted (webDb 0 none) := by
  have hrun : ∃ s ∈ run Reports.next (Reports.idle (webDb 0 none)) (twoReports interleaved),
      s.Completed ∧ s.db.totals (.proxy 1) = some (10, 0) ∧
        ((s.settled.filter fun x ↦ .proxy 1 ∈ (webDb 0 none).links.keyRows x.1 x.2.key).map
          (·.2.bytes)).sum = (30, 0) := by decide +kernel
  obtain ⟨s, hs, hdone, htotals, hsettled⟩ := hrun
  refine ⟨by decide +kernel, s, hs, hdone, htotals, fun h ↦ ?_⟩
  have hproxy := h.2 (.proxy 1)
  rw [htotals, hsettled] at hproxy
  exact absurd hproxy (by decide +kernel)

end Oxiproxy.Controller
