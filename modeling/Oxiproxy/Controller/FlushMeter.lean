import Oxiproxy.Controller.FlushCredit

/-!
# What a flush adds to the totals

A row's meter is its totals with, where the row has periods, its cycle and its
last reset.  As long as the row a flush holds agrees with the database, every
step changes exactly the meter of the row it reports an application for.
-/

namespace Oxiproxy.Controller

@[ext]
structure Meter where
  bytes : Bytes
  reset : Option (String × Option NaiveDateTime)
  deriving DecidableEq

namespace Meter

/-- The meter of a row that is not there yet. -/
def zero : Meter := ⟨0, none⟩

def due (m : Meter) (instant : NaiveDateTime) : Bool :=
  m.reset.any fun reset ↦ resetDue reset.1 reset.2 instant

/-- Add bytes, after the reset of the period if one is due. -/
def add (m : Meter) (start instant : NaiveDateTime) (bytes : Bytes) : Meter :=
  if m.due instant then ⟨bytes, m.reset.map fun reset ↦ (reset.1, some start)⟩
  else { m with bytes := m.bytes + bytes }

def ofAccount (x : Plan × Counters) : Meter :=
  ⟨x.2.bytes, some (x.1.trafficResetCycle, x.2.lastResetAt)⟩

theorem ofAccount_addRead {x : Plan × Counters} {plan : Plan} {read : Counters}
    (start instant : NaiveDateTime) (bytes : Bytes) (h : ofAccount x = ofAccount (plan, read)) :
    ofAccount (x.1, read.addRead (resetDue plan.trafficResetCycle read.lastResetAt instant)
      start bytes x.2) = (ofAccount x).add start instant bytes := by
  have hdue : (ofAccount x).due instant =
      resetDue plan.trafficResetCycle read.lastResetAt instant := by
    rw [h]
    rfl
  have hbytes : x.2.bytes = read.bytes := congrArg Meter.bytes h
  unfold Counters.addRead add
  rw [hdue]
  split_ifs
  · rfl
  · simp [ofAccount, hbytes]

theorem add_of_reset_none {m : Meter} (h : m.reset = none) (start instant : NaiveDateTime)
    (bytes : Bytes) : m.add start instant bytes = ⟨m.bytes + bytes, none⟩ := by
  simp [add, due, h]

end Meter

def Proxy.meter (p : Proxy) : Meter := ⟨(p.totalBytesSent, p.totalBytesReceived), none⟩

def TrafficDaily.meter (d : TrafficDaily) : Meter := ⟨(d.bytesSent, d.bytesReceived), none⟩

namespace Db

def meter (db : Db) : RowId → Option Meter
  | .proxy id => (db.proxies.find id).map Proxy.meter
  | .daily proxyId date => (db.trafficDaily.find (proxyId, date)).map TrafficDaily.meter
  | .account a => (db.account a).map Meter.ofAccount

/-! Each write changes one meter. -/

theorem account_setCounters (db : Db) (now : NaiveDateTime) (g : Counters → Counters)
    (a b : AccountId) : (db.setCounters now g a).account b =
      if b = a then (db.account b).map fun x ↦ (x.1, g x.2) else db.account b := by
  cases a with
  | client id =>
      cases b with
      | client id' =>
          simp only [setCounters, account, Table.find_modify, AccountId.client.injEq]
          split_ifs <;> cases db.clients.find id' <;> rfl
      | user id' => rfl
      | node id' => rfl
  | user id =>
      cases b with
      | user id' =>
          simp only [setCounters, account, Table.find_modify, AccountId.user.injEq]
          split_ifs <;> cases db.users.find id' <;> rfl
      | client id' => rfl
      | node id' => rfl
  | node id =>
      cases b with
      | node id' =>
          simp only [setCounters, account, Table.find_modify, AccountId.node.injEq]
          split_ifs <;> cases db.nodes.find id' <;> rfl
      | client id' => rfl
      | user id' => rfl

theorem meter_setCounters (db : Db) (now : NaiveDateTime) (g : Counters → Counters)
    (a : AccountId) (r : RowId) : (db.setCounters now g a).meter r =
      if .account a = r then (db.account a).map fun x ↦ Meter.ofAccount (x.1, g x.2)
      else db.meter r := by
  cases r with
  | proxy id => cases a <;> rfl
  | daily proxyId date => cases a <;> rfl
  | account b =>
      simp only [meter, account_setCounters, RowId.account.injEq]
      by_cases hb : b = a
      · subst hb
        simp [Function.comp_def]
      · rw [if_neg hb, if_neg (Ne.symm hb)]

theorem meter_setProxyBytes (db : Db) (id : ℤ) (now : NaiveDateTime) (bytes : Bytes) (r : RowId) :
    (db.setProxyBytes id now bytes).meter r =
      if .proxy id = r then (db.proxies.find id).map fun _ ↦ ⟨bytes, none⟩ else db.meter r := by
  cases r with
  | proxy id' =>
      simp only [meter, setProxyBytes, Table.find_modify, RowId.proxy.injEq]
      by_cases hid : id' = id
      · subst hid
        simp [Function.comp_def, Proxy.setBytes, Proxy.meter]
      · rw [if_neg hid, if_neg (Ne.symm hid)]
  | daily proxyId date => rfl
  | account a => cases a <;> rfl

theorem reset_daily (db : Db) (proxyId : ℤ) (date : String) :
    ((db.meter (.daily proxyId date)).getD Meter.zero).reset = none := by
  simp only [meter]
  cases db.trafficDaily.find (proxyId, date) <;> rfl

theorem find_upsertDaily (db : Db) (daily : TrafficDaily) (k : ℤ × String) :
    (db.upsertDaily daily).trafficDaily.find k =
      if k = key daily then
        some (((db.trafficDaily.find k).map (TrafficDaily.addBytes daily)).getD daily)
      else db.trafficDaily.find k := by
  unfold upsertDaily
  by_cases hfresh : key daily ∉ db.trafficDaily.rows.map key
  · rw [dif_pos hfresh, Table.find_insert]
    split_ifs with hk
    · rw [hk, Table.find_eq_none.mpr hfresh]
      rfl
    · rfl
  · rw [dif_neg hfresh, Table.find_modify]
    split_ifs with hk
    · have hsome : db.trafficDaily.find k ≠ none := by
        rw [hk]
        exact fun hnone ↦ hfresh (Table.find_eq_none.mp hnone)
      obtain ⟨d, hd⟩ := Option.ne_none_iff_exists'.mp hsome
      rw [hd]
      rfl
    · rfl

theorem meter_upsertDaily (db : Db) (daily : TrafficDaily) (r : RowId) :
    (db.upsertDaily daily).meter r =
      if .daily daily.proxyId daily.date = r then
        some ⟨((db.meter r).getD Meter.zero).bytes + (daily.bytesSent, daily.bytesReceived), none⟩
      else db.meter r := by
  cases r with
  | proxy id =>
      simp only [upsertDaily, reduceCtorEq, if_false]
      split_ifs <;> rfl
  | account a =>
      simp only [upsertDaily, reduceCtorEq, if_false]
      split_ifs <;> cases a <;> rfl
  | daily proxyId date =>
      have hkey : (proxyId, date) = key daily ↔
          RowId.daily daily.proxyId daily.date = .daily proxyId date := by
        change (proxyId, date) = (daily.proxyId, daily.date) ↔ _
        simp [eq_comm]
      simp only [meter, find_upsertDaily, hkey]
      split_ifs
      · cases db.trafficDaily.find (proxyId, date) with
        | none => simp [TrafficDaily.meter, Meter.zero]
        | some d => rfl
      · rfl

end Db

/-- The meter after an application, if it is one for the row. -/
def Meter.apply (r : RowId) (app : Option Application) (m : Option Meter) : Option Meter :=
  match app with
  | some app =>
      if app.row = r then some ((m.getD zero).add app.start app.instant app.bytes) else m
  | none => m

/-- The `needs_reset` of an update. -/
def Flush.needsReset (env : StepEnv) (f : Flush) : Bool :=
  match f.position with
  | .updateAccount _ plan read _ _ => resetDue plan.trafficResetCycle read.lastResetAt env.clock
  | _ => false

/-- The row a flush is about to write back agrees with the database, as far as
`φ` sees its meter. -/
def Flush.Current {κ : Type*} (φ : Meter → κ) (db : Db) (f : Flush) : Prop :=
  match f.position with
  | .updateProxy _ _ proxy => ∀ m ∈ db.meter (.proxy proxy.id), φ m = φ proxy.meter
  | .updateAccount a plan read _ _ =>
      ∀ m ∈ db.meter (.account a), φ m = φ (.ofAccount (plan, read))
  | _ => True

/-- The row a position holds agrees with the database, as far as `φ` sees its
meter. -/
def Flush.Holds {κ : Type*} (φ : Meter → κ) (db : Db) (f : Flush) : Prop :=
  match f.position with
  | .upsertDaily k _ _ (some c) =>
      ∀ m ∈ db.meter (.account (.client k.clientId)),
        φ m = φ (.ofAccount (⟨c.trafficResetCycle, c.trafficQuotaGb⟩, c.counters))
  | _ => f.Current φ db

abbrev Flush.Fresh (db : Db) (f : Flush) : Prop := f.Holds (fun m ↦ m) db

section Holds

variable {κ : Type*} {φ : Meter → κ} {db db' : Db} {f : Flush}

theorem Flush.Holds.current (h : f.Holds φ db) : f.Current φ db := by
  unfold Flush.Holds at h
  unfold Flush.Current at h ⊢
  cases hpos : f.position <;> simp only [hpos] at h ⊢ <;> exact h

theorem Flush.Current.of_bytes_reset (hbytes : f.Current Meter.bytes db)
    (hreset : f.Current Meter.reset db) : f.Current (fun m ↦ m) db := by
  unfold Flush.Current at hbytes hreset ⊢
  cases hpos : f.position with
  | updateProxy k bytes proxy =>
      simp only [hpos] at hbytes hreset ⊢
      exact fun m hm ↦ Meter.ext (hbytes m hm) (hreset m hm)
  | updateAccount a plan read bytes next =>
      simp only [hpos] at hbytes hreset ⊢
      exact fun m hm ↦ Meter.ext (hbytes m hm) (hreset m hm)
  | _ => trivial

theorem Resume.holds_position (next : Resume) :
    Flush.Holds φ db { f with position := next.position } := by
  cases next with
  | owner userId bytes => cases userId <;> trivial
  | nextKey => trivial
  | nextNode => trivial

end Holds

section Step

variable {env : StepEnv} {db db' : Db} {f f' : Flush} {app : Option Application}

theorem Flush.Holds.step {κ : Type*} {φ : Meter → κ} (hfresh : f.Holds φ db)
    (hstep : flushStep env db f = some (db', f', app)) : f'.Holds φ db' := by
  unfold flushStep at hstep
  cases hpos : f.position with
  | readToday | readNow =>
      rw [hpos] at hstep
      cases hstep
      trivial
  | nextKey =>
      rw [hpos] at hstep
      simp only at hstep
      split at hstep <;> cases hstep
      · trivial
      · simp only [Holds]
        split_ifs <;> trivial
  | findProxy k bytes =>
      rw [hpos] at hstep
      simp only at hstep
      split at hstep <;> cases hstep
      · trivial
      · rename_i proxy hproxy
        intro m hm
        have hok : env.ok = true := by
          by_contra hnot
          rw [if_neg hnot] at hproxy
          cases hproxy
        rw [if_pos hok] at hproxy
        have hid : proxy.id = k.proxyId := Table.key_of_find hproxy
        simp only [Db.meter, hid, hproxy, Option.map_some, Option.mem_some_iff] at hm
        rw [hm]
  | updateProxy k bytes proxy =>
      rw [hpos] at hstep
      simp only at hstep
      split_ifs at hstep <;> cases hstep <;> trivial
  | findClient k bytes directUserId =>
      rw [hpos] at hstep
      simp only at hstep
      cases hstep
      by_cases hok : env.ok = true
      · cases hclient : db.clients.find k.clientId with
        | none => simp [Holds, Current, hok]
        | some c => simp [Holds, hok, hclient, Db.meter, Db.account]
      · simp [Holds, Current, hok]
  | upsertDaily k bytes directUserId client =>
      have hmeter : ∀ a, db'.meter (.account a) = db.meter (.account a) := by
        intro a
        rw [hpos] at hstep
        simp only at hstep
        split_ifs at hstep <;> cases hstep
        · simp [Db.meter_upsertDaily]
        · rfl
      have hnext : f'.position = afterDaily k bytes directUserId client := by
        rw [hpos] at hstep
        simp only at hstep
        split_ifs at hstep <;> cases hstep <;> rfl
      cases client with
      | none =>
          have hresume : Flush.Holds φ db'
              { f' with position := (Resume.owner directUserId bytes).position } :=
            Resume.holds_position _
          simpa [Holds, Current, hnext, afterDaily] using hresume
      | some c =>
          simp only [Holds, hpos] at hfresh
          simpa only [Holds, Current, hnext, afterDaily, hmeter] using hfresh
  | findUser id bytes =>
      rw [hpos] at hstep
      simp only at hstep
      split at hstep <;> cases hstep
      · trivial
      · rename_i plan read hread
        have hok : env.ok = true := by
          by_contra hnot
          rw [if_neg hnot] at hread
          cases hread
        rw [if_pos hok] at hread
        simp [Holds, Current, Db.meter, hread]
  | nextNode =>
      rw [hpos] at hstep
      simp only at hstep
      split at hstep <;> cases hstep <;> trivial
  | findNode id bytes =>
      rw [hpos] at hstep
      simp only at hstep
      split at hstep <;> cases hstep
      · trivial
      · rename_i plan read hread
        have hok : env.ok = true := by
          by_contra hnot
          rw [if_neg hnot] at hread
          cases hread
        rw [if_pos hok] at hread
        simp [Holds, Current, Db.meter, hread]
  | updateAccount a plan read bytes next =>
      rw [hpos] at hstep
      have hstep := Option.some.inj hstep
      by_cases h : env.ok = true ∧ (db.account a).isSome = true
      · obtain ⟨position, hposition, heq⟩ := updateAccount_of_ok f plan read bytes next h
        cases heq.symm.trans hstep
        rcases hposition with rfl | rfl
        · trivial
        · exact next.holds_position
      · cases (updateAccount_of_not f plan read bytes next h).symm.trans hstep
        exact next.holds_position
  | refindAccount a next =>
      rw [hpos] at hstep
      simp only at hstep
      split_ifs at hstep <;> cases hstep
      · trivial
      · exact next.holds_position
  | markAccount a next =>
      rw [hpos] at hstep
      cases hstep
      exact next.holds_position
  | done =>
      rw [hpos] at hstep
      cases hstep

/-- A step of a flush that writes back current rows adds to the row it reports and leaves
every other total as it was. -/
theorem flushStep_meter (hfresh : f.Current (fun m ↦ m) db)
    (hstep : flushStep env db f = some (db', f', app)) (r : RowId) :
    db'.meter r = Meter.apply r app (db.meter r) := by
  unfold flushStep at hstep
  cases hpos : f.position with
  | readToday | readNow | findClient =>
      rw [hpos] at hstep
      cases hstep
      rfl
  | nextKey | nextNode | findProxy | findUser | findNode =>
      rw [hpos] at hstep
      simp only at hstep
      split at hstep <;> cases hstep <;> rfl
  | refindAccount =>
      rw [hpos] at hstep
      simp only at hstep
      split_ifs at hstep <;> cases hstep <;> rfl
  | updateProxy k bytes proxy =>
      simp only [Flush.Current, hpos] at hfresh
      rw [hpos] at hstep
      simp only at hstep
      split_ifs at hstep with h <;> cases hstep
      · obtain ⟨p, hp⟩ := Option.isSome_iff_exists.mp h.2
        have hmeter : p.meter = proxy.meter := hfresh _ (by simp [Db.meter, hp])
        rw [Db.meter_setProxyBytes, Meter.apply]
        split_ifs with hr
        · subst hr
          simp only [Db.meter, hp, Option.map_some, Option.getD_some, hmeter]
          rfl
        · rfl
      · rfl
  | upsertDaily =>
      rw [hpos] at hstep
      simp only at hstep
      split_ifs at hstep <;> cases hstep
      · rw [Db.meter_upsertDaily, Meter.apply]
        split_ifs with hr
        · subst hr
          rw [Meter.add_of_reset_none (Db.reset_daily db _ _)]
        · rfl
      · rfl
  | updateAccount a plan read bytes next =>
      simp only [Flush.Current, hpos] at hfresh
      rw [hpos] at hstep
      have hstep := Option.some.inj hstep
      by_cases h : env.ok = true ∧ (db.account a).isSome = true
      · obtain ⟨position, -, heq⟩ := updateAccount_of_ok f plan read bytes next h
        cases heq.symm.trans hstep
        obtain ⟨x, hx⟩ := Option.isSome_iff_exists.mp h.2
        have hmeter := hfresh (.ofAccount x) (by simp [Db.meter, hx])
        rw [Db.meter_setCounters, Meter.apply]
        split_ifs with hr
        · subst hr
          have hadd := Meter.ofAccount_addRead f.now env.clock bytes hmeter
          simp only [Db.meter, hx, Option.map_some, Option.getD_some, hadd]
        · rfl
      · cases (updateAccount_of_not f plan read bytes next h).symm.trans hstep
        rfl
  | markAccount a next =>
      rw [hpos] at hstep
      cases hstep
      split_ifs
      · rw [Db.meter_setCounters]
        split_ifs with hr
        · subst hr
          rfl
        · rfl
      · rfl
  | done =>
      rw [hpos] at hstep
      cases hstep

/-- Only the update of an account adds bytes to it. -/
theorem flushStep_account {x : Application} {a : AccountId}
    (hstep : flushStep env db f = some (db', f', some x)) (hrow : x.row = .account a) :
    (db.account a).isSome = true ∧
      ∃ plan read bytes next, f.position = .updateAccount a plan read bytes next := by
  unfold flushStep at hstep
  cases hpos : f.position with
  | readToday | readNow | findClient | markAccount =>
      rw [hpos] at hstep
      cases hstep
  | nextKey | findProxy | findUser | nextNode | findNode =>
      rw [hpos] at hstep
      simp only at hstep
      split at hstep <;> cases hstep
  | refindAccount =>
      rw [hpos] at hstep
      simp only at hstep
      split_ifs at hstep <;> cases hstep
  | updateProxy | upsertDaily =>
      rw [hpos] at hstep
      simp only at hstep
      split_ifs at hstep <;> cases hstep
      cases hrow
  | updateAccount b plan read bytes next =>
      rw [hpos] at hstep
      have hstep := Option.some.inj hstep
      by_cases h : env.ok = true ∧ (db.account b).isSome = true
      · obtain ⟨position, -, heq⟩ := updateAccount_of_ok f plan read bytes next h
        cases heq.symm.trans hstep
        obtain rfl := RowId.account.inj hrow
        exact ⟨h.2, plan, read, bytes, next, rfl⟩
      · cases (updateAccount_of_not f plan read bytes next h).symm.trans hstep
  | done =>
      rw [hpos] at hstep
      cases hstep

/-- The flush has read the day and its start from the clock. -/
def Position.Started : Position → Prop
  | .readToday => False
  | .readNow => False
  | _ => True

theorem Resume.started_position (next : Resume) : next.position.Started := by
  cases next with
  | owner userId bytes => cases userId <;> trivial
  | nextKey => trivial
  | nextNode => trivial

/-- An application, if there is one, is recorded with these times. -/
def Stamped (start instant : NaiveDateTime) (app : Option Application) : Prop :=
  ∀ a ∈ app, a.start = start ∧ a.instant = instant

theorem stamped_none (start instant : NaiveDateTime) : Stamped start instant none :=
  fun _ ha ↦ absurd ha (Option.not_mem_none _)

theorem stamped_some {start instant : NaiveDateTime} {a : Application} (hstart : a.start = start)
    (hinstant : a.instant = instant) : Stamped start instant (some a) := by
  intro b hb
  obtain rfl := Option.mem_some_iff.mp hb
  exact ⟨hstart, hinstant⟩

/-- The first two steps read the clock; every later step keeps what they read. -/
theorem flushStep_times (hstep : flushStep env db f = some (db', f', app)) :
    (f.position = .readToday ∧ f'.today = env.clock.date.format ∧ f'.position = .readNow ∧
        app = none) ∨
      (f.position = .readNow ∧ f'.today = f.today ∧ f'.now = env.clock ∧ f'.position.Started ∧
        app = none) ∨
      (f.position.Started ∧ f'.today = f.today ∧ f'.now = f.now ∧ f'.position.Started ∧
        Stamped f.now env.clock app) := by
  unfold flushStep at hstep
  cases hpos : f.position with
  | readToday =>
      rw [hpos] at hstep
      cases hstep
      exact .inl ⟨rfl, rfl, rfl, rfl⟩
  | readNow =>
      rw [hpos] at hstep
      cases hstep
      exact .inr (.inl ⟨rfl, rfl, rfl, trivial, rfl⟩)
  | nextKey =>
      rw [hpos] at hstep
      simp only at hstep
      refine .inr (.inr ⟨trivial, ?_⟩)
      split at hstep <;> cases hstep
      · exact ⟨rfl, rfl, trivial, stamped_none _ _⟩
      · refine ⟨rfl, rfl, ?_, stamped_none _ _⟩
        split_ifs <;> trivial
  | findProxy | findUser | nextNode | findNode =>
      rw [hpos] at hstep
      simp only at hstep
      refine .inr (.inr ⟨trivial, ?_⟩)
      split at hstep <;> cases hstep <;> exact ⟨rfl, rfl, trivial, stamped_none _ _⟩
  | findClient =>
      rw [hpos] at hstep
      cases hstep
      exact .inr (.inr ⟨trivial, rfl, rfl, trivial, stamped_none _ _⟩)
  | updateProxy k bytes proxy =>
      rw [hpos] at hstep
      simp only at hstep
      refine .inr (.inr ⟨trivial, ?_⟩)
      split_ifs at hstep <;> cases hstep
      · exact ⟨rfl, rfl, trivial, stamped_some rfl rfl⟩
      · exact ⟨rfl, rfl, trivial, stamped_none _ _⟩
  | upsertDaily k bytes directUserId client =>
      have hstarted : (afterDaily k bytes directUserId client).Started := by
        cases client with
        | none => exact Resume.started_position _
        | some c => exact trivial
      rw [hpos] at hstep
      simp only at hstep
      refine .inr (.inr ⟨trivial, ?_⟩)
      split_ifs at hstep <;> cases hstep
      · exact ⟨rfl, rfl, hstarted, stamped_some rfl rfl⟩
      · exact ⟨rfl, rfl, hstarted, stamped_none _ _⟩
  | updateAccount a plan read bytes next =>
      rw [hpos] at hstep
      have hstep := Option.some.inj hstep
      refine .inr (.inr ⟨trivial, ?_⟩)
      by_cases h : env.ok = true ∧ (db.account a).isSome = true
      · obtain ⟨position, hposition, heq⟩ := updateAccount_of_ok f plan read bytes next h
        cases heq.symm.trans hstep
        have hstarted : position.Started := by
          rcases hposition with rfl | rfl
          · trivial
          · exact next.started_position
        exact ⟨rfl, rfl, hstarted, stamped_some rfl rfl⟩
      · cases (updateAccount_of_not f plan read bytes next h).symm.trans hstep
        exact ⟨rfl, rfl, next.started_position, stamped_none _ _⟩
  | refindAccount a next =>
      rw [hpos] at hstep
      simp only at hstep
      refine .inr (.inr ⟨trivial, ?_⟩)
      split_ifs at hstep <;> cases hstep
      · exact ⟨rfl, rfl, trivial, stamped_none _ _⟩
      · exact ⟨rfl, rfl, next.started_position, stamped_none _ _⟩
  | markAccount a next =>
      rw [hpos] at hstep
      cases hstep
      exact .inr (.inr ⟨trivial, rfl, rfl, next.started_position, stamped_none _ _⟩)
  | done =>
      rw [hpos] at hstep
      cases hstep

/-- No step goes back to reading the day. -/
theorem flushStep_position (hstep : flushStep env db f = some (db', f', app)) :
    f'.position ≠ .readToday := by
  intro hpos
  rcases flushStep_times hstep with ⟨-, -, h, -⟩ | ⟨-, -, -, h, -⟩ | ⟨-, -, -, h, -⟩
  · rw [hpos] at h
    cases h
  · rw [hpos] at h
    exact h
  · rw [hpos] at h
    exact h

end Step

end Oxiproxy.Controller
