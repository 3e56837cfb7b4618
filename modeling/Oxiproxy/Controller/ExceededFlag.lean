import Oxiproxy.Controller.FanOut

/-!
# The exceeded flag after a flush

A flush sets the flag of a row whose total reaches its quota, unless the flag was
set when the row was read.  A reset in the same update has cleared that flag by
then, so the last addition to a row decides what its flag says of the total.  The
total it compares is a sum of two `i64`, which may wrap around.
-/

namespace Oxiproxy.Controller

open Transition

/-- The row that a flush is about to mark. -/
def Position.marking : Position → Option AccountId
  | .refindAccount a _ => some a
  | .markAccount a _ => some a
  | _ => none

/-- The row of an account that a position holds is the one in the database. -/
def Flush.Reads (db : Db) (f : Flush) : Prop :=
  match f.position with
  | .upsertDaily k _ _ (some c) => db.clients.find k.clientId = some c
  | .updateAccount a plan read _ _ => db.account a = some (plan, read)
  | _ => True

theorem Db.account_upsertDaily (db : Db) (daily : TrafficDaily) (a : AccountId) :
    (db.upsertDaily daily).account a = db.account a := by
  unfold Db.upsertDaily
  split_ifs <;> cases a <;> rfl

theorem Db.account_setProxyBytes (db : Db) (id : ℤ) (now : NaiveDateTime) (bytes : Bytes)
    (a : AccountId) : (db.setProxyBytes id now bytes).account a = db.account a := by
  cases a <;> rfl

theorem Resume.reads_position (next : Resume) (db : Db) (f : Flush) :
    Flush.Reads db { f with position := next.position } := by
  cases next with
  | owner userId bytes => cases userId <;> trivial
  | nextKey => trivial
  | nextNode => trivial

theorem Resume.marking_position (next : Resume) : next.position.marking = none := by
  cases next with
  | owner userId bytes => cases userId <;> rfl
  | nextKey => rfl
  | nextNode => rfl

theorem marking_afterDaily (k : TrafficKey) (bytes : Bytes) (directUserId : Option ℤ)
    (client : Option Client) : (afterDaily k bytes directUserId client).marking = none := by
  cases client with
  | none => exact Resume.marking_position _
  | some c => rfl

section Step

variable {env : StepEnv} {db db' : Db} {f f' : Flush} {app : Option Application}

/-- What a step whose database call succeeds does to the accounts. -/
theorem flushStep_accounts (hok : env.ok = true) (hreads : f.Reads db)
    (hstep : flushStep env db f = some (db', f', app)) :
    (∃ a plan read bytes next, f.position = .updateAccount a plan read bytes next ∧
      db' = db.setCounters f.now
        (read.addRead (resetDue plan.trafficResetCycle read.lastResetAt env.clock) f.now bytes) a ∧
      ∃ new, new = (if resetDue plan.trafficResetCycle read.lastResetAt env.clock then bytes
          else read.bytes + bytes) ∧
        f'.position = if quotaExhausted plan.trafficQuotaGb (wrapI64 (new.1 + new.2)) &&
          !read.isTrafficExceeded then .refindAccount a next else next.position) ∨
    (∃ a next, f.position = .refindAccount a next ∧ db' = db ∧
      f'.position = if (db.account a).isSome then .markAccount a next else next.position) ∨
    (∃ a next, f.position = .markAccount a next ∧
      db' = db.setCounters f.now Counters.markExceeded a ∧ f'.position = next.position) ∨
    ((∀ a plan read bytes next, f.position ≠ .updateAccount a plan read bytes next) ∧
      f.position.marking = none ∧ f'.position.marking = none ∧
      ∀ a, db'.account a = db.account a) := by
  unfold flushStep at hstep
  cases hpos : f.position with
  | readToday | readNow | findClient =>
      rw [hpos] at hstep
      cases hstep
      exact .inr (.inr (.inr ⟨fun _ _ _ _ _ h ↦ (by cases h), rfl, rfl, fun _ ↦ rfl⟩))
  | nextKey | nextNode | findProxy | findUser | findNode =>
      rw [hpos] at hstep
      simp only at hstep
      refine .inr (.inr (.inr ⟨fun _ _ _ _ _ h ↦ (by cases h), rfl, ?_⟩))
      split at hstep <;> cases hstep
      all_goals refine ⟨?_, fun _ ↦ rfl⟩
      all_goals first | rfl | (dsimp only; split_ifs <;> rfl)
  | updateProxy k bytes proxy =>
      rw [hpos] at hstep
      simp only at hstep
      refine .inr (.inr (.inr ⟨fun _ _ _ _ _ h ↦ (by cases h), rfl, ?_⟩))
      split_ifs at hstep <;> cases hstep
      · exact ⟨rfl, db.account_setProxyBytes _ _ _⟩
      · exact ⟨rfl, fun _ ↦ rfl⟩
  | upsertDaily k bytes directUserId client =>
      rw [hpos] at hstep
      simp only [hok, if_true] at hstep
      cases hstep
      exact .inr (.inr (.inr ⟨fun _ _ _ _ _ h ↦ (by cases h), rfl, marking_afterDaily ..,
        db.account_upsertDaily _⟩))
  | updateAccount a plan read bytes next =>
      rw [hpos] at hstep
      simp only [Flush.Reads, hpos] at hreads
      simp only [updateAccount, hok, hreads, Option.isSome_some, and_self, if_true,
        Option.some.injEq, Prod.mk.injEq] at hstep
      obtain ⟨rfl, rfl, -⟩ := hstep
      exact .inl ⟨a, plan, read, bytes, next, rfl, rfl, _, rfl, rfl⟩
  | refindAccount a next =>
      rw [hpos] at hstep
      simp only [hok, true_and] at hstep
      refine .inr (.inl ⟨a, next, rfl, ?_⟩)
      split_ifs at hstep with hsome <;> cases hstep
      · exact ⟨rfl, (if_pos hsome).symm⟩
      · exact ⟨rfl, (if_neg hsome).symm⟩
  | markAccount a next =>
      rw [hpos] at hstep
      simp only [hok, if_true] at hstep
      cases hstep
      exact .inr (.inr (.inl ⟨a, next, rfl, rfl, rfl⟩))
  | done =>
      rw [hpos] at hstep
      cases hstep

theorem Flush.Reads.step (hok : env.ok = true) (hreads : f.Reads db)
    (hstep : flushStep env db f = some (db', f', app)) : f'.Reads db' := by
  unfold flushStep at hstep
  cases hpos : f.position with
  | readToday | readNow =>
      rw [hpos] at hstep
      cases hstep
      trivial
  | nextKey =>
      rw [hpos] at hstep
      simp only at hstep
      split at hstep <;> cases hstep
      · trivial
      · simp only [Reads]
        split_ifs <;> trivial
  | findProxy | nextNode =>
      rw [hpos] at hstep
      simp only at hstep
      split at hstep <;> cases hstep <;> trivial
  | updateProxy =>
      rw [hpos] at hstep
      simp only at hstep
      split_ifs at hstep <;> cases hstep <;> trivial
  | findClient k bytes directUserId =>
      rw [hpos] at hstep
      simp only [hok, if_true] at hstep
      cases hstep
      cases hclient : db.clients.find k.clientId with
      | none => trivial
      | some c => exact hclient
  | upsertDaily k bytes directUserId client =>
      rw [hpos] at hstep
      simp only [hok, if_true] at hstep
      cases hstep
      cases client with
      | none => exact Resume.reads_position _ _ _
      | some c =>
          simp only [Reads, hpos] at hreads
          change (db.upsertDaily _).account (.client k.clientId) = _
          rw [Db.account_upsertDaily, Db.account, hreads]
          rfl
  | findUser | findNode =>
      rw [hpos] at hstep
      simp only [hok, if_true] at hstep
      split at hstep <;> cases hstep
      · trivial
      · next hread => exact hread
  | updateAccount a plan read bytes next =>
      rcases flushStep_accounts hok hreads (by unfold flushStep; exact hstep) with
        ⟨_, _, _, _, next', -, -, _, -, hnext⟩ | ⟨_, _, h, -⟩ | ⟨_, _, h, -⟩ | ⟨h, -⟩
      · have hposition := hnext
        clear hstep hnext
        split_ifs at hposition <;> simp only [Reads, hposition]
        exact next'.reads_position db' f'
      · rw [hpos] at h; cases h
      · rw [hpos] at h; cases h
      · exact (h _ _ _ _ _ hpos).elim
  | refindAccount a next =>
      rw [hpos] at hstep
      simp only at hstep
      split_ifs at hstep <;> cases hstep
      · trivial
      · exact next.reads_position _ _
  | markAccount a next =>
      rw [hpos] at hstep
      cases hstep
      exact next.reads_position _ _
  | done =>
      rw [hpos] at hstep
      cases hstep

end Step

/-! ## A flush with the additions it makes -/

/-- The sum of the two columns that hold the totals. -/
def storedTotal (bytes : Bytes) : ℤ := wrapI64 bytes.1 + wrapI64 bytes.2

/-- One addition to an account: what was found, whether it was reset, and what
was added. -/
structure Addition where
  account : AccountId
  plan : Plan
  found : Counters
  reset : Bool
  bytes : Bytes
  deriving DecidableEq

namespace Addition

variable (o : Addition)

/-- The totals after the addition. -/
def total : Bytes := if o.reset then o.bytes else o.found.bytes + o.bytes

/-- The totals reach the quota. -/
def reaches : Bool := quotaExhausted o.plan.trafficQuotaGb (storedTotal o.total)

/-- Their sum reaches it, as an `i64`. -/
def exhausts : Bool := quotaExhausted o.plan.trafficQuotaGb (wrapI64 (o.total.1 + o.total.2))

/-- The flag that the addition leaves, with the mark that follows it. -/
def flag : Bool :=
  o.exhausts && !o.found.isTrafficExceeded || !o.reset && o.found.isTrafficExceeded

theorem bytes_addRead (now : NaiveDateTime) :
    (o.found.addRead o.reset now o.bytes o.found).bytes = o.total := by
  unfold Counters.addRead total
  split_ifs <;> rfl

/-- The flag before the mark. -/
theorem flag_addRead (now : NaiveDateTime) :
    (o.found.addRead o.reset now o.bytes o.found).isTrafficExceeded =
      (!o.reset && o.found.isTrafficExceeded) := by
  unfold Counters.addRead
  cases o.reset <;> rfl

end Addition

/-- A flush, the database and what has been added so far, the latest first. -/
structure FlushRun where
  db : Db
  flush : Flush
  additions : List Addition

namespace FlushRun

def start (db : Db) (buffer : List (TrafficKey × Bytes)) (now : NaiveDateTime) : FlushRun :=
  ⟨db, Flush.start buffer "" now, []⟩

/-- The addition that a step makes. -/
def addition (s : FlushRun) (env : StepEnv) : Option Addition :=
  match s.flush.position with
  | .updateAccount a _ _ bytes _ =>
      (s.db.account a).map fun (plan, found) ↦
        ⟨a, plan, found, resetDue plan.trafficResetCycle found.lastResetAt env.clock, bytes⟩
  | _ => none

def next (s : FlushRun) (env : StepEnv) : Option FlushRun :=
  (flushStep env s.db s.flush).map fun t ↦
    ⟨t.1, t.2.1, (s.addition env).toList ++ s.additions⟩

/-- The additions to one account, the latest first. -/
def additionsTo (s : FlushRun) (a : AccountId) : List Addition :=
  s.additions.filter fun o ↦ o.account = a

/-- The flag of an account agrees with its totals: set when they reach the quota,
and clear when the flush has reset them and they do not. -/
def FlagAgrees (s : FlushRun) (a : AccountId) : Prop :=
  ∃ plan counters, s.db.account a = some (plan, counters) ∧
    (quotaExhausted plan.trafficQuotaGb (storedTotal counters.bytes) = true →
      counters.isTrafficExceeded = true) ∧
    ((∃ o ∈ s.additionsTo a, o.reset = true) →
      quotaExhausted plan.trafficQuotaGb (storedTotal counters.bytes) = false →
        counters.isTrafficExceeded = false)

end FlushRun

/-- An addition that leaves a wrong flag.  Where the flag was set, it resets the
row and reaches the quota at once, or takes a row reset before back below the
quota.  Where it was clear, the quota lies between the sum of the totals and what
this sum wraps around to. -/
def Addition.Spoils (o : Addition) (older : List Addition) : Prop :=
  o.found.isTrafficExceeded = true ∧
      (o.reset = true ∧ o.reaches = true ∨
        o.reset = false ∧ o.reaches = false ∧ ∃ o' ∈ older, o'.reset = true) ∨
    o.found.isTrafficExceeded = false ∧
      (o.reaches = true ∧ o.exhausts = false ∨
        o.reaches = false ∧ o.exhausts = true ∧ ∃ o' ∈ o :: older, o'.reset = true)

/-- Totals whose sum fits are compared as they are. -/
theorem Addition.exhausts_of_fits {o : Addition} (hlow : -2 ^ 63 ≤ storedTotal o.total)
    (hhigh : storedTotal o.total < 2 ^ 63) : o.exhausts = o.reaches := by
  have hsum : wrapI64 (o.total.1 + o.total.2) = wrapI64 (storedTotal o.total) :=
    (Int.add_bmod _ _ _)
  rw [exhausts, reaches, hsum, wrapI64_of_fits hlow hhigh]

namespace FlushRun

/-- What the latest addition says of an account, up to the mark still to come. -/
def Reflects (s : FlushRun) (o : Addition) : Prop :=
  ∃ counters, s.db.account o.account = some (o.plan, counters) ∧ counters.bytes = o.total ∧
    (if s.flush.position.marking = some o.account then o.flag = true
      else counters.isTrafficExceeded = o.flag)

structure Inv (s : FlushRun) : Prop where
  reads : s.flush.Reads s.db
  marking : ∀ a, s.flush.position.marking = some a → (s.db.account a).isSome = true
  latest : ∀ a o older, s.additionsTo a = o :: older → s.Reflects o

theorem additionsTo_cons (s : FlushRun) (o : Addition) (a : AccountId) (db : Db) (f : Flush) :
    additionsTo ⟨db, f, o :: s.additions⟩ a =
      if o.account = a then o :: s.additionsTo a else s.additionsTo a := by
  unfold additionsTo
  rw [List.filter_cons]
  simp only [decide_eq_true_eq]

theorem account_of_additionsTo {s : FlushRun} {a : AccountId} {o : Addition} {older : List Addition}
    (h : s.additionsTo a = o :: older) : o.account = a := by
  have hmem : o ∈ s.additionsTo a := h ▸ List.mem_cons_self
  simpa using (List.mem_filter.mp hmem).2

theorem addition_eq_none {s : FlushRun} {env : StepEnv}
    (h : ∀ a plan read bytes next, s.flush.position ≠ .updateAccount a plan read bytes next) :
    s.addition env = none := by
  unfold addition
  split
  · next hpos => exact (h _ _ _ _ _ hpos).elim
  · rfl

/-- A step that leaves an account alone, and its mark neither comes nor goes. -/
theorem Reflects.congr {s t : FlushRun} {o : Addition} (h : s.Reflects o)
    (haccount : t.db.account o.account = s.db.account o.account)
    (hmarking : t.flush.position.marking = some o.account ↔
      s.flush.position.marking = some o.account) : t.Reflects o := by
  obtain ⟨counters, hrow, hbytes, hflag⟩ := h
  refine ⟨counters, haccount.trans hrow, hbytes, ?_⟩
  simp only [hmarking]
  exact hflag

theorem Inv.next {s t : FlushRun} {env : StepEnv} (h : s.Inv) (hok : env.ok = true)
    (hstep : s.next env = some t) : t.Inv := by
  obtain ⟨⟨db', f', app⟩, hflush, rfl⟩ := Option.map_eq_some_iff.mp hstep
  have hreads := h.reads.step hok hflush
  rcases flushStep_accounts hok h.reads hflush with
    ⟨a, plan, read, bytes, next, hpos, hdb, new, hnew, hnext⟩ | ⟨a, next, hpos, hdb, hnext⟩ |
    ⟨a, next, hpos, hdb, hnext⟩ | ⟨hupdate, hbefore, hafter, haccount⟩
  · -- the row that was read is written back with the addition
    have hrow : s.db.account a = some (plan, read) := by
      have hread := h.reads
      simpa only [Flush.Reads, hpos] using hread
    let o : Addition :=
      ⟨a, plan, read, resetDue plan.trafficResetCycle read.lastResetAt env.clock, bytes⟩
    have haddition : s.addition env = some o := by
      simp only [addition, hpos, hrow, Option.map_some]
      rfl
    have hmarking : f'.position.marking =
        if (o.exhausts && !read.isTrafficExceeded) = true then some a else none := by
      have hexhausts : o.exhausts =
          quotaExhausted plan.trafficQuotaGb (wrapI64 (new.1 + new.2)) := by
        rw [hnew]
        rfl
      rw [hnext, hexhausts]
      split_ifs
      · rfl
      · exact next.marking_position
    have haccount (b : AccountId) : db'.account b = if b = a then
        some (plan, read.addRead o.reset s.flush.now bytes read) else s.db.account b := by
      rw [hdb, Db.account_setCounters]
      by_cases hb : b = a
      · rw [if_pos hb, if_pos hb, hb, hrow, Option.map_some]
      · rw [if_neg hb, if_neg hb]
    refine ⟨hreads, fun b hb ↦ ?_, fun b o' older hlatest ↦ ?_⟩
    · change f'.position.marking = some b at hb
      rw [hmarking] at hb
      split_ifs at hb
      obtain rfl := Option.some.inj hb
      rw [haccount, if_pos rfl]
      rfl
    · rw [haddition, Option.toList_some, List.singleton_append, additionsTo_cons] at hlatest
      by_cases hb : o.account = b
      · rw [if_pos hb] at hlatest
        obtain ⟨rfl, -⟩ := List.cons.inj hlatest
        refine ⟨_, (haccount a).trans (if_pos rfl), o.bytes_addRead _, ?_⟩
        change if f'.position.marking = some a then o.flag = true else _ = o.flag
        have hflag : o.flag = (o.exhausts && !read.isTrafficExceeded ||
            !o.reset && read.isTrafficExceeded) := rfl
        rw [hmarking, hflag]
        by_cases hmark : (o.exhausts && !read.isTrafficExceeded) = true
        · rw [if_pos hmark, if_pos rfl, hmark, Bool.true_or]
        · rw [if_neg hmark, if_neg (by simp), Bool.eq_false_of_not_eq_true hmark, Bool.false_or]
          exact o.flag_addRead _
      · rw [if_neg hb] at hlatest
        have hsame := account_of_additionsTo hlatest
        have hother : o'.account ≠ a := fun heq ↦ hb (heq.symm.trans hsame)
        refine (h.latest b o' older hlatest).congr ((haccount _).trans (if_neg hother)) ?_
        change f'.position.marking = some o'.account ↔ s.flush.position.marking = some o'.account
        rw [hmarking, hpos]
        simp only [Position.marking, reduceCtorEq, iff_false]
        split_ifs
        · exact fun heq ↦ hother (Option.some.inj heq).symm
        · exact fun heq ↦ by cases heq
  · -- the row to mark is still there
    have hrow := h.marking a (by rw [hpos]; rfl)
    have hmarking : f'.position.marking = s.flush.position.marking := by
      rw [hnext, if_pos hrow, hpos]
      rfl
    rw [addition_eq_none fun _ _ _ _ _ heq ↦ by rw [hpos] at heq; cases heq]
    subst hdb
    refine ⟨hreads, fun b hb ↦ h.marking b (hmarking ▸ hb), fun b o older hlatest ↦ ?_⟩
    exact (h.latest b o older hlatest).congr rfl (by rw [← hmarking])
  · rw [addition_eq_none fun _ _ _ _ _ heq ↦ by rw [hpos] at heq; cases heq]
    have hafter : f'.position.marking = none := hnext ▸ next.marking_position
    have hbefore : s.flush.position.marking = some a := by rw [hpos]; rfl
    refine ⟨hreads, fun b hb ↦ ?_, fun b o older hlatest ↦ ?_⟩
    · rw [show f'.position.marking = none from hafter] at hb
      cases hb
    · obtain ⟨counters, hrow, hbytes, hflag⟩ := h.latest b o older hlatest
      by_cases ho : o.account = a
      · refine ⟨counters.markExceeded, ?_, hbytes, ?_⟩
        · change db'.account o.account = _
          rw [hdb, Db.account_setCounters, if_pos ho, hrow]
          rfl
        · rw [if_pos (by rw [hbefore, ho])] at hflag
          rw [if_neg (by rw [hafter]; exact fun heq ↦ by cases heq), hflag]
          rfl
      · refine (h.latest b o older hlatest).congr ?_ ?_
        · change db'.account o.account = _
          rw [hdb, Db.account_setCounters, if_neg ho]
        · rw [hafter, hbefore]
          simp [Ne.symm ho]
  · rw [addition_eq_none hupdate]
    refine ⟨hreads, fun b hb ↦ ?_, fun b o older hlatest ↦ ?_⟩
    · rw [show f'.position.marking = none from hafter] at hb
      cases hb
    · refine (h.latest b o older hlatest).congr (haccount _) ?_
      rw [hafter, hbefore]

theorem inv_start (db : Db) (buffer : List (TrafficKey × Bytes)) (now : NaiveDateTime) :
    (start db buffer now).Inv := by
  refine ⟨trivial, fun a ha ↦ ?_, fun a o older hlatest ↦ ?_⟩
  · cases ha
  · cases hlatest

/-- What a flag must be and what the latest addition makes of it. -/
theorem flagAgrees_iff {s : FlushRun} {a : AccountId} {o : Addition} {older : List Addition}
    (h : s.Reflects o) (hmarking : s.flush.position.marking = none)
    (hlatest : s.additionsTo a = o :: older) : s.FlagAgrees a ↔ ¬ o.Spoils older := by
  obtain ⟨counters, hrow, hbytes, hflag⟩ := h
  have haccount := account_of_additionsTo hlatest
  rw [hmarking, if_neg (by simp)] at hflag
  rw [haccount] at hrow
  have hreaches : quotaExhausted o.plan.trafficQuotaGb (storedTotal counters.bytes) =
      o.reaches := by
    rw [hbytes]
    rfl
  have hagrees : s.FlagAgrees a ↔ (o.reaches = true → o.flag = true) ∧
      ((∃ o' ∈ o :: older, o'.reset = true) → o.reaches = false → o.flag = false) := by
    unfold FlagAgrees
    rw [hlatest]
    constructor
    · rintro ⟨plan, counters', hrow', hagrees⟩
      obtain ⟨rfl, rfl⟩ := Prod.mk.inj (Option.some.inj (hrow.symm.trans hrow'))
      rwa [hreaches, hflag] at hagrees
    · intro hagrees
      refine ⟨o.plan, counters, hrow, ?_⟩
      rwa [hreaches, hflag]
  rw [hagrees]
  unfold Addition.Spoils Addition.flag
  simp only [List.exists_mem_cons_iff]
  cases o.reaches <;> cases o.exhausts <;> cases o.found.isTrafficExceeded <;>
    cases o.reset <;> simp

/-- After a flush whose operations succeed, the flag of a row agrees with its
totals exactly when the last addition to the row has not spoilt it. -/
theorem flags_iff (db : Db) (buffer : List (TrafficKey × Bytes)) (now : NaiveDateTime)
    (envs : List StepEnv) (hok : ∀ env ∈ envs, env.ok = true) (s : FlushRun)
    (hrun : run next (start db buffer now) envs = some s) (hdone : s.flush.position = .done)
    (a : AccountId) (o : Addition) (older : List Addition)
    (hlatest : s.additionsTo a = o :: older) : s.FlagAgrees a ↔ ¬ o.Spoils older := by
  have hstep : ∀ s env t, Inv s → env.ok = true → next s env = some t → Inv t :=
    fun _ _ _ h hok ↦ h.next hok
  have hinv : s.Inv := run_invariant hstep (inv_start db buffer now)
    (within_of_forall fun env henv _ ↦ hok env henv) hrun
  exact flagAgrees_iff (hinv.latest a o older hlatest) (by rw [hdone]; rfl) hlatest

/-- A client with a monthly quota of one gigabyte, last reset in March. -/
def quotaClient (exceeded : Bool) : Client :=
  { monthlyClient (5, 7) (some lastSecondOfMarch) with
    isTrafficExceeded := exceeded
    trafficQuotaGb := some 1 }

def quotaDb (exceeded : Bool) : Db :=
  { webDb (5, 7) (some lastSecondOfMarch) with
    clients := ⟨[quotaClient exceeded], List.nodup_singleton _⟩ }

/-- One entry of a gigabyte for that client. -/
def gigabyte : List (TrafficKey × Bytes) := [(⟨1, 2, none⟩, (2 ^ 30, 0))]

/-- The addition of the entry, which resets the client. -/
def gigabyteAddition (exceeded : Bool) : Addition :=
  ⟨.client 2, ⟨"monthly", some 1⟩, (quotaClient exceeded).counters, true, (2 ^ 30, 0)⟩

theorem flags_iff_quotaDb :
    ∃ s, run next (start (quotaDb false) gigabyte firstInApril)
        (List.replicate 12 ⟨firstInApril, true, 0⟩) = some s ∧ s.FlagAgrees (.client 2) := by
  have hresult : (run next (start (quotaDb false) gigabyte firstInApril)
      (List.replicate 12 ⟨firstInApril, true, 0⟩)).any (fun s ↦ s.flush.position = .done ∧
        s.additionsTo (.client 2) = [gigabyteAddition false]) = true := by
    decide +kernel
  obtain ⟨s, hrun, hend⟩ := (Option.any_eq_true _ _).mp hresult
  obtain ⟨hdone, hadditions⟩ := of_decide_eq_true hend
  refine ⟨s, hrun, (flags_iff _ _ _ _ (fun env henv ↦ ?_) s hrun hdone _ _ _ hadditions).mpr ?_⟩
  · rw [List.eq_of_mem_replicate henv]
  · have hclear : (gigabyteAddition false).found.isTrafficExceeded = false := rfl
    have hsame : (gigabyteAddition false).reaches = (gigabyteAddition false).exhausts := by
      decide +kernel
    rintro (⟨hset, -⟩ | ⟨-, ⟨hreaches, hexhausts⟩ | ⟨hreaches, hexhausts, -⟩⟩)
    · exact absurd (hset.symm.trans hclear) (by decide)
    all_goals
      rw [hsame, hexhausts] at hreaches
      cases hreaches

/-- The same with the flag still set from March: the flush resets the client,
reaches the quota again and leaves the flag clear. -/
theorem not_flagAgrees_quotaDb :
    ∃ s, run next (start (quotaDb true) gigabyte firstInApril)
        (List.replicate 10 ⟨firstInApril, true, 0⟩) = some s ∧ s.flush.position = .done ∧
      s.additionsTo (.client 2) = [gigabyteAddition true] ∧ ¬ s.FlagAgrees (.client 2) := by
  have hresult : (run next (start (quotaDb true) gigabyte firstInApril)
      (List.replicate 10 ⟨firstInApril, true, 0⟩)).any (fun s ↦ s.flush.position = .done ∧
        s.additionsTo (.client 2) = [gigabyteAddition true] ∧
        s.db.account (.client 2) =
          some (⟨"monthly", some 1⟩, ⟨(2 ^ 30, 0), false, some firstInApril⟩)) = true := by
    decide +kernel
  obtain ⟨s, hrun, hend⟩ := (Option.any_eq_true _ _).mp hresult
  obtain ⟨hdone, hadditions, haccount⟩ := of_decide_eq_true hend
  refine ⟨s, hrun, hdone, hadditions, ?_⟩
  rintro ⟨plan, counters, hrow, hset, -⟩
  obtain ⟨rfl, rfl⟩ := Prod.mk.inj (Option.some.inj (haccount.symm.trans hrow))
  have hexceeded := hset (by decide +kernel)
  cases hexceeded

end FlushRun

end Oxiproxy.Controller
