import Oxiproxy.Controller.FanOut
import Oxiproxy.Foundation.PeriodCounter

/-!
# Traffic per calendar period

Buffers are flushed one after another under a clock that never goes back.  A
client, user or node should hold exactly the bytes that were added to it in the
calendar period of the last addition.  The reset check reads the clock, but the
reset is recorded with the start of the flush.

As in a flush, counters are integers, and the `i64` columns hold what these wrap
around to; which amounts a reset drops depends on dates only.
-/

namespace Oxiproxy.Controller

open Transition PeriodCounter

/-- Bytes added to a row, and whether its counters were reset for them. -/
structure Credited extends Application where
  reset : Bool

/-- Flushes in sequence, with everything they have added, the latest first. -/
structure Accounting where
  db : Db
  flush : Option Flush
  clock : NaiveDateTime
  history : List Credited

def Flush.credited (env : StepEnv) (f : Flush) (app : Option Application) : List Credited :=
  (app.map fun app ↦ ⟨app, f.needsReset env⟩).toList

namespace Accounting

inductive Input
  | flushBuffer (buffer : List (TrafficKey × Bytes))
  | step (env : StepEnv)

def next (s : Accounting) : Input → Option Accounting
  | .flushBuffer buffer =>
      if s.flush.all fun f ↦ f.position = .done then
        some { s with flush := some (Flush.start buffer "" s.clock) }
      else none
  | .step env =>
      s.flush.bind fun f ↦ (flushStep env s.db f).map fun t ↦
        { db := t.1
          flush := some t.2.1
          clock := env.clock
          history := f.credited env t.2.2 ++ s.history }

/-- Before the first flush. -/
def created (db : Db) (clock : NaiveDateTime) : Accounting := ⟨db, none, clock, []⟩

/-- Database calls succeed and the clock does not go back. -/
def Premise (s : Accounting) : Input → Prop
  | .flushBuffer _ => True
  | .step env => env.ok = true ∧ s.clock ≤ env.clock

/-- The plan of the account, when the flush is about to update it. -/
def updating (a : AccountId) (s : Accounting) : Option Plan :=
  s.flush.bind fun f ↦ match f.position with
    | .updateAccount b plan _ _ _ => if b = a then some plan else none
    | _ => none

/-- Everything added to the account in the current period came from a flush that
also started in it. -/
def StartedInPeriod (a : AccountId) (s : Accounting) : Input → Prop
  | .flushBuffer _ => True
  | .step env =>
      ∀ plan ∈ s.updating a, ∀ o ∈ s.history, o.row = .account a →
        o.instant.period plan.trafficResetCycle = env.clock.period plan.trafficResetCycle →
          o.start.period plan.trafficResetCycle = env.clock.period plan.trafficResetCycle

instance (s : Accounting) : ∀ i, Decidable (s.Premise i)
  | .flushBuffer _ => .isTrue trivial
  | .step env => inferInstanceAs (Decidable (env.ok = true ∧ s.clock ≤ env.clock))

instance (a : AccountId) (s : Accounting) : ∀ i, Decidable (s.StartedInPeriod a i)
  | .flushBuffer _ => .isTrue trivial
  | .step env =>
      inferInstanceAs (Decidable (∀ plan ∈ s.updating a, ∀ o ∈ s.history, o.row = .account a →
        o.instant.period plan.trafficResetCycle = env.clock.period plan.trafficResetCycle →
          o.start.period plan.trafficResetCycle = env.clock.period plan.trafficResetCycle))

end Accounting

/-- The bytes added in the period of the latest addition. -/
def bytesOfLastPeriod (cycle : String) : List Credited → Bytes
  | [] => 0
  | last :: older =>
      (((last :: older).filter fun o ↦ o.instant.period cycle = last.instant.period cycle).map
        (·.bytes)).sum

/-- The counters were reset for the first addition of each period and for no other. -/
def ResetOncePerPeriod (cycle : String) : List Credited → Prop
  | [] => True
  | e :: older =>
      (e.reset = true ↔ ∀ o ∈ older, o.instant.period cycle ≠ e.instant.period cycle) ∧
        ResetOncePerPeriod cycle older

/-- What has been added to one account. -/
def credits (a : AccountId) (history : List Credited) : List Credited :=
  history.filter fun o ↦ o.row = .account a

/-- The account holds what was added to it in its last period. -/
def Accounting.PeriodAccounted (a : AccountId) (s : Accounting) : Prop :=
  ∃ plan counters, s.db.account a = some (plan, counters) ∧
    counters.bytes = bytesOfLastPeriod plan.trafficResetCycle (credits a s.history) ∧
    ResetOncePerPeriod plan.trafficResetCycle (credits a s.history)

/-! ## The meter of an account as a counter -/

def Credited.event (cycle : String) (o : Credited) : Event (ℤ ×ₗ ℕ ×ₗ ℕ) Bytes :=
  ⟨o.start.period cycle, o.instant.period cycle, o.bytes⟩

def periodCounter (cycle : String) (bytes : Bytes) (last : Option NaiveDateTime) :
    Counter (ℤ ×ₗ ℕ ×ₗ ℕ) Bytes :=
  ⟨bytes, last.map (·.period cycle)⟩

theorem due_periodCounter (cycle : String) (bytes : Bytes) (last : Option NaiveDateTime)
    (instant : NaiveDateTime) :
    (periodCounter cycle bytes last).due (instant.period cycle) =
      Meter.due ⟨bytes, some (cycle, last)⟩ instant := by
  cases last with
  | none => rfl
  | some last =>
      rw [Bool.eq_iff_iff]
      have hdue := resetDue_some_iff cycle last instant
      simpa [periodCounter, Counter.due, Meter.due] using hdue.symm

theorem add_periodCounter (cycle : String) (bytes : Bytes) (last : Option NaiveDateTime)
    (o : Credited) :
    ∃ bytes' last', Meter.add ⟨bytes, some (cycle, last)⟩ o.start o.instant o.bytes =
        ⟨bytes', some (cycle, last')⟩ ∧
      periodCounter cycle bytes' last' = (periodCounter cycle bytes last).add (o.event cycle) := by
  have hdue := due_periodCounter cycle bytes last o.instant
  unfold Meter.add Counter.add
  change (periodCounter cycle bytes last).due (o.event cycle).arrival = _ at hdue
  rw [hdue]
  split_ifs
  · exact ⟨o.bytes, some o.start, rfl, rfl⟩
  · exact ⟨bytes + o.bytes, last, rfl, rfl⟩

theorem bytesOfLastPeriod_of_counts {cycle : String} {bytes : Bytes}
    {last : Option NaiveDateTime} {history : List Credited}
    (h : Counts (periodCounter cycle bytes last) (history.map (·.event cycle))) :
    bytes = bytesOfLastPeriod cycle history := by
  cases history with
  | nil => exact congrArg Counter.total h
  | cons e older =>
      refine h.1.trans ?_
      unfold periodTotal bytesOfLastPeriod
      rw [← List.map_cons, List.filter_map, List.map_map]
      rfl

/-! ## Runs of flushes -/

namespace Accounting

structure Inv (a : AccountId) (cycle : String) (s : Accounting) : Prop where
  fresh : ∀ f ∈ s.flush, f.Fresh s.db
  started : ∀ f ∈ s.flush, f.position.Started → f.now ≤ s.clock
  past : ∀ o ∈ s.history, o.start ≤ o.instant ∧ o.instant ≤ s.clock
  counts : ∃ bytes last, s.db.meter (.account a) = some ⟨bytes, some (cycle, last)⟩ ∧
    Counts (periodCounter cycle bytes last) ((credits a s.history).map (·.event cycle))
  resets : ResetOncePerPeriod cycle (credits a s.history)

variable {a : AccountId} {cycle : String} {s t : Accounting}

/-- The counter that a flush computes from is the one in the database. -/
theorem Inv.needsReset (env : StepEnv) {f : Flush} {plan : Plan} {read : Counters} {bytes : Bytes}
    {resume : Resume} {m : Meter} (hfresh : f.Fresh s.db)
    (hpos : f.position = .updateAccount a plan read bytes resume)
    (hmeter : s.db.meter (.account a) = some m) :
    plan.trafficResetCycle = (m.reset.map Prod.fst).getD "" ∧
      f.needsReset env = m.due env.clock := by
  have hfresh := hfresh.current
  simp only [Flush.Current, hpos] at hfresh
  have hm := hfresh m hmeter
  refine ⟨?_, ?_⟩
  · rw [hm]
    rfl
  · rw [Flush.needsReset, hpos, hm]
    rfl

/-- A step that adds to the account, within the condition. -/
theorem Inv.credit {f f' : Flush} {env : StepEnv} {db' : Db} {app : Application}
    (hs : s.Inv a cycle) (hf : s.flush = some f) (hclock : s.clock ≤ env.clock)
    (hguard : s.StartedInPeriod a (.step env))
    (hstep : flushStep env s.db f = some (db', f', some app)) (hrow : app.row = .account a) :
    let o : Credited := ⟨app, f.needsReset env⟩
    (∃ bytes last, db'.meter (.account a) = some ⟨bytes, some (cycle, last)⟩ ∧
        Counts (periodCounter cycle bytes last) ((o :: credits a s.history).map (·.event cycle))) ∧
      ResetOncePerPeriod cycle (o :: credits a s.history) := by
  intro o
  obtain ⟨-, plan, read, bytes, resume, hpos⟩ := flushStep_account hstep hrow
  have hfresh := hs.fresh f hf
  obtain ⟨total, last, hmeter, hcounts⟩ := hs.counts
  obtain ⟨hcycle, hneeds⟩ := Inv.needsReset env hfresh hpos hmeter
  have hcycle : plan.trafficResetCycle = cycle := hcycle
  have hinstant : app.instant = env.clock := by
    rcases flushStep_times hstep with ⟨-, -, -, h⟩ | ⟨-, -, -, -, h⟩ | ⟨-, -, -, -, h⟩
    · cases h
    · cases h
    · exact (h app rfl).2
  have hmem : ∀ o' ∈ credits a s.history, o' ∈ s.history ∧ o'.row = .account a := by
    intro o' ho'
    obtain ⟨hmem, hrow'⟩ := List.mem_filter.mp ho'
    exact ⟨hmem, by simpa using hrow'⟩
  have hlate : ∀ e ∈ (credits a s.history).map (·.event cycle),
      e.recorded ≤ e.arrival ∧ e.arrival ≤ (o.event cycle).arrival := by
    intro e he
    obtain ⟨o', ho', rfl⟩ := List.mem_map.mp he
    obtain ⟨hstart, hpast⟩ := hs.past o' (hmem o' ho').1
    refine ⟨NaiveDateTime.period_mono cycle hstart, NaiveDateTime.period_mono cycle ?_⟩
    exact (hpast.trans hclock).trans hinstant.ge
  have hrecorded : ∀ e ∈ (credits a s.history).map (·.event cycle),
      e.arrival = (o.event cycle).arrival → e.recorded = (o.event cycle).arrival := by
    intro e he harrival
    obtain ⟨o', ho', rfl⟩ := List.mem_map.mp he
    have hplan : plan ∈ s.updating a := by
      simp [updating, hf, hpos]
    have hsame := hguard plan hplan o' (hmem o' ho').1 (hmem o' ho').2
    rw [hcycle, ← hinstant] at hsame
    exact hsame harrival
  obtain ⟨total', last', hadd, hcounter⟩ := add_periodCounter cycle total last o
  refine ⟨⟨total', last', ?_, ?_⟩, ?_, hs.resets⟩
  · rw [flushStep_meter hfresh.current hstep, hmeter, Meter.apply, if_pos hrow, Option.getD_some]
    exact congrArg some hadd
  · rw [hcounter]
    exact hcounts.add hlate hrecorded
  · have hdue := hcounts.due_iff hlate hrecorded
    have hreset : o.reset = (periodCounter cycle total last).due (o.event cycle).arrival := by
      change f.needsReset env = (periodCounter cycle total last).due (app.instant.period cycle)
      rw [hneeds, hinstant, due_periodCounter]
    rw [hreset, hdue]
    simp only [List.forall_mem_map, Credited.event, ne_eq]

theorem Inv.next {i : Input} (hs : s.Inv a cycle) (hpremise : s.Premise i)
    (hguard : s.StartedInPeriod a i) (hstep : s.next i = some t) : t.Inv a cycle := by
  cases i with
  | flushBuffer buffer =>
      simp only [Accounting.next] at hstep
      split_ifs at hstep
      cases hstep
      refine ⟨?_, ?_, hs.past, hs.counts, hs.resets⟩
      · intro f hf
        cases hf
        trivial
      · intro f hf hstarted
        cases hf
        exact hstarted.elim
  | step env =>
      obtain ⟨-, hclock⟩ := hpremise
      obtain ⟨f, hf, hmap⟩ := Option.bind_eq_some_iff.mp hstep
      obtain ⟨⟨db', f', app⟩, hflush, rfl⟩ := Option.map_eq_some_iff.mp hmap
      have hfresh := hs.fresh f hf
      have hmeter := flushStep_meter hfresh.current hflush (.account a)
      have htimes := flushStep_times hflush
      have haccount : (∃ bytes last, db'.meter (.account a) = some ⟨bytes, some (cycle, last)⟩ ∧
            Counts (periodCounter cycle bytes last)
              ((credits a (f.credited env app ++ s.history)).map (·.event cycle))) ∧
          ResetOncePerPeriod cycle (credits a (f.credited env app ++ s.history)) := by
        cases app with
        | none =>
            rw [hmeter]
            exact ⟨hs.counts, hs.resets⟩
        | some app =>
            by_cases hrow : app.row = .account a
            · have hcredits : credits a (f.credited env (some app) ++ s.history) =
                  ⟨app, f.needsReset env⟩ :: credits a s.history :=
                List.filter_cons_of_pos (by simpa using hrow)
              rw [hcredits]
              exact hs.credit hf hclock hguard hflush hrow
            · have hcredits : credits a (f.credited env (some app) ++ s.history) =
                  credits a s.history := List.filter_cons_of_neg (by simpa using hrow)
              rw [hcredits, hmeter, Meter.apply, if_neg hrow]
              exact ⟨hs.counts, hs.resets⟩
      refine ⟨?_, ?_, ?_, haccount.1, haccount.2⟩
      · intro g hg
        cases hg
        exact hfresh.step hflush
      · intro g hg hstarted
        cases hg
        rcases htimes with ⟨-, -, hpos, -⟩ | ⟨-, -, hnow, -⟩ | ⟨hbefore, -, hnow, -⟩
        · rw [hpos] at hstarted
          exact hstarted.elim
        · exact hnow.le
        · exact hnow.le.trans ((hs.started f hf hbefore).trans hclock)
      · intro o ho
        rcases List.mem_append.mp ho with ho | ho
        · cases app with
          | none => cases ho
          | some app =>
              obtain rfl := List.mem_singleton.mp ho
              rcases htimes with ⟨-, -, -, h⟩ | ⟨-, -, -, -, h⟩ | ⟨hbefore, -, -, -, h⟩
              · cases h
              · cases h
              · obtain ⟨hstart, hinstant⟩ := h app rfl
                have hle := (hs.started f hf hbefore).trans hclock
                exact ⟨hstart.le.trans (hle.trans hinstant.ge), hinstant.le⟩
        · obtain ⟨hstart, hpast⟩ := hs.past o ho
          exact ⟨hstart, hpast.trans hclock⟩

theorem Inv.periodAccounted (hs : s.Inv a cycle) : s.PeriodAccounted a := by
  obtain ⟨bytes, last, hmeter, hcounts⟩ := hs.counts
  obtain ⟨⟨plan, counters⟩, haccount, hx⟩ := Option.map_eq_some_iff.mp hmeter
  have hcycle : plan.trafficResetCycle = cycle := by
    have hreset := congrArg Meter.reset hx
    exact congrArg Prod.fst (Option.some.inj hreset)
  have hbytes : counters.bytes = bytes := congrArg Meter.bytes hx
  refine ⟨plan, counters, haccount, ?_, ?_⟩
  · rw [hbytes, hcycle]
    exact bytesOfLastPeriod_of_counts hcounts
  · rw [hcycle]
    exact hs.resets

end Accounting

/-- Flushes account for every period as long as nothing is added to the account
in a period to which an earlier, straddling flush has already added. -/
theorem period_accounting (db : Db) (clock : NaiveDateTime) (a : AccountId) (plan : Plan)
    (exceeded : Bool) (hcreated : db.account a = some (plan, ⟨0, exceeded, none⟩))
    (inputs : List Accounting.Input) (s : Accounting)
    (hwithin : Within Accounting.next (fun s i ↦ s.Premise i ∧ s.StartedInPeriod a i)
      (Accounting.created db clock) inputs)
    (hrun : run Accounting.next (Accounting.created db clock) inputs = some s) :
    s.PeriodAccounted a := by
  have hstart : (Accounting.created db clock).Inv a plan.trafficResetCycle := by
    refine ⟨by simp [Accounting.created], by simp [Accounting.created],
      by simp [Accounting.created], ⟨0, none, ?_, rfl⟩, trivial⟩
    change (db.account a).map Meter.ofAccount = _
    rw [hcreated]
    rfl
  have hend := run_invariant (fun s i t hs hi hstep ↦ Accounting.Inv.next hs hi.1 hi.2 hstep)
    hstart hwithin hrun
  exact hend.periodAccounted

/-- A flush of two entries of one client, with the clock readings of its first
two steps and of all later ones. -/
def flushOfTwo (started later : NaiveDateTime) : List Accounting.Input :=
  .flushBuffer [(⟨1, 2, none⟩, (10, 0)), (⟨1, 2, some 7⟩, (20, 0))] ::
    (List.replicate 2 (.step ⟨started, true, 0⟩) ++ List.replicate 14 (.step ⟨later, true, 0⟩))

theorem period_accounting_flushOfTwo :
    ∃ s, run Accounting.next (Accounting.created (webDb 0 none) lastSecondOfMarch)
        (flushOfTwo lastSecondOfMarch lastSecondOfMarch) = some s ∧ s.PeriodAccounted (.client 2) := by
  refine ⟨_, rfl, ?_⟩
  exact period_accounting (webDb 0 none) lastSecondOfMarch (.client 2) ⟨"monthly", none⟩ false rfl
    (flushOfTwo lastSecondOfMarch lastSecondOfMarch) _ (by decide +kernel) rfl

/-- A flush that starts on the last of March and writes on the first of April:
the second entry resets the client again and the bytes of the first are lost. -/
theorem not_periodAccounted_flushOfTwo :
    (webDb 0 none).account (.client 2) = some (⟨"monthly", none⟩, ⟨0, false, none⟩) ∧
      Within Accounting.next Accounting.Premise
        (Accounting.created (webDb 0 none) lastSecondOfMarch) (flushOfTwo lastSecondOfMarch firstInApril) ∧
      ∃ s, run Accounting.next (Accounting.created (webDb 0 none) lastSecondOfMarch)
          (flushOfTwo lastSecondOfMarch firstInApril) = some s ∧
        s.flush.map (·.position) = some .done ∧ ¬ s.PeriodAccounted (.client 2) := by
  refine ⟨rfl, by decide +kernel, _, rfl, rfl, ?_⟩
  rintro ⟨plan, counters, haccount, hbytes, -⟩
  cases haccount
  revert hbytes
  decide

end Oxiproxy.Controller
