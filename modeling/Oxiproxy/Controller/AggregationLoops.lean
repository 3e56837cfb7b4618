import Oxiproxy.Controller.TrafficReports
import Oxiproxy.Node.TrafficBuffer

/-!
# Aggregation loops that never end

The handler of a traffic report starts a traffic manager, records the report
with it and drops it.  Its loop has no way to see that all senders are gone: the
arm of the channel is then disabled and the interval keeps ticking.  The loop of
a node is the same.
-/

namespace Oxiproxy.Controller

open Transition SelectLoop

/-- The loop of the controller; what its flushes do in the database does not
concern it. -/
def trafficAggregation : Aggregation TrafficEvent TrafficKey (List Flush) Unit where
  limit := 1000
  key := TrafficEvent.key
  bytes := TrafficEvent.bytes
  flushBuffer _ buffer flushes :=
    flushes ++ [Flush.start (buffer.entries.map fun e ↦ (e.1, e.2)) "" default]

abbrev AggregationTask := Task TrafficEvent (Aggregate TrafficEvent TrafficKey (List Flush))

/-- The handler of a report and the loop it has started. -/
structure ReportLoop where
  /-- The records still to be recorded, until the manager is dropped. -/
  records : Option (List TrafficRecord)
  task : AggregationTask

namespace ReportLoop

def new (records : List TrafficRecord) : ReportLoop := ⟨some records, .new (.new [])⟩

/-- Record the next record, or drop the manager after the last one. -/
def handle (r : ReportLoop) : Option ReportLoop :=
  match r.records with
  | none => none
  | some [] => (trafficAggregation.step r.task .dropSender).map fun task ↦ ⟨none, task⟩
  | some (record :: records) =>
      if record.bytesSent = 0 ∧ record.bytesReceived = 0 then some { r with records := some records }
      else
        (trafficAggregation.step r.task (.send record.event)).map fun task ↦
          ⟨some records, task⟩

def turn (r : ReportLoop) (timerFirst timerReady : Bool) : Option ReportLoop :=
  (trafficAggregation.step r.task (.turn timerFirst timerReady ())).map fun task ↦ { r with task }

/-- The report is recorded, the manager is dropped and the buffer is flushed. -/
def Flushed (r : ReportLoop) : Prop :=
  r.records = none ∧ r.task.Closed ∧ r.task.state.buffer.entries = []

instance (r : ReportLoop) : Decidable r.Flushed :=
  inferInstanceAs (Decidable (r.records = none ∧ _ ∧ _))

theorem running_handle {r r' : ReportLoop} (h : r.task.status = .running)
    (hstep : r.handle = some r') : r'.task.status = .running := by
  unfold handle at hstep
  split at hstep
  · cases hstep
  · obtain ⟨task, htask, rfl⟩ := Option.map_eq_some_iff.mp hstep
    exact trafficAggregation.endless.running h htask
  · split_ifs at hstep
    · obtain rfl := Option.some.inj hstep
      exact h
    · obtain ⟨task, htask, rfl⟩ := Option.map_eq_some_iff.mp hstep
      exact trafficAggregation.endless.running h htask

theorem running_turn {r r' : ReportLoop} {timerFirst timerReady : Bool}
    (h : r.task.status = .running) (hstep : r.turn timerFirst timerReady = some r') :
    r'.task.status = .running := by
  obtain ⟨task, htask, rfl⟩ := Option.map_eq_some_iff.mp hstep
  exact trafficAggregation.endless.running h htask

end ReportLoop

/-- The reports received by a controller and the loops they have started. -/
structure ReportLoops where
  reports : ℕ
  loops : List ReportLoop

namespace ReportLoops

inductive Input
  | report (records : List TrafficRecord)
  | handle (i : ℕ)
  | turn (i : ℕ) (timerFirst timerReady : Bool)

def update (s : ReportLoops) (i : ℕ) (op : ReportLoop → Option ReportLoop) : Option ReportLoops :=
  s.loops[i]?.bind fun r ↦ (op r).map fun r' ↦ { s with loops := s.loops.set i r' }

def step (s : ReportLoops) : Input → Option ReportLoops
  | .report records => some ⟨s.reports + 1, s.loops ++ [.new records]⟩
  | .handle i => s.update i ReportLoop.handle
  | .turn i timerFirst timerReady => s.update i (·.turn timerFirst timerReady)

/-- The loop of every report is running. -/
def AllRunning (s : ReportLoops) : Prop :=
  s.loops.length = s.reports ∧ ∀ r ∈ s.loops, r.task.status = .running

theorem AllRunning.update {s s' : ReportLoops} {i : ℕ} {op : ReportLoop → Option ReportLoop}
    (h : s.AllRunning)
    (hop : ∀ r r', r.task.status = .running → op r = some r' → r'.task.status = .running)
    (hstep : s.update i op = some s') : s'.AllRunning := by
  obtain ⟨r, hr, hmap⟩ := Option.bind_eq_some_iff.mp hstep
  obtain ⟨r', hr', rfl⟩ := Option.map_eq_some_iff.mp hmap
  refine ⟨(List.length_set).trans h.1, fun q hq ↦ ?_⟩
  rcases List.mem_or_eq_of_mem_set hq with hq | rfl
  · exact h.2 q hq
  · exact hop r q (h.2 r (List.mem_of_getElem? hr)) hr'

theorem AllRunning.step {s s' : ReportLoops} {i : Input} (h : s.AllRunning)
    (hstep : s.step i = some s') : s'.AllRunning := by
  cases i with
  | report records =>
      obtain rfl := Option.some.inj hstep
      refine ⟨by simp [h.1], fun r hr ↦ ?_⟩
      rcases List.mem_append.mp hr with hr | hr
      · exact h.2 r hr
      · obtain rfl := List.mem_singleton.mp hr
        rfl
  | handle i => exact h.update (fun _ _ ↦ ReportLoop.running_handle) hstep
  | turn i timerFirst timerReady => exact h.update (fun _ _ ↦ ReportLoop.running_turn) hstep

def idle : ReportLoops := ⟨0, []⟩

end ReportLoops

theorem not_reaches_shutdown (schedule : ℕ → SelectLoop.Input TrafficEvent Unit) :
    ¬ Reaches trafficAggregation.step Aggregation.Shutdown (.new (.new [])) schedule := by
  have hstep : ∀ t i (t' : AggregationTask), t.status = .running →
      trafficAggregation.step t i = some t' → t'.status = .running :=
    fun t i t' ↦ trafficAggregation.endless.running
  refine not_reaches hstep (fun t h ⟨hfinished, _⟩ ↦ ?_) rfl schedule
  rw [h] at hfinished
  cases hfinished

/-- Whatever is recorded, whenever the senders are dropped and however the ticks
fall, no loop of the controller or of a node reaches its end, and as many loops
keep running as reports have arrived. -/
theorem aggregation_never_ends (schedule : ℕ → SelectLoop.Input TrafficEvent Unit)
    (nodeSchedule : ℕ → Node.TrafficInput) (inputs : List ReportLoops.Input) :
    ¬ Reaches trafficAggregation.step Aggregation.Shutdown (.new (.new [])) schedule ∧
      ¬ Reaches Node.TrafficTask.step Aggregation.Shutdown Node.TrafficTask.start nodeSchedule ∧
      ∀ s, run ReportLoops.step .idle inputs = some s → s.AllRunning := by
  refine ⟨not_reaches_shutdown schedule, Node.TrafficTask.not_reaches_shutdown nodeSchedule,
    fun s hrun ↦ ?_⟩
  have hidle : ReportLoops.AllRunning .idle := ⟨rfl, List.forall_mem_nil _⟩
  exact run_invariant_of_step (fun _ _ _ ↦ ReportLoops.AllRunning.step) hidle hrun

/-- The only sender is dropped, and after that the interval keeps ticking. -/
def DropsSender (schedule : ℕ → SelectLoop.Input TrafficEvent Unit) : Prop :=
  ∃ n, schedule n = .dropSender ∧ ∀ m > n, ∃ timerFirst, schedule m = .turn timerFirst true ()

/-- The loop of one event does not end after the drop, and the loop of one report
still runs when its report has been flushed. -/
theorem running_after_drop :
    (¬ ∀ schedule, DropsSender schedule →
        Reaches trafficAggregation.step Aggregation.Shutdown (.new (.new [])) schedule) ∧
      ¬ ∀ inputs s, run ReportLoops.step .idle inputs = some s →
        ∀ r ∈ s.loops, r.Flushed → r.task.status ≠ .running := by
  constructor
  · intro h
    let schedule : ℕ → SelectLoop.Input TrafficEvent Unit
      | 0 => .send ⟨1, 2, none, 10, 0⟩
      | 1 => .dropSender
      | n + 2 => .turn (n % 2 = 1) true ()
    refine not_reaches_shutdown schedule (h schedule ⟨1, rfl, fun m hm ↦ ?_⟩)
    obtain ⟨n, rfl⟩ := Nat.exists_eq_add_of_le hm
    rw [Nat.add_comm]
    exact ⟨_, rfl⟩
  · intro h
    have hflushed : ∃ s ∈ run ReportLoops.step .idle
        [.report [⟨1, "2", none, 10, 0⟩], .handle 0, .handle 0, .turn 0 false false,
          .turn 0 true true, .turn 0 true true],
        ∃ r ∈ s.loops, r.Flushed ∧ r.task.status = .running := by decide +kernel
    obtain ⟨s, hrun, r, hr, hflushed, hrunning⟩ := hflushed
    exact h _ s hrun r hr hflushed hrunning

end Oxiproxy.Controller
