import Oxiproxy.Common.Aggregation

/-!
# The traffic buffer of a node

The node's traffic manager aggregates traffic events and reports them over the
stream to the controller.  A flush drains the buffer and then waits for room in
the queue of the sender it has read; while it waits, the manager does nothing
else, and a sender that is replaced meanwhile does not concern it.  A flush is
therefore one step, with the outcome of the wait as its input.

Byte counts are integers: what a node adds up for one key between two flushes is
taken to stay below `2 ^ 63`, so that the `i64` sums do not overflow.
-/

namespace Oxiproxy.Node

open Transition SelectLoop

structure TrafficEvent where
  proxyId : ℤ
  clientId : ℤ
  userId : Option ℤ
  bytesSent : ℤ
  bytesReceived : ℤ
  deriving DecidableEq

abbrev TrafficKey := ℤ × ℤ × Option ℤ

structure TrafficRecord where
  proxyId : ℤ
  clientId : String
  userId : Option ℤ
  bytesSent : ℤ
  bytesReceived : ℤ
  deriving DecidableEq

structure TrafficReportRequest where
  records : List TrafficRecord
  deriving DecidableEq

/-- One gRPC stream: whether its receiving end is gone, and the traffic reports
its queue has accepted. -/
structure GrpcStream where
  closed : Bool
  accepted : List TrafficReportRequest
  deriving DecidableEq

/-- The streams so far and the one whose sender is in use. -/
structure SharedGrpcSender where
  inner : ℕ
  streams : List GrpcStream
  deriving DecidableEq

namespace SharedGrpcSender

def new : SharedGrpcSender := ⟨0, [⟨false, []⟩]⟩

/-- `reserve_owned` yields a permit before `SEND_TIMEOUT`: the queue is not
closed and has room in time. -/
def HasPermit (g : SharedGrpcSender) (room : Bool) : Prop :=
  room = true ∧ ∃ stream ∈ g.streams[g.inner]?, stream.closed = false

instance (g : SharedGrpcSender) (room : Bool) : Decidable (g.HasPermit room) :=
  inferInstanceAs (Decidable (room = true ∧ ∃ stream ∈ g.streams[g.inner]?, _))

def accept (g : SharedGrpcSender) (msg : TrafficReportRequest) : SharedGrpcSender :=
  { g with
    streams := g.streams.modify g.inner fun stream ↦
      { stream with accepted := stream.accepted ++ [msg] } }

/-- A failed send gives the message back. -/
def send (g : SharedGrpcSender) (room : Bool) (msg : TrafficReportRequest) :
    Except TrafficReportRequest SharedGrpcSender :=
  if g.HasPermit room then .ok (g.accept msg) else .error msg

/-- After a reconnection, the sender of the new stream is put in place. -/
def replace (g : SharedGrpcSender) : SharedGrpcSender :=
  ⟨g.streams.length, g.streams ++ [⟨false, []⟩]⟩

def close (g : SharedGrpcSender) (i : ℕ) : SharedGrpcSender :=
  { g with streams := g.streams.modify i fun stream ↦ { stream with closed := true } }

end SharedGrpcSender

def trafficRecord (e : Sigma fun _ : TrafficKey ↦ ℤ × ℤ) : TrafficRecord :=
  ⟨e.1.1, toString e.1.2.1, e.1.2.2, e.2.1, e.2.2⟩

/-- The records of the drained buffer. -/
def trafficRecords (buffer : AList fun _ : TrafficKey ↦ ℤ × ℤ) : List TrafficRecord :=
  (buffer.entries.filter fun e ↦ 0 < e.2.1 ∨ 0 < e.2.2).map trafficRecord

def flushBufferGrpc (room : Bool) (buffer : AList fun _ : TrafficKey ↦ ℤ × ℤ)
    (g : SharedGrpcSender) : SharedGrpcSender :=
  let records := trafficRecords buffer
  if records = [] then g
  else
    match g.send room ⟨records⟩ with
    | .ok g => g
    -- the error is logged, and the message it carries is dropped
    | .error _ => g

def trafficAggregation : Aggregation TrafficEvent TrafficKey SharedGrpcSender Bool where
  limit := 100
  key e := (e.proxyId, e.clientId, e.userId)
  bytes e := (e.bytesSent, e.bytesReceived)
  flushBuffer := flushBufferGrpc

abbrev TrafficTask := Task TrafficEvent (Aggregate TrafficEvent TrafficKey SharedGrpcSender)

inductive TrafficInput
  | task (i : Input TrafficEvent Bool)
  | replace
  | close (stream : ℕ)

namespace TrafficTask

def start : TrafficTask := .new (.new .new)

def modifySender (t : TrafficTask) (f : SharedGrpcSender → SharedGrpcSender) : TrafficTask :=
  { t with state := { t.state with out := f t.state.out } }

def step (t : TrafficTask) : TrafficInput → Option TrafficTask
  | .task i => trafficAggregation.step t i
  | .replace => some (t.modifySender SharedGrpcSender.replace)
  | .close stream => some (t.modifySender (·.close stream))

end TrafficTask

/-! ## Bytes by key -/

/-- A record of a key. -/
def TrafficRecord.Of (r : TrafficRecord) (k : TrafficKey) : Prop :=
  r.proxyId = k.1 ∧ r.clientId = toString k.2.1 ∧ r.userId = k.2.2

instance (r : TrafficRecord) (k : TrafficKey) : Decidable (r.Of k) :=
  inferInstanceAs (Decidable (r.proxyId = k.1 ∧ r.clientId = toString k.2.1 ∧ r.userId = k.2.2))

def TrafficReportRequest.bytes (msg : TrafficReportRequest) (k : TrafficKey) : ℤ × ℤ :=
  ((msg.records.filter fun r ↦ r.Of k).map fun r ↦ (r.bytesSent, r.bytesReceived)).sum

def GrpcStream.acceptedBytes (stream : GrpcStream) (k : TrafficKey) : ℤ × ℤ :=
  (stream.accepted.map (·.bytes k)).sum

/-- The bytes of a key in the reports that the queues have accepted. -/
def SharedGrpcSender.acceptedBytes (g : SharedGrpcSender) (k : TrafficKey) : ℤ × ℤ :=
  (g.streams.map (·.acceptedBytes k)).sum

/-- The bytes of a key received so far are in the buffer or in an accepted report,
and not in both. -/
def TrafficTask.Conserved (t : TrafficTask) (k : TrafficKey) : Prop :=
  trafficAggregation.eventBytes k t.received = t.state.bytes k + t.state.out.acceptedBytes k

instance (t : TrafficTask) (k : TrafficKey) : Decidable (t.Conserved k) :=
  inferInstanceAs (Decidable (_ = _))

theorem trafficRecord_of_iff (e : Sigma fun _ : TrafficKey ↦ ℤ × ℤ) (k : TrafficKey) :
    (trafficRecord e).Of k ↔ e.1 = k := by
  obtain ⟨⟨p, c, u⟩, v⟩ := e
  obtain ⟨p', c', u'⟩ := k
  simp [TrafficRecord.Of, trafficRecord]

/-- Every entry has no bytes or a positive count. -/
def Reportable (buffer : AList fun _ : TrafficKey ↦ ℤ × ℤ) : Prop :=
  ∀ e ∈ buffer.entries, e.2 = 0 ∨ 0 < e.2.1 ∨ 0 < e.2.2

instance (buffer : AList fun _ : TrafficKey ↦ ℤ × ℤ) : Decidable (Reportable buffer) :=
  inferInstanceAs (Decidable (∀ e ∈ buffer.entries, e.2 = 0 ∨ 0 < e.2.1 ∨ 0 < e.2.2))

/-- The records of a buffer hold what the buffer holds. -/
theorem bytes_trafficRecords {buffer : AList fun _ : TrafficKey ↦ ℤ × ℤ} (h : Reportable buffer)
    (k : TrafficKey) :
    (TrafficReportRequest.mk (trafficRecords buffer)).bytes k = (buffer.lookup k).getD 0 := by
  rw [← AList.sumOver_single, AList.sumOver, TrafficReportRequest.bytes, List.sum_map_filter,
    trafficRecords, List.map_map, List.sum_map_filter]
  congr 1
  refine List.map_congr_left fun e he ↦ ?_
  by_cases hk : e.1 = k
  · rcases h e he with hzero | hpos
    · simp [hzero]
    · simp only [hpos, if_true, Function.comp_apply, trafficRecord_of_iff, hk]
      rfl
  · simp [trafficRecord_of_iff, hk]

namespace SharedGrpcSender

variable {g g' : SharedGrpcSender} {k : TrafficKey}

theorem acceptedBytes_accept {stream : GrpcStream} (h : g.streams[g.inner]? = some stream)
    (msg : TrafficReportRequest) :
    (g.accept msg).acceptedBytes k = g.acceptedBytes k + msg.bytes k := by
  have hset := List.sum_map_set (GrpcStream.acceptedBytes · k)
    { stream with accepted := stream.accepted ++ [msg] } h
  have hstream : GrpcStream.acceptedBytes { stream with accepted := stream.accepted ++ [msg] } k =
      stream.acceptedBytes k + msg.bytes k := by
    simp [GrpcStream.acceptedBytes]
  rw [hstream, add_left_comm, add_comm] at hset
  have hmodify : (g.accept msg).streams =
      g.streams.set g.inner { stream with accepted := stream.accepted ++ [msg] } := by
    rw [accept, List.modify_eq_set_getElem?, h]
    rfl
  rw [acceptedBytes, hmodify]
  exact add_left_cancel hset

theorem acceptedBytes_replace : g.replace.acceptedBytes k = g.acceptedBytes k := by
  simp [acceptedBytes, replace, GrpcStream.acceptedBytes]

theorem acceptedBytes_close (i : ℕ) : (g.close i).acceptedBytes k = g.acceptedBytes k := by
  have hmap : (g.close i).streams.map (GrpcStream.acceptedBytes · k) =
      g.streams.map (GrpcStream.acceptedBytes · k) := by
    refine List.ext_getElem? fun j ↦ ?_
    simp only [close, List.getElem?_map, List.getElem?_modify]
    by_cases hij : i = j
    · cases g.streams[j]? <;> simp [hij, GrpcStream.acceptedBytes]
    · simp [hij]
  rw [acceptedBytes, hmap]
  rfl

end SharedGrpcSender

/-- A flush reports everything: each entry has no bytes or a positive count, and
there is nothing to send or the send is granted a permit. -/
def Delivers (g : SharedGrpcSender) (room : Bool) (buffer : AList fun _ : TrafficKey ↦ ℤ × ℤ) :
    Prop :=
  Reportable buffer ∧ (trafficRecords buffer = [] ∨ g.HasPermit room)

instance (g : SharedGrpcSender) (room : Bool) (buffer : AList fun _ : TrafficKey ↦ ℤ × ℤ) :
    Decidable (Delivers g room buffer) :=
  inferInstanceAs (Decidable (Reportable buffer ∧ (_ ∨ _)))

theorem acceptedBytes_flushBufferGrpc {g : SharedGrpcSender} {room : Bool}
    {buffer : AList fun _ : TrafficKey ↦ ℤ × ℤ} (h : Delivers g room buffer) (k : TrafficKey) :
    (flushBufferGrpc room buffer g).acceptedBytes k =
      g.acceptedBytes k + (buffer.lookup k).getD 0 := by
  obtain ⟨hreportable, hsend⟩ := h
  have hbytes := bytes_trafficRecords hreportable k
  unfold flushBufferGrpc
  by_cases hempty : trafficRecords buffer = []
  · rw [if_pos hempty, ← hbytes, hempty]
    exact (add_zero _).symm
  · have hpermit := hsend.resolve_left hempty
    obtain ⟨-, stream, hstream, -⟩ := id hpermit
    simp only [if_neg hempty, SharedGrpcSender.send, if_pos hpermit]
    rw [SharedGrpcSender.acceptedBytes_accept hstream, hbytes]

namespace TrafficTask

/-- The flush that a step makes, if any, reports everything. -/
def FlushDelivers (t : TrafficTask) : TrafficInput → Prop
  | .task (.turn timerFirst timerReady room) =>
      ∀ buffer ∈ trafficAggregation.flushedBy t.state (t.arm timerFirst timerReady),
        Delivers t.state.out room buffer
  | _ => True

instance (t : TrafficTask) : ∀ i, Decidable (t.FlushDelivers i)
  | .task (.turn timerFirst timerReady room) =>
      inferInstanceAs (Decidable (∀ buffer ∈ trafficAggregation.flushedBy t.state
        (t.arm timerFirst timerReady), Delivers t.state.out room buffer))
  | .task (.send _) | .task .cloneSender | .task .dropSender | .replace | .close _ =>
      .isTrue trivial

theorem running_step {t t' : TrafficTask} {i : TrafficInput} (h : t.status = .running)
    (hstep : step t i = some t') : t'.status = .running := by
  cases i with
  | task i => exact trafficAggregation.endless.running h hstep
  | replace | close stream =>
      obtain rfl := Option.some.inj hstep
      exact h

theorem not_reaches_shutdown (schedule : ℕ → TrafficInput) :
    ¬ Reaches step Aggregation.Shutdown start schedule := by
  refine not_reaches (fun _ _ _ ↦ running_step) (fun t h ⟨hfinished, _⟩ ↦ ?_) rfl schedule
  rw [h] at hfinished
  cases hfinished

theorem Conserved.step {t t' : TrafficTask} {k : TrafficKey} {i : TrafficInput}
    (h : t.Conserved k) (hflush : t.FlushDelivers i) (hstep : step t i = some t') :
    t'.Conserved k := by
  cases i with
  | task i =>
      have haccounts : trafficAggregation.Accounts k (·.acceptedBytes k) t := h
      refine haccounts.step ?_ hstep
      rintro timerFirst timerReady room rfl buffer hbuffer
      exact acceptedBytes_flushBufferGrpc (hflush buffer hbuffer) k
  | replace =>
      obtain rfl := Option.some.inj hstep
      exact h.trans (congrArg _ SharedGrpcSender.acceptedBytes_replace.symm)
  | close stream =>
      obtain rfl := Option.some.inj hstep
      exact h.trans (congrArg _ (SharedGrpcSender.acceptedBytes_close stream).symm)

/-- In every run whose flushes report everything, the bytes of every key are
conserved. -/
theorem conserved_of_delivers {inputs : List TrafficInput} {t : TrafficTask}
    (hflushes : Within step FlushDelivers start inputs) (hrun : run step start inputs = some t)
    (k : TrafficKey) : t.Conserved k := by
  have hstart : start.Conserved k := rfl
  have hstep : ∀ s i s', s.Conserved k → s.FlushDelivers i → step s i = some s' →
      s'.Conserved k := fun s i s' h hflush hstep ↦ h.step hflush hstep
  exact run_invariant hstep hstart hflushes hrun

/-- An event is received and then flushed at a tick. -/
def reportOne (stream : List TrafficInput) : List TrafficInput :=
  [.task (.send ⟨1, 2, none, 10, 0⟩), .task (.turn false false true)] ++ stream ++
    [.task (.turn false true true)]

theorem conserved_of_delivers_reconnected :
    ∃ t, run step start (reportOne [.close 0, .replace]) = some t ∧
      t.state.out.acceptedBytes (1, 2, none) = (10, 0) ∧ t.Conserved (1, 2, none) := by
  have hflushes : Within step FlushDelivers start (reportOne [.close 0, .replace]) := by
    decide +kernel
  have haccepted : ∃ t ∈ run step start (reportOne [.close 0, .replace]),
      t.state.out.acceptedBytes (1, 2, none) = (10, 0) := by decide +kernel
  obtain ⟨t, hrun, haccepted⟩ := haccepted
  exact ⟨t, hrun, haccepted, conserved_of_delivers hflushes hrun _⟩

/-- When the stream is closed as the buffer is flushed, the drained bytes are lost. -/
theorem not_conserved_closed_stream :
    ¬ ∀ inputs t, run step start inputs = some t → ∀ k, t.Conserved k := by
  intro h
  have hlost : ∃ t ∈ run step start (reportOne [.close 0]), ¬ t.Conserved (1, 2, none) := by
    decide +kernel
  obtain ⟨t, hrun, hlost⟩ := hlost
  exact hlost (h _ t hrun _)

end TrafficTask

end Oxiproxy.Node
