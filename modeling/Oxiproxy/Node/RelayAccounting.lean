import Oxiproxy.Foundation.Runs

/-!
# The traffic of a session

A session counts the bytes that it forwards and records them with the traffic
manager when its handler returns.  The handlers differ in how their two
directions are joined and in what an error skips.  The bytes of one session are
taken to stay below `2 ^ 63`, so that its counters do not overflow.
-/

namespace Oxiproxy.Node

open Transition

/-- The bytes sent and received in all records together. -/
def recordedOf (records : List (ℤ × ℤ)) : ℤ × ℤ :=
  ((records.map Prod.fst).sum, (records.map Prod.snd).sum)

/-! ## One direction -/

inductive PumpPhase
  | reading
  | writing (n : ℕ)
  /-- The end of the input is passed on. -/
  | closing
  | done (ok : Bool)
  | cancelled
  deriving DecidableEq

/-- A loop that copies chunks. -/
structure Pump where
  phase : PumpPhase
  /-- The chunks whose write has completed. -/
  chunks : List ℕ
  /-- The counter of the direction. -/
  count : ℤ
  deriving DecidableEq

inductive PumpEvent
  | read (n : ℕ)
  | eof
  | readFails
  | written
  | writeFails
  | closed (ok : Bool)
  deriving DecidableEq

namespace Pump

def start : Pump := ⟨.reading, [], 0⟩

/-- `strict` tells whether an error on closing counts. -/
def step (strict : Bool) (p : Pump) (event : PumpEvent) : Option Pump :=
  match p.phase, event with
  | .reading, .read n => if 0 < n then some { p with phase := .writing n } else none
  | .reading, .eof => some { p with phase := .closing }
  | .reading, .readFails => some { p with phase := .done false }
  | .writing n, .written =>
      some { phase := .reading, chunks := p.chunks ++ [n], count := p.count + n }
  | .writing _, .writeFails => some { p with phase := .done false }
  | .closing, .closed ok => some { p with phase := .done (ok || !strict) }
  | _, _ => none

def cancel (p : Pump) : Pump := { p with phase := .cancelled }

/-- The loop is over, in one way or another. -/
def Over (p : Pump) : Bool :=
  match p.phase with
  | .done _ | .cancelled => true
  | _ => false

/-- The counter is what has been written. -/
def Exact (p : Pump) : Prop := p.count = (p.chunks.sum : ℕ)

theorem Exact.step {strict : Bool} {p q : Pump} {event : PumpEvent} (hp : p.Exact)
    (h : p.step strict event = some q) : q.Exact := by
  unfold Pump.step at h
  unfold Exact at hp ⊢
  split at h
  · split_ifs at h
    cases h
    exact hp
  · cases h
    exact hp
  · cases h
    exact hp
  · cases h
    simp [hp]
  · cases h
    exact hp
  · cases h
    exact hp
  · cases h

end Pump

/-! ## Two directions -/

inductive Opened
  | opened
  | notConnected
  | failed
  deriving DecidableEq

inductive RelayKind
  /-- `handle_tcp_to_tunnel_unified`, which joins its directions. -/
  | tcpTunnel
  /-- `copy_direct`, in which an error of one direction cancels the other. -/
  | direct
  deriving DecidableEq

inductive RelayInput
  | opened (result : Opened)
  /-- Towards the destination. -/
  | up (event : PumpEvent)
  | down (event : PumpEvent)
  /-- Both directions are over, and the handler returns. -/
  | join
  deriving DecidableEq

structure RelaySession where
  kind : RelayKind
  opened : Bool
  up : Pump
  down : Pump
  records : List (ℤ × ℤ)
  returned : Option Bool
  deriving DecidableEq

namespace RelaySession

def start (kind : RelayKind) : RelaySession := ⟨kind, false, .start, .start, [], none⟩

/-- `try_join!` drops the other direction when one has failed. -/
def afterEvent (kind : RelayKind) (moved other : Pump) : Pump :=
  if kind = .direct ∧ moved.phase = .done false then other.cancel else other

def step (s : RelaySession) : RelayInput → Option RelaySession
  | .opened result =>
      if s.opened = false ∧ s.returned = none then
        match result with
        | .opened => some { s with opened := true }
        | .notConnected => some { s with returned := some true }
        | .failed => some { s with returned := some false }
      else none
  | .up event =>
      if s.opened = true ∧ s.returned = none then
        (s.up.step (s.kind = .direct) event).map fun up ↦
          { s with up := up, down := afterEvent s.kind up s.down }
      else none
  | .down event =>
      if s.opened = true ∧ s.returned = none then
        (s.down.step (s.kind = .direct) event).map fun down ↦
          { s with down := down, up := afterEvent s.kind down s.up }
      else none
  | .join =>
      if s.opened = true ∧ s.returned = none ∧ s.up.Over = true ∧ s.down.Over = true then
        match s.kind with
        | .tcpTunnel => some { s with
            records :=
              if 0 < s.up.count ∨ 0 < s.down.count then s.records ++ [(s.up.count, s.down.count)]
              else s.records
            returned := some true }
        | .direct => some { s with
            records := s.records ++ [(s.up.count, s.down.count)]
            returned := some (s.up.phase = .done true ∧ s.down.phase = .done true) }
      else none

/-- The bytes of the chunks whose write has completed. -/
def forwarded (s : RelaySession) : ℤ × ℤ := ((s.up.chunks.sum : ℕ), (s.down.chunks.sum : ℕ))

structure Kept (s : RelaySession) : Prop where
  up : s.up.Exact
  down : s.down.Exact
  unopened : s.opened = false → s.up = .start ∧ s.down = .start
  unrecorded : s.returned = none → s.records = []
  recorded : s.returned ≠ none → recordedOf s.records = (s.up.count, s.down.count)

variable {s t : RelaySession} {input : RelayInput}

theorem exact_afterEvent {kind : RelayKind} {moved other : Pump} (h : other.Exact) :
    (afterEvent kind moved other).Exact := by
  unfold afterEvent
  split_ifs
  · exact h
  · exact h

theorem Pump.count_nonneg {p : Pump} (hp : p.Exact) : 0 ≤ p.count := by
  rw [hp]
  exact Int.natCast_nonneg _

theorem kept_start (kind : RelayKind) : (start kind).Kept where
  up := rfl
  down := rfl
  unopened _ := ⟨rfl, rfl⟩
  unrecorded _ := rfl
  recorded h := (h rfl).elim

theorem Kept.step (hs : s.Kept) (h : s.step input = some t) : t.Kept := by
  cases input with
  | opened result =>
      simp only [RelaySession.step] at h
      split_ifs at h with hfirst
      have hrecords := hs.unrecorded hfirst.2
      obtain ⟨hup, hdown⟩ := hs.unopened hfirst.1
      have hnothing : recordedOf s.records = (s.up.count, s.down.count) := by
        rw [hrecords, hup, hdown]
        rfl
      cases result with
      | opened =>
          cases h
          exact ⟨hs.up, hs.down, fun hnot ↦ (by cases hnot), fun _ ↦ hrecords,
            fun hreturned ↦ (hreturned hfirst.2).elim⟩
      | notConnected =>
          cases h
          exact ⟨hs.up, hs.down, hs.unopened, fun hnot ↦ (by cases hnot), fun _ ↦ hnothing⟩
      | failed =>
          cases h
          exact ⟨hs.up, hs.down, hs.unopened, fun hnot ↦ (by cases hnot), fun _ ↦ hnothing⟩
  | up event =>
      simp only [RelaySession.step] at h
      split_ifs at h with hrunning
      obtain ⟨up, hup, rfl⟩ := Option.map_eq_some_iff.mp h
      refine ⟨hs.up.step hup, exact_afterEvent hs.down, fun hnot ↦ ?_, hs.unrecorded,
        fun hreturned ↦ (hreturned hrunning.2).elim⟩
      cases hrunning.1.symm.trans hnot
  | down event =>
      simp only [RelaySession.step] at h
      split_ifs at h with hrunning
      obtain ⟨down, hdown, rfl⟩ := Option.map_eq_some_iff.mp h
      refine ⟨exact_afterEvent hs.up, hs.down.step hdown, fun hnot ↦ ?_, hs.unrecorded,
        fun hreturned ↦ (hreturned hrunning.2).elim⟩
      cases hrunning.1.symm.trans hnot
  | join =>
      simp only [RelaySession.step] at h
      by_cases hover : s.opened = true ∧ s.returned = none ∧ s.up.Over = true ∧
          s.down.Over = true
      swap
      · rw [if_neg hover] at h
        cases h
      rw [if_pos hover] at h
      have hrecords := hs.unrecorded hover.2.1
      cases hkind : s.kind with
      | tcpTunnel =>
          rw [hkind] at h
          cases h
          refine ⟨hs.up, hs.down, hs.unopened, fun hnot ↦ (by cases hnot), fun _ ↦ ?_⟩
          change recordedOf (if 0 < s.up.count ∨ 0 < s.down.count then _ else _) = _
          rw [hrecords]
          split_ifs with hcounted
          · simp [recordedOf]
          · have hup := Pump.count_nonneg hs.up
            have hdown := Pump.count_nonneg hs.down
            rw [not_or] at hcounted
            rw [show s.up.count = 0 by omega, show s.down.count = 0 by omega]
            rfl
      | direct =>
          rw [hkind] at h
          cases h
          refine ⟨hs.up, hs.down, hs.unopened, fun hnot ↦ (by cases hnot), fun _ ↦ ?_⟩
          change recordedOf (s.records ++ _) = _
          rw [hrecords]
          simp [recordedOf]

/-- Whatever ends a session of two directions, what it has forwarded is recorded. -/
theorem Kept.recorded_eq (hs : s.Kept) (hreturned : s.returned ≠ none) :
    recordedOf s.records = s.forwarded := by
  rw [hs.recorded hreturned, hs.up, hs.down]
  rfl

end RelaySession

/-! ## UDP -/

inductive DatagramPhase
  | opening
  | writingData
  | flushing
  | reading
  | forwarding (n : ℕ)
  | finishing
  | returned (ok : Bool)
  deriving DecidableEq

inductive DatagramInput
  | opened (result : Opened)
  | dataWritten (ok : Bool)
  | flushed (ok : Bool)
  | read (n : ℕ)
  | eof
  | readFails
  | forwarded (ok : Bool)
  | finished (ok : Bool)
  deriving DecidableEq

/-- `handle_udp_to_tunnel_unified`. -/
structure DatagramSession where
  dataLen : ℕ
  phase : DatagramPhase
  bytesSent : ℤ
  bytesReceived : ℤ
  /-- The chunks whose write has completed. -/
  sentChunks : List ℕ
  receivedChunks : List ℕ
  records : List (ℤ × ℤ)
  deriving DecidableEq

namespace DatagramSession

def start (dataLen : ℕ) : DatagramSession := ⟨dataLen, .opening, 0, 0, [], [], []⟩

/-- An error leaves the handler at once. -/
def next (s : DatagramSession) (ok : Bool) (phase : DatagramPhase) : DatagramSession :=
  { s with phase := if ok then phase else .returned false }

def step (s : DatagramSession) (input : DatagramInput) : Option DatagramSession :=
  match s.phase, input with
  | .opening, .opened .opened => some { s with phase := .writingData }
  | .opening, .opened .notConnected => some { s with phase := .returned true }
  | .opening, .opened .failed => some { s with phase := .returned false }
  | .writingData, .dataWritten ok => some { s.next ok .flushing with
      sentChunks := if ok then s.sentChunks ++ [s.dataLen] else s.sentChunks }
  | .flushing, .flushed ok => some { s.next ok .reading with
      bytesSent := if ok then s.dataLen else 0 }
  | .reading, .read n =>
      if 0 < n then
        some { s with phase := .forwarding n, bytesReceived := s.bytesReceived + n }
      else none
  | .reading, .eof => some { s with phase := .finishing }
  | .reading, .readFails => some (s.next false .reading)
  | .forwarding n, .forwarded ok => some { s.next ok .reading with
      receivedChunks := if ok then s.receivedChunks ++ [n] else s.receivedChunks }
  | .finishing, .finished ok => some { s.next ok (.returned true) with
      records :=
        if ok = true ∧ (0 < s.bytesSent ∨ 0 < s.bytesReceived) then
          s.records ++ [(s.bytesSent, s.bytesReceived)]
        else s.records }
  | _, _ => none

/-- An operation of the handler gives an error. -/
def Fails : DatagramInput → Prop
  | .opened .failed | .readFails | .dataWritten false | .flushed false | .forwarded false
  | .finished false => True
  | _ => False

def forwarded (s : DatagramSession) : ℤ × ℤ :=
  ((s.sentChunks.sum : ℕ), (s.receivedChunks.sum : ℕ))

def Kept (s : DatagramSession) : Prop :=
  match s.phase with
  | .opening | .writingData =>
      s.sentChunks = [] ∧ s.receivedChunks = [] ∧ s.bytesReceived = 0 ∧ s.records = []
  | .flushing =>
      s.sentChunks = [s.dataLen] ∧ s.receivedChunks = [] ∧ s.bytesReceived = 0 ∧ s.records = []
  | .reading | .finishing =>
      (s.bytesSent, s.bytesReceived) = s.forwarded ∧ s.records = []
  | .forwarding n =>
      (s.bytesSent, s.bytesReceived - n) = s.forwarded ∧ s.records = []
  | .returned true => recordedOf s.records = s.forwarded
  | .returned false => s.records = []

variable {s t : DatagramSession} {input : DatagramInput}

theorem kept_start (dataLen : ℕ) : (start dataLen).Kept := ⟨rfl, rfl, rfl, rfl⟩

theorem Kept.step (hs : s.Kept) (h : s.step input = some t) : t.Kept := by
  unfold DatagramSession.step at h
  unfold Kept at hs
  split at h
  · next hphase =>
      rw [hphase] at hs
      cases h
      exact hs
  · next hphase =>
      rw [hphase] at hs
      cases h
      obtain ⟨hsent, hreceived, -, hrecords⟩ := hs
      change recordedOf s.records = s.forwarded
      rw [hrecords, forwarded, hsent, hreceived]
      rfl
  · next hphase =>
      rw [hphase] at hs
      cases h
      exact hs.2.2.2
  · next ok hphase =>
      rw [hphase] at hs
      obtain ⟨hsent, hreceived, hbytes, hrecords⟩ := hs
      cases h
      cases ok with
      | true =>
          refine ⟨?_, hreceived, hbytes, hrecords⟩
          change s.sentChunks ++ [s.dataLen] = [s.dataLen]
          rw [hsent, List.nil_append]
      | false => exact hrecords
  · next ok hphase =>
      rw [hphase] at hs
      obtain ⟨hsent, hreceived, hbytes, hrecords⟩ := hs
      cases h
      cases ok with
      | true =>
          refine ⟨?_, hrecords⟩
          change ((s.dataLen : ℤ), s.bytesReceived) = s.forwarded
          rw [forwarded, hsent, hreceived, hbytes]
          simp
      | false => exact hrecords
  · next n hphase =>
      rw [hphase] at hs
      split_ifs at h
      cases h
      refine ⟨?_, hs.2⟩
      change (s.bytesSent, s.bytesReceived + n - n) = s.forwarded
      rw [add_sub_cancel_right]
      exact hs.1
  · next hphase =>
      rw [hphase] at hs
      cases h
      exact hs
  · next hphase =>
      rw [hphase] at hs
      cases h
      exact hs.2
  · next n ok hphase =>
      rw [hphase] at hs
      obtain ⟨hcount, hrecords⟩ := hs
      cases h
      cases ok with
      | true =>
          refine ⟨?_, hrecords⟩
          obtain ⟨hsent, hreceived⟩ := Prod.mk.inj hcount
          change (s.bytesSent, s.bytesReceived) =
            (((s.sentChunks.sum : ℕ) : ℤ), (((s.receivedChunks ++ [n]).sum : ℕ) : ℤ))
          rw [hsent, List.sum_append, List.sum_singleton, Nat.cast_add, ← hreceived,
            sub_add_cancel]
      | false => exact hrecords
  · next ok hphase =>
      rw [hphase] at hs
      obtain ⟨hcount, hrecords⟩ := hs
      cases h
      cases ok with
      | true =>
          change recordedOf
            (if true = true ∧ (0 < s.bytesSent ∨ 0 < s.bytesReceived) then _ else _) = s.forwarded
          rw [hrecords, ← hcount]
          split_ifs with hcounted
          · simp [recordedOf]
          · obtain ⟨hsent, hreceived⟩ := Prod.mk.inj hcount
            have hsent' : 0 ≤ s.bytesSent := by
              rw [hsent]
              exact Int.natCast_nonneg _
            have hreceived' : 0 ≤ s.bytesReceived := by
              rw [hreceived]
              exact Int.natCast_nonneg _
            simp only [true_and, not_or] at hcounted
            rw [show s.bytesSent = 0 by omega, show s.bytesReceived = 0 by omega]
            rfl
      | false => exact hrecords
  · cases h

/-- Nothing happens after the handler has returned. -/
theorem step_returned {ok : Bool} (hphase : s.phase = .returned ok) : s.step input = none := by
  unfold DatagramSession.step
  rw [hphase]

theorem step_fails (h : s.step input = some t) : t.phase = .returned false ↔ Fails input := by
  unfold DatagramSession.step at h
  split at h
  · cases h
    exact iff_of_false (fun hphase ↦ by cases hphase) id
  · cases h
    exact iff_of_false (fun hphase ↦ by cases hphase) id
  · cases h
    exact iff_of_true rfl trivial
  · next ok _ =>
      cases h
      cases ok with
      | true => exact iff_of_false (fun hphase ↦ by cases hphase) id
      | false => exact iff_of_true rfl trivial
  · next ok _ =>
      cases h
      cases ok with
      | true => exact iff_of_false (fun hphase ↦ by cases hphase) id
      | false => exact iff_of_true rfl trivial
  · split_ifs at h
    cases h
    exact iff_of_false (fun hphase ↦ by cases hphase) id
  · cases h
    exact iff_of_false (fun hphase ↦ by cases hphase) id
  · cases h
    exact iff_of_true rfl trivial
  · next n ok _ =>
      cases h
      cases ok with
      | true => exact iff_of_false (fun hphase ↦ by cases hphase) id
      | false => exact iff_of_true rfl trivial
  · next ok _ =>
      cases h
      cases ok with
      | true => exact iff_of_false (fun hphase ↦ by cases hphase) id
      | false => exact iff_of_true rfl trivial
  · cases h

/-- The handler returns an error exactly if one of its operations has given one. -/
theorem run_fails {inputs : List DatagramInput} (hs : s.phase ≠ .returned false)
    (h : run step s inputs = some t) :
    t.phase = .returned false ↔ ∃ input ∈ inputs, Fails input := by
  induction inputs generalizing s with
  | nil =>
      cases h
      exact iff_of_false hs (by simp)
  | cons input inputs ih =>
      obtain ⟨u, hu, hrest⟩ := run_cons_eq_some.mp h
      by_cases hfails : Fails input
      · have hreturned := (step_fails hu).mpr hfails
        cases inputs with
        | nil =>
            cases hrest
            exact iff_of_true hreturned ⟨input, List.mem_cons_self, hfails⟩
        | cons next inputs =>
            obtain ⟨v, hv, -⟩ := run_cons_eq_some.mp hrest
            rw [step_returned hreturned] at hv
            cases hv
      · rw [ih (fun hreturned ↦ hfails ((step_fails hu).mp hreturned)) hrest]
        simp [hfails]

/-- The write of a chunk with a byte in it completes. -/
def Moves (dataLen : ℕ) : DatagramInput → Prop
  | .dataWritten true => 0 < dataLen
  | .forwarded true => True
  | _ => False

/-- A chunk that is being sent back is not empty. -/
def Filled (s : DatagramSession) : Prop :=
  match s.phase with
  | .forwarding n => 0 < n
  | _ => True

theorem Filled.step (h : s.step input = some t) : t.Filled := by
  unfold DatagramSession.step at h
  split at h
  · cases h
    trivial
  · cases h
    trivial
  · cases h
    trivial
  · next ok _ =>
      cases h
      cases ok <;> trivial
  · next ok _ =>
      cases h
      cases ok <;> trivial
  · split_ifs at h with hn
    cases h
    exact hn
  · cases h
    trivial
  · cases h
    trivial
  · next ok _ =>
      cases h
      cases ok <;> trivial
  · next ok _ =>
      cases h
      cases ok <;> trivial
  · cases h

theorem forwarded_eq_zero :
    s.forwarded = (0, 0) ↔ s.sentChunks.sum = 0 ∧ s.receivedChunks.sum = 0 := by
  rw [forwarded, Prod.mk.injEq, Nat.cast_eq_zero, Nat.cast_eq_zero]

theorem step_moves (hs : s.Filled) (h : s.step input = some t) :
    t.dataLen = s.dataLen ∧
      (t.forwarded = (0, 0) ↔ s.forwarded = (0, 0) ∧ ¬ Moves s.dataLen input) := by
  rw [forwarded_eq_zero, forwarded_eq_zero]
  have still : (s.sentChunks.sum = 0 ∧ s.receivedChunks.sum = 0) ↔
      (s.sentChunks.sum = 0 ∧ s.receivedChunks.sum = 0) ∧ ¬ False := by
    rw [not_false_iff, and_true]
  unfold DatagramSession.step at h
  unfold Filled at hs
  split at h
  · cases h
    exact ⟨rfl, still⟩
  · cases h
    exact ⟨rfl, still⟩
  · cases h
    exact ⟨rfl, still⟩
  · next ok _ =>
      cases h
      cases ok with
      | true =>
          refine ⟨rfl, ?_⟩
          change (s.sentChunks ++ [s.dataLen]).sum = 0 ∧ s.receivedChunks.sum = 0 ↔
            _ ∧ ¬ 0 < s.dataLen
          rw [List.sum_append, List.sum_singleton]
          omega
      | false => exact ⟨rfl, still⟩
  · next ok _ =>
      cases h
      cases ok with
      | true => exact ⟨rfl, still⟩
      | false => exact ⟨rfl, still⟩
  · split_ifs at h with hn
    cases h
    exact ⟨rfl, still⟩
  · cases h
    exact ⟨rfl, still⟩
  · cases h
    exact ⟨rfl, still⟩
  · next n ok hphase =>
      rw [hphase] at hs
      cases h
      cases ok with
      | true =>
          refine ⟨rfl, ?_⟩
          change s.sentChunks.sum = 0 ∧ (s.receivedChunks ++ [n]).sum = 0 ↔ _ ∧ ¬ True
          rw [List.sum_append, List.sum_singleton]
          change 0 < n at hs
          rw [not_true_eq_false, and_false, iff_false]
          omega
      | false => exact ⟨rfl, still⟩
  · next ok _ =>
      cases h
      cases ok with
      | true => exact ⟨rfl, still⟩
      | false => exact ⟨rfl, still⟩
  · cases h

/-- What a run forwards is not nothing exactly if it completes such a write. -/
theorem run_moves {inputs : List DatagramInput} (hs : s.Filled) (h : run step s inputs = some t) :
    t.forwarded = (0, 0) ↔
      s.forwarded = (0, 0) ∧ ∀ input ∈ inputs, ¬ Moves s.dataLen input := by
  induction inputs generalizing s with
  | nil =>
      cases h
      simp
  | cons input inputs ih =>
      obtain ⟨u, hu, hrest⟩ := run_cons_eq_some.mp h
      obtain ⟨hlen, hmoves⟩ := step_moves hs hu
      rw [ih (Filled.step hu) hrest, hmoves, hlen, List.forall_mem_cons, and_assoc]

/-- An early return records nothing. -/
theorem recorded_iff {dataLen : ℕ} {ok : Bool} {inputs : List DatagramInput}
    (hrun : run step (start dataLen) inputs = some s) (hreturned : s.phase = .returned ok) :
    recordedOf s.records = s.forwarded ↔
      (∀ input ∈ inputs, ¬ Fails input) ∨ ∀ input ∈ inputs, ¬ Moves dataLen input := by
  have hstep : ∀ s input t, Kept s → s.step input = some t → Kept t := fun _ _ _ ↦ Kept.step
  have hkept := run_invariant_of_step hstep (kept_start dataLen) hrun
  have hfails := run_fails (fun hphase ↦ by cases hphase) hrun
  have hmoves := run_moves (s := start dataLen) trivial hrun
  unfold Kept at hkept
  rw [hreturned] at hkept hfails
  cases ok with
  | true =>
      refine iff_of_true hkept (Or.inl fun input hinput hfail ↦ ?_)
      cases hfails.mpr ⟨input, hinput, hfail⟩
  | false =>
      change s.records = [] at hkept
      have hzero : recordedOf s.records = (0, 0) := by
        rw [hkept]
        rfl
      obtain ⟨input, hinput, hfail⟩ := hfails.mp rfl
      rw [hzero, eq_comm, hmoves]
      constructor
      · intro hnothing
        exact Or.inr hnothing.2
      · rintro (hnone | hnothing)
        · exact (hnone input hinput hfail).elim
        · exact ⟨rfl, hnothing⟩

end DatagramSession

/-! ## All sessions -/

inductive ForwardingKind
  | relay (kind : RelayKind)
  /-- The session of a datagram of this length. -/
  | udpTunnel (dataLen : ℕ)
  deriving DecidableEq

inductive ForwardingSession
  | relay (s : RelaySession)
  | datagram (s : DatagramSession)
  deriving DecidableEq

inductive ForwardingInput
  | relay (input : RelayInput)
  | datagram (input : DatagramInput)
  deriving DecidableEq

/-- An error makes the handler skip its accounting. -/
def ForwardingInput.Fails : ForwardingInput → Prop
  | .relay _ => False
  | .datagram input => DatagramSession.Fails input

/-- The write of a chunk with a byte in it completes. -/
def ForwardingInput.Moves : ForwardingKind → ForwardingInput → Prop
  | .udpTunnel dataLen, .datagram input => DatagramSession.Moves dataLen input
  | _, .relay (.up .written) | _, .relay (.down .written) => True
  | _, _ => False

namespace ForwardingSession

def start : ForwardingKind → ForwardingSession
  | .relay kind => .relay (.start kind)
  | .udpTunnel dataLen => .datagram (.start dataLen)

def step : ForwardingSession → ForwardingInput → Option ForwardingSession
  | .relay s, .relay input => (s.step input).map .relay
  | .datagram s, .datagram input => (s.step input).map .datagram
  | _, _ => none

/-- The handler has returned, with success or with an error. -/
def Returned : ForwardingSession → Prop
  | .relay s => s.returned ≠ none
  | .datagram s => ∃ ok, s.phase = .returned ok

def recorded : ForwardingSession → ℤ × ℤ
  | .relay s => recordedOf s.records
  | .datagram s => recordedOf s.records

/-- The bytes of the chunks whose write has completed. -/
def forwarded : ForwardingSession → ℤ × ℤ
  | .relay s => s.forwarded
  | .datagram s => s.forwarded

theorem step_relay {s : RelaySession} {input : ForwardingInput} {t : ForwardingSession}
    (h : step (.relay s) input = some t) :
    ∃ i u, input = .relay i ∧ t = .relay u ∧ s.step i = some u := by
  cases input with
  | relay i =>
      obtain ⟨u, hu, rfl⟩ := Option.map_eq_some_iff.mp h
      exact ⟨i, u, rfl, rfl, hu⟩
  | datagram i => cases h

theorem step_datagram {s : DatagramSession} {input : ForwardingInput} {t : ForwardingSession}
    (h : step (.datagram s) input = some t) :
    ∃ i u, input = .datagram i ∧ t = .datagram u ∧ s.step i = some u := by
  cases input with
  | relay i => cases h
  | datagram i =>
      obtain ⟨u, hu, rfl⟩ := Option.map_eq_some_iff.mp h
      exact ⟨i, u, rfl, rfl, hu⟩

/-- When the handler of a session returns, the bytes recorded are those
forwarded in each direction, unless an error makes the handler of a UDP session
return after it has forwarded something. -/
theorem traffic_recorded (kind : ForwardingKind) (inputs : List ForwardingInput)
    (s : ForwardingSession) (hrun : run step (start kind) inputs = some s) (hreturned : s.Returned) :
    s.recorded = s.forwarded ↔
      (∀ input ∈ inputs, ¬ input.Fails) ∨ ∀ input ∈ inputs, ¬ input.Moves kind := by
  cases kind with
  | relay kind =>
      obtain ⟨is, u, rfl, rfl, hu⟩ := run_of_embedding (fun _ _ _ ↦ step_relay) hrun
      have hstep : ∀ s input t, RelaySession.Kept s → s.step input = some t →
          RelaySession.Kept t := fun _ _ _ ↦ RelaySession.Kept.step
      have hkept := run_invariant_of_step hstep (RelaySession.kept_start kind) hu
      refine iff_of_true (hkept.recorded_eq hreturned) (Or.inl fun input hinput ↦ ?_)
      obtain ⟨i, -, rfl⟩ := List.mem_map.mp hinput
      exact id
  | udpTunnel dataLen =>
      obtain ⟨is, u, rfl, rfl, hu⟩ := run_of_embedding (fun _ _ _ ↦ step_datagram) hrun
      obtain ⟨ok, hok⟩ := hreturned
      rw [List.forall_mem_map, List.forall_mem_map]
      exact DatagramSession.recorded_iff hu hok

/-- A TCP session whose client resets the stream while the second chunk is written. -/
def resetInputs : List ForwardingInput :=
  [.opened .opened, .up (.read 5), .up .written, .up (.read 3), .up .writeFails, .down .readFails,
    .join].map .relay

def resetSession : ForwardingSession :=
  .relay ⟨.tcpTunnel, true, ⟨.done false, [5], 5⟩, ⟨.done false, [], 0⟩, [(5, 0)], some true⟩

theorem traffic_recorded_reset :
    resetSession.recorded = (5, 0) ∧ resetSession.recorded = resetSession.forwarded := by
  have hrun : run step (start (.relay .tcpTunnel)) resetInputs = some resetSession := rfl
  refine ⟨rfl, (traffic_recorded _ _ _ hrun ?_).mpr (Or.inl ?_)⟩
  · intro hnot
    cases hnot
  · intro input hinput
    obtain ⟨i, -, rfl⟩ := List.mem_map.mp hinput
    exact id

/-- The client resets the stream of a UDP session after it has answered. -/
theorem not_recorded_udp :
    ∃ (kind : ForwardingKind) (inputs : List ForwardingInput) (s : ForwardingSession),
      run step (start kind) inputs = some s ∧ s.Returned ∧
        s.forwarded = (4, 7) ∧ s.recorded ≠ s.forwarded := by
  refine ⟨.udpTunnel 4, [.opened .opened, .dataWritten true, .flushed true, .read 7,
    .forwarded true, .readFails].map .datagram, _, rfl, ?_, rfl, ?_⟩
  · exact ⟨false, rfl⟩
  · decide

end ForwardingSession

end Oxiproxy.Node
