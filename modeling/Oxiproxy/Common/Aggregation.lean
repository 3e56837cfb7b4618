import Oxiproxy.Foundation.HashMap
import Oxiproxy.Foundation.SelectLoop

/-!
# Aggregating traffic

The traffic managers of the controller and of the node run the same loop: events
are added up by key in a buffer, which is flushed when it has more entries than a
limit, and at every tick of an interval.  They differ in the limit and in what a
flush does.
-/

namespace Oxiproxy

open SelectLoop

/-- The variables of the loop, and what its flushes work on. -/
structure Aggregate (E K Out : Type*) where
  buffer : AList fun _ : K ↦ ℤ × ℤ
  out : Out
  /-- The events the buffer is made of. -/
  buffered : List E
  /-- The events handed to each flush. -/
  flushes : List (List E)
  deriving DecidableEq

structure Aggregation (E K Out ι : Type*) where
  limit : ℕ
  key : E → K
  bytes : E → ℤ × ℤ
  flushBuffer : ι → (AList fun _ : K ↦ ℤ × ℤ) → Out → Out

namespace Aggregate

variable {E K Out : Type*}

def new (out : Out) : Aggregate E K Out := ⟨∅, out, [], []⟩

/-- The bytes of a key in the buffer. -/
def bytes [DecidableEq K] (s : Aggregate E K Out) (k : K) : ℤ × ℤ := (s.buffer.lookup k).getD 0

end Aggregate

namespace Aggregation

variable {E K Out ι : Type*} [DecidableEq K]

/-- Add an event to the entry of its key. -/
def add (agg : Aggregation E K Out ι) (e : E) (s : Aggregate E K Out) : Aggregate E K Out :=
  { s with
    buffer := s.buffer.insert (agg.key e) ((s.buffer.lookup (agg.key e)).getD 0 + agg.bytes e)
    buffered := s.buffered ++ [e] }

/-- Flush the buffer, which the flush drains. -/
def flush (agg : Aggregation E K Out ι) (env : ι) (s : Aggregate E K Out) : Aggregate E K Out where
  buffer := ∅
  out := agg.flushBuffer env s.buffer s.out
  buffered := []
  flushes := s.flushes ++ [s.buffered]

/-- The arm of `Some(event) = rx.recv()`. -/
def receive (agg : Aggregation E K Out ι) (env : ι) (e : E) (s : Aggregate E K Out) :
    Aggregate E K Out :=
  let s := agg.add e s
  if agg.limit < s.buffer.entries.length then agg.flush env s else s

/-- The arm of `_ = interval.tick()`. -/
def tick (agg : Aggregation E K Out ι) (env : ι) (s : Aggregate E K Out) : Aggregate E K Out :=
  if s.buffer.entries = [] then s else agg.flush env s

/-- Neither arm breaks the loop, and no arm matches a closed channel. -/
def body (agg : Aggregation E K Out ι) : Body E ι (Aggregate E K Out) where
  received
    | some e => some fun env s ↦ .yield (agg.receive env e s)
    | none => none
  tick env s := .yield (agg.tick env s)

theorem endless (agg : Aggregation E K Out ι) : agg.body.Endless agg.receive agg.tick :=
  ⟨fun _ ↦ rfl, rfl, fun _ _ ↦ rfl⟩

/-- The buffer that an arm flushes. -/
def flushedBy (agg : Aggregation E K Out ι) (s : Aggregate E K Out) :
    Option (Arm E) → Option (AList fun _ : K ↦ ℤ × ℤ)
  | some (.item e) =>
      let s := agg.add e s
      if agg.limit < s.buffer.entries.length then some s.buffer else none
  | some .tick => if s.buffer.entries = [] then none else some s.buffer
  | none => none

/-- Both channels hold 10000 events. -/
def step (agg : Aggregation E K Out ι) :
    Task E (Aggregate E K Out) → Input E ι → Option (Task E (Aggregate E K Out)) :=
  agg.body.step 10000

/-- The loop has ended, and every event was handed to exactly one flush. -/
def Shutdown (t : Task E (Aggregate E K Out)) : Prop :=
  t.status = .finished ∧ t.state.flushes.flatten = t.received ∧ t.channel.queue = []

/-! ## Bytes by key -/

variable (agg : Aggregation E K Out ι) (k : K)

/-- The bytes of the events of a key. -/
def eventBytes (events : List E) : ℤ × ℤ :=
  ((events.filter fun e ↦ agg.key e = k).map agg.bytes).sum

theorem eventBytes_concat (events : List E) (e : E) :
    agg.eventBytes k (events ++ [e]) =
      agg.eventBytes k events + if agg.key e = k then agg.bytes e else 0 := by
  by_cases h : agg.key e = k
  · simp [eventBytes, h]
  · simp [eventBytes, h]

theorem bytes_add (e : E) (s : Aggregate E K Out) :
    (agg.add e s).bytes k = s.bytes k + if agg.key e = k then agg.bytes e else 0 := by
  by_cases h : agg.key e = k
  · subst h
    simp [Aggregate.bytes, add]
  · simp [Aggregate.bytes, add, AList.lookup_insert_ne (Ne.symm h), h]

/-- The bytes received so far are those in the buffer and those the flushes have
handed on. -/
def Accounts (handed : Out → ℤ × ℤ) (t : Task E (Aggregate E K Out)) : Prop :=
  agg.eventBytes k t.received = t.state.bytes k + handed t.state.out

variable {agg k} {handed : Out → ℤ × ℤ} {t t' : Task E (Aggregate E K Out)}

theorem Accounts.flush {env : ι} {s : Aggregate E K Out}
    (hflush : handed (agg.flushBuffer env s.buffer s.out) = handed s.out + s.bytes k) :
    (agg.flush env s).bytes k + handed (agg.flush env s).out = s.bytes k + handed s.out := by
  have hempty : (agg.flush env s).bytes k = 0 := by simp [Aggregation.flush, Aggregate.bytes]
  rw [hempty, zero_add, add_comm (s.bytes k)]
  exact hflush

/-- A step keeps the account when the flush it makes, if any, hands on what is in
the buffer. -/
theorem Accounts.step {i : Input E ι} (h : agg.Accounts k handed t)
    (hflush : ∀ timerFirst timerReady env, i = .turn timerFirst timerReady env →
      ∀ buffer ∈ agg.flushedBy t.state (t.arm timerFirst timerReady),
        handed (agg.flushBuffer env buffer t.state.out) =
          handed t.state.out + (buffer.lookup k).getD 0)
    (hstep : agg.step t i = some t') : agg.Accounts k handed t' := by
  rcases agg.endless.step_cases hstep with ⟨channel, rfl⟩ | ⟨timerFirst, timerReady, env, hi, rfl⟩
  · exact h
  · have hflush := hflush timerFirst timerReady env hi
    cases harm : t.arm timerFirst timerReady with
    | none => exact h
    | some arm =>
        rw [harm] at hflush
        cases arm with
        | item e =>
            -- the event is added to the buffer before the buffer may be flushed
            have hadd : agg.eventBytes k (t.received ++ [e]) =
                (agg.add e t.state).bytes k + handed (agg.add e t.state).out := by
              rw [eventBytes_concat, bytes_add, add_right_comm, h]
              rfl
            have hreceive : (agg.receive env e t.state).bytes k +
                  handed (agg.receive env e t.state).out =
                (agg.add e t.state).bytes k + handed (agg.add e t.state).out := by
              simp only [receive]
              split_ifs with hlimit
              · exact Accounts.flush (hflush _ (by simp [flushedBy, hlimit]))
              · rfl
            exact hadd.trans hreceive.symm
        | tick =>
            have htick : (agg.tick env t.state).bytes k + handed (agg.tick env t.state).out =
                t.state.bytes k + handed t.state.out := by
              unfold tick
              split_ifs with hempty
              · rfl
              · exact Accounts.flush (hflush _ (by simp [flushedBy, hempty]))
            have hreceived : (t.runArm agg.receive agg.tick env (some .tick)).received =
                t.received := by simp [Task.runArm, Body.finishTurn]
            unfold Accounts
            rw [hreceived, h]
            exact htick.symm

end Aggregation

end Oxiproxy
