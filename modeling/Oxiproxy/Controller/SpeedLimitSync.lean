import Oxiproxy.Common.Rust
import Oxiproxy.Node.SpeedLimiter

/-!
# The speed limit of a node

The controller keeps an optional limit for a node.  It reaches the node's limiter
in three ways: with the answer to the registration of a node that starts, with
the one of a node that reconnects, and as a command while the node is connected.
-/

namespace Oxiproxy.Controller

open Transition

/-- A node's row, its control stream and its limiter.  With every value on its way
to the node goes the number of changes that the limit had seen by then. -/
structure LimitSync where
  limit : Option Int64
  changes : ℕ
  /-- The limit read for a registration that is being answered. -/
  registering : Option (Option Int64 × ℕ)
  connected : Bool
  /-- Commands on their way to the node. -/
  pushes : List (Int64 × ℕ)
  limiter : Option Node.SpeedLimiter
  /-- The last value that the limiter was given. -/
  reached : Option Int64

namespace LimitSync

inductive Input
  /-- The request `PUT /api/nodes/{id}`, of which only the limit matters here. -/
  | updateNode (speedLimit : Option (Option Int64))
  | register
  /-- The answer reaches a node that starts. -/
  | start (now : ℚ)
  /-- The answer reaches a node that has lost its stream. -/
  | reconnect
  /-- The node handles a command; each is handled by a task of its own. -/
  | deliver (i : ℕ)
  | disconnect

def created (limit : Option Int64) : LimitSync := ⟨limit, 0, none, false, [], none, none⟩

/-- A limit as it is cast for the limiter. -/
def rate (limit : Int64) : ℕ := asU64 limit.toInt

/-- The limiter of a node that reconnects keeps its rate if no limit came. -/
def updateLimit (l : Node.SpeedLimiter) : Option Int64 → Node.SpeedLimiter
  | some limit => l.updateRate (rate limit)
  | none => l

def step (s : LimitSync) : Input → Option LimitSync
  | .updateNode speedLimit =>
      let limit := speedLimit.getD s.limit
      if limit = s.limit then some s
      else
        let changes := s.changes + 1
        some { s with
          limit
          changes
          pushes := if s.connected then s.pushes ++ [(limit.getD 0, changes)] else s.pushes }
  | .register =>
      if s.connected then none else some { s with registering := some (s.limit, s.changes) }
  | .start now =>
      s.registering.map fun answer ↦
        { s with
          registering := none
          connected := true
          limiter := some (.new .machine (rate (answer.1.getD 0)) now)
          reached := answer.1 }
  | .reconnect =>
      s.registering.bind fun answer ↦ s.limiter.map fun l ↦
        { s with
          registering := none
          connected := true
          limiter := some (updateLimit l answer.1)
          reached := answer.1.or s.reached }
  | .deliver i =>
      if s.connected then
        s.pushes[i]?.bind fun push ↦ s.limiter.map fun l ↦
          { s with
            pushes := s.pushes.eraseIdx i
            limiter := some (l.updateRate (rate push.1))
            reached := some push.1 }
      else none
  | .disconnect => some { s with registering := none, connected := false, pushes := [] }

/-- The steps that bring a limit to the node. -/
def Input.synchronises : Input → Bool
  | .start _ | .reconnect | .deliver _ => true
  | _ => false

/-- Bytes per second, zero for no limit. -/
def bytesPerSecond (limit : Option Int64) : ℤ := (limit.getD 0).toInt

/-- The rate of the node is the limit of the controller. -/
def Synced (s : LimitSync) : Prop :=
  ∃ l, s.limiter = some l ∧ (l.rate : ℤ) = bytesPerSecond s.limit

/-- Every step that brings a limit to the node leaves both equal. -/
def Converges (s : LimitSync) (i : Input) : Prop :=
  ∀ t, s.step i = some t → i.synchronises = true → t.Synced

/-- No value that arrives is negative or has been overtaken by a change, and a node
that reconnects is told of no limit only if no other value has reached it last. -/
def Timely (s : LimitSync) : Input → Prop
  | .start _ => ∀ answer ∈ s.registering, 0 ≤ answer.1.getD 0 ∧ answer.2 = s.changes
  | .reconnect => ∀ answer ∈ s.registering, 0 ≤ answer.1.getD 0 ∧ answer.2 = s.changes ∧
      (answer.1 = none → s.reached.getD 0 = 0)
  | .deliver i => ∀ push ∈ s.pushes[i]?, 0 ≤ push.1 ∧ push.2 = s.changes
  | _ => True

instance (s : LimitSync) : ∀ i, Decidable (s.Timely i)
  | .start _ => inferInstanceAs (Decidable (∀ answer ∈ s.registering, _ ∧ _))
  | .reconnect => inferInstanceAs (Decidable (∀ answer ∈ s.registering, _ ∧ _ ∧ (_ → _)))
  | .deliver i => inferInstanceAs (Decidable (∀ push ∈ s.pushes[i]?, _ ∧ _))
  | .updateNode _ | .register | .disconnect => .isTrue trivial

/-- The cast keeps the values that are not negative. -/
theorem rate_of_nonneg {limit : Int64} (h : 0 ≤ limit) : (rate limit : ℤ) = limit.toInt := by
  have hlow : 0 ≤ limit.toInt := Int64.le_iff_toInt_le.mp h
  have hhigh := limit.toInt_lt
  unfold rate asU64
  omega

/-- A value that no change has overtaken is the limit, and the rate is the value
that has reached the node. -/
structure Tracked (s : LimitSync) : Prop where
  registering : ∀ answer ∈ s.registering,
    answer.2 ≤ s.changes ∧ (answer.2 = s.changes → answer.1 = s.limit)
  pushes : ∀ push ∈ s.pushes, push.2 ≤ s.changes ∧ (push.2 = s.changes → push.1 = s.limit.getD 0)
  reached : ∀ l ∈ s.limiter, l.rate = rate (s.reached.getD 0)

theorem tracked_created (limit : Option Int64) : (created limit).Tracked :=
  ⟨fun _ h ↦ (by cases h), fun _ h ↦ (by cases h), fun _ h ↦ (by cases h)⟩

theorem Tracked.step {s t : LimitSync} {i : Input} (h : s.Tracked) (hstep : s.step i = some t) :
    t.Tracked := by
  cases i with
  | updateNode speedLimit =>
      simp only [LimitSync.step] at hstep
      by_cases hsame : speedLimit.getD s.limit = s.limit
      · rw [if_pos hsame] at hstep
        obtain rfl := Option.some.inj hstep
        exact h
      · -- every value on its way has been overtaken
        rw [if_neg hsame] at hstep
        obtain rfl := Option.some.inj hstep
        have hold {α : Type} {value : α × ℕ} {limit : α} (hle : value.2 ≤ s.changes) :
            value.2 ≤ s.changes + 1 ∧ (value.2 = s.changes + 1 → value.1 = limit) :=
          ⟨hle.trans (Nat.le_succ _), fun heq ↦ by omega⟩
        refine ⟨fun answer hanswer ↦ hold (h.registering answer hanswer).1,
          fun push hpush ↦ ?_, h.reached⟩
        dsimp only at hpush
        split_ifs at hpush
        · rcases List.mem_append.mp hpush with hpush | hpush
          · exact hold (h.pushes push hpush).1
          · obtain rfl := List.mem_singleton.mp hpush
            exact ⟨le_rfl, fun _ ↦ rfl⟩
        · exact hold (h.pushes push hpush).1
  | register =>
      simp only [LimitSync.step] at hstep
      split_ifs at hstep
      obtain rfl := Option.some.inj hstep
      refine ⟨fun answer hanswer ↦ ?_, h.pushes, h.reached⟩
      obtain rfl := Option.some.inj hanswer
      exact ⟨le_rfl, fun _ ↦ rfl⟩
  | start now =>
      obtain ⟨answer, -, rfl⟩ := Option.map_eq_some_iff.mp hstep
      refine ⟨fun _ hanswer ↦ (by cases hanswer), h.pushes, fun l hl ↦ ?_⟩
      obtain rfl := Option.some.inj hl
      rfl
  | reconnect =>
      obtain ⟨answer, -, hmap⟩ := Option.bind_eq_some_iff.mp hstep
      obtain ⟨l, hl, rfl⟩ := Option.map_eq_some_iff.mp hmap
      refine ⟨fun _ hanswer ↦ (by cases hanswer), h.pushes, fun l' hl' ↦ ?_⟩
      obtain rfl := Option.some.inj hl'
      cases hanswer : answer.1 with
      | none => exact h.reached l hl
      | some n => rfl
  | deliver j =>
      simp only [LimitSync.step] at hstep
      split_ifs at hstep
      obtain ⟨push, -, hmap⟩ := Option.bind_eq_some_iff.mp hstep
      obtain ⟨l, -, rfl⟩ := Option.map_eq_some_iff.mp hmap
      refine ⟨h.registering, fun p hp ↦ h.pushes p (List.mem_of_mem_eraseIdx hp), fun l' hl' ↦ ?_⟩
      obtain rfl := Option.some.inj hl'
      rfl
  | disconnect =>
      obtain rfl := Option.some.inj hstep
      exact ⟨fun _ hanswer ↦ (by cases hanswer), fun _ hpush ↦ (by cases hpush), h.reached⟩

/-- A value that arrives in time is the controller's limit. -/
theorem Tracked.converges {s : LimitSync} {i : Input} (h : s.Tracked) (hi : s.Timely i) :
    s.Converges i := by
  intro t hstep hsync
  cases i with
  | updateNode | register | disconnect => cases hsync
  | start now =>
      obtain ⟨answer, hanswer, rfl⟩ := Option.map_eq_some_iff.mp hstep
      obtain ⟨hnonneg, hcurrent⟩ := hi answer hanswer
      have hlimit : answer.1 = s.limit := (h.registering answer hanswer).2 hcurrent
      refine ⟨_, rfl, (rate_of_nonneg hnonneg).trans ?_⟩
      rw [hlimit]
      rfl
  | reconnect =>
      obtain ⟨answer, hanswer, hmap⟩ := Option.bind_eq_some_iff.mp hstep
      obtain ⟨l, hl, rfl⟩ := Option.map_eq_some_iff.mp hmap
      obtain ⟨hnonneg, hcurrent, habsent⟩ := hi answer hanswer
      have hlimit : answer.1 = s.limit := (h.registering answer hanswer).2 hcurrent
      refine ⟨_, rfl, ?_⟩
      unfold bytesPerSecond
      dsimp only
      rw [← hlimit]
      cases hvalue : answer.1 with
      | none =>
          -- the limiter keeps its rate
          change (l.rate : ℤ) = 0
          rw [h.reached l hl, habsent hvalue]
          rfl
      | some n =>
          rw [hvalue] at hnonneg
          exact rate_of_nonneg hnonneg
  | deliver j =>
      simp only [LimitSync.step] at hstep
      split_ifs at hstep
      obtain ⟨push, hpush, hmap⟩ := Option.bind_eq_some_iff.mp hstep
      obtain ⟨l, -, rfl⟩ := Option.map_eq_some_iff.mp hmap
      obtain ⟨hnonneg, hcurrent⟩ := hi push hpush
      have hlimit : push.1 = s.limit.getD 0 :=
        (h.pushes push (List.mem_of_getElem? hpush)).2 hcurrent
      refine ⟨_, rfl, (rate_of_nonneg hnonneg).trans ?_⟩
      rw [hlimit]
      rfl

/-- In every run in which the values arrive in time the limits converge. -/
theorem converges_of_timely {limit : Option Int64} {inputs : List Input}
    (htimely : Within step Timely (created limit) inputs) :
    Within step Converges (created limit) inputs :=
  Within.of_invariant (fun _ _ _ h _ hstep ↦ Tracked.step h hstep) (fun _ _ ↦ Tracked.converges)
    (tracked_created limit) htimely

/-- A limit is set, changed while the node is away and cleared while it is there. -/
theorem converges_of_timely_changed :
    Within step Converges (created none) [.register, .start 0, .updateNode (some (some 1000)),
      .deliver 0, .disconnect, .updateNode (some (some 500)), .register, .reconnect,
      .updateNode (some none), .deliver 0, .disconnect, .register, .reconnect] :=
  converges_of_timely (by decide +kernel)

/-- A request sets the limit to minus one and the node starts: the cast makes
that the largest of all rates. -/
theorem not_converges_negative :
    ¬ Within step Converges (created none) [.updateNode (some (some (-1))), .register, .start 0] ∧
      ((run step (created none) [.updateNode (some (some (-1))), .register, .start 0]).bind
        (·.limiter)).map (·.rate) = some (2 ^ 64 - 1) := by
  refine ⟨fun h ↦ ?_, by decide +kernel⟩
  obtain ⟨l, hl, hrate⟩ := ((h.2 _ rfl).2 _ rfl).1 _ rfl rfl
  obtain rfl := Option.some.inj hl
  revert hrate
  decide +kernel

/-! ## Limits that are never cleared -/

/-- What the JSON body of a request can say: a limit, or nothing. -/
def Input.keepsLimit : Input → Prop
  | .updateNode speedLimit => speedLimit ≠ some none
  | _ => True

/-- Without a limit the node has never been told of one. -/
structure NeverLimited (s : LimitSync) : Prop where
  pushes : s.limit = none → s.pushes = []
  reached : s.limit = none → s.reached = none
  registering : s.limit = none → ∀ answer ∈ s.registering, answer.1 = none

theorem NeverLimited.step {s t : LimitSync} {i : Input} (h : s.NeverLimited) (hi : i.keepsLimit)
    (hstep : s.step i = some t) : t.NeverLimited := by
  cases i with
  | updateNode speedLimit =>
      simp only [LimitSync.step] at hstep
      by_cases hsame : speedLimit.getD s.limit = s.limit
      · rw [if_pos hsame] at hstep
        obtain rfl := Option.some.inj hstep
        exact h
      · rw [if_neg hsame] at hstep
        obtain rfl := Option.some.inj hstep
        have hnone : speedLimit.getD s.limit ≠ none := by
          cases speedLimit with
          | none => exact absurd rfl hsame
          | some limit => exact fun heq ↦ hi (congrArg some heq)
        exact ⟨fun heq ↦ absurd heq hnone, fun heq ↦ absurd heq hnone, fun heq ↦ absurd heq hnone⟩
  | register =>
      simp only [LimitSync.step] at hstep
      split_ifs at hstep
      obtain rfl := Option.some.inj hstep
      refine ⟨h.pushes, h.reached, fun hnone answer hanswer ↦ ?_⟩
      obtain rfl := Option.some.inj hanswer
      exact hnone
  | start now =>
      obtain ⟨answer, hanswer, rfl⟩ := Option.map_eq_some_iff.mp hstep
      exact ⟨h.pushes, fun hnone ↦ h.registering hnone answer hanswer,
        fun _ _ hnext ↦ by cases hnext⟩
  | reconnect =>
      obtain ⟨answer, hanswer, hmap⟩ := Option.bind_eq_some_iff.mp hstep
      obtain ⟨l, -, rfl⟩ := Option.map_eq_some_iff.mp hmap
      refine ⟨h.pushes, fun hnone ↦ ?_, fun _ _ hnext ↦ by cases hnext⟩
      dsimp only
      rw [h.registering hnone answer hanswer, h.reached hnone]
      rfl
  | deliver j =>
      simp only [LimitSync.step] at hstep
      split_ifs at hstep
      obtain ⟨push, hpush, hmap⟩ := Option.bind_eq_some_iff.mp hstep
      obtain ⟨l, -, rfl⟩ := Option.map_eq_some_iff.mp hmap
      have hlimit (hnone : s.limit = none) : False := by
        rw [h.pushes hnone] at hpush
        cases hpush
      exact ⟨fun hnone ↦ (hlimit hnone).elim, fun hnone ↦ (hlimit hnone).elim,
        fun hnone ↦ (hlimit hnone).elim⟩
  | disconnect =>
      obtain rfl := Option.some.inj hstep
      exact ⟨fun _ ↦ rfl, h.reached, fun _ _ hnext ↦ by cases hnext⟩

/-- As long as no request clears the limit, a node that is told of none has not
been told of another. -/
theorem reached_of_keepsLimit {limit : Option Int64} {inputs : List Input} {s : LimitSync}
    (hkeeps : ∀ i ∈ inputs, i.keepsLimit) (hrun : run step (created limit) inputs = some s)
    (habsent : s.limit = none) : s.reached = none := by
  have hcreated : (created limit).NeverLimited :=
    ⟨fun _ ↦ rfl, fun _ ↦ rfl, fun _ _ hanswer ↦ by cases hanswer⟩
  have hstep : ∀ s i t, NeverLimited s → i.keepsLimit → step s i = some t → NeverLimited t :=
    fun _ _ _ h hi ↦ h.step hi
  exact (run_invariant hstep hcreated (within_of_forall fun i hi _ ↦ hkeeps i hi) hrun).reached
    habsent

end LimitSync

end Oxiproxy.Controller
