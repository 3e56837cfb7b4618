import Oxiproxy.Foundation.Runs

/-!
# Checks and acts that are apart

Tasks share a store.  A task checks that a count of the store is below a limit, and
raises the count in a later step.  Tasks that have passed the check and have not
acted yet can take the count beyond the limit, but not by more than there are tasks
at a time, less one.
-/

namespace CheckThenAct

open Transition

variable {δ α ε : Type*}

structure Shared (δ α : Type*) where
  store : δ
  tasks : List α

inductive Input (δ α ε : Type*)
  | spawn (task : α)
  | next (task : ℕ) (env : ε)
  /-- Anything else that happens to the store. -/
  | other (store : δ)

def step (next : δ → α → ε → Option (δ × α)) (s : Shared δ α) :
    Input δ α ε → Option (Shared δ α)
  | .spawn a => some { s with tasks := s.tasks ++ [a] }
  | .next k env => s.tasks[k]?.bind fun a ↦
      (next s.store a env).map fun (store, a') ↦ ⟨store, s.tasks.set k a'⟩
  | .other store => some { s with store }

/-- What is looked at: the count, the tasks that count, and those that have passed
the check and have not acted. -/
structure Gauge (δ α : Type*) where
  count : δ → ℕ
  live : α → Bool
  passed : α → Bool
  live_of_passed : ∀ a, passed a = true → live a = true

namespace Gauge

variable (g : Gauge δ α)

def pending (s : Shared δ α) : ℕ := s.tasks.countP g.passed

def inFlight (s : Shared δ α) : ℕ := s.tasks.countP g.live

/-- A step of a task keeps what holds of the task, does not bring it to life, and
acts only after a check that was passed with the count below the limit. -/
structure Guarded (next : δ → α → ε → Option (δ × α)) (fine : α → Prop)
    (good : δ → α → ε → Prop) (limit : ℕ) : Prop where
  stays : ∀ store a env store' a', fine a → good store a env →
    next store a env = some (store', a') → fine a'
  live : ∀ store a env store' a', next store a env = some (store', a') → g.live a' = true →
    g.live a = true
  count : ∀ store a env store' a', fine a → good store a env →
    next store a env = some (store', a') →
    g.count store' + (g.passed a').toNat ≤ g.count store + (g.passed a).toNat ∨
      g.count store' < limit

/-- At most so many live tasks at a time, and nothing else raises the count. -/
def Bounded (fine : α → Prop) (good : δ → α → ε → Prop) (tasks : ℕ) (s : Shared δ α) :
    Input δ α ε → Prop
  | .spawn a => fine a ∧ g.passed a = false ∧ (g.live a = true → g.inFlight s < tasks)
  | .next k env => ∀ a, s.tasks[k]? = some a → good s.store a env
  | .other store => g.count store ≤ g.count s.store

variable {g} {next : δ → α → ε → Option (δ × α)} {fine : α → Prop} {good : δ → α → ε → Prop}
  {limit tasks bound : ℕ} {s t : Shared δ α}

/-- Replacing an element changes how many satisfy a predicate by these two alone. -/
theorem countP_set_add {p : α → Bool} {l : List α} {k : ℕ} {a : α} (b : α) (h : l[k]? = some a) :
    (l.set k b).countP p + (p a).toNat = l.countP p + (p b).toNat := by
  induction l generalizing k with
  | nil => cases h
  | cons x l ih =>
      cases k with
      | zero =>
          obtain rfl := Option.some.inj h
          simp only [List.set_cons_zero, List.countP_cons, Bool.toNat, cond_eq_ite]
          omega
      | succ k =>
          have hrest := ih (k := k) h
          simp only [List.set_cons_succ, List.countP_cons]
          omega

/-- The invariant: the tasks are in order, and the checks that were passed are
accounted for. -/
structure Kept (g : Gauge δ α) (fine : α → Prop) (tasks bound : ℕ) (s : Shared δ α) : Prop where
  fine : ∀ a ∈ s.tasks, fine a
  inFlight : g.inFlight s ≤ tasks
  count : g.count s.store + g.pending s ≤ bound

theorem pending_le_inFlight (s : Shared δ α) : g.pending s ≤ g.inFlight s :=
  List.countP_mono_left fun a _ ↦ g.live_of_passed a

theorem Kept.step (hg : g.Guarded next fine good limit) (hbound : limit + tasks - 1 ≤ bound)
    (hs : Kept g fine tasks bound s) {i : Input δ α ε} (hi : g.Bounded fine good tasks s i)
    (hstep : CheckThenAct.step next s i = some t) : Kept g fine tasks bound t := by
  cases i with
  | spawn a =>
      obtain rfl := Option.some.inj hstep
      obtain ⟨hfine, hpassed, hlive⟩ := hi
      refine ⟨fun b hb ↦ ?_, ?_, ?_⟩
      · rcases List.mem_append.mp hb with hold | hnew
        · exact hs.fine b hold
        · rw [List.mem_singleton.mp hnew]
          exact hfine
      · have hold := hs.inFlight
        simp only [Gauge.inFlight, List.countP_append, List.countP_singleton] at hold hlive ⊢
        split_ifs with h
        · exact hlive h
        · exact hold
      · have hcount := hs.count
        simp only [Gauge.pending, List.countP_append, List.countP_singleton, hpassed] at hcount ⊢
        simpa using hcount
  | next k env =>
      simp only [CheckThenAct.step, Option.bind_eq_some_iff, Option.map_eq_some_iff] at hstep
      obtain ⟨a, ha, ⟨store, a'⟩, hnext, rfl⟩ := hstep
      have hgood := hi a ha
      have hfine := hs.fine a (List.mem_of_getElem? ha)
      have hlive : g.inFlight ⟨store, s.tasks.set k a'⟩ ≤ tasks := by
        have hset := countP_set_add (p := g.live) a' ha
        have hold := hs.inFlight
        have hmono := hg.live s.store a env store a' hnext
        simp only [Gauge.inFlight] at hold ⊢
        cases hlive' : g.live a' with
        | false => simp only [hlive', Bool.toNat_false] at hset; omega
        | true => simp only [hlive', hmono hlive', Bool.toNat_true] at hset; omega
      refine ⟨fun b hb ↦ ?_, hlive, ?_⟩
      · rcases List.mem_or_eq_of_mem_set hb with hold | rfl
        · exact hs.fine b hold
        · exact hg.stays s.store a env store b hfine hgood hnext
      · rcases hg.count s.store a env store a' hfine hgood hnext with hle | hlt
        · have hset := countP_set_add (p := g.passed) a' ha
          have hcount := hs.count
          simp only [Gauge.pending] at hcount ⊢
          omega
        · have hpending := (pending_le_inFlight (g := g) _).trans hlive
          simp only at hlt ⊢
          omega
  | other store =>
      obtain rfl := Option.some.inj hstep
      exact ⟨hs.fine, hs.inFlight, (Nat.add_le_add_right hi _).trans hs.count⟩

/-- With at most so many tasks at a time, the count stays within the limit and the
other tasks, or where it was. -/
theorem count_le (hg : g.Guarded next fine good limit) {store : δ} {inputs : List (Input δ α ε)}
    (hok : Within (CheckThenAct.step next) (g.Bounded fine good tasks) ⟨store, []⟩ inputs)
    (hrun : run (CheckThenAct.step next) ⟨store, []⟩ inputs = some t) :
    g.count t.store ≤ max (g.count store) (limit + tasks - 1) := by
  have hstart : Kept g fine tasks (max (g.count store) (limit + tasks - 1)) ⟨store, []⟩ :=
    ⟨by simp, by simp [Gauge.inFlight], by simp [Gauge.pending]⟩
  have hkept := run_invariant
    (fun _ _ _ hs hi hstep ↦ hs.step hg (le_max_right _ _) hi hstep) hstart hok hrun
  exact (Nat.le_add_right _ _).trans hkept.count

end Gauge

end CheckThenAct
