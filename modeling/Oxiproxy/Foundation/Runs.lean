import Mathlib

/-!
# Runs of a labelled machine

A machine is a partial step function on states, labelled by inputs.  A run
executes a finite list of inputs; it is within a condition when every step
satisfies it at the state in which it is taken.  Invariants of single steps
become invariants of runs by one induction, done here.
-/

namespace Transition

variable {σ ι : Type*}

/-- Execute the inputs from left to right. -/
def run (step : σ → ι → Option σ) : σ → List ι → Option σ
  | s, [] => some s
  | s, i :: is => (step s i).bind fun t ↦ run step t is

/-- Every step of the run satisfies `ok` at the state in which it is taken. -/
def Within (step : σ → ι → Option σ) (ok : σ → ι → Prop) : σ → List ι → Prop
  | _, [] => True
  | s, i :: is => ok s i ∧ ∀ t ∈ step s i, Within step ok t is

instance Within.decidable (step : σ → ι → Option σ) (ok : σ → ι → Prop)
    [∀ s i, Decidable (ok s i)] (s : σ) (is : List ι) : Decidable (Within step ok s is) :=
  match is with
  | [] => .isTrue trivial
  | i :: is =>
      have : ∀ t, Decidable (Within step ok t is) := fun t ↦ Within.decidable step ok t is
      inferInstanceAs (Decidable (ok s i ∧ ∀ t ∈ step s i, Within step ok t is))

variable {step : σ → ι → Option σ} {ok : σ → ι → Prop}

@[simp] theorem run_nil (s : σ) : run step s [] = some s := rfl

@[simp] theorem run_cons (s : σ) (i : ι) (is : List ι) :
    run step s (i :: is) = (step s i).bind fun t ↦ run step t is := rfl

theorem run_cons_eq_some {s u : σ} {i : ι} {is : List ι} :
    run step s (i :: is) = some u ↔ ∃ t, step s i = some t ∧ run step t is = some u := by
  simp [Option.bind_eq_some_iff]

@[simp] theorem within_nil (s : σ) : Within step ok s [] := trivial

theorem Within.cons {s t : σ} {i : ι} {is : List ι} (hok : ok s i) (hstep : step s i = some t)
    (hrest : Within step ok t is) : Within step ok s (i :: is) := by
  refine ⟨hok, fun u hu ↦ ?_⟩
  obtain rfl := Option.some.inj (hstep.symm.trans hu)
  exact hrest

theorem within_cons_iff {s t : σ} {i : ι} {is : List ι} (hstep : step s i = some t) :
    Within step ok s (i :: is) ↔ ok s i ∧ Within step ok t is := by
  refine ⟨fun h ↦ ⟨h.1, h.2 t hstep⟩, fun h ↦ Within.cons h.1 hstep h.2⟩

/-- A property preserved by every step taken within the condition holds at
the end of every run within the condition. -/
theorem run_invariant {Inv : σ → Prop}
    (hstep : ∀ s i t, Inv s → ok s i → step s i = some t → Inv t)
    {s u : σ} {is : List ι} (hs : Inv s) (hok : Within step ok s is)
    (hrun : run step s is = some u) : Inv u := by
  induction is generalizing s with
  | nil =>
      cases hrun
      exact hs
  | cons i is ih =>
      obtain ⟨t, ht, hrest⟩ := run_cons_eq_some.mp hrun
      exact ih (hstep s i t hs hok.1 ht) (hok.2 t ht) hrest

/-- A property preserved by every step holds at the end of every run. -/
theorem run_invariant_of_step {Inv : σ → Prop}
    (hstep : ∀ s i t, Inv s → step s i = some t → Inv t)
    {s u : σ} {is : List ι} (hs : Inv s) (hrun : run step s is = some u) : Inv u := by
  induction is generalizing s with
  | nil =>
      cases hrun
      exact hs
  | cons i is ih =>
      obtain ⟨t, ht, hrest⟩ := run_cons_eq_some.mp hrun
      exact ih (hstep s i t hs ht) hrest

/-- What follows at a single step from an invariant and the condition holds at
every step of a run within the condition. -/
theorem Within.of_invariant {Inv : σ → Prop} {P : σ → ι → Prop}
    (hstep : ∀ s i t, Inv s → ok s i → step s i = some t → Inv t)
    (hP : ∀ s i, Inv s → ok s i → P s i) {s : σ} {is : List ι} (hs : Inv s)
    (hok : Within step ok s is) : Within step P s is := by
  induction is generalizing s with
  | nil => trivial
  | cons i is ih =>
      exact ⟨hP s i hs hok.1, fun t ht ↦ ih (hstep s i t hs hok.1 ht) (hok.2 t ht)⟩

/-- The property holds in every state that a run passes through. -/
def Throughout (step : σ → ι → Option σ) (P : σ → Prop) (s : σ) (is : List ι) : Prop :=
  ∀ pre, pre <+: is → ∀ t ∈ run step s pre, P t

theorem throughout_cons_iff {P : σ → Prop} {s : σ} {i : ι} {is : List ι} :
    Throughout step P s (i :: is) ↔ P s ∧ ∀ t ∈ step s i, Throughout step P t is := by
  constructor
  · refine fun h ↦ ⟨h [] (List.nil_prefix) s rfl, fun t ht pre hpre u hu ↦ ?_⟩
    exact h (i :: pre) (List.cons_prefix_cons.mpr ⟨rfl, hpre⟩) u (run_cons_eq_some.mpr ⟨t, ht, hu⟩)
  · rintro ⟨hs, hrest⟩ pre hpre u hu
    cases pre with
    | nil =>
        obtain rfl := Option.some.inj hu
        exact hs
    | cons j pre =>
        obtain ⟨rfl, hshort⟩ := List.cons_prefix_cons.mp hpre
        obtain ⟨t, ht, hu⟩ := run_cons_eq_some.mp hu
        exact hrest t ht pre hshort u hu

/-- If a step keeps a property exactly when it meets a condition, the property
holds throughout a run exactly when it does at first and every step meets the
condition. -/
theorem throughout_iff_within {P : σ → Prop}
    (hstep : ∀ s i t, P s → step s i = some t → (P t ↔ ok s i)) {s : σ} {is : List ι} :
    Throughout step P s is ↔ P s ∧ Within step (fun s i ↦ (step s i).isSome → ok s i) s is := by
  induction is generalizing s with
  | nil =>
      refine ⟨fun h ↦ ⟨h [] (List.prefix_refl _) s rfl, trivial⟩, fun ⟨hs, _⟩ pre hpre t ht ↦ ?_⟩
      obtain rfl := List.prefix_nil.mp hpre
      obtain rfl := Option.some.inj ht
      exact hs
  | cons i is ih =>
      rw [throughout_cons_iff]
      refine and_congr_right fun hs ↦ ?_
      constructor
      · refine fun h ↦ ⟨fun hsome ↦ ?_, fun t ht ↦ (ih.mp (h t ht)).2⟩
        obtain ⟨t, ht⟩ := Option.isSome_iff_exists.mp hsome
        exact (hstep s i t hs ht).mp (ih.mp (h t ht)).1
      · rintro ⟨hok, hrest⟩ t ht
        have hsome : (step s i).isSome := Option.isSome_iff_exists.mpr ⟨t, ht⟩
        exact ih.mpr ⟨(hstep s i t hs ht).mpr (hok hsome), hrest t ht⟩

/-- Two conditions on steps that agree in the states of a run hold of the same runs. -/
theorem within_congr {P : σ → Prop} {ok' : σ → ι → Prop}
    (hok : ∀ s i, P s → (ok s i ↔ ok' s i))
    (hnext : ∀ s i t, P s → ok s i → step s i = some t → P t) {s : σ} {is : List ι} (hs : P s) :
    Within step ok s is ↔ Within step ok' s is := by
  induction is generalizing s with
  | nil => exact Iff.rfl
  | cons i is ih =>
      constructor
      · rintro ⟨hi, hrest⟩
        exact ⟨(hok s i hs).mp hi, fun t ht ↦ (ih (hnext s i t hs hi ht)).mp (hrest t ht)⟩
      · rintro ⟨hi, hrest⟩
        have hi' := (hok s i hs).mpr hi
        exact ⟨hi', fun t ht ↦ (ih (hnext s i t hs hi' ht)).mpr (hrest t ht)⟩

/-- A machine whose steps from embedded states are steps of another machine
runs like that machine. -/
theorem run_of_embedding {τ κ : Type*} {step' : τ → κ → Option τ} {e : σ → τ} {j : ι → κ}
    (hstep : ∀ s k t, step' (e s) k = some t → ∃ i u, k = j i ∧ t = e u ∧ step s i = some u)
    {s : σ} {ks : List κ} {t : τ} (hrun : run step' (e s) ks = some t) :
    ∃ is u, ks = is.map j ∧ t = e u ∧ run step s is = some u := by
  induction ks generalizing s with
  | nil =>
      cases hrun
      exact ⟨[], s, rfl, rfl, rfl⟩
  | cons k ks ih =>
      obtain ⟨v, hv, hrest⟩ := run_cons_eq_some.mp hrun
      obtain ⟨i, u, rfl, rfl, hu⟩ := hstep s k v hv
      obtain ⟨is, w, rfl, rfl, hw⟩ := ih hrest
      exact ⟨i :: is, w, rfl, rfl, run_cons_eq_some.mpr ⟨u, hu, hw⟩⟩

theorem within_of_forall {s : σ} {is : List ι} (h : ∀ i ∈ is, ∀ s, ok s i) :
    Within step ok s is := by
  induction is generalizing s with
  | nil => trivial
  | cons i is ih =>
      have hrest : ∀ j ∈ is, ∀ s, ok s j := fun j hj ↦ h j (List.mem_cons_of_mem i hj)
      exact ⟨h i List.mem_cons_self s, fun t _ ↦ ih hrest⟩

/-- A condition on a step that may depend on the part of the run before it. -/
theorem within_of_split {s : σ} {is : List ι}
    (h : ∀ before i after t, is = before ++ i :: after → run step s before = some t → ok t i) :
    Within step ok s is := by
  induction is generalizing s with
  | nil => trivial
  | cons i is ih =>
      refine ⟨h [] i is s rfl rfl, fun t ht ↦ ih fun before j after u hsplit hrun ↦ ?_⟩
      exact h (i :: before) j after u (congrArg (i :: ·) hsplit)
        (run_cons_eq_some.mpr ⟨t, ht, hrun⟩)

/-- A machine that can always go on until it is final, and gets smaller with
every step, reaches a final state whatever its inputs are. -/
theorem exists_run_final {Final : σ → Prop} (μ : σ → ℕ)
    (hstep : ∀ s i, ¬ Final s → ∃ t, step s i = some t ∧ μ t < μ s) (s : σ) (inputs : ℕ → ι) :
    ∃ n u, run step s ((List.range n).map inputs) = some u ∧ Final u := by
  induction hn : μ s using Nat.strong_induction_on generalizing s inputs with
  | h m ih =>
      subst hn
      by_cases hfinal : Final s
      · exact ⟨0, s, rfl, hfinal⟩
      · obtain ⟨t, ht, hlt⟩ := hstep s (inputs 0) hfinal
        obtain ⟨n, u, hrun, hu⟩ := ih (μ t) hlt t (fun i ↦ inputs (i + 1)) rfl
        refine ⟨n + 1, u, ?_, hu⟩
        rw [List.range_succ_eq_map, List.map_cons, List.map_map]
        exact run_cons_eq_some.mpr ⟨t, ht, hrun⟩

/-- If the inputs of a kind make a state smaller, some of them lead to a state
that none of them leaves. -/
theorem exists_run_stuck {kind : ι → Prop} (μ : σ → ℕ)
    (hstep : ∀ s i t, kind i → step s i = some t → μ t < μ s) (s : σ) :
    ∃ is t, (∀ i ∈ is, kind i) ∧ run step s is = some t ∧ ∀ i u, kind i → step t i ≠ some u := by
  induction hn : μ s using Nat.strong_induction_on generalizing s with
  | h m ih =>
      subst hn
      by_cases hstuck : ∃ i t, kind i ∧ step s i = some t
      · obtain ⟨i, t, hi, ht⟩ := hstuck
        obtain ⟨is, u, his, hrun, hu⟩ := ih (μ t) (hstep s i t hi ht) t rfl
        refine ⟨i :: is, u, fun j hj ↦ ?_, run_cons_eq_some.mpr ⟨t, ht, hrun⟩, hu⟩
        rcases List.mem_cons.mp hj with rfl | hj
        · exact hi
        · exact his j hj
      · exact ⟨[], s, fun i hi ↦ (by cases hi), rfl, fun i t hi ht ↦ hstuck ⟨i, t, hi, ht⟩⟩

/-- Some finite part of a schedule leads to a final state. -/
def Reaches (step : σ → ι → Option σ) (Final : σ → Prop) (s : σ) (schedule : ℕ → ι) : Prop :=
  ∃ n u, run step s ((List.range n).map schedule) = some u ∧ Final u

theorem not_reaches {Inv Final : σ → Prop}
    (hstep : ∀ s i t, Inv s → step s i = some t → Inv t) (hfinal : ∀ s, Inv s → ¬ Final s)
    {s : σ} (hs : Inv s) (schedule : ℕ → ι) : ¬ Reaches step Final s schedule := by
  rintro ⟨n, u, hrun, hu⟩
  exact hfinal u (run_invariant_of_step hstep hs hrun) hu

end Transition
