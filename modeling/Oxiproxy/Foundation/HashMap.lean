import Mathlib

/-!
# Finite maps

Association lists with distinct keys stand for hash maps.  The lemmas state
insertion, erasure and filtering as updates of the lookup function, so that
later proofs never look at the underlying list.
-/

namespace AList

variable {α : Type*} [DecidableEq α] {β : Type*}

theorem lookup_insert_eq_ite (a k : α) (v : β) (m : AList fun _ : α ↦ β) :
    lookup a (insert k v m) = if a = k then some v else lookup a m := by
  by_cases h : a = k
  · subst h
    simp
  · rw [lookup_insert_ne h, if_neg h]

theorem lookup_erase_eq_ite (a k : α) (m : AList fun _ : α ↦ β) :
    lookup a (erase k m) = if a = k then none else lookup a m := by
  by_cases h : a = k
  · subst h
    simp
  · rw [lookup_erase_ne h, if_neg h]

/-- A loop that inserts one entry for each element of a list leaves other keys alone. -/
theorem lookup_foldl_insert_of_not {γ : Type*} (key : γ → α) (value : γ → β) {l : List γ} {a : α}
    (ha : a ∉ l.map key) (m : AList fun _ : α ↦ β) :
    lookup a (l.foldl (fun m x ↦ insert (key x) (value x) m) m) = lookup a m := by
  induction l generalizing m with
  | nil => rfl
  | cons x l ih =>
      rw [List.map_cons, List.mem_cons, not_or] at ha
      rw [List.foldl_cons, ih ha.2, lookup_insert_ne ha.1]

theorem lookup_foldl_insert {γ : Type*} (key : γ → α) (value : γ → β) {l : List γ}
    (hnodup : (l.map key).Nodup) {x : γ} (hx : x ∈ l) (m : AList fun _ : α ↦ β) :
    lookup (key x) (l.foldl (fun m x ↦ insert (key x) (value x) m) m) = some (value x) := by
  induction l generalizing m with
  | nil => cases hx
  | cons y l ih =>
      rw [List.map_cons, List.nodup_cons] at hnodup
      rw [List.foldl_cons]
      rcases List.mem_cons.mp hx with rfl | hx
      · rw [lookup_foldl_insert_of_not key value hnodup.1, lookup_insert]
      · exact ih hnodup.2 hx _

/-- Rebuild the value of one entry, or drop the entry. -/
def filterMapEntry {γ : Type*} (f : α → β → Option γ) (e : Sigma fun _ : α ↦ β) :
    Option (Sigma fun _ : α ↦ γ) :=
  (f e.1 e.2).map fun v ↦ ⟨e.1, v⟩

omit [DecidableEq α] in
theorem keys_filterMap_sublist {γ : Type*} (f : α → β → Option γ)
    (es : List (Sigma fun _ : α ↦ β)) :
    (es.filterMap (filterMapEntry f)).keys.Sublist es.keys := by
  induction es with
  | nil => exact List.Sublist.slnil
  | cons e es ih =>
      cases hf : f e.1 e.2 with
      | none =>
          rw [List.filterMap_cons_none (by simp [filterMapEntry, hf])]
          exact ih.cons e.1
      | some v =>
          rw [List.filterMap_cons_some (by simp only [filterMapEntry, hf, Option.map_some]; rfl)]
          exact ih.cons_cons e.1

/-- Rebuild every value, dropping the entries for which `f` gives nothing. -/
def filterMapVal {γ : Type*} (f : α → β → Option γ) (m : AList fun _ : α ↦ β) :
    AList fun _ : α ↦ γ where
  entries := m.entries.filterMap (filterMapEntry f)
  nodupKeys := (keys_filterMap_sublist f m.entries).nodup m.nodupKeys

theorem lookup_filterMapVal {γ : Type*} (f : α → β → Option γ) (m : AList fun _ : α ↦ β) (a : α) :
    lookup a (m.filterMapVal f) = (lookup a m).bind (f a) := by
  obtain ⟨es, hes⟩ := m
  simp only [lookup, filterMapVal]
  induction es with
  | nil => rfl
  | cons e es ih =>
      obtain ⟨k, v⟩ := e
      have ih := ih (List.nodupKeys_cons.mp hes).2
      have hfresh : k ∉ es.keys := (List.nodupKeys_cons.mp hes).1
      by_cases hk : a = k
      · subst hk
        have hnone : es.dlookup a = none := List.dlookup_eq_none.mpr hfresh
        rw [List.dlookup_cons_eq es a v]
        cases hf : f a v with
        | none =>
            rw [List.filterMap_cons_none (by simp [filterMapEntry, hf]), ih, hnone]
            simp [hf]
        | some w =>
            have hstep : filterMapEntry f ⟨a, v⟩ = some ⟨a, w⟩ := by simp [filterMapEntry, hf]
            rw [List.filterMap_cons_some hstep, Option.bind_some, hf]
            exact List.dlookup_cons_eq (List.filterMap (filterMapEntry f) es) a w
      · rw [List.dlookup_cons_ne es ⟨k, v⟩ hk, ← ih]
        cases hf : f k v with
        | none => rw [List.filterMap_cons_none (by simp [filterMapEntry, hf])]
        | some w =>
            have hstep : filterMapEntry f ⟨k, v⟩ = some ⟨k, w⟩ := by simp [filterMapEntry, hf]
            rw [List.filterMap_cons_some hstep]
            exact List.dlookup_cons_ne _ _ hk

/-- `HashMap::retain`. -/
def retain (p : α → β → Bool) (m : AList fun _ : α ↦ β) : AList fun _ : α ↦ β :=
  m.filterMapVal fun a v ↦ if p a v then some v else none

theorem lookup_retain_eq_some {p : α → β → Bool} {m : AList fun _ : α ↦ β} {a : α} {v : β} :
    lookup a (m.retain p) = some v ↔ lookup a m = some v ∧ p a v = true := by
  rw [retain, lookup_filterMapVal, Option.bind_eq_some_iff]
  constructor
  · rintro ⟨w, hw, hp⟩
    split_ifs at hp with h
    obtain rfl := Option.some.inj hp
    exact ⟨hw, h⟩
  · rintro ⟨hv, hp⟩
    exact ⟨v, hv, if_pos hp⟩

/-! ## Sums over the entries -/

section Sum

variable {M : Type*} [AddCommMonoid M] (g : α → β → M) {k : α} {v : β}
  {m : AList fun _ : α ↦ β}

/-- The sum of a quantity over all entries. -/
def sumOver (m : AList fun _ : α ↦ β) : M := (m.entries.map fun e ↦ g e.1 e.2).sum

omit [DecidableEq α] in
@[simp] theorem sumOver_empty : sumOver g (∅ : AList fun _ : α ↦ β) = 0 := rfl

theorem sumOver_erase_of_lookup (h : lookup k m = some v) :
    g k v + sumOver g (erase k m) = sumOver g m := by
  obtain ⟨es, hes⟩ := m
  simp only [lookup] at h
  simp only [sumOver, erase]
  induction es with
  | nil => cases h
  | cons e es ih =>
      by_cases hk : k = e.1
      · obtain ⟨a, b⟩ := e
        subst hk
        have hv : b = v := Option.some.inj ((List.dlookup_cons_eq es k b).symm.trans h)
        have hes' : List.kerase k (⟨k, b⟩ :: es) = es := List.kerase_cons_eq rfl
        rw [hes', List.map_cons, List.sum_cons, hv]
      · rw [List.dlookup_cons_ne es e hk] at h
        have ih := ih (List.nodupKeys_cons.mp hes).2 h
        rw [List.kerase_cons_ne hk, List.map_cons, List.map_cons, List.sum_cons, List.sum_cons,
          ← ih, add_left_comm]

theorem sumOver_erase_of_lookup_none (h : lookup k m = none) :
    sumOver g (erase k m) = sumOver g m := by
  have hnot : k ∉ m.entries.keys := lookup_eq_none.mp h
  simp only [sumOver, erase, List.kerase_of_notMem_keys hnot]

theorem sumOver_insert (k : α) (v : β) (m : AList fun _ : α ↦ β) :
    sumOver g (insert k v m) = g k v + sumOver g (erase k m) := by
  simp only [sumOver, entries_insert, List.map_cons, List.sum_cons]
  rfl

/-- Adding to the value of a key adds to a sum that is additive in the values. -/
theorem sumOver_insert_add [Zero β] [Add β] (hzero : ∀ b : β, 0 + b = b)
    (hg : ∀ k a b, g k (a + b) = g k a + g k b) (k : α) (v : β) (m : AList fun _ : α ↦ β) :
    sumOver g (insert k ((lookup k m).getD 0 + v) m) = g k v + sumOver g m := by
  rw [sumOver_insert]
  cases hold : lookup k m with
  | none => rw [sumOver_erase_of_lookup_none g hold, Option.getD_none, hzero]
  | some old =>
      rw [Option.getD_some, hg, ← sumOver_erase_of_lookup g hold, add_comm (g k old), add_assoc]

/-- The sum of the value of one key. -/
theorem sumOver_single [AddCommMonoid β] (k : α) (m : AList fun _ : α ↦ β) :
    sumOver (fun k' v ↦ if k' = k then v else 0) m = (lookup k m).getD 0 := by
  have hrest : sumOver (fun k' v ↦ if k' = k then v else 0) (erase k m) = 0 := by
    refine List.sum_eq_zero fun b hb ↦ ?_
    obtain ⟨e, he, rfl⟩ := List.mem_map.mp hb
    have hmem : e.1 ∈ erase k m := List.mem_map_of_mem he
    exact if_neg (mem_erase.mp hmem).1
  cases h : lookup k m with
  | none => rw [← sumOver_erase_of_lookup_none _ h, hrest, Option.getD_none]
  | some v => rw [← sumOver_erase_of_lookup _ h, hrest, if_pos rfl, add_zero, Option.getD_some]

end Sum

end AList

namespace List

theorem sum_map_filter {α M : Type*} [AddCommMonoid M] (p : α → Prop) [DecidablePred p] (f : α → M)
    (l : List α) : ((l.filter p).map f).sum = (l.map fun a ↦ if p a then f a else 0).sum := by
  rw [sum_map_ite]
  simp

/-- Replacing one summand. -/
theorem sum_map_set {α M : Type*} [AddCommMonoid M] (g : α → M) {l : List α} {i : ℕ} {a : α}
    (b : α) (h : l[i]? = some a) :
    ((l.set i b).map g).sum + g a = (l.map g).sum + g b := by
  induction l generalizing i with
  | nil => cases h
  | cons c l ih =>
      cases i with
      | zero =>
          obtain rfl := Option.some.inj h
          simp only [set_cons_zero, map_cons, sum_cons]
          rw [add_comm (g b), add_assoc, add_comm (g b), add_comm, add_right_comm]
      | succ i =>
          have hrest := ih (i := i) h
          simp only [set_cons_succ, map_cons, sum_cons, add_assoc, hrest]

end List
