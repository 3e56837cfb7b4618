import Mathlib

/-!
# Keyed tables

A database table with a primary key: its rows have distinct keys by
construction.  Every write is described by what it does to the result of
finding a row by its key.
-/

/-- Rows with a primary key. -/
class Keyed (κ : outParam (Type*)) (ρ : Type*) where
  key : ρ → κ

export Keyed (key)

structure Table (ρ : Type*) {κ : Type*} [Keyed κ ρ] where
  rows : List ρ
  nodup : (rows.map key).Nodup

namespace Table

variable {κ ρ : Type*} [DecidableEq κ] [Keyed κ ρ]

def empty : Table ρ := ⟨[], List.nodup_nil⟩

def find (t : Table ρ) (k : κ) : Option ρ := t.rows.find? fun r ↦ key r = k

theorem map_key_ite (l : List ρ) (k : κ) (f : ρ → ρ) (hf : ∀ r, key (f r) = key r) :
    (l.map fun r ↦ if key r = k then f r else r).map key = l.map key := by
  rw [List.map_map]
  refine List.map_congr_left fun r _ ↦ ?_
  by_cases hr : key r = k <;> simp [hr, hf]

/-- Change the row with key `k`, if there is one, by a function that keeps keys. -/
def modify (t : Table ρ) (k : κ) (f : ρ → ρ) (hf : ∀ r, key (f r) = key r) : Table ρ where
  rows := t.rows.map fun r ↦ if key r = k then f r else r
  nodup := by
    rw [map_key_ite t.rows k f hf]
    exact t.nodup

theorem keys_modify (t : Table ρ) (k : κ) (f : ρ → ρ) (hf : ∀ r, key (f r) = key r) :
    (t.modify k f hf).rows.map key = t.rows.map key := map_key_ite t.rows k f hf

/-- Put a row in the place of the one with key `k`, under this key or a free one. -/
def replace (t : Table ρ) (k : κ) (new : ρ) (hnew : key new = k ∨ key new ∉ t.rows.map key) :
    Table ρ where
  rows := t.rows.map fun r ↦ if key r = k then new else r
  nodup := by
    have hother : ∀ r ∈ t.rows, key r ≠ k → key new ≠ key r := by
      rintro r hr hne heq
      rcases hnew with hnew | hnew
      · exact hne (heq.symm.trans hnew)
      · exact hnew (heq ▸ List.mem_map_of_mem hr)
    rw [List.map_map]
    refine List.Nodup.map_on (fun x hx y hy heq ↦ ?_) (List.Nodup.of_map _ t.nodup)
    simp only [Function.comp_apply] at heq
    by_cases hxk : key x = k <;> by_cases hyk : key y = k
    · exact List.inj_on_of_nodup_map t.nodup hx hy (hxk.trans hyk.symm)
    · rw [if_pos hxk, if_neg hyk] at heq
      exact (hother y hy hyk heq).elim
    · rw [if_neg hxk, if_pos hyk] at heq
      exact (hother x hx hxk heq.symm).elim
    · rw [if_neg hxk, if_neg hyk] at heq
      exact List.inj_on_of_nodup_map t.nodup hx hy heq

theorem mem_replace {t : Table ρ} {k : κ} {new : ρ}
    {hnew : key new = k ∨ key new ∉ t.rows.map key} {r : ρ} (h : r ∈ (t.replace k new hnew).rows) :
    r = new ∨ r ∈ t.rows ∧ key r ≠ k := by
  obtain ⟨a, ha, rfl⟩ := List.mem_map.mp h
  by_cases hk : key a = k
  · exact .inl (if_pos hk)
  · rw [if_neg hk]
    exact .inr ⟨ha, hk⟩

/-- Add a row under a key that is not in use. -/
def insert (t : Table ρ) (r : ρ) (hfresh : key r ∉ t.rows.map key) : Table ρ where
  rows := t.rows ++ [r]
  nodup := by
    rw [List.map_append, List.map_singleton, List.nodup_append_comm]
    exact List.nodup_cons.mpr ⟨hfresh, t.nodup⟩

def erase (t : Table ρ) (k : κ) : Table ρ where
  rows := t.rows.filter fun r ↦ key r ≠ k
  nodup := t.nodup.sublist (List.filter_sublist.map key)

omit [DecidableEq κ] in
def filter (t : Table ρ) (q : ρ → Bool) : Table ρ where
  rows := t.rows.filter q
  nodup := t.nodup.sublist (List.filter_sublist.map key)

theorem find_eq_some {t : Table ρ} {k : κ} {r : ρ} :
    t.find k = some r ↔ r ∈ t.rows ∧ key r = k := by
  constructor
  · intro h
    have hmem := List.mem_of_find?_eq_some h
    have hkey := List.find?_some h
    exact ⟨hmem, by simpa using hkey⟩
  · rintro ⟨hmem, rfl⟩
    unfold find
    obtain ⟨rows, hnodup⟩ := t
    induction rows with
    | nil => cases hmem
    | cons a rows ih =>
        simp only [List.map_cons, List.nodup_cons] at hnodup
        rcases List.mem_cons.mp hmem with rfl | hmem
        · simp
        · have hne : key a ≠ key r := by
            intro heq
            exact hnodup.1 (heq ▸ List.mem_map_of_mem hmem)
          rw [List.find?_cons_of_neg (by simpa using hne)]
          exact ih hnodup.2 hmem

/-- A row in place of the one it was made from. -/
theorem replace_eq_modify {t : Table ρ} {k : κ} {r : ρ} (h : t.find k = some r) (f : ρ → ρ)
    (hf : ∀ r, key (f r) = key r) (hnew : key (f r) = k ∨ key (f r) ∉ t.rows.map key) :
    t.replace k (f r) hnew = t.modify k f hf := by
  have hrows : (t.replace k (f r) hnew).rows = (t.modify k f hf).rows := by
    refine List.map_congr_left fun a ha ↦ ?_
    by_cases hk : key a = k
    · have hsame : a = r := Option.some.inj ((find_eq_some.mpr ⟨ha, hk⟩).symm.trans h)
      rw [hsame]
    · rw [if_neg hk, if_neg hk]
  generalize t.replace k (f r) hnew = u at hrows
  obtain ⟨rows, hnodup⟩ := u
  subst hrows
  rfl

theorem key_of_find {t : Table ρ} {k : κ} {r : ρ} (h : t.find k = some r) : key r = k :=
  (find_eq_some.mp h).2

theorem find_eq_none {t : Table ρ} {k : κ} : t.find k = none ↔ k ∉ t.rows.map key := by
  constructor
  · intro h hmem
    obtain ⟨r, hr, hk⟩ := List.mem_map.mp hmem
    rw [find_eq_some.mpr ⟨hr, hk⟩] at h
    cases h
  · intro h
    rw [find, List.find?_eq_none]
    intro r hr hk
    exact h (List.mem_map.mpr ⟨r, hr, by simpa using hk⟩)

theorem mem_iff_find {t : Table ρ} {r : ρ} : r ∈ t.rows ↔ t.find (key r) = some r := by
  simp [find_eq_some]

theorem find_modify (t : Table ρ) (k : κ) (f : ρ → ρ) (hf : ∀ r, key (f r) = key r) (j : κ) :
    (t.modify k f hf).find j = if j = k then (t.find j).map f else t.find j := by
  ext r
  by_cases hj : j = k
  · subst hj
    rw [if_pos rfl, find_eq_some, Option.map_eq_some_iff]
    constructor
    · rintro ⟨hmem, hkey⟩
      obtain ⟨a, ha, rfl⟩ := List.mem_map.mp hmem
      by_cases hk : key a = j
      · rw [if_pos hk] at hkey ⊢
        exact ⟨a, find_eq_some.mpr ⟨ha, hk⟩, rfl⟩
      · rw [if_neg hk] at hkey
        exact (hk hkey).elim
    · rintro ⟨a, ha, rfl⟩
      obtain ⟨ha, hk⟩ := find_eq_some.mp ha
      exact ⟨List.mem_map.mpr ⟨a, ha, if_pos hk⟩, (hf a).trans hk⟩
  · rw [if_neg hj, find_eq_some, find_eq_some]
    constructor
    · rintro ⟨hmem, hkey⟩
      obtain ⟨a, ha, rfl⟩ := List.mem_map.mp hmem
      by_cases hk : key a = k
      · rw [if_pos hk, hf] at hkey
        exact (hj (hkey.symm.trans hk)).elim
      · rw [if_neg hk] at hkey ⊢
        exact ⟨ha, hkey⟩
    · rintro ⟨hmem, rfl⟩
      exact ⟨List.mem_map.mpr ⟨r, hmem, if_neg hj⟩, rfl⟩

theorem find_insert (t : Table ρ) (r : ρ) (hfresh : key r ∉ t.rows.map key) (j : κ) :
    (t.insert r hfresh).find j = if j = key r then some r else t.find j := by
  by_cases hj : j = key r
  · subst hj
    rw [if_pos rfl, find_eq_some]
    exact ⟨List.mem_append_right _ (List.mem_singleton_self r), rfl⟩
  · rw [if_neg hj]
    unfold find insert
    rw [List.find?_append, List.find?_singleton]
    simp [Ne.symm hj]

theorem find_filter (t : Table ρ) (q : ρ → Bool) (j : κ) :
    (t.filter q).find j = (t.find j).filter q := by
  ext r
  rw [find_eq_some, Option.filter_eq_some_iff, find_eq_some, filter, List.mem_filter]
  constructor
  · rintro ⟨⟨hmem, hq⟩, hk⟩
    exact ⟨⟨hmem, hk⟩, hq⟩
  · rintro ⟨⟨hmem, hk⟩, hq⟩
    exact ⟨⟨hmem, hq⟩, hk⟩

/-- At most one row has a key. -/
theorem rows_filter_key (t : Table ρ) (k : κ) :
    t.rows.filter (fun r ↦ key r = k) = (t.find k).toList := by
  obtain ⟨rows, hnodup⟩ := t
  simp only [find]
  induction rows with
  | nil => rfl
  | cons r rows ih =>
      simp only [List.map_cons, List.nodup_cons] at hnodup
      by_cases hr : key r = k
      · have hrest : rows.filter (fun x ↦ key x = k) = [] := by
          rw [List.filter_eq_nil_iff]
          intro x hx hk
          have hk : key x = k := by simpa using hk
          exact hnodup.1 (List.mem_map.mpr ⟨x, hx, hk.trans hr.symm⟩)
        rw [List.filter_cons_of_pos (by simpa using hr), hrest,
          List.find?_cons_of_pos (by simpa using hr)]
        rfl
      · rw [List.filter_cons_of_neg (by simpa using hr), ih hnodup.2,
          List.find?_cons_of_neg (by simpa using hr)]

/-! ## Sums over the rows -/

section Sum

variable {M : Type*} [AddCommMonoid M] (g : ρ → M)

def sumOver (t : Table ρ) : M := (t.rows.map g).sum

omit [DecidableEq κ] in
theorem sumOver_insert (t : Table ρ) (r : ρ) (hfresh : key r ∉ t.rows.map key) :
    (t.insert r hfresh).sumOver g = t.sumOver g + g r := by
  simp [sumOver, insert]

theorem modify_of_find_eq_none {t : Table ρ} {k : κ} (h : t.find k = none) (f : ρ → ρ)
    (hf : ∀ r, key (f r) = key r) : t.modify k f hf = t := by
  obtain ⟨rows, hnodup⟩ := t
  have hrows : (rows.map fun r ↦ if key r = k then f r else r) = rows := by
    refine (List.map_congr_left fun r hr ↦ ?_).trans (List.map_id rows)
    rw [if_neg]
    · rfl
    · rintro rfl
      exact find_eq_none.mp h (List.mem_map_of_mem hr)
  simp only [modify, hrows]

theorem erase_of_find_eq_none {t : Table ρ} {k : κ} (h : t.find k = none) : t.erase k = t := by
  obtain ⟨rows, hnodup⟩ := t
  have hrows : rows.filter (fun r ↦ key r ≠ k) = rows := by
    refine List.filter_eq_self.mpr fun r hr ↦ decide_eq_true ?_
    rintro rfl
    exact find_eq_none.mp h (List.mem_map_of_mem hr)
  simp only [erase, hrows]

/-- A table with the row of a key taken out and put in front. -/
theorem exists_split {t : Table ρ} {k : κ} {r : ρ} (h : t.find k = some r) :
    ∃ l₁ l₂, t.rows = l₁ ++ r :: l₂ ∧ key r = k ∧ ∀ x ∈ l₁ ++ l₂, key x ≠ k := by
  obtain ⟨hmem, rfl⟩ := find_eq_some.mp h
  obtain ⟨l₁, l₂, hrows⟩ := List.append_of_mem hmem
  have hnodup := t.nodup
  rw [hrows, List.map_append, List.map_cons, List.nodup_middle] at hnodup
  refine ⟨l₁, l₂, hrows, rfl, fun x hx heq ↦ (List.nodup_cons.mp hnodup).1 ?_⟩
  rw [← List.map_append, ← heq]
  exact List.mem_map_of_mem hx

theorem sumOver_modify {t : Table ρ} {k : κ} {r : ρ} (h : t.find k = some r) (f : ρ → ρ)
    (hf : ∀ r, key (f r) = key r) :
    (t.modify k f hf).sumOver g + g r = t.sumOver g + g (f r) := by
  obtain ⟨l₁, l₂, hrows, hkey, hne⟩ := exists_split h
  have hsame : ∀ l : List ρ, (∀ x ∈ l, key x ≠ k) →
      (l.map fun x ↦ if key x = k then f x else x) = l := by
    intro l hl
    refine (List.map_congr_left fun x hx ↦ ?_).trans (List.map_id l)
    rw [if_neg (hl x hx)]
    rfl
  have h₁ := hsame l₁ fun x hx ↦ hne x (List.mem_append_left l₂ hx)
  have h₂ := hsame l₂ fun x hx ↦ hne x (List.mem_append_right l₁ hx)
  simp only [sumOver, modify, hrows, List.map_append, List.map_cons, h₁, h₂, hkey, if_true,
    List.sum_append, List.sum_cons]
  abel

theorem sumOver_erase {t : Table ρ} {k : κ} {r : ρ} (h : t.find k = some r) :
    (t.erase k).sumOver g + g r = t.sumOver g := by
  obtain ⟨l₁, l₂, hrows, hkey, hne⟩ := exists_split h
  have hsame : ∀ l : List ρ, (∀ x ∈ l, key x ≠ k) → l.filter (fun x ↦ key x ≠ k) = l :=
    fun l hl ↦ List.filter_eq_self.mpr fun x hx ↦ decide_eq_true (hl x hx)
  have h₁ := hsame l₁ fun x hx ↦ hne x (List.mem_append_left l₂ hx)
  have h₂ := hsame l₂ fun x hx ↦ hne x (List.mem_append_right l₁ hx)
  have hdrop : (r :: l₂).filter (fun x ↦ key x ≠ k) = l₂ := by
    rw [List.filter_cons_of_neg (by simpa using hkey), h₂]
  simp only [sumOver, erase, hrows, List.filter_append, h₁, hdrop, List.map_append,
    List.map_cons, List.sum_append, List.sum_cons]
  abel

omit [DecidableEq κ] in
theorem sumOver_ite (t : Table ρ) (p : ρ → Prop) [DecidablePred p] :
    (t.sumOver fun r ↦ if p r then g r else 0) = ((t.rows.filter p).map g).sum := by
  rw [sumOver, List.sum_map_ite, List.map_const', List.sum_replicate, smul_zero, add_zero]

theorem sumOver_ite_key (t : Table ρ) (k : κ) :
    (t.sumOver fun r ↦ if key r = k then g r else 0) = ((t.find k).map g).getD 0 := by
  rw [sumOver_ite, rows_filter_key]
  cases t.find k <;> simp

/-- The sum over the rows with some distinct keys, found one by one. -/
theorem sum_find (t : Table ρ) {ks : List κ} (hks : ks.Nodup) :
    (ks.map fun k ↦ ((t.find k).map g).getD 0).sum =
      t.sumOver fun r ↦ if key r ∈ ks then g r else 0 := by
  induction ks with
  | nil => simp [sumOver]
  | cons k ks ih =>
      obtain ⟨hk, hks⟩ := List.nodup_cons.mp hks
      rw [List.map_cons, List.sum_cons, ih hks, ← t.sumOver_ite_key g k, sumOver, sumOver, sumOver,
        ← List.sum_map_add]
      refine congrArg List.sum (List.map_congr_left fun r _ ↦ ?_)
      by_cases hr : key r = k
      · simp [hr, hk]
      · simp [hr]

omit [DecidableEq κ] in
theorem le_sumOver [PartialOrder M] [IsOrderedAddMonoid M] {t : Table ρ} (hg : ∀ r ∈ t.rows, 0 ≤ g r)
    {r : ρ} (hr : r ∈ t.rows) : g r ≤ t.sumOver g := by
  refine List.single_le_sum (fun x hx ↦ ?_) _ (List.mem_map_of_mem hr)
  obtain ⟨y, hy, rfl⟩ := List.mem_map.mp hx
  exact hg y hy

end Sum

end Table
