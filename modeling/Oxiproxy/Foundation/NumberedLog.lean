import Mathlib

/-!
# Numbered logs

Entries are numbered in the order in which they are appended to a log, and every
entry is about some keys.  For a key the newest of a set of entries is the one with
the greatest number; a replica that has taken the newest entry of the whole log is
up to date for the key.
-/

namespace NumberedLog

variable {α κ : Type*} {about : α → κ → Bool} {log : List α} {ns : Set ℕ} {k : κ} {m n : ℕ} {a : α}

/-- The entry with this number is about the key. -/
def Concerns (about : α → κ → Bool) (log : List α) (n : ℕ) (k : κ) : Prop :=
  ∃ a, log[n]? = some a ∧ about a k = true

/-- The last of the entries that are about the key. -/
structure Newest (about : α → κ → Bool) (log : List α) (ns : Set ℕ) (k : κ) (n : ℕ) : Prop where
  mem : n ∈ ns
  concerns : Concerns about log n k
  le : ∀ m ∈ ns, Concerns about log m k → m ≤ n

theorem Concerns.lt (h : Concerns about log n k) : n < log.length := by
  obtain ⟨a, ha, -⟩ := h
  exact (List.getElem?_eq_some_iff.mp ha).1

theorem concerns_iff_of_getElem? (h : log[n]? = some a) :
    Concerns about log n k ↔ about a k = true := by
  constructor
  · rintro ⟨b, hb, hk⟩
    obtain rfl := Option.some.inj (h.symm.trans hb)
    exact hk
  · exact fun hk ↦ ⟨a, h, hk⟩

/-- Appending an entry changes nothing for the earlier numbers. -/
theorem concerns_append :
    Concerns about (log ++ [a]) n k ↔
      Concerns about log n k ∨ n = log.length ∧ about a k = true := by
  rcases lt_trichotomy n log.length with hlt | rfl | hgt
  · unfold Concerns
    rw [List.getElem?_append_left hlt]
    exact ⟨.inl, fun h ↦ h.elim id fun heq ↦ absurd heq.1 hlt.ne⟩
  · rw [concerns_iff_of_getElem? List.getElem?_concat_length]
    exact ⟨fun hk ↦ .inr ⟨rfl, hk⟩, fun h ↦ h.elim (fun h ↦ absurd h.lt (lt_irrefl _)) (·.2)⟩
  · constructor
    · intro h
      have hlt := h.lt
      rw [List.length_append, List.length_singleton] at hlt
      omega
    · rintro (h | ⟨rfl, -⟩)
      · exact absurd h.lt hgt.asymm
      · exact absurd hgt (lt_irrefl _)

theorem Newest.unique (hm : Newest about log ns k m) (hn : Newest about log ns k n) : m = n :=
  le_antisymm (hn.le m hm.mem hm.concerns) (hm.le n hn.mem hn.concerns)

/-- If some entry is about the key, one of them is the newest. -/
theorem exists_newest (h : Concerns about log n k) : ∃ m, Newest about log Set.univ k m := by
  classical
  let bound := Nat.findGreatest (fun m ↦ Concerns about log m k) log.length
  have hbound : Concerns about log bound k :=
    @Nat.findGreatest_spec n (fun m ↦ Concerns about log m k) _ log.length h.lt.le h
  exact ⟨bound, Set.mem_univ _, hbound, fun m _ hm ↦ Nat.le_findGreatest hm.lt.le hm⟩

/-- An appended entry is the newest for the keys that it is about. -/
theorem newest_append_of_about (hk : about a k = true) :
    Newest about (log ++ [a]) Set.univ k n ↔ n = log.length := by
  have hlast : Newest about (log ++ [a]) Set.univ k log.length := by
    refine ⟨Set.mem_univ _, concerns_append.mpr (.inr ⟨rfl, hk⟩), fun m _ hm ↦ ?_⟩
    have hlt := hm.lt
    rw [List.length_append, List.length_singleton] at hlt
    omega
  exact ⟨fun h ↦ h.unique hlast, fun h ↦ h ▸ hlast⟩

/-- For every other key the newest entry stays. -/
theorem newest_append_of_not (hk : about a k = false) :
    Newest about (log ++ [a]) ns k n ↔ Newest about log ns k n := by
  have hconcerns : ∀ m, Concerns about (log ++ [a]) m k ↔ Concerns about log m k := by
    intro m
    rw [concerns_append, hk]
    simp
  exact ⟨fun h ↦ ⟨h.mem, (hconcerns n).mp h.concerns,
      fun m hm hc ↦ h.le m hm ((hconcerns m).mpr hc)⟩,
    fun h ↦ ⟨h.mem, (hconcerns n).mpr h.concerns, fun m hm hc ↦ h.le m hm ((hconcerns m).mp hc)⟩⟩

/-- Entries that were there before do not notice an appended one. -/
theorem newest_append_of_lt (hns : ∀ m ∈ ns, m < log.length) :
    Newest about (log ++ [a]) ns k n ↔ Newest about log ns k n := by
  have hconcerns : ∀ m ∈ ns, (Concerns about (log ++ [a]) m k ↔ Concerns about log m k) := by
    intro m hm
    rw [concerns_append]
    exact ⟨fun h ↦ h.elim id fun heq ↦ absurd heq.1 (hns m hm).ne, .inl⟩
  exact ⟨fun h ↦ ⟨h.mem, (hconcerns n h.mem).mp h.concerns,
      fun m hm hc ↦ h.le m hm ((hconcerns m hm).mpr hc)⟩,
    fun h ↦ ⟨h.mem, (hconcerns n h.mem).mpr h.concerns,
      fun m hm hc ↦ h.le m hm ((hconcerns m hm).mp hc)⟩⟩

end NumberedLog
