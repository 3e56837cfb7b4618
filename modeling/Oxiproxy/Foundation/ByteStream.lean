import Mathlib

/-!
# Messages on a byte stream

A sender writes messages to a stream of bytes, and a receiver takes what a read
returns for a message.  The messages survive exactly as long as the reads return
them one by one.
-/

namespace ByteStream

variable {α : Type*} {sent arrived : List (List α)} {bytes : List α} {n : ℕ} {message : List α}

/-- The messages that have arrived are those that were sent first, and all of
them once nothing is in flight. -/
structure Delivers (sent arrived : List (List α)) (bytes : List α) : Prop where
  first : arrived <+: sent
  drained : bytes = [] → arrived = sent

/-- In flight are the messages that have not arrived, none of them empty. -/
def Aligned (sent arrived : List (List α)) (bytes : List α) : Prop :=
  ∃ rest, sent = arrived ++ rest ∧ bytes = rest.flatten ∧ ∀ m ∈ rest, m ≠ []

theorem aligned_nil : Aligned ([] : List (List α)) [] [] :=
  ⟨[], rfl, rfl, by simp⟩

theorem Aligned.delivers (h : Aligned sent arrived bytes) : Delivers sent arrived bytes := by
  obtain ⟨rest, rfl, rfl, hrest⟩ := h
  refine ⟨List.prefix_append arrived rest, fun hempty ↦ ?_⟩
  have hall : ∀ m ∈ rest, m = [] := List.flatten_eq_nil_iff.mp hempty
  cases rest with
  | nil => simp
  | cons m rest => exact (hrest m List.mem_cons_self (hall m List.mem_cons_self)).elim

theorem Aligned.write (h : Aligned sent arrived bytes) (hmessage : message ≠ []) :
    Aligned (sent ++ [message]) arrived (bytes ++ message) := by
  obtain ⟨rest, rfl, rfl, hrest⟩ := h
  refine ⟨rest ++ [message], List.append_assoc arrived rest [message], by simp, fun m hm ↦ ?_⟩
  rcases List.mem_append.mp hm with hold | hnew
  · exact hrest m hold
  · rw [List.mem_singleton.mp hnew]
    exact hmessage

/-- A read that returns the next message. -/
theorem Aligned.read (h : Aligned sent arrived bytes) (hnext : sent[arrived.length]? = some message) :
    Aligned sent (arrived ++ [bytes.take message.length]) (bytes.drop message.length) := by
  obtain ⟨rest, rfl, rfl, hrest⟩ := h
  rw [List.getElem?_append_right (Nat.le_refl _), Nat.sub_self] at hnext
  cases rest with
  | nil => cases hnext
  | cons m rest =>
      obtain rfl := Option.some.inj hnext
      refine ⟨rest, ?_, ?_, fun m' hm' ↦ hrest m' (List.mem_cons_of_mem m hm')⟩
      · rw [List.flatten_cons, List.take_left, List.append_assoc, List.singleton_append]
      · rw [List.flatten_cons, List.drop_left]

/-- Any other read spoils a message. -/
theorem next_of_read (hlength : n ≤ bytes.length) (h : arrived ++ [bytes.take n] <+: sent) :
    ∃ message, sent[arrived.length]? = some message ∧ message.length = n := by
  obtain ⟨rest, rfl⟩ := h
  refine ⟨bytes.take n, ?_, List.length_take_of_le hlength⟩
  rw [List.append_assoc, List.getElem?_append_right (Nat.le_refl _), Nat.sub_self]
  rfl

/-! ## Exact reads -/

/-- Read a number of bytes from a stream that arrives in fragments. -/
def readExact : ℕ → List (List α) → Option (List α × List (List α))
  | 0, fragments => some ([], fragments)
  | _ + 1, [] => none
  | n + 1, fragment :: fragments =>
      if n + 1 ≤ fragment.length then
        some (fragment.take (n + 1), fragment.drop (n + 1) :: fragments)
      else
        (readExact (n + 1 - fragment.length) fragments).map fun (bytes, rest) ↦
          (fragment ++ bytes, rest)

/-- The bytes do not depend on the fragments. -/
theorem readExact_of_le {fragments : List (List α)} (h : n ≤ fragments.flatten.length) :
    ∃ rest, readExact n fragments = some (fragments.flatten.take n, rest) ∧
      rest.flatten = fragments.flatten.drop n := by
  induction fragments generalizing n with
  | nil =>
      obtain rfl : n = 0 := by simpa using h
      exact ⟨[], rfl, rfl⟩
  | cons fragment fragments ih =>
      cases n with
      | zero => exact ⟨fragment :: fragments, rfl, rfl⟩
      | succ n =>
          rw [List.flatten_cons, List.length_append] at h
          by_cases hlength : n + 1 ≤ fragment.length
          · refine ⟨fragment.drop (n + 1) :: fragments, ?_, ?_⟩
            · rw [readExact, if_pos hlength, List.flatten_cons,
                List.take_append_of_le_length hlength]
            · rw [List.flatten_cons, List.flatten_cons, List.drop_append_of_le_length hlength]
          · obtain ⟨rest, hread, hrest⟩ := ih (n := n + 1 - fragment.length) (by omega)
            have hle : fragment.length ≤ n + 1 := by omega
            refine ⟨rest, ?_, ?_⟩
            · rw [readExact, if_neg hlength, hread, List.flatten_cons, List.take_append,
                List.take_of_length_le hle]
              rfl
            · rw [hrest, List.flatten_cons, List.drop_append, List.drop_of_length_le hle,
                List.nil_append]

theorem readExact_append {fragments : List (List α)} {front back : List α}
    (h : fragments.flatten = front ++ back) :
    ∃ rest, readExact front.length fragments = some (front, rest) ∧ rest.flatten = back := by
  have hlength : front.length ≤ fragments.flatten.length := by
    rw [h, List.length_append]
    exact Nat.le_add_right _ _
  obtain ⟨rest, hread, hrest⟩ := readExact_of_le hlength
  rw [h, List.take_left] at hread
  rw [h, List.drop_left] at hrest
  exact ⟨rest, hread, hrest⟩

end ByteStream
