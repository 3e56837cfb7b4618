import Mathlib

/-!
# Strings, integers and results

The standard library's operations on strings, its integer parsers, the wrapping
casts between integer types and the propagation of errors, as far as the sources
use them.
-/

namespace Oxiproxy

/-- The characters with the Unicode property `White_Space`. -/
def isWhitespace (c : Char) : Bool :=
  c.toNat ∈ [0x20, 0x85, 0xA0, 0x1680, 0x2028, 0x2029, 0x202F, 0x205F, 0x3000] ||
    (0x09 ≤ c.toNat && c.toNat ≤ 0x0D) || (0x2000 ≤ c.toNat && c.toNat ≤ 0x200A)

/-- `str::trim` -/
def trim (s : String) : String :=
  String.ofList (((s.toList.dropWhile isWhitespace).reverse.dropWhile isWhitespace).reverse)

/-- `str::split` at every occurrence of a character. -/
def splitOn (sep : Char) : List Char → List (List Char)
  | [] => [[]]
  | c :: cs =>
      if c = sep then [] :: splitOn sep cs
      else
        match splitOn sep cs with
        | part :: parts => (c :: part) :: parts
        | [] => [[c]]

theorem splitOn_ne_nil (sep : Char) (cs : List Char) : splitOn sep cs ≠ [] := by
  cases cs with
  | nil => exact List.cons_ne_nil _ _
  | cons c cs =>
      unfold splitOn
      split_ifs
      · exact List.cons_ne_nil _ _
      · split <;> exact List.cons_ne_nil _ _

theorem splitOn_append (sep : Char) (front back : List Char) :
    splitOn sep (front ++ sep :: back) = splitOn sep front ++ splitOn sep back := by
  induction front with
  | nil => simp [splitOn]
  | cons c front ih =>
      obtain ⟨part, parts, hsplit⟩ := List.exists_cons_of_ne_nil (splitOn_ne_nil sep front)
      rw [hsplit] at ih
      by_cases hc : c = sep
      · simp [splitOn, hc, ih, hsplit]
      · simp [splitOn, hc, ih, hsplit]

theorem splitOn_of_notMem {sep : Char} {cs : List Char} (h : sep ∉ cs) : splitOn sep cs = [cs] := by
  induction cs with
  | nil => rfl
  | cons c cs ih =>
      simp only [List.mem_cons, not_or] at h
      obtain ⟨hc, hcs⟩ := h
      simp only [splitOn, if_neg (Ne.symm hc), ih hcs]

/-- The value of a nonempty run of ASCII digits. -/
def parseDigits : List Char → Option ℕ
  | [] => none
  | cs =>
      if cs.all Char.isDigit then
        some (cs.foldl (fun n c ↦ n * 10 + (c.toNat - '0'.toNat)) 0)
      else none

/-- `parse` at an unsigned type with values below `bound`. -/
def parseUnsigned (bound : ℕ) (s : String) : Option ℕ :=
  let digits := match s.toList with
    | '+' :: cs => parseDigits cs
    | cs => parseDigits cs
  digits.filter (· < bound)

/-- `parse::<i64>` -/
def parseI64 (s : String) : Option ℤ :=
  match s.toList with
  | '+' :: cs => ((parseDigits cs).map Int.ofNat).filter (· < 2 ^ 63)
  | '-' :: cs => ((parseDigits cs).map fun n ↦ -(n : ℤ)).filter (-2 ^ 63 ≤ ·)
  | cs => ((parseDigits cs).map Int.ofNat).filter (· < 2 ^ 63)

theorem parseDigits_toDigits (n : ℕ) : parseDigits (Nat.toDigits 10 n) = some n := by
  have hdigits : (Nat.toDigits 10 n).all Char.isDigit = true := by
    rw [List.all_eq_true]
    exact fun c hc ↦ Nat.isDigit_of_mem_toDigits (by decide) (by decide) hc
  have hvalue : (Nat.toDigits 10 n).foldl (fun n c ↦ n * 10 + (c.toNat - '0'.toNat)) 0 = n := by
    have h := Nat.ofDigitChars_ten_toDigits (n := n)
    rw [Nat.ofDigitChars_eq_foldl] at h
    simpa only [Nat.mul_comm] using h
  unfold parseDigits
  split
  · next hnil => exact (Nat.toDigits_ne_nil hnil).elim
  · rw [if_pos hdigits, hvalue]

/-- The text of an integer is read as that integer, if it is in range. -/
theorem parseI64_toString (n : ℤ) :
    parseI64 (toString n) = if -2 ^ 63 ≤ n ∧ n < 2 ^ 63 then some n else none := by
  cases n with
  | ofNat m =>
      have htext : (toString (Int.ofNat m)).toList = Nat.toDigits 10 m := Nat.toList_repr
      have hsign : ∀ c cs, Nat.toDigits 10 m = c :: cs → c ≠ '+' ∧ c ≠ '-' := by
        intro c cs hcs
        have hc : c.isDigit = true := Nat.isDigit_of_mem_toDigits (n := m) (by decide) (by decide)
          (hcs ▸ List.mem_cons_self)
        constructor <;> rintro rfl <;> revert hc <;> decide
      have hlow : -2 ^ 63 ≤ Int.ofNat m := by
        have hnonneg : 0 ≤ Int.ofNat m := Int.natCast_nonneg m
        omega
      unfold parseI64
      rw [htext]
      split
      · next cs hcs => exact ((hsign _ _ hcs).1 rfl).elim
      · next cs hcs => exact ((hsign _ _ hcs).2 rfl).elim
      · rw [parseDigits_toDigits, Option.map_some, Option.filter_some]
        simp only [hlow, true_and, decide_eq_true_eq]
  | negSucc m =>
      have htext : (toString (Int.negSucc m)).toList = '-' :: Nat.toDigits 10 (m + 1) := by
        change ("-" ++ Nat.repr (m + 1)).toList = _
        rw [String.toList_append, Nat.toList_repr]
        rfl
      have hhigh : Int.negSucc m < 2 ^ 63 := by
        have hneg : Int.negSucc m < 0 := Int.negSucc_lt_zero m
        omega
      unfold parseI64
      rw [htext]
      change Option.filter _ (Option.map _ ((parseDigits (Nat.toDigits 10 (m + 1))).bind _)) = _
      rw [parseDigits_toDigits]
      change Option.filter _ (some (Int.negSucc m)) = _
      rw [Option.filter_some]
      simp only [hhigh, and_true, decide_eq_true_eq]

/-- The text of an id reads as that id, if it reads as a number at all. -/
theorem eq_of_parseI64_toString {n k : ℤ} (h : parseI64 (toString n) = some k) : k = n := by
  rw [parseI64_toString] at h
  split at h <;> cases h
  rfl

/-- `parse::<bool>` -/
def parseBool (s : String) : Option Bool :=
  if s = "true" then some true else if s = "false" then some false else none

/-- `as u64` on a signed integer. -/
def asU64 (n : ℤ) : ℕ := (n % 2 ^ 64).toNat

/-- `as u16` on a signed integer. -/
def asU16 (n : ℤ) : UInt16 := UInt16.ofNat (n % 2 ^ 16).toNat

/-- `i64` that wraps around on overflow, as in a release build. -/
def wrapI64 (n : ℤ) : ℤ := n.bmod (2 ^ 64)

theorem wrapI64_of_fits {n : ℤ} (hlow : -2 ^ 63 ≤ n) (hhigh : n < 2 ^ 63) : wrapI64 n = n :=
  Int.bmod_eq_of_le (by omega) (by omega)

@[simp]
theorem wrapI64_zero : wrapI64 0 = 0 := rfl

/-- The operator `?`. -/
theorem bind_eq_ok {ε : Type*} {α β : Type} {check : Except ε α} {next : α → Except ε β}
    {result : β} : check >>= next = .ok result ↔ ∃ a, check = .ok a ∧ next a = .ok result := by
  cases check with
  | error e => simp [bind, Except.bind]
  | ok a => simp [bind, Except.bind]

example : parseI64 "-42" = some (-42) := by decide +kernel

example : parseUnsigned 65536 "70000" = none := by decide +kernel

end Oxiproxy
