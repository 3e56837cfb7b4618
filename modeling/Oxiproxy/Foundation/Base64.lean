import Mathlib

/-!
# Base64

Three bytes are written as four characters of the standard alphabet, with the
last group filled up by `=`.  A reader takes canonical texts only: the padding is
there, and the bits that it leaves over are zero.
-/

namespace Base64

/-- The character of a number below 64. -/
def digit (n : ℕ) : Char :=
  if n < 26 then Char.ofNat (n + 65)
  else if n < 52 then Char.ofNat (n + 71)
  else if n < 62 then Char.ofNat (n - 4)
  else if n = 62 then '+'
  else '/'

def value (c : Char) : Option ℕ :=
  if 'A' ≤ c ∧ c ≤ 'Z' then some (c.toNat - 65)
  else if 'a' ≤ c ∧ c ≤ 'z' then some (c.toNat - 71)
  else if '0' ≤ c ∧ c ≤ '9' then some (c.toNat + 4)
  else if c = '+' then some 62
  else if c = '/' then some 63
  else none

def encode : List UInt8 → List Char
  | [] => []
  | [a] =>
      let n := a.toNat * 16
      [digit (n / 64), digit (n % 64), '=', '=']
  | [a, b] =>
      let n := (a.toNat * 256 + b.toNat) * 4
      [digit (n / 64 / 64), digit (n / 64 % 64), digit (n % 64), '=']
  | a :: b :: c :: rest =>
      let n := (a.toNat * 256 + b.toNat) * 256 + c.toNat
      digit (n / 64 / 64 / 64) :: digit (n / 64 / 64 % 64) :: digit (n / 64 % 64) ::
        digit (n % 64) :: encode rest

/-- The bytes of the last group of a text. -/
def decodeLast (w x y z : Char) : Option (List UInt8) := do
  let w ← value w
  let x ← value x
  if y = '=' ∧ z = '=' then
    let n := w * 64 + x
    if n % 16 = 0 then some [.ofNat (n / 16)] else none
  else
    let y ← value y
    if z = '=' then
      let n := (w * 64 + x) * 64 + y
      if n % 4 = 0 then some [.ofNat (n / 4 / 256), .ofNat (n / 4 % 256)] else none
    else
      let z ← value z
      let n := ((w * 64 + x) * 64 + y) * 64 + z
      some [.ofNat (n / 256 / 256), .ofNat (n / 256 % 256), .ofNat (n % 256)]

def decode : List Char → Option (List UInt8)
  | [] => some []
  | [w, x, y, z] => decodeLast w x y z
  | w :: x :: y :: z :: rest => do
      let w ← value w
      let x ← value x
      let y ← value y
      let z ← value z
      let n := ((w * 64 + x) * 64 + y) * 64 + z
      let bytes ← decode rest
      some (.ofNat (n / 256 / 256) :: .ofNat (n / 256 % 256) :: .ofNat (n % 256) :: bytes)
  | _ => none

/-! ## Reading back -/

theorem value_digit {n : ℕ} (h : n < 64) : value (digit n) = some n := by
  have hall : ∀ k : Fin 64, value (digit k) = some (k : ℕ) := by decide
  exact hall ⟨n, h⟩

theorem digit_ne_pad {n : ℕ} (h : n < 64) : digit n ≠ '=' := by
  have hall : ∀ k : Fin 64, digit k ≠ '=' := by decide
  exact hall ⟨n, h⟩

theorem ofNat_toNat_div (a : UInt8) {n : ℕ} (h : n = a.toNat) : UInt8.ofNat n = a := by
  rw [h, UInt8.ofNat_toNat]

/-- A group of four characters that stands for three bytes. -/
theorem decode_group {w x y z : ℕ} (hw : w < 64) (hx : x < 64) (hy : y < 64) (hz : z < 64)
    (rest : List Char) {bytes : List UInt8} (hrest : decode rest = some bytes) :
    decode (digit w :: digit x :: digit y :: digit z :: rest) =
      some (.ofNat ((((w * 64 + x) * 64 + y) * 64 + z) / 256 / 256) ::
        .ofNat ((((w * 64 + x) * 64 + y) * 64 + z) / 256 % 256) ::
        .ofNat ((((w * 64 + x) * 64 + y) * 64 + z) % 256) :: bytes) := by
  cases rest with
  | nil =>
      obtain rfl : bytes = [] := by simpa [decode] using hrest.symm
      simp [decode, decodeLast, value_digit hw, value_digit hx, value_digit hy, value_digit hz,
        digit_ne_pad hy, digit_ne_pad hz]
  | cons c rest =>
      rw [decode.eq_def]
      simp [value_digit hw, value_digit hx, value_digit hy, value_digit hz, hrest]

/-- What is encoded is read back. -/
theorem decode_encode (bytes : List UInt8) : decode (encode bytes) = some bytes := by
  induction bytes using encode.induct with
  | case1 => rfl
  | case2 a =>
      have ha := a.toNat_lt
      simp only [encode, decode, decodeLast]
      rw [value_digit (by omega), value_digit (by omega)]
      have hsum : a.toNat * 16 / 64 * 64 + a.toNat * 16 % 64 = a.toNat * 16 := by omega
      simp [hsum]
  | case3 a b =>
      have ha := a.toNat_lt
      have hb := b.toNat_lt
      simp only [encode, decode, decodeLast]
      set m := (a.toNat * 256 + b.toNat) * 4 with hm
      rw [value_digit (by omega), value_digit (by omega), value_digit (by omega)]
      have hpad : digit (m % 64) ≠ '=' := digit_ne_pad (by omega)
      have hsum : (m / 64 / 64 * 64 + m / 64 % 64) * 64 + m % 64 = m := by omega
      have hzero : m % 4 = 0 := by omega
      have hfirst : m / 4 / 256 = a.toNat := by omega
      have hsecond : m / 4 % 256 = b.toNat := by omega
      simp [hpad, hsum, hzero, hfirst, hsecond]
  | case4 a b c rest ih =>
      have ha := a.toNat_lt
      have hb := b.toNat_lt
      have hc := c.toNat_lt
      simp only [encode]
      set m := (a.toNat * 256 + b.toNat) * 256 + c.toNat with hm
      rw [decode_group (by omega) (by omega) (by omega) (by omega) _ ih]
      have hsum : ((m / 64 / 64 / 64 * 64 + m / 64 / 64 % 64) * 64 + m / 64 % 64) * 64 + m % 64 =
        m := by omega
      rw [hsum, ofNat_toNat_div a (by omega), ofNat_toNat_div b (by omega),
        ofNat_toNat_div c (by omega)]

example : encode [77, 97] = ['T', 'W', 'E', '='] := by decide

end Base64
