import Oxiproxy.Common.Rust

/-!
# Floating-point numbers

The type `f64` of the standard library: the value of its bits, rounding to the
nearest value, the total order, and the decimal texts that it is written as and
read from.
-/

namespace Oxiproxy

/-- An `f64`: its sign and the bits below it. -/
structure F64 where
  negative : Bool
  bits : Fin (2 ^ 63)
  deriving DecidableEq, Repr

namespace F64

/-- The bits of infinity. All greater ones stand for no number. -/
def infinityBits : ℕ := 2047 * 2 ^ 52

def isNaN (f : F64) : Bool := infinityBits < f.bits.val

def isFinite (f : F64) : Bool := f.bits.val < infinityBits

def significand (k : ℕ) : ℕ := if k < 2 ^ 52 then k else 2 ^ 52 + k % 2 ^ 52

def exponent (k : ℕ) : ℤ := max (k / 2 ^ 52 : ℕ) 1 - 1075

def magnitude (k : ℕ) : ℚ := significand k * 2 ^ exponent k

/-- The value of a finite number. -/
def toRat (f : F64) : ℚ := if f.negative then -magnitude f.bits else magnitude f.bits

/-- The nearest natural number, an even one if there are two. -/
def roundEven (q : ℚ) : ℕ :=
  let n := ⌊q⌋₊
  let rest := q - n
  if rest < 1 / 2 then n else if 1 / 2 < rest then n + 1 else if n % 2 = 0 then n else n + 1

/-- The exponent of the last bit of the numbers around `q`. -/
def unitExponent (q : ℚ) : ℤ := max (Int.log 2 q - 52) (-1074)

/-- The bits of the number nearest to a magnitude. A significand that rounds up
to the next power of two carries into the exponent. -/
def roundBits (q : ℚ) : ℕ :=
  if q = 0 then 0
  else
    let e := unitExponent q
    min ((e + 1074).toNat * 2 ^ 52 + roundEven (q / 2 ^ e)) infinityBits

theorem roundBits_lt (q : ℚ) : roundBits q < 2 ^ 63 := by
  unfold roundBits infinityBits
  split
  · decide
  · exact (Nat.min_le_right _ _).trans_lt (by decide)

def ofRat (negative : Bool) (q : ℚ) : F64 := ⟨negative, ⟨roundBits q, roundBits_lt q⟩⟩

/-- `as f64` on a signed integer. -/
def ofInt (n : ℤ) : F64 := ofRat (n < 0) |(n : ℚ)|

/-- Infinity, where finite numbers are taken as their values: beyond the sum of any two. -/
def infinity : ℚ := 2 ^ 1025

/-- The value of an operation whose exact result is `q`. -/
def nearest (q : ℚ) : ℚ :=
  let f := ofRat (q < 0) |q|
  if f.isFinite then f.toRat else if q < 0 then -infinity else infinity

/-- The place of a number in the order of `f64::total_cmp`. -/
def rank (f : F64) : ℤ := if f.negative then -f.bits.val - 1 else f.bits.val

section Rounding

variable {k : ℕ} {q : ℚ}

theorem roundEven_natCast (n : ℕ) : roundEven n = n := by
  simp [roundEven]

theorem significand_lt (k : ℕ) : significand k < 2 ^ 53 := by
  unfold significand
  split <;> omega

theorem significand_pos (hk : k ≠ 0) : 0 < significand k := by
  unfold significand
  split <;> omega

theorem magnitude_pos (hk : k ≠ 0) : 0 < magnitude k := by
  have hpos : (0 : ℚ) < significand k := by exact_mod_cast significand_pos hk
  exact mul_pos hpos (by positivity)

theorem log_magnitude_lt (hk : k ≠ 0) : Int.log 2 (magnitude k) < 53 + exponent k := by
  rw [← Int.lt_zpow_iff_log_lt one_lt_two (magnitude_pos hk)]
  have hlt : (significand k : ℚ) < 2 ^ 53 := by exact_mod_cast significand_lt k
  calc magnitude k < 2 ^ 53 * 2 ^ exponent k := by
        unfold magnitude
        gcongr
    _ = ((2 : ℕ) : ℚ) ^ (53 + exponent k) := by
        rw [zpow_add₀ (by norm_num)]
        norm_cast

theorem le_log_magnitude (hk : 2 ^ 52 ≤ k) : 52 + exponent k ≤ Int.log 2 (magnitude k) := by
  rw [← Int.zpow_le_iff_le_log one_lt_two (magnitude_pos (by omega))]
  have hle : 2 ^ 52 ≤ significand k := by
    unfold significand
    split <;> omega
  have hle' : (2 ^ 52 : ℚ) ≤ significand k := by exact_mod_cast hle
  calc ((2 : ℕ) : ℚ) ^ (52 + exponent k) = 2 ^ 52 * 2 ^ exponent k := by
        rw [zpow_add₀ (by norm_num)]
        norm_cast
    _ ≤ magnitude k := by
        unfold magnitude
        gcongr

theorem unitExponent_magnitude (hk : k ≠ 0) : unitExponent (magnitude k) = exponent k := by
  have hlt := log_magnitude_lt hk
  unfold unitExponent
  by_cases hnormal : 2 ^ 52 ≤ k
  · have hle := le_log_magnitude hnormal
    have hone : 1 ≤ k / 2 ^ 52 := (Nat.one_le_div_iff (by decide)).mpr hnormal
    unfold exponent at *
    omega
  · have hzero : k / 2 ^ 52 = 0 := Nat.div_eq_of_lt (by omega)
    unfold exponent at *
    omega

/-- The value of finite bits rounds to these bits. -/
theorem roundBits_magnitude (hk : k < infinityBits) : roundBits (magnitude k) = k := by
  by_cases hzero : k = 0
  · rw [hzero]
    decide +kernel
  · have hquotient : magnitude k / 2 ^ exponent k = (significand k : ℕ) := by
      unfold magnitude
      field_simp
    rw [roundBits, if_neg (magnitude_pos hzero).ne']
    dsimp only
    rw [unitExponent_magnitude hzero, hquotient, roundEven_natCast]
    unfold exponent significand infinityBits at *
    split <;> omega

theorem magnitude_le_succ (k : ℕ) : magnitude k ≤ magnitude (k + 1) := by
  by_cases hcarry : 2 ^ 52 ≤ k ∧ (k + 1) % 2 ^ 52 = 0
  · have hexp : exponent (k + 1) = exponent k + 1 := by
      unfold exponent
      omega
    have hsig : significand k ≤ 2 * significand (k + 1) := by
      unfold significand
      split <;> split <;> omega
    have hsig' : (significand k : ℚ) ≤ 2 * significand (k + 1) := by exact_mod_cast hsig
    calc magnitude k ≤ 2 * significand (k + 1) * 2 ^ exponent k := by
          unfold magnitude
          gcongr
      _ = magnitude (k + 1) := by
          unfold magnitude
          rw [hexp, zpow_add_one₀ (by norm_num)]
          ring
  · have hexp : exponent (k + 1) = exponent k := by
      unfold exponent
      omega
    have hsig : significand k ≤ significand (k + 1) := by
      unfold significand
      split <;> split <;> omega
    have hsig' : (significand k : ℚ) ≤ significand (k + 1) := by exact_mod_cast hsig
    unfold magnitude
    rw [hexp]
    gcongr

theorem magnitude_mono : Monotone magnitude := monotone_nat_of_le_succ magnitude_le_succ

/-- The order of `total_cmp` is the order of the values. -/
theorem toRat_le_of_rank_le {f g : F64} (h : f.rank ≤ g.rank) : f.toRat ≤ g.toRat := by
  have hnonneg : ∀ k, 0 ≤ magnitude k := fun k ↦ by
    unfold magnitude
    positivity
  obtain ⟨fneg, fbits⟩ := f
  obtain ⟨gneg, gbits⟩ := g
  cases fneg <;> cases gneg <;>
    simp only [rank, toRat, Bool.false_eq_true, if_false, if_true] at h ⊢
  · exact magnitude_mono (by omega)
  · omega
  · linarith [hnonneg fbits, hnonneg gbits]
  · exact neg_le_neg (magnitude_mono (by omega))

end Rounding

end F64

/-! ## Decimal texts -/

/-- The number `digits * 10 ^ exponent`. -/
structure Decimal where
  digits : ℕ
  exponent : ℤ
  deriving DecidableEq, Repr

namespace Decimal

def value (d : Decimal) : ℚ := d.digits * 10 ^ d.exponent

/-- A number below `10 ^ width` in exactly `width` digits. -/
def padded (width n : ℕ) : List Char :=
  List.replicate (width - (Nat.toDigits 10 n).length) '0' ++ Nat.toDigits 10 n

/-- The digits of a decimal, without an exponent. -/
def text (d : Decimal) : List Char :=
  if 0 ≤ d.exponent then Nat.toDigits 10 (d.digits * 10 ^ d.exponent.toNat)
  else
    let places := (-d.exponent).toNat
    Nat.toDigits 10 (d.digits / 10 ^ places) ++ '.' :: padded places (d.digits % 10 ^ places)

/-- The decimals with `n` significant digits next to a number, the nearer one first. -/
def neighbours (q : ℚ) (n : ℕ) : List Decimal :=
  let e := Int.log 10 q + 1 - n
  let below := ⌊q / 10 ^ e⌋₊
  if q / 10 ^ e - below < 1 / 2 then [⟨below, e⟩, ⟨below + 1, e⟩]
  else [⟨below + 1, e⟩, ⟨below, e⟩]

def exact (significand : ℕ) (exponent : ℤ) : Decimal :=
  if 0 ≤ exponent then ⟨significand * 2 ^ exponent.toNat, 0⟩
  else ⟨significand * 5 ^ (-exponent).toNat, exponent⟩

/-- The shortest decimal that rounds to finite bits. -/
def shortest (k : ℕ) : Decimal :=
  (((List.range 17).flatMap fun n ↦ neighbours (F64.magnitude k) (n + 1)).find?
    fun d ↦ F64.roundBits d.value = k).getD (exact (F64.significand k) (F64.exponent k))

/-- The exponent behind a mantissa: nothing, or a letter and a signed number. -/
def parseExponent : List Char → Option ℤ
  | [] => some 0
  | _ :: '-' :: cs => (parseDigits cs).map fun n ↦ -(n : ℤ)
  | _ :: '+' :: cs => (parseDigits cs).map Int.ofNat
  | _ :: cs => (parseDigits cs).map Int.ofNat

/-- The value of digits with an optional point and an optional exponent. -/
def parse (cs : List Char) : Option ℚ :=
  let (mantissa, exponent) := cs.span fun c ↦ c != 'e' && c != 'E'
  let (whole, point) := mantissa.span (· != '.')
  let fraction := point.drop 1
  match parseDigits (whole ++ fraction), parseExponent exponent with
  | some digits, some e => some (value ⟨digits, e - fraction.length⟩)
  | _, _ => none

end Decimal

namespace F64

/-- `Display` -/
def display (f : F64) : String :=
  if f.isNaN then "NaN"
  else
    let sign := if f.negative then ['-'] else []
    String.ofList (sign ++ if f.isFinite then (Decimal.shortest f.bits).text else "inf".toList)

/-- The bits that an unsigned text stands for. -/
def parseBits (cs : List Char) : Option (Fin (2 ^ 63)) :=
  let name := cs.map Char.toLower
  if name = "inf".toList ∨ name = "infinity".toList then some ⟨infinityBits, by decide⟩
  else if name = "nan".toList then some ⟨infinityBits + 2 ^ 51, by decide⟩
  else (Decimal.parse cs).map fun q ↦ ⟨roundBits q, roundBits_lt q⟩

/-- `parse::<f64>` -/
def parse (s : String) : Option F64 :=
  match s.toList with
  | '-' :: cs => (parseBits cs).map (⟨true, ·⟩)
  | '+' :: cs => (parseBits cs).map (⟨false, ·⟩)
  | cs => (parseBits cs).map (⟨false, ·⟩)

end F64

section RoundTrip

variable {cs : List Char} {n : ℕ}

theorem parseDigits_eq (hnil : cs ≠ []) (hdigits : ∀ c ∈ cs, c.isDigit = true) :
    parseDigits cs = some (Nat.ofDigitChars 10 cs 0) := by
  cases cs with
  | nil => exact absurd rfl hnil
  | cons c cs =>
      have hall := List.all_eq_true.mpr hdigits
      simp only [parseDigits, hall, if_true, Nat.ofDigitChars_eq_foldl, Nat.mul_comm]

theorem isDigit_of_mem_toDigits {c : Char} (hc : c ∈ Nat.toDigits 10 n) : c.isDigit = true :=
  Nat.isDigit_of_mem_toDigits (by decide) (by decide) hc

namespace Decimal

theorem isDigit_of_mem_padded {width : ℕ} {c : Char} (hc : c ∈ padded width n) :
    c.isDigit = true := by
  rcases List.mem_append.mp hc with hc | hc
  · rw [List.eq_of_mem_replicate hc]
    decide
  · exact isDigit_of_mem_toDigits hc

theorem ofDigitChars_padded (width : ℕ) :
    Nat.ofDigitChars 10 (padded width n) 0 = n := by
  rw [padded, Nat.ofDigitChars_append, Nat.ofDigitChars_replicate_zero, Nat.mul_zero,
    Nat.ofDigitChars_ten_toDigits]

theorem length_padded {width : ℕ} (hwidth : 0 < width) (hn : n < 10 ^ width) :
    (padded width n).length = width := by
  have hle : (Nat.toDigits 10 n).length ≤ width :=
    (Nat.length_toDigits_le_iff (by decide) hwidth).mpr hn
  rw [padded, List.length_append, List.length_replicate]
  omega

theorem value_exact (m : ℕ) (e : ℤ) : (exact m e).value = m * 2 ^ e := by
  unfold exact
  split
  · next he =>
      lift e to ℕ using he
      simp [value]
  · next he =>
      obtain ⟨k, rfl⟩ : ∃ k : ℕ, e = -(k : ℤ) := ⟨(-e).toNat, by omega⟩
      have hten : (10 : ℚ) ^ k = 5 ^ k * 2 ^ k := by rw [← mul_pow]; norm_num
      simp only [value, neg_neg, Int.toNat_natCast, Nat.cast_mul, Nat.cast_pow, Nat.cast_ofNat,
        zpow_neg, zpow_natCast, hten]
      field_simp

theorem roundBits_shortest {k : ℕ} (hk : k < F64.infinityBits) :
    F64.roundBits (shortest k).value = k := by
  unfold shortest
  cases hfind : List.find? _ _ with
  | none =>
      rw [Option.getD_none, value_exact]
      exact F64.roundBits_magnitude hk
  | some d =>
      have hrounds := List.find?_some hfind
      exact of_decide_eq_true hrounds

theorem span_eq_self {p : Char → Bool} (h : ∀ c ∈ cs, p c = true) : cs.span p = (cs, []) := by
  rw [List.span_eq_takeWhile_dropWhile, List.takeWhile_eq_self_iff.mpr h,
    List.dropWhile_eq_nil_iff.mpr h]

theorem span_append_cons {p : Char → Bool} {c : Char} {rest : List Char}
    (h : ∀ c ∈ cs, p c = true) (hc : p c = false) : (cs ++ c :: rest).span p = (cs, c :: rest) := by
  rw [List.span_eq_takeWhile_dropWhile, List.takeWhile_append_of_pos h,
    List.dropWhile_append_of_pos h, List.takeWhile_cons_of_neg (by simp [hc]),
    List.dropWhile_cons_of_neg (by simp [hc]), List.append_nil]

theorem digit_ne {c d : Char} (hc : c.isDigit = true) (hd : d.isDigit = false := by decide) :
    (c != d) = true := by
  rw [bne_iff_ne]
  rintro rfl
  rw [hc] at hd
  cases hd

/-- Digits are read as their value. -/
theorem parse_digits (hnil : cs ≠ []) (hdigits : ∀ c ∈ cs, c.isDigit = true) :
    parse cs = some (value ⟨Nat.ofDigitChars 10 cs 0, 0⟩) := by
  have hmantissa : cs.span (fun c ↦ c != 'e' && c != 'E') = (cs, []) := span_eq_self fun c hc ↦ by
    rw [digit_ne (hdigits c hc), digit_ne (hdigits c hc), Bool.true_and]
  have hwhole : cs.span (· != '.') = (cs, []) := span_eq_self fun c hc ↦ digit_ne (hdigits c hc)
  simp only [parse, hmantissa, hwhole, List.drop_nil, List.append_nil, parseDigits_eq hnil hdigits,
    parseExponent, List.length_nil, Nat.cast_zero, sub_zero]

/-- Digits with a point among them. -/
theorem parse_point {fraction : List Char} (hnil : cs ≠ []) (hdigits : ∀ c ∈ cs, c.isDigit = true)
    (hfraction : ∀ c ∈ fraction, c.isDigit = true) :
    parse (cs ++ '.' :: fraction) =
      some (value ⟨Nat.ofDigitChars 10 (cs ++ fraction) 0, -fraction.length⟩) := by
  have hmantissa : (cs ++ '.' :: fraction).span (fun c ↦ c != 'e' && c != 'E') =
      (cs ++ '.' :: fraction, []) := span_eq_self fun c hc ↦ by
    rcases List.mem_append.mp hc with hc | hc
    · rw [digit_ne (hdigits c hc), digit_ne (hdigits c hc), Bool.true_and]
    · rcases List.mem_cons.mp hc with rfl | hc
      · decide
      · rw [digit_ne (hfraction c hc), digit_ne (hfraction c hc), Bool.true_and]
  have hwhole : (cs ++ '.' :: fraction).span (· != '.') = (cs, '.' :: fraction) :=
    span_append_cons (fun c hc ↦ digit_ne (hdigits c hc)) (by decide)
  have hall : ∀ c ∈ cs ++ fraction, c.isDigit = true := fun c hc ↦
    (List.mem_append.mp hc).elim (hdigits c) (hfraction c)
  have happend : cs ++ fraction ≠ [] := List.append_ne_nil_of_left_ne_nil hnil fraction
  simp only [parse, hmantissa, hwhole, List.drop_succ_cons, List.drop_zero,
    parseDigits_eq happend hall, parseExponent, zero_sub]

theorem parse_text (d : Decimal) : parse d.text = some d.value := by
  obtain ⟨digits, e⟩ := d
  unfold text
  dsimp only
  split
  · next he =>
      rw [parse_digits Nat.toDigits_ne_nil fun c ↦ isDigit_of_mem_toDigits,
        Nat.ofDigitChars_ten_toDigits]
      lift e to ℕ using he
      simp [value]
  · next he =>
      obtain ⟨k, rfl⟩ : ∃ k : ℕ, e = -(k : ℤ) := ⟨(-e).toNat, by omega⟩
      have hk : 0 < k := by omega
      simp only [neg_neg, Int.toNat_natCast]
      have hlength := length_padded hk (Nat.mod_lt digits (Nat.pow_pos (by decide)))
      rw [parse_point Nat.toDigits_ne_nil (fun c ↦ isDigit_of_mem_toDigits)
        (fun c ↦ isDigit_of_mem_padded), hlength, Nat.ofDigitChars_append,
        Nat.ofDigitChars_eq_ofDigitChars_zero, ofDigitChars_padded, hlength,
        Nat.ofDigitChars_ten_toDigits, Nat.div_add_mod]

theorem text_eq_cons (d : Decimal) : ∃ c cs, d.text = c :: cs ∧ c.isDigit = true := by
  have hcons : ∀ n rest, ∃ c cs, Nat.toDigits 10 n ++ rest = c :: cs ∧ c.isDigit = true := by
    intro n rest
    obtain ⟨c, cs, hcs⟩ := List.exists_cons_of_ne_nil (Nat.toDigits_ne_nil (n := n) (b := 10))
    refine ⟨c, cs ++ rest, by rw [hcs, List.cons_append], isDigit_of_mem_toDigits (n := n) ?_⟩
    rw [hcs]
    exact List.mem_cons_self
  unfold text
  split
  · have h := hcons (d.digits * 10 ^ d.exponent.toNat) []
    rwa [List.append_nil] at h
  · exact hcons _ _

end Decimal

namespace F64

theorem toLower_of_isDigit {c : Char} (hc : c.isDigit = true) : c.toLower = c := by
  unfold Char.toLower
  have hlow : ¬ (c.val ≥ 'A'.val ∧ c.val ≤ 'Z'.val) := by
    simp only [Char.isDigit, Bool.and_eq_true, decide_eq_true_eq] at hc
    rintro ⟨hge, -⟩
    exact absurd (UInt32.le_trans hge hc.2) (by decide)
  exact dif_neg hlow

theorem parseBits_text (d : Decimal) :
    parseBits d.text = some ⟨roundBits d.value, roundBits_lt d.value⟩ := by
  obtain ⟨c, cs, htext, hc⟩ := d.text_eq_cons
  have hname : ∀ (a : Char) as, a.isDigit = false → d.text.map Char.toLower ≠ a :: as := by
    intro a as ha h
    rw [htext, List.map_cons, toLower_of_isDigit hc] at h
    rw [← (List.cons.inj h).1, hc] at ha
    cases ha
  have hinf : d.text.map Char.toLower ≠ "inf".toList := hname 'i' _ (by decide)
  have hinfinity : d.text.map Char.toLower ≠ "infinity".toList := hname 'i' _ (by decide)
  have hnan : d.text.map Char.toLower ≠ "nan".toList := hname 'n' _ (by decide)
  simp only [parseBits, hinf, hinfinity, hnan, or_self, if_false, Decimal.parse_text,
    Option.map_some]

/-- The number that a text stands for: there is one text for all that is no number. -/
def canonical (f : F64) : F64 :=
  if f.isNaN then ⟨false, ⟨infinityBits + 2 ^ 51, by decide⟩⟩ else f

theorem canonical_canonical (f : F64) : f.canonical.canonical = f.canonical := by
  unfold canonical
  split <;> simp_all [isNaN, infinityBits]

/-- The text of a number is read as that number. -/
theorem parse_display (f : F64) : parse f.display = some f.canonical := by
  unfold canonical display
  split
  · rfl
  · next hnan =>
      have hbits : ∀ cs, cs = (if f.isFinite then (Decimal.shortest f.bits).text else "inf".toList) →
          parseBits cs = some f.bits ∧ cs.head? ≠ some '+' ∧ cs.head? ≠ some '-' := by
        rintro cs rfl
        split
        · next hfinite =>
            have hround := Decimal.roundBits_shortest (of_decide_eq_true hfinite)
            obtain ⟨c, cs, htext, hc⟩ := (Decimal.shortest f.bits).text_eq_cons
            rw [parseBits_text]
            refine ⟨congrArg some (Fin.ext hround), ?_, ?_⟩ <;>
              · rw [htext, List.head?_cons, Ne, Option.some.injEq]
                rintro rfl
                exact absurd hc (by decide)
        · next hfinite =>
            have hle : infinityBits ≤ f.bits.val := by
              simpa [isFinite] using hfinite
            have hge : f.bits.val ≤ infinityBits := by
              simpa [isNaN] using hnan
            exact ⟨congrArg some (Fin.ext (le_antisymm hle hge)), by decide, by decide⟩
      obtain ⟨hparse, hplus, hminus⟩ := hbits _ rfl
      revert hparse hplus hminus
      generalize (if f.isFinite then (Decimal.shortest f.bits).text else "inf".toList) = cs
      intro hparse hplus hminus
      obtain ⟨negative, bits⟩ := f
      cases negative with
      | true => simp [parse, hparse]
      | false =>
          simp only [Bool.false_eq_true, if_false, List.nil_append]
          unfold parse
          rw [String.toList_ofList]
          split
          · simp at hminus
          · simp at hplus
          · rw [hparse]
            rfl

/-- Half way between two numbers, the even one is read. -/
example : (parse "9007199254740993").map display = some "9007199254740992" := by decide +kernel

end F64

end RoundTrip

end Oxiproxy
