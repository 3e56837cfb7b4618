import Mathlib

/-!
# Calendar time

Naive UTC timestamps, their order, and the calendar periods the traffic
counters are kept for.
-/

namespace Oxiproxy

def isLeapYear (year : ℤ) : Bool := 4 ∣ year ∧ (¬ 100 ∣ year ∨ 400 ∣ year)

def daysInMonth (year : ℤ) (month : ℕ) : ℕ :=
  if month = 2 then if isLeapYear year then 29 else 28
  else if month ∈ [4, 6, 9, 11] then 30 else 31

/-- A date of the proleptic Gregorian calendar. -/
structure NaiveDate where
  year : ℤ
  month : ℕ
  day : ℕ
  month_valid : 1 ≤ month ∧ month ≤ 12
  day_valid : 1 ≤ day ∧ day ≤ daysInMonth year month
  deriving DecidableEq

/-- A date with the nanoseconds since midnight; a leap second may exceed the day. -/
structure NaiveDateTime where
  date : NaiveDate
  nanos : ℕ
  nanos_valid : nanos < 86401 * 10 ^ 9
  deriving DecidableEq

namespace NaiveDate

/-- Chronological position of a date. -/
def key (d : NaiveDate) : ℤ ×ₗ ℕ ×ₗ ℕ := toLex (d.year, toLex (d.month, d.day))

/-- Chronological position of the month of a date. -/
def monthKey (d : NaiveDate) : ℤ ×ₗ ℕ := toLex (d.year, d.month)

theorem key_injective : Function.Injective key := by
  rintro ⟨y, m, d, hm, hd⟩ ⟨y', m', d', hm', hd'⟩ h
  simp only [key, EmbeddingLike.apply_eq_iff_eq, Prod.mk.injEq] at h
  obtain ⟨rfl, rfl, rfl⟩ := h
  rfl

instance : LinearOrder NaiveDate := LinearOrder.lift' key key_injective

theorem le_iff_key {a b : NaiveDate} : a ≤ b ↔ a.key ≤ b.key := Iff.rfl

theorem lt_iff_key {a b : NaiveDate} : a < b ↔ a.key < b.key := Iff.rfl

theorem monthKey_mono {a b : NaiveDate} (h : a ≤ b) : a.monthKey ≤ b.monthKey := by
  simp only [le_iff_key, key, Prod.Lex.toLex_le_toLex] at h
  rw [monthKey, monthKey, Prod.Lex.toLex_le_toLex]
  rcases h with hlt | ⟨heq, hlt | ⟨hmonth, -⟩⟩
  · exact .inl hlt
  · exact .inr ⟨heq, hlt.le⟩
  · exact .inr ⟨heq, hmonth.le⟩

def padLeft (width : ℕ) (n : ℕ) : String :=
  let digits := toString n
  String.ofList (List.replicate (width - digits.length) '0') ++ digits

/-- `format("%Y-%m-%d")`: years outside 0–9999 carry a sign. -/
def format (d : NaiveDate) : String :=
  let year :=
    if 0 ≤ d.year ∧ d.year ≤ 9999 then padLeft 4 d.year.toNat
    else (if 0 ≤ d.year then "+" else "-") ++ padLeft 4 d.year.natAbs
  year ++ "-" ++ padLeft 2 d.month ++ "-" ++ padLeft 2 d.day

/-- The last day of a month, and the day after it. -/
def lastOfMarch : NaiveDate := ⟨2026, 3, 31, by decide, by decide⟩

def firstOfApril : NaiveDate := ⟨2026, 4, 1, by decide, by decide⟩

end NaiveDate

namespace NaiveDateTime

def key (t : NaiveDateTime) : NaiveDate ×ₗ ℕ := toLex (t.date, t.nanos)

theorem key_injective : Function.Injective key := by
  rintro ⟨d, n, hn⟩ ⟨d', n', hn'⟩ h
  simp only [key, EmbeddingLike.apply_eq_iff_eq, Prod.mk.injEq] at h
  obtain ⟨rfl, rfl⟩ := h
  rfl

theorem midnight_valid : 0 < 86401 * 10 ^ 9 := by decide

/-- The Unix epoch. -/
instance : Inhabited NaiveDateTime := ⟨⟨⟨1970, 1, 1, by decide, by decide⟩, 0, midnight_valid⟩⟩

instance : LinearOrder NaiveDateTime := LinearOrder.lift' key key_injective

theorem date_mono {a b : NaiveDateTime} (h : a ≤ b) : a.date ≤ b.date := by
  have hkey : a.key ≤ b.key := h
  rw [key, key, Prod.Lex.toLex_le_toLex] at hkey
  rcases hkey with hlt | ⟨heq, -⟩
  · exact hlt.le
  · exact heq.le

/-- The calendar period of an instant, for a reset cycle: its day, its month,
or the same period for all instants. -/
def period (cycle : String) (t : NaiveDateTime) : ℤ ×ₗ ℕ ×ₗ ℕ :=
  if cycle = "daily" then t.date.key
  else if cycle = "monthly" then toLex (t.date.year, toLex (t.date.month, 0))
  else toLex (0, toLex (0, 0))

theorem period_mono (cycle : String) {a b : NaiveDateTime} (h : a ≤ b) :
    a.period cycle ≤ b.period cycle := by
  have hdate := date_mono h
  unfold period
  split_ifs
  · exact hdate
  · have hmonth := NaiveDate.monthKey_mono hdate
    rw [NaiveDate.monthKey, NaiveDate.monthKey, Prod.Lex.toLex_le_toLex] at hmonth
    rw [Prod.Lex.toLex_le_toLex, Prod.Lex.toLex_le_toLex]
    rcases hmonth with hlt | ⟨heq, hle⟩
    · exact .inl hlt
    · refine .inr ⟨heq, ?_⟩
      rcases lt_or_eq_of_le hle with hlt | hmeq
      · exact .inl hlt
      · exact .inr ⟨hmeq, Nat.le_refl 0⟩
  · exact le_rfl

end NaiveDateTime

end Oxiproxy
