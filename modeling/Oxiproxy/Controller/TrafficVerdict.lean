import Oxiproxy.Controller.Gates

/-!
# The verdict on a traffic limit

The checks of a user's and of a client's traffic limit.  A check either resets
the row, and then answers without a look at the quota, or compares the totals of
the row with it.  Their sum is an `i64` that wraps around.
-/

namespace Oxiproxy.Controller

/-- The nearest natural number, the even one of two. -/
def roundHalfEven (x : ℚ) : ℕ :=
  let n := ⌊x⌋.toNat
  if x - n < 1 / 2 ∨ x - n = 1 / 2 ∧ n % 2 = 0 then n else n + 1

/-- The format `{:.2}`. -/
def formatTwoPlaces (x : ℚ) : String :=
  let n := roundHalfEven (|x| * 100)
  (if x < 0 then "-" else "") ++ toString (n / 100) ++ "." ++
    (if n % 100 < 10 then "0" else "") ++ toString (n % 100)

example : formatTwoPlaces (41 / 8) = "5.12" := by decide +kernel

def bytesToGb (bytes : ℤ) : ℚ := bytes / 1024 / 1024 / 1024

/-- The quotas of subscriptions are merged into the user's own columns. -/
def getUserFinalQuota (user : User) : Option ℚ × Option ℤ × Option ℤ × Option ℤ :=
  (user.trafficQuotaGb, user.maxPortCount, user.maxNodeCount, user.maxClientCount)

/-- The comparison of the totals with a quota, and the reason when they reach it. -/
def quotaVerdict (quota : Option ℚ) (totalUsed : ℤ) : Bool × String :=
  match quota with
  | none => (false, "")
  | some quotaGb =>
      if gbToBytes quotaGb ≤ totalUsed then
        (true, "流量配额已用尽: " ++ formatTwoPlaces (bytesToGb totalUsed) ++ " GB / " ++
          formatTwoPlaces quotaGb ++ " GB")
      else (false, "")

theorem quotaVerdict_fst (quota : Option ℚ) (totalUsed : ℤ) :
    (quotaVerdict quota totalUsed).1 = quotaExhausted quota totalUsed := by
  cases quota with
  | none => rfl
  | some quotaGb =>
      simp only [quotaVerdict, quotaExhausted, Option.any_some]
      by_cases h : gbToBytes quotaGb ≤ totalUsed <;> simp [h]

/-- Rows with totals, a quota and a periodic reset. -/
structure Metered (ρ : Type) [Keyed ℤ ρ] where
  due : NaiveDateTime → ρ → Bool
  reset : NaiveDateTime → ρ → ρ
  quota : ρ → Option ℚ
  total : ρ → ℤ
  key_reset : ∀ now r, key (reset now r) = key r
  due_reset : ∀ now r, due now (reset now r) = false
  quota_reset : ∀ now r, quota (reset now r) = quota r
  total_reset : ∀ now r, total (reset now r) = 0

/-- No reset is due in the period of the last one. -/
theorem resetDue_self (cycle : String) (now : NaiveDateTime) :
    resetDue cycle (some now) now = false := by
  rw [← Bool.not_eq_true, resetDue_some_iff]
  exact lt_irrefl _

def userMeter : Metered User where
  due := shouldResetTraffic
  reset := resetUserTraffic
  quota user := (getUserFinalQuota user).1
  total := User.totalUsed
  key_reset _ _ := rfl
  due_reset now user := resetDue_self user.trafficResetCycle now
  quota_reset _ _ := rfl
  total_reset _ _ := rfl

def clientMeter : Metered Client where
  due := shouldResetClientTraffic
  reset := resetClientTraffic
  quota client := client.trafficQuotaGb
  total := Client.totalUsed
  key_reset _ _ := rfl
  due_reset now client := resetDue_self client.trafficResetCycle now
  quota_reset _ _ := rfl
  total_reset _ _ := rfl

namespace Metered

variable {ρ : Type} [Keyed ℤ ρ] (m : Metered ρ) {t : Table ρ} {id : ℤ} {r : ρ}
  {now : NaiveDateTime}

/-- The check of the row with an id: the table afterwards and the verdict. -/
def check (now : NaiveDateTime) (t : Table ρ) (id : ℤ) : Table ρ × Bool × String :=
  match t.find id with
  | none => (t, false, "")
  | some r =>
      if m.due now r then (t.modify id (m.reset now) (m.key_reset now), false, "")
      else (t, quotaVerdict (m.quota r) (wrapI64 (m.total r)))

/-- The verdict is that of the quota and the totals stored after the check, and
a second check gives it again. -/
def Consistent (now : NaiveDateTime) (t : Table ρ) (id : ℤ) : Prop :=
  ((m.check now t id).2.1 = true ↔ ∃ r ∈ (m.check now t id).1.find id,
    ∃ gb ∈ m.quota r, gbToBytes gb ≤ m.total r) ∧
    (m.check now (m.check now t id).1 id).2.1 = (m.check now t id).2.1

variable {m}

theorem quotaExhausted_iff {quota : Option ℚ} {totalUsed : ℤ} :
    quotaExhausted quota totalUsed = true ↔ ∃ gb ∈ quota, gbToBytes gb ≤ totalUsed := by
  cases quota <;> simp [quotaExhausted]

theorem check_of_due (hrow : t.find id = some r) (hdue : m.due now r = true) :
    m.check now t id = (t.modify id (m.reset now) (m.key_reset now), false, "") := by
  simp only [check, hrow, if_pos hdue]

theorem check_of_not_due (hrow : t.find id = some r) (hdue : m.due now r = false) :
    m.check now t id = (t, quotaVerdict (m.quota r) (wrapI64 (m.total r))) := by
  simp only [check, hrow, hdue, Bool.false_eq_true, if_false]

theorem quotaExhausted_eq_iff {quota : Option ℚ} {n k : ℤ} :
    (quotaExhausted quota n = true ↔ quotaExhausted quota k = true) ↔
      ∀ gb ∈ quota, (gbToBytes gb ≤ n ↔ gbToBytes gb ≤ k) := by
  cases quota <;> simp [quotaExhausted]

theorem consistent_iff_of_not_due (hrow : t.find id = some r) (hdue : m.due now r = false) :
    m.Consistent now t id ↔
      ∀ gb ∈ m.quota r, (gbToBytes gb ≤ wrapI64 (m.total r) ↔ gbToBytes gb ≤ m.total r) := by
  have hstored : (∃ r ∈ t.find id, ∃ gb ∈ m.quota r, gbToBytes gb ≤ m.total r) ↔
      quotaExhausted (m.quota r) (m.total r) = true := by
    rw [quotaExhausted_iff]
    constructor
    · rintro ⟨r', hrow', h⟩
      obtain rfl := Option.some.inj (hrow.symm.trans hrow')
      exact h
    · exact fun h ↦ ⟨r, hrow, h⟩
  unfold Consistent
  rw [check_of_not_due hrow hdue, check_of_not_due hrow hdue, and_iff_left rfl, quotaVerdict_fst,
    hstored, quotaExhausted_eq_iff]

theorem consistent_iff_of_due (hrow : t.find id = some r) (hdue : m.due now r = true) :
    m.Consistent now t id ↔ ∀ gb ∈ m.quota r, 0 < gbToBytes gb := by
  have hreset : (t.modify id (m.reset now) (m.key_reset now)).find id = some (m.reset now r) := by
    rw [Table.find_modify, if_pos rfl, hrow, Option.map_some]
  unfold Consistent
  rw [check_of_due hrow hdue, check_of_not_due hreset (m.due_reset now r), quotaVerdict_fst,
    m.quota_reset, m.total_reset, wrapI64_zero, quotaExhausted_zero_eq_false_iff,
    and_iff_right_of_imp]
  intro hquota
  simp only [Bool.false_eq_true, false_iff]
  rintro ⟨r', hrow', gb, hgb, hle⟩
  obtain rfl := Option.some.inj (hreset.symm.trans hrow')
  rw [m.quota_reset] at hgb
  rw [m.total_reset] at hle
  exact absurd (hquota gb hgb) (not_lt.mpr hle)

/-- A check is consistent exactly when a quota of a row due for a reset allows at
least one byte, and that of another row does not lie between the sum of its
totals and what the sum wraps around to. -/
theorem consistent_iff : m.Consistent now t id ↔ ∀ r ∈ t.find id, ∀ gb ∈ m.quota r,
    if m.due now r then 0 < gbToBytes gb
    else (gbToBytes gb ≤ wrapI64 (m.total r) ↔ gbToBytes gb ≤ m.total r) := by
  cases hrow : t.find id with
  | none =>
      have hcheck : m.check now t id = (t, false, "") := by simp only [check, hrow]
      simp [Consistent, hcheck, hrow]
  | some r =>
      cases hdue : m.due now r with
      | false => simp [consistent_iff_of_not_due hrow hdue, hdue]
      | true => simp [consistent_iff_of_due hrow hdue, hdue]

end Metered

/-! ## Users and clients -/

/-- The check of a user's limit. -/
def checkUserTrafficLimit (now : NaiveDateTime) (db : Db) (userId : ℤ) : Db × Bool × String :=
  let (users, verdict) := userMeter.check now db.users userId
  ({ db with users }, verdict)

/-- The check of a client's limit. -/
def checkClientTrafficLimit (now : NaiveDateTime) (db : Db) (clientId : ℤ) : Db × Bool × String :=
  let (clients, verdict) := clientMeter.check now db.clients clientId
  ({ db with clients }, verdict)

/-- The verdict on a user is that of the row stored after the call, and of a
second call. -/
def UserVerdict (now : NaiveDateTime) (db : Db) (userId : ℤ) : Prop :=
  ((checkUserTrafficLimit now db userId).2.1 = true ↔
    ∃ user ∈ (checkUserTrafficLimit now db userId).1.users.find userId,
      ∃ gb ∈ user.trafficQuotaGb, gbToBytes gb ≤ user.totalUsed) ∧
    (checkUserTrafficLimit now (checkUserTrafficLimit now db userId).1 userId).2.1 =
      (checkUserTrafficLimit now db userId).2.1

def ClientVerdict (now : NaiveDateTime) (db : Db) (clientId : ℤ) : Prop :=
  ((checkClientTrafficLimit now db clientId).2.1 = true ↔
    ∃ client ∈ (checkClientTrafficLimit now db clientId).1.clients.find clientId,
      ∃ gb ∈ client.trafficQuotaGb, gbToBytes gb ≤ client.totalUsed) ∧
    (checkClientTrafficLimit now (checkClientTrafficLimit now db clientId).1 clientId).2.1 =
      (checkClientTrafficLimit now db clientId).2.1

/-- The verdicts hold exactly of rows without a quota, of those due for a reset
whose quota is at least a byte, and of the others unless their quota lies between
the sum of the totals and the `i64` it wraps around to. -/
theorem trafficVerdict_iff (now : NaiveDateTime) (db : Db) (id : ℤ) :
    (UserVerdict now db id ↔ ∀ user ∈ db.users.find id, ∀ gb ∈ user.trafficQuotaGb,
      if shouldResetTraffic now user then 0 < gbToBytes gb
      else (gbToBytes gb ≤ wrapI64 user.totalUsed ↔ gbToBytes gb ≤ user.totalUsed)) ∧
    (ClientVerdict now db id ↔ ∀ client ∈ db.clients.find id, ∀ gb ∈ client.trafficQuotaGb,
      if shouldResetClientTraffic now client then 0 < gbToBytes gb
      else (gbToBytes gb ≤ wrapI64 client.totalUsed ↔ gbToBytes gb ≤ client.totalUsed)) :=
  ⟨userMeter.consistent_iff, clientMeter.consistent_iff⟩

/-- A sum that fits is compared as it is. -/
example (user : User) (hlow : -2 ^ 63 ≤ user.totalUsed) (hhigh : user.totalUsed < 2 ^ 63)
    (gb : ℚ) : gbToBytes gb ≤ wrapI64 user.totalUsed ↔ gbToBytes gb ≤ user.totalUsed := by
  rw [wrapI64_of_fits hlow hhigh]

/-- A user with a quota of nothing, never reset: the first check admits the
user, the second does not. -/
theorem not_userVerdict_zeroQuota :
    ∃ db : Db, (checkUserTrafficLimit firstOfApril db 1).2.1 = false ∧
      (checkUserTrafficLimit firstOfApril (checkUserTrafficLimit firstOfApril db 1).1 1).2.1 = true ∧
      ¬ UserVerdict firstOfApril db 1 := by
  let user : User := { marchUser false with trafficQuotaGb := some 0, lastResetAt := none }
  let db : Db := { marchDb false with users := ⟨[user], List.nodup_singleton _⟩ }
  have hfirst : (checkUserTrafficLimit firstOfApril db 1).2.1 = false := by decide +kernel
  have hsecond : (checkUserTrafficLimit firstOfApril
      (checkUserTrafficLimit firstOfApril db 1).1 1).2.1 = true := by decide +kernel
  refine ⟨db, hfirst, hsecond, fun h ↦ ?_⟩
  have hsame := h.2
  rw [hfirst, hsecond] at hsame
  cases hsame

end Oxiproxy.Controller
