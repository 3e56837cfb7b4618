import Oxiproxy.Controller.Entity

/-!
# Traffic quotas and their reset

When a row's traffic counters are due for a reset, what a reset does to the
row, and how totals are compared with a quota.
-/

namespace Oxiproxy.Controller

/-- `as i64` on a float: toward zero, saturating. -/
def truncI64 (x : ℚ) : ℤ :=
  max (-2 ^ 63) (min (2 ^ 63 - 1) (if 0 ≤ x then ⌊x⌋ else ⌈x⌉))

def gbToBytes (gb : ℚ) : ℤ := truncI64 (gb * 1024 * 1024 * 1024)

/-- Whether counters last reset at `lastReset` belong to an earlier period. -/
def resetDue (cycle : String) (lastReset : Option NaiveDateTime) (now : NaiveDateTime) : Bool :=
  match lastReset with
  | none => true
  | some last =>
      if cycle = "daily" then last.date < now.date
      else if cycle = "monthly" then
        last.date.year < now.date.year ||
          (now.date.year == last.date.year && last.date.month < now.date.month)
      else false

def shouldResetTraffic (now : NaiveDateTime) (user : User) : Bool :=
  resetDue user.trafficResetCycle user.lastResetAt now

def shouldResetClientTraffic (now : NaiveDateTime) (client : Client) : Bool :=
  resetDue client.trafficResetCycle client.lastResetAt now

def shouldResetNodeTraffic (now : NaiveDateTime) (node : Node) : Bool :=
  resetDue node.trafficResetCycle node.lastResetAt now

def resetUserTraffic (now : NaiveDateTime) (user : User) : User :=
  { user with
    totalBytesSent := 0
    totalBytesReceived := 0
    isTrafficExceeded := false
    lastResetAt := some now
    updatedAt := now }

def resetClientTraffic (now : NaiveDateTime) (client : Client) : Client :=
  { client with
    totalBytesSent := 0
    totalBytesReceived := 0
    isTrafficExceeded := false
    lastResetAt := some now
    updatedAt := now }

/-- The reset of a node's counters; in the source it occurs only inside the
flush of traffic reports. -/
def resetNodeTraffic (now : NaiveDateTime) (node : Node) : Node :=
  { node with
    totalBytesSent := 0
    totalBytesReceived := 0
    isTrafficExceeded := false
    lastResetAt := some now
    updatedAt := now }

/-- The comparison of a total with a quota. -/
def quotaExhausted (quota : Option ℚ) (totalUsed : ℤ) : Bool :=
  quota.any fun gb ↦ gbToBytes gb ≤ totalUsed

/-- A reset is due exactly when the last one was in an earlier period. -/
theorem resetDue_some_iff (cycle : String) (last now : NaiveDateTime) :
    resetDue cycle (some last) now = true ↔ last.period cycle < now.period cycle := by
  unfold resetDue NaiveDateTime.period
  split_ifs with hdaily hmonthly
  · rw [decide_eq_true_eq, NaiveDate.lt_iff_key]
  · simp only [Bool.or_eq_true, decide_eq_true_eq, Bool.and_eq_true, beq_iff_eq,
      Prod.Lex.toLex_lt_toLex, lt_self_iff_false, and_false, or_false]
    constructor
    · rintro (hlt | ⟨heq, hlt⟩)
      · exact .inl hlt
      · exact .inr ⟨heq.symm, hlt⟩
    · rintro (hlt | ⟨heq, hlt⟩)
      · exact .inl hlt
      · exact .inr ⟨heq.symm, hlt⟩
  · simp

theorem quotaExhausted_zero_eq_false_iff (quota : Option ℚ) :
    quotaExhausted quota 0 = false ↔ ∀ gb ∈ quota, 0 < gbToBytes gb := by
  cases quota <;> simp [quotaExhausted]

end Oxiproxy.Controller
