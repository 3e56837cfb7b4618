import Mathlib

/-!
# Counters with periods

A counter adds up amounts and starts afresh when an amount arrives in a later
period than the one in which it last started.  Each amount carries two
periods: the one its arrival falls into, and the one that is recorded when the
counter starts afresh with it.  Histories list the latest amount first.
-/

namespace PeriodCounter

structure Event (P B : Type*) where
  recorded : P
  arrival : P
  amount : B

structure Counter (P B : Type*) where
  total : B
  started : Option P

variable {P B : Type*} [LinearOrder P] [AddCommMonoid B]

def Counter.due (c : Counter P B) (p : P) : Bool := c.started.all (· < p)

def Counter.add (c : Counter P B) (e : Event P B) : Counter P B :=
  if c.due e.arrival then ⟨e.amount, some e.recorded⟩ else { c with total := c.total + e.amount }

/-- The sum of the amounts that arrived in a period. -/
def periodTotal (p : P) (history : List (Event P B)) : B :=
  ((history.filter fun e ↦ e.arrival = p).map Event.amount).sum

theorem periodTotal_cons_self (e : Event P B) (history : List (Event P B)) :
    periodTotal e.arrival (e :: history) = e.amount + periodTotal e.arrival history := by
  simp [periodTotal]

theorem periodTotal_eq_zero {p : P} {history : List (Event P B)}
    (h : ∀ e ∈ history, e.arrival ≠ p) : periodTotal p history = 0 := by
  have hnil : (history.filter fun e ↦ e.arrival = p) = [] :=
    List.filter_eq_nil_iff.mpr fun e he ↦ by simpa using h e he
  rw [periodTotal, hnil, List.map_nil, List.sum_nil]

/-- What a counter holds after a history: the total of the latest period, and a
start recorded by an amount that arrived in it. -/
def Counts (c : Counter P B) : List (Event P B) → Prop
  | [] => c = ⟨0, none⟩
  | e :: history =>
      c.total = periodTotal e.arrival (e :: history) ∧
        (∀ o ∈ history, o.arrival ≤ e.arrival) ∧
        ∃ o ∈ e :: history, o.arrival = e.arrival ∧ c.started = some o.recorded

section Add

variable {c : Counter P B} {history : List (Event P B)} {e : Event P B}

/-- If something has arrived in the period of `e`, so has the latest amount. -/
theorem Counts.arrival_eq {last o : Event P B} (hc : Counts c (last :: history))
    (hlate : last.arrival ≤ e.arrival) (ho : o ∈ last :: history) (heq : o.arrival = e.arrival) :
    last.arrival = e.arrival := by
  refine hlate.antisymm ?_
  rcases List.mem_cons.mp ho with rfl | ho
  · exact heq.ge
  · exact heq.ge.trans (hc.2.1 o ho)

/-- The counter is due for a fresh start exactly when nothing has arrived in the
current period yet, provided that what arrived in it was recorded in it. -/
theorem Counts.due_iff (hc : Counts c history)
    (hlate : ∀ o ∈ history, o.recorded ≤ o.arrival ∧ o.arrival ≤ e.arrival)
    (hrecorded : ∀ o ∈ history, o.arrival = e.arrival → o.recorded = e.arrival) :
    c.due e.arrival = true ↔ ∀ o ∈ history, o.arrival ≠ e.arrival := by
  cases history with
  | nil =>
      have hnew : c = ⟨0, none⟩ := hc
      simp [hnew, Counter.due]
  | cons last older =>
      obtain ⟨-, -, o, ho, harrival, hstarted⟩ := id hc
      have hlast := (hlate last List.mem_cons_self).2
      have hdue : c.due e.arrival = true ↔ o.recorded < e.arrival := by
        simp [Counter.due, hstarted]
      rw [hdue]
      constructor
      · intro hlt o' ho' heq
        have hequal := hrecorded o ho (harrival.trans (hc.arrival_eq hlast ho' heq))
        exact absurd hequal hlt.ne
      · intro hnone
        calc o.recorded ≤ o.arrival := (hlate o ho).1
          _ = last.arrival := harrival
          _ < e.arrival := lt_of_le_of_ne hlast (hnone last List.mem_cons_self)

theorem Counts.add (hc : Counts c history)
    (hlate : ∀ o ∈ history, o.recorded ≤ o.arrival ∧ o.arrival ≤ e.arrival)
    (hrecorded : ∀ o ∈ history, o.arrival = e.arrival → o.recorded = e.arrival) :
    Counts (c.add e) (e :: history) := by
  have hdue := hc.due_iff hlate hrecorded
  unfold Counter.add
  split_ifs with h
  · have hnone := hdue.mp h
    refine ⟨?_, fun o ho ↦ (hlate o ho).2, e, List.mem_cons_self, rfl, rfl⟩
    rw [periodTotal_cons_self, periodTotal_eq_zero hnone, add_zero]
  · rw [hdue] at h
    push Not at h
    obtain ⟨o', ho', heq⟩ := h
    cases history with
    | nil => cases ho'
    | cons last older =>
        have hlast := hc.arrival_eq (hlate last List.mem_cons_self).2 ho' heq
        obtain ⟨htotal, -, o, ho, harrival, hstarted⟩ := hc
        refine ⟨?_, fun o ho ↦ (hlate o ho).2, o, List.mem_cons_of_mem e ho,
          harrival.trans hlast, hstarted⟩
        rw [periodTotal_cons_self, htotal, hlast, add_comm]

end Add

end PeriodCounter
