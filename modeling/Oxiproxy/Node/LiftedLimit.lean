import Oxiproxy.Node.TokenBucket

/-!
# Lifting the limit while calls wait

A call tests the rate on entry only.  Once it waits it asks for its tokens again
whenever it is woken, and at rate zero no refill brings any.  What is left of the
bucket, and what is missing, is rounded as often as a call takes tokens.
-/

namespace Oxiproxy.Node

open Transition

namespace ConsumeCall

def Waiting (call : ConsumeCall) : Prop := ∃ n, call.next = some (.waiting n)

instance (call : ConsumeCall) : Decidable call.Waiting :=
  match h : call.next with
  | some (.waiting n) => .isTrue ⟨n, h⟩
  | none | some .entered | some (.locking _) => .isFalse (by simp [Waiting, h])

/-- The tokens that a call past the entry test still asks for. -/
def asked (call : ConsumeCall) : Option NNRat :=
  match call.next with
  | some (.locking n) | some (.waiting n) => some n
  | none | some .entered => none

theorem asked_notify (call : ConsumeCall) : call.notify.asked = call.asked := by
  unfold notify
  split_ifs
  · rcases hnext : call.next with _ | _ | n | n <;> simp [asked, hnext, Consume.notify]
  · rfl

theorem not_waiting_notify {call : ConsumeCall} (h : call.Waiting → call.listening = true) :
    ¬ call.notify.Waiting := by
  unfold notify
  split_ifs with hlistening
  · rcases hnext : call.next with _ | _ | n | n <;> simp [Waiting, Consume.notify]
  · exact fun hwaiting ↦ hlistening (h hwaiting)

end ConsumeCall

namespace Rounding

/-- Amounts can be taken out of a bucket one after the other. -/
def Takes (round : Rounding) : NNRat → List NNRat → Prop
  | _, [] => True
  | available, n :: amounts => n ≤ available ∧ round.Takes (round (available - n)) amounts

instance decidableTakes (round : Rounding) : ∀ available amounts,
    Decidable (round.Takes available amounts)
  | _, [] => .isTrue trivial
  | available, n :: amounts =>
      have := decidableTakes round (round (available - n)) amounts
      inferInstanceAs (Decidable (_ ∧ _))

/-- A bucket serves amounts in whatever order they are taken. -/
def Serves (round : Rounding) (available : NNRat) (amounts : List NNRat) : Prop :=
  ∀ order ∈ amounts.permutations', round.Takes available order

instance (round : Rounding) (available : NNRat) (amounts : List NNRat) :
    Decidable (round.Serves available amounts) :=
  inferInstanceAs (Decidable (∀ _ ∈ _, _))

variable {round : Rounding} {available n : NNRat} {amounts amounts' : List NNRat}

theorem serves_iff : round.Serves available amounts ↔
    ∀ order, order.Perm amounts → round.Takes available order := by
  simp only [Serves, List.mem_permutations']

theorem Serves.perm (h : round.Serves available amounts) (hperm : amounts'.Perm amounts) :
    round.Serves available amounts' :=
  serves_iff.mpr fun order horder ↦ serves_iff.mp h order (horder.trans hperm)

/-- One amount is taken, and the rest is served by what is left. -/
theorem Serves.take (h : round.Serves available (n :: amounts)) :
    n ≤ available ∧ round.Serves (round (available - n)) amounts := by
  have htake : ∀ order, order.Perm amounts →
      n ≤ available ∧ round.Takes (round (available - n)) order :=
    fun order horder ↦ serves_iff.mp h (n :: order) (horder.cons n)
  exact ⟨(htake amounts (.refl _)).1, serves_iff.mpr fun order horder ↦ (htake order horder).2⟩

theorem Takes.of_append (h : round.Takes available (amounts ++ amounts')) :
    round.Takes available amounts := by
  induction amounts generalizing available with
  | nil => trivial
  | cons n amounts ih => exact ⟨h.1, ih h.2⟩

/-- An amount that is given up was taken last. -/
theorem Serves.of_cons (h : round.Serves available (n :: amounts)) :
    round.Serves available amounts :=
  serves_iff.mpr fun order horder ↦
    (serves_iff.mp h (order ++ [n])
      ((List.perm_append_singleton n order).trans (horder.cons n))).of_append

/-- With exact numbers a bucket serves what it holds. -/
theorem serves_exact : exact.Serves available amounts ↔ amounts.sum ≤ available := by
  have htakes : ∀ order available, exact.Takes available order ↔ order.sum ≤ available := by
    intro order
    induction order with
    | nil => exact fun available ↦ iff_of_true trivial zero_le
    | cons n order ih =>
        intro available
        rw [Takes, ih, exact_apply, List.sum_cons]
        constructor
        · rintro ⟨hle, hrest⟩
          calc n + order.sum ≤ n + (available - n) := by gcongr
            _ = available := add_tsub_cancel_of_le hle
        · exact fun h ↦ ⟨le_self_add.trans h, le_tsub_of_add_le_left h⟩
  rw [serves_iff]
  constructor
  · exact fun h ↦ (htakes amounts available).mp (h amounts (.refl _))
  · intro h order horder
    rw [htakes, horder.sum_eq]
    exact h

end Rounding

namespace TokenBucket

/-- What all calls past the entry test still ask for. -/
def asked (s : TokenBucket) : List NNRat := s.calls.filterMap ConsumeCall.asked

/-- The limit is lifted only while every waiting call listens and the bucket
serves what the calls past the entry test still ask for. -/
def LiftsCovered (round : Rounding) (s : TokenBucket) : Input → Prop
  | .updateRate newRate =>
      newRate = 0 → (∀ call ∈ s.calls, call.Waiting → call.listening = true) ∧
        round.Serves s.limiter.available s.asked
  | _ => True

instance (round : Rounding) (s : TokenBucket) : ∀ i, Decidable (s.LiftsCovered round i)
  | .updateRate newRate =>
      inferInstanceAs (Decidable (newRate = 0 →
        (∀ call ∈ s.calls, call.Waiting → call.listening = true) ∧
          round.Serves s.limiter.available s.asked))
  | .consume _ | .resume _ | .listen _ | .abort _ | .refill | .advance _ => .isTrue trivial

/-- Without a limit no call waits, and the bucket serves what is asked for. -/
def Released (round : Rounding) (s : TokenBucket) : Prop :=
  s.limiter.rate = 0 →
    (∀ call ∈ s.calls, ¬ call.Waiting) ∧ round.Serves s.limiter.available s.asked

theorem filterMap_asked_cons (call : ConsumeCall) (calls : List ConsumeCall) :
    (call :: calls).filterMap ConsumeCall.asked =
      call.asked.toList ++ calls.filterMap ConsumeCall.asked := by
  rw [List.filterMap_cons]
  cases call.asked <;> rfl

section Calls

variable {s : TokenBucket} {i : ℕ} {call : ConsumeCall}

theorem asked_perm (hcall : s.calls[i]? = some call) :
    s.asked.Perm (call.asked.toList ++ (s.calls.eraseIdx i).filterMap ConsumeCall.asked) := by
  obtain ⟨hi, rfl⟩ := List.getElem?_eq_some_iff.mp hcall
  rw [← filterMap_asked_cons]
  exact (List.getElem_cons_eraseIdx_perm hi).symm.filterMap _

theorem asked_set_perm (hcall : s.calls[i]? = some call) (call' : ConsumeCall) :
    ((s.calls.set i call').filterMap ConsumeCall.asked).Perm
      (call'.asked.toList ++ (s.calls.eraseIdx i).filterMap ConsumeCall.asked) := by
  obtain ⟨hi, -⟩ := List.getElem?_eq_some_iff.mp hcall
  rw [← filterMap_asked_cons]
  exact (List.set_perm_cons_eraseIdx hi call').filterMap _

end Calls

variable {round : Rounding}

/-- Without a limit, a released call returns in its next part, and what is left
serves the other calls. -/
theorem Released.consume {s : TokenBucket} (h : s.Released round) (hrate : s.limiter.rate = 0)
    {i : ℕ} {call : ConsumeCall} (hcall : s.calls[i]? = some call) {c : Consume}
    (hc : call.next = some c) :
    ∃ l, s.limiter.consume round call.bytes c = some (l, none) ∧
      round.Serves l.available ((s.calls.eraseIdx i).filterMap ConsumeCall.asked) := by
  obtain ⟨hwaiting, hserves⟩ := h hrate
  have hserves := hserves.perm (asked_perm hcall).symm
  cases c with
  | entered =>
      have hasked : call.asked = none := by rw [ConsumeCall.asked, hc]
      rw [hasked] at hserves
      exact ⟨s.limiter, by rw [SpeedLimiter.consume, if_pos hrate], hserves⟩
  | locking n =>
      have hasked : call.asked = some n := by rw [ConsumeCall.asked, hc]
      rw [hasked] at hserves
      obtain ⟨hle, hrest⟩ := hserves.take
      exact ⟨{ s.limiter with available := round (s.limiter.available - n) },
        by rw [SpeedLimiter.consume, if_pos hle], hrest⟩
  | waiting n => exact absurd ⟨n, hc⟩ (hwaiting call (List.mem_of_getElem? hcall))

theorem Released.step {s t : TokenBucket} {i : Input} (h : s.Released round)
    (hok : s.LiftsCovered round i) (hstep : s.step round i = some t) : t.Released round := by
  intro ht
  cases i with
  | consume bytes =>
      obtain rfl := Option.some.inj hstep
      obtain ⟨hwaiting, hserves⟩ := h ht
      refine ⟨fun call hcall ↦ ?_, ?_⟩
      · rcases List.mem_append.mp hcall with hcall | hcall
        · exact hwaiting call hcall
        · rw [List.mem_singleton.mp hcall]
          simp [ConsumeCall.Waiting, ConsumeCall.new]
      · have hsame : (s.calls ++ [ConsumeCall.new bytes]).filterMap ConsumeCall.asked = s.asked := by
          rw [List.filterMap_append]
          exact List.append_nil _
        change round.Serves s.limiter.available ((s.calls ++ [ConsumeCall.new bytes]).filterMap _)
        rw [hsame]
        exact hserves
  | resume i =>
      obtain ⟨call, c, l, next, hcall, hc, hconsume, rfl⟩ := step_resume hstep
      have hs : s.limiter.rate = 0 := (SpeedLimiter.rate_consume hconsume).symm.trans ht
      obtain ⟨l', hreturns, hserves⟩ := h.consume hs hcall hc
      obtain ⟨rfl, rfl⟩ := Prod.mk.inj (Option.some.inj (hconsume.symm.trans hreturns))
      refine ⟨fun call' hcall' ↦ ?_, hserves.perm (asked_set_perm hcall _)⟩
      rcases List.mem_or_eq_of_mem_set hcall' with hcall' | rfl
      · exact (h hs).1 call' hcall'
      · simp [ConsumeCall.Waiting, ConsumeCall.resume]
  | listen i =>
      obtain ⟨call, call', hcall, hlisten, rfl⟩ := step_listen hstep
      obtain ⟨hwaiting, -⟩ := h ht
      refine absurd ?_ (hwaiting call (List.mem_of_getElem? hcall))
      unfold ConsumeCall.listen at hlisten
      split at hlisten
      · exact ⟨_, ‹_›⟩
      · cases hlisten
  | abort i =>
      obtain rfl := Option.some.inj hstep
      obtain ⟨hwaiting, hserves⟩ := h ht
      refine ⟨fun call hcall ↦ hwaiting call (List.mem_of_mem_eraseIdx hcall), ?_⟩
      change round.Serves s.limiter.available ((s.calls.eraseIdx i).filterMap ConsumeCall.asked)
      cases hcall : s.calls[i]? with
      | none =>
          rw [List.eraseIdx_of_length_le (List.getElem?_eq_none_iff.mp hcall)]
          exact hserves
      | some call =>
          have hrest := hserves.perm (asked_perm hcall).symm
          cases hasked : call.asked with
          | none =>
              rw [hasked] at hrest
              exact hrest
          | some n =>
              rw [hasked] at hrest
              exact hrest.of_cons
  | refill =>
      obtain ⟨hlimiter, -, -, hcalls⟩ := step_refill hstep
      have hs : s.limiter.rate = 0 := by
        rw [← SpeedLimiter.rate_refill round s.limiter s.now, ← hlimiter, ht]
      rw [if_pos hs] at hcalls
      rw [SpeedLimiter.refill, if_pos hs] at hlimiter
      rw [asked, hcalls, hlimiter]
      exact h hs
  | updateRate newRate =>
      obtain rfl := Option.some.inj hstep
      have hzero : newRate = 0 := by
        split_ifs at ht <;> exact ht
      obtain ⟨hlistening, hserves⟩ := hok hzero
      rw [if_pos hzero]
      refine ⟨fun call hcall ↦ ?_, ?_⟩
      · obtain ⟨call', hcall', rfl⟩ := List.mem_map.mp hcall
        exact ConsumeCall.not_waiting_notify (hlistening call' hcall')
      · have hsame : (s.calls.map ConsumeCall.notify).filterMap ConsumeCall.asked = s.asked := by
          rw [List.filterMap_map]
          exact List.filterMap_congr fun call _ ↦ call.asked_notify
        rw [asked, notifyWaiters, hsame]
        exact hserves
  | advance elapsed =>
      obtain rfl := Option.some.inj hstep
      exact h ht

/-- The bucket holds the sum of what three calls ask for, but with 64.999 and 934
bytes taken and rounded first it is short of the last amount. -/
example : ∃ s ∈ run (step .machine) (start .machine 1000 0) [.consume 1000, .resume 0, .resume 0,
    .advance (10001 / 1000000), .refill, .consume 75, .resume 1, .resume 1, .listen 1,
    .advance (9999 / 1000000), .refill, .consume 11, .resume 2, .resume 2, .listen 2,
    .consume 934, .resume 3, .resume 3, .listen 3, .advance 1, .refill],
    s.asked.sum ≤ s.limiter.available ∧ ¬ s.LiftsCovered .machine (.updateRate 0) := by
  decide +kernel

end TokenBucket

end Oxiproxy.Node
