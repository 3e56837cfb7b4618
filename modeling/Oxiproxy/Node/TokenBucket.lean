import Oxiproxy.Node.SpeedLimiter

/-!
# Any number of callers on one token bucket

The calls of `consume` on a limiter run in parts: the test on entry, each turn of
the loop under the lock, and the creation of the future that the next
notification wakes.  A notification between the release of the lock and that
creation is missed.
-/

namespace Oxiproxy.Node

open Transition

structure ConsumeCall where
  bytes : ℕ
  /-- What the call does next, or `none` when it has returned. -/
  next : Option Consume
  /-- A waiting call has created its future. -/
  listening : Bool
  /-- The tokens that the call has taken out of the bucket. -/
  taken : NNRat
  deriving DecidableEq

namespace ConsumeCall

def new (bytes : ℕ) : ConsumeCall := ⟨bytes, some .entered, false, 0⟩

/-- A part of the call has taken tokens. -/
def resume (call : ConsumeCall) (tokens : NNRat) (next : Option Consume) : ConsumeCall :=
  { call with next, listening := false, taken := call.taken + tokens }

/-- `notified()`. -/
def listen (call : ConsumeCall) : Option ConsumeCall :=
  match call.next, call.listening with
  | some (.waiting _), false => some { call with listening := true }
  | _, _ => none

def notify (call : ConsumeCall) : ConsumeCall :=
  if call.listening then { call with next := call.next.map Consume.notify, listening := false }
  else call

/-- The tokens that the call still asks for. -/
def remaining (call : ConsumeCall) : NNRat :=
  match call.next with
  | none => 0
  | some .entered => call.bytes
  | some (.locking remaining) | some (.waiting remaining) => remaining

end ConsumeCall

structure TokenBucket where
  limiter : SpeedLimiter
  now : ℚ
  calls : List ConsumeCall
  /-- All tokens taken so far, by whatever call. -/
  granted : NNRat
  deriving DecidableEq

namespace TokenBucket

inductive Input
  | consume (bytes : ℕ)
  | resume (i : ℕ)
  | listen (i : ℕ)
  /-- The future of a call is dropped. -/
  | abort (i : ℕ)
  | refill
  | updateRate (newRate : ℕ)
  | advance (elapsed : NNRat)

def start (round : Rounding) (rate : ℕ) (now : ℚ) : TokenBucket :=
  ⟨.new round rate now, now, [], 0⟩

def notifyWaiters (s : TokenBucket) : TokenBucket :=
  { s with calls := s.calls.map ConsumeCall.notify }

/-- A part of a call has left the limiter behind. -/
def consumed (s : TokenBucket) (i : ℕ) (call : ConsumeCall) (l : SpeedLimiter)
    (next : Option Consume) : TokenBucket :=
  { s with
    limiter := l
    calls := s.calls.set i (call.resume (s.limiter.available - l.available) next)
    granted := s.granted + (s.limiter.available - l.available) }

def step (round : Rounding) (s : TokenBucket) : Input → Option TokenBucket
  | .consume bytes => some { s with calls := s.calls ++ [.new bytes] }
  | .resume i =>
      s.calls[i]?.bind fun call ↦ call.next.bind fun c ↦
        (s.limiter.consume round call.bytes c).map fun r ↦ s.consumed i call r.1 r.2
  | .listen i =>
      s.calls[i]?.bind fun call ↦ call.listen.map fun call' ↦
        { s with calls := s.calls.set i call' }
  | .abort i => some { s with calls := s.calls.eraseIdx i }
  | .refill =>
      let s' := { s with limiter := s.limiter.refill round s.now }
      some (if s.limiter.rate = 0 then s' else s'.notifyWaiters)
  | .updateRate newRate =>
      let s' := { s with limiter := s.limiter.updateRate newRate }
      some (if newRate = 0 then s'.notifyWaiters else s')
  | .advance elapsed => some { s with now := s.now + elapsed }

def Input.KeepsRate : Input → Prop
  | .updateRate _ => False
  | _ => True

/-- Neither the rate nor the tokens are renewed. -/
def Input.Plain : Input → Prop
  | .updateRate _ | .refill => False
  | _ => True

instance : DecidablePred Input.KeepsRate
  | .updateRate _ => .isFalse id
  | .consume _ | .resume _ | .listen _ | .abort _ | .refill | .advance _ => .isTrue trivial

instance : DecidablePred Input.Plain
  | .updateRate _ | .refill => .isFalse id
  | .consume _ | .resume _ | .listen _ | .abort _ | .advance _ => .isTrue trivial

end TokenBucket

/-! ## What a part of a call does -/

/-- A part of a call leaves the rate and the time of the last refill, and takes
what it asks for less. -/
theorem SpeedLimiter.consume_spec {l l' : SpeedLimiter} {bytes : ℕ} {c : Consume}
    {next : Option Consume} (h : l.consume .exact bytes c = some (l', next)) :
    l'.rate = l.rate ∧ l'.lastRefill = l.lastRefill ∧ l'.available ≤ l.available := by
  cases c with
  | entered =>
      obtain ⟨rfl, -⟩ := Prod.mk.inj (Option.some.inj h)
      exact ⟨rfl, rfl, le_rfl⟩
  | locking remaining =>
      simp only [consume, Rounding.exact_apply] at h
      split_ifs at h
      · obtain ⟨rfl, -⟩ := Prod.mk.inj (Option.some.inj h)
        exact ⟨rfl, rfl, tsub_le_self⟩
      · obtain ⟨rfl, -⟩ := Prod.mk.inj (Option.some.inj h)
        exact ⟨rfl, rfl, zero_le⟩
  | waiting remaining => cases h

/-- With a limit, a refill brings in at most what the clock has earned, and never
more than the tokens of one second. -/
theorem SpeedLimiter.refill_spec {l : SpeedLimiter} {now : ℚ} (hrate : l.rate ≠ 0)
    (hclock : l.lastRefill ≤ now) :
    (l.refill .exact now).rate = l.rate ∧ (l.refill .exact now).lastRefill = now ∧
      ((l.refill .exact now).available : ℚ) ≤ l.available + l.rate * (now - l.lastRefill) := by
  have helapsed : ((now - l.lastRefill).toNNRat : ℚ) = now - l.lastRefill :=
    Rat.coe_toNNRat _ (sub_nonneg.mpr hclock)
  have hfilled : (l.refill .exact now).available ≤
      l.available + l.rate * (now - l.lastRefill).toNNRat := by
    rw [SpeedLimiter.refill, if_neg hrate]
    simp only [Rounding.exact_apply, Rounding.asSecs_exact]
    exact min_le_left _ _
  have hcast : ((l.refill .exact now).available : ℚ) ≤
      l.available + l.rate * ((now - l.lastRefill).toNNRat : ℚ) := by
    exact_mod_cast hfilled
  rw [helapsed] at hcast
  have hsame : (l.refill .exact now).rate = l.rate ∧ (l.refill .exact now).lastRefill = now := by
    rw [SpeedLimiter.refill, if_neg hrate]
    exact ⟨rfl, rfl⟩
  exact ⟨hsame.1, hsame.2, hcast⟩

theorem SpeedLimiter.available_refill {l : SpeedLimiter} (hrate : l.rate ≠ 0) (now : ℚ) :
    (l.refill .exact now).available ≤ l.rate := by
  rw [SpeedLimiter.refill, if_neg hrate]
  exact min_le_right _ _

theorem SpeedLimiter.rate_refill (round : Rounding) (l : SpeedLimiter) (now : ℚ) :
    (l.refill round now).rate = l.rate := by
  unfold SpeedLimiter.refill
  split_ifs <;> rfl

theorem SpeedLimiter.rate_consume {round : Rounding} {l l' : SpeedLimiter} {bytes : ℕ}
    {c : Consume} {next : Option Consume} (h : l.consume round bytes c = some (l', next)) :
    l'.rate = l.rate := by
  cases c with
  | entered =>
      obtain ⟨rfl, -⟩ := Prod.mk.inj (Option.some.inj h)
      rfl
  | locking remaining =>
      simp only [consume] at h
      split_ifs at h <;> obtain ⟨rfl, -⟩ := Prod.mk.inj (Option.some.inj h) <;> rfl
  | waiting remaining => cases h

namespace ConsumeCall

/-- A call has taken all that it no longer asks for. -/
def Exact (call : ConsumeCall) : Prop := call.taken + call.remaining = call.bytes

theorem exact_new (bytes : ℕ) : (new bytes).Exact := zero_add _

theorem Exact.resume {call : ConsumeCall} (hexact : call.Exact) {c : Consume}
    (hnext : call.next = some c) {l l' : SpeedLimiter} (hrate : l.rate ≠ 0)
    {next : Option Consume} (h : l.consume .exact call.bytes c = some (l', next)) :
    (call.resume (l.available - l'.available) next).Exact := by
  unfold Exact remaining at hexact
  rw [hnext] at hexact
  cases c with
  | entered =>
      obtain ⟨rfl, rfl⟩ := Prod.mk.inj (Option.some.inj h)
      simpa [ConsumeCall.resume, Exact, remaining, hrate] using hexact
  | locking remaining =>
      simp only [SpeedLimiter.consume, Rounding.exact_apply] at h
      split_ifs at h with hle
      · obtain ⟨rfl, rfl⟩ := Prod.mk.inj (Option.some.inj h)
        have htokens : l.available - (l.available - remaining) = remaining :=
          tsub_tsub_cancel_of_le hle
        simpa only [ConsumeCall.resume, Exact, ConsumeCall.remaining, htokens, add_zero] using hexact
      · obtain ⟨rfl, rfl⟩ := Prod.mk.inj (Option.some.inj h)
        have hsplit : l.available + (remaining - l.available) = remaining :=
          add_tsub_cancel_of_le (not_le.mp hle).le
        simpa only [ConsumeCall.resume, Exact, ConsumeCall.remaining, tsub_zero, add_assoc, hsplit]
          using hexact
  | waiting remaining => cases h

theorem listen_spec {call call' : ConsumeCall} (h : call.listen = some call') :
    call' = { call with listening := true } := by
  unfold listen at h
  split at h
  · exact (Option.some.inj h).symm
  · cases h

theorem remaining_notify (call : ConsumeCall) : call.notify.remaining = call.remaining := by
  unfold notify
  split_ifs
  · rcases hnext : call.next with _ | _ | n | n <;>
      simp [ConsumeCall.remaining, hnext, Consume.notify]
  · rfl

theorem Exact.notify {call : ConsumeCall} (h : call.Exact) : call.notify.Exact := by
  have hsame : call.notify.taken = call.taken ∧ call.notify.bytes = call.bytes := by
    unfold ConsumeCall.notify
    split_ifs <;> exact ⟨rfl, rfl⟩
  rw [Exact, hsame.1, hsame.2, remaining_notify]
  exact h

end ConsumeCall

namespace TokenBucket

/-- A part of a call takes the tokens that it grants out of the bucket. -/
theorem step_resume {round : Rounding} {s t : TokenBucket} {i : ℕ}
    (h : s.step round (.resume i) = some t) :
    ∃ call c l next, s.calls[i]? = some call ∧ call.next = some c ∧
      s.limiter.consume round call.bytes c = some (l, next) ∧ t = s.consumed i call l next := by
  obtain ⟨call, hcall, hbind⟩ := Option.bind_eq_some_iff.mp h
  obtain ⟨c, hc, hmap⟩ := Option.bind_eq_some_iff.mp hbind
  obtain ⟨⟨l, next⟩, hconsume, rfl⟩ := Option.map_eq_some_iff.mp hmap
  exact ⟨call, c, l, next, hcall, hc, hconsume, rfl⟩

theorem step_listen {round : Rounding} {s t : TokenBucket} {i : ℕ}
    (h : s.step round (.listen i) = some t) :
    ∃ call call', s.calls[i]? = some call ∧ call.listen = some call' ∧
      t = { s with calls := s.calls.set i call' } := by
  obtain ⟨call, hcall, hmap⟩ := Option.bind_eq_some_iff.mp h
  obtain ⟨call', hlisten, rfl⟩ := Option.map_eq_some_iff.mp hmap
  exact ⟨call, call', hcall, hlisten, rfl⟩

/-- What the steps that renew neither rate nor tokens leave behind. -/
theorem step_plain {s t : TokenBucket} {i : Input} (hi : i.Plain)
    (h : s.step .exact i = some t) :
    t.limiter.rate = s.limiter.rate ∧ t.limiter.lastRefill = s.limiter.lastRefill ∧
      t.limiter.available ≤ s.limiter.available ∧
      t.limiter.available + t.granted = s.limiter.available + s.granted ∧ s.now ≤ t.now := by
  cases i with
  | consume | abort =>
      obtain rfl := Option.some.inj h
      exact ⟨rfl, rfl, le_rfl, rfl, le_rfl⟩
  | resume i =>
      obtain ⟨call, c, l, next, -, -, hconsume, rfl⟩ := step_resume h
      obtain ⟨hrate, hlast, hle⟩ := SpeedLimiter.consume_spec hconsume
      refine ⟨hrate, hlast, hle, ?_, le_rfl⟩
      calc l.available + (s.granted + (s.limiter.available - l.available))
          = l.available + (s.limiter.available - l.available) + s.granted := by ring
        _ = s.limiter.available + s.granted := by rw [add_tsub_cancel_of_le hle]
  | listen i =>
      obtain ⟨call, call', -, -, rfl⟩ := step_listen h
      exact ⟨rfl, rfl, le_rfl, rfl, le_rfl⟩
  | refill | updateRate => exact hi.elim
  | advance elapsed =>
      obtain rfl := Option.some.inj h
      exact ⟨rfl, rfl, le_rfl, rfl, le_add_of_nonneg_right elapsed.2⟩

theorem step_refill {round : Rounding} {s t : TokenBucket} (h : s.step round .refill = some t) :
    t.limiter = s.limiter.refill round s.now ∧ t.now = s.now ∧ t.granted = s.granted ∧
      t.calls = if s.limiter.rate = 0 then s.calls else s.calls.map ConsumeCall.notify := by
  obtain rfl := Option.some.inj h
  split_ifs <;> exact ⟨rfl, rfl, rfl, rfl⟩

/-- Granted and available tokens, less those that the clock has brought in. -/
def credit (s : TokenBucket) : ℚ :=
  s.limiter.available + s.granted - s.limiter.rate * s.limiter.lastRefill

/-- The state `s` may follow `u` at a constant rate. -/
structure Follows (u s : TokenBucket) : Prop where
  rate : s.limiter.rate = u.limiter.rate
  clock : s.limiter.lastRefill ≤ s.now
  credit : s.credit ≤ u.credit

theorem Follows.step {u s t : TokenBucket} {i : Input} (h : u.Follows s) (hi : i.KeepsRate)
    (hstep : s.step .exact i = some t) : u.Follows t := by
  by_cases hplain : i.Plain
  · obtain ⟨hrate, hlast, -, htokens, hnow⟩ := step_plain hplain hstep
    have hcast : (t.limiter.available + t.granted : ℚ) = s.limiter.available + s.granted := by
      exact_mod_cast htokens
    refine ⟨hrate.trans h.rate, hlast.trans_le (h.clock.trans hnow), ?_⟩
    rw [TokenBucket.credit, hcast, hrate, hlast]
    exact h.credit
  · cases i with
    | refill =>
        obtain ⟨hlimiter, hnow, hgranted, -⟩ := step_refill hstep
        by_cases hzero : s.limiter.rate = 0
        · rw [SpeedLimiter.refill, if_pos hzero] at hlimiter
          refine ⟨by rw [hlimiter, h.rate], by rw [hlimiter, hnow]; exact h.clock, ?_⟩
          rw [TokenBucket.credit, hlimiter, hgranted]
          exact h.credit
        · obtain ⟨hrate, hlast, hfilled⟩ := SpeedLimiter.refill_spec hzero h.clock
          rw [← hlimiter] at hrate hlast hfilled
          refine ⟨hrate.trans h.rate, by rw [hlast, hnow], ?_⟩
          refine le_trans ?_ h.credit
          rw [TokenBucket.credit, TokenBucket.credit, hgranted, hrate, hlast]
          linarith
    | updateRate => exact hi.elim
    | consume | resume | listen | abort | advance => exact absurd trivial hplain

theorem Follows.run {u s t : TokenBucket} {inputs : List Input} (h : u.Follows s)
    (hrate : ∀ i ∈ inputs, i.KeepsRate)
    (hrun : Transition.run (TokenBucket.step .exact) s inputs = some t) : u.Follows t := by
  have hok : Within (TokenBucket.step .exact) (fun _ i ↦ i.KeepsRate) s inputs :=
    within_of_forall fun i hi _ ↦ hrate i hi
  exact run_invariant (fun _ _ _ h hi hstep ↦ Follows.step h hi hstep) h hok hrun

/-- What is granted in a run that begins at the time of the last refill. -/
theorem Follows.granted_le {u s : TokenBucket} (h : u.Follows s)
    (hlast : u.limiter.lastRefill = u.now) :
    (s.granted : ℚ) ≤ u.granted + u.limiter.available + u.limiter.rate * (s.now - u.now) := by
  have hcredit := h.credit
  have hclock : (u.limiter.rate * s.limiter.lastRefill : ℚ) ≤ u.limiter.rate * s.now :=
    mul_le_mul_of_nonneg_left h.clock (Nat.cast_nonneg _)
  have hnonneg : (0 : ℚ) ≤ s.limiter.available := NNRat.cast_nonneg _
  rw [TokenBucket.credit, TokenBucket.credit, h.rate, hlast] at hcredit
  linarith

/-- The tokens stay below the rate, and every call has taken what it does not
ask for any more. -/
structure Sound (r : ℕ) (s : TokenBucket) : Prop where
  rate : s.limiter.rate = r
  available : s.limiter.available ≤ r
  exact : ∀ call ∈ s.calls, call.Exact

theorem sound_start (r : ℕ) (now : ℚ) : (start .exact r now).Sound r :=
  ⟨rfl, le_rfl, fun _ h ↦ absurd h List.not_mem_nil⟩

theorem exact_of_mem_set {calls : List ConsumeCall} {i : ℕ} {call : ConsumeCall}
    (h : ∀ c ∈ calls, c.Exact) (hcall : call.Exact) : ∀ c ∈ calls.set i call, c.Exact := by
  intro c hc
  rcases List.mem_or_eq_of_mem_set hc with hc | rfl
  · exact h c hc
  · exact hcall

theorem exact_step {s t : TokenBucket} {i : Input} (hrate : s.limiter.rate ≠ 0)
    (h : ∀ call ∈ s.calls, call.Exact) (hstep : s.step .exact i = some t) :
    ∀ call ∈ t.calls, call.Exact := by
  have hnotify : ∀ call ∈ s.calls.map ConsumeCall.notify, call.Exact := by
    intro call hcall
    obtain ⟨call', hcall', rfl⟩ := List.mem_map.mp hcall
    exact (h call' hcall').notify
  cases i with
  | consume bytes =>
      obtain rfl := Option.some.inj hstep
      intro call hcall
      rcases List.mem_append.mp hcall with hcall | hcall
      · exact h call hcall
      · rw [List.mem_singleton.mp hcall]
        exact ConsumeCall.exact_new bytes
  | resume i =>
      obtain ⟨call, c, l, next, hcall, hnext, hconsume, rfl⟩ := step_resume hstep
      exact exact_of_mem_set h ((h call (List.mem_of_getElem? hcall)).resume hnext hrate hconsume)
  | listen i =>
      obtain ⟨call, call', hcall, hlisten, rfl⟩ := step_listen hstep
      rw [ConsumeCall.listen_spec hlisten]
      exact exact_of_mem_set h (h call (List.mem_of_getElem? hcall))
  | abort i =>
      obtain rfl := Option.some.inj hstep
      exact fun call hcall ↦ h call (List.mem_of_mem_eraseIdx hcall)
  | refill =>
      rw [(step_refill hstep).2.2.2, if_neg hrate]
      exact hnotify
  | updateRate newRate =>
      obtain rfl := Option.some.inj hstep
      split_ifs
      · exact hnotify
      · exact h
  | advance elapsed =>
      obtain rfl := Option.some.inj hstep
      exact h

theorem Sound.step {r : ℕ} (hr : 0 < r) {s t : TokenBucket} {i : Input} (h : s.Sound r)
    (hi : i.KeepsRate) (hstep : s.step .exact i = some t) : t.Sound r := by
  have hrate : s.limiter.rate ≠ 0 := by
    rw [h.rate]
    exact hr.ne'
  have hexact := exact_step hrate h.exact hstep
  by_cases hplain : i.Plain
  · obtain ⟨hkeep, -, havailable, -, -⟩ := step_plain hplain hstep
    exact ⟨hkeep.trans h.rate, havailable.trans h.available, hexact⟩
  · cases i with
    | refill =>
        have hlimiter := (step_refill hstep).1
        have havailable := SpeedLimiter.available_refill hrate s.now
        rw [← hlimiter, h.rate] at havailable
        refine ⟨?_, havailable, hexact⟩
        rw [hlimiter, SpeedLimiter.rate_refill, h.rate]
    | updateRate => exact hi.elim
    | consume | resume | listen | abort | advance => exact absurd trivial hplain

theorem Sound.run {r : ℕ} (hr : 0 < r) {s t : TokenBucket} {inputs : List Input} (h : s.Sound r)
    (hrate : ∀ i ∈ inputs, i.KeepsRate)
    (hrun : Transition.run (TokenBucket.step .exact) s inputs = some t) : t.Sound r := by
  have hok : Within (TokenBucket.step .exact) (fun _ i ↦ i.KeepsRate) s inputs :=
    within_of_forall fun i hi _ ↦ hrate i hi
  exact run_invariant (fun _ _ _ h hi hstep ↦ Sound.step hr h hi hstep) h hok hrun

/-- At a positive rate the tokens stay between zero and the rate, a call that has
returned has taken what it asked for and a waiting one all but what is missing,
and after a refill no more is granted than was available then and the clock has
earned since.  After a change to a positive rate the next refill cuts the tokens
down to it. -/
theorem bounds {r : ℕ} (hr : 0 < r) :
    (∀ now inputs s, (∀ i ∈ inputs, i.KeepsRate) → run (step .exact) (start .exact r now) inputs = some s →
      (0 : ℚ) ≤ s.limiter.available ∧ (s.limiter.available : ℚ) ≤ r ∧
        ∀ call ∈ s.calls, (call.next = none → call.taken = call.bytes) ∧
          ∀ n, call.next = some (.waiting n) → (call.taken : ℚ) = call.bytes - n) ∧
    (∀ (t u s : TokenBucket) inputs, t.limiter.rate = r → t.step .exact .refill = some u →
      (∀ i ∈ inputs, i.KeepsRate) → run (step .exact) u inputs = some s →
        (s.granted - u.granted : ℚ) ≤ u.limiter.available + r * (s.now - u.now)) ∧
    ∀ (t u v s : TokenBucket) inputs, t.step .exact (.updateRate r) = some u →
      (∀ i ∈ inputs, i.Plain) → run (step .exact) u inputs = some v →
        v.step .exact .refill = some s → (s.limiter.available : ℚ) ≤ r := by
  refine ⟨fun now inputs s hrate hrun ↦ ?_, fun t u s inputs ht hrefill hrate hrun ↦ ?_,
    fun t u v s inputs hchange hplain hrun hrefill ↦ ?_⟩
  · obtain ⟨-, havailable, hexact⟩ := (sound_start r now).run hr hrate hrun
    refine ⟨NNRat.cast_nonneg _, by exact_mod_cast havailable, fun call hcall ↦ ?_⟩
    have htaken := hexact call hcall
    constructor
    · intro hnext
      simpa [ConsumeCall.Exact, ConsumeCall.remaining, hnext] using htaken
    · intro n hnext
      rw [ConsumeCall.Exact, ConsumeCall.remaining, hnext] at htaken
      rw [eq_sub_iff_add_eq]
      exact_mod_cast htaken
  · obtain ⟨hlimiter, hnow, -, -⟩ := step_refill hrefill
    have hzero : t.limiter.rate ≠ 0 := by
      rw [ht]
      exact hr.ne'
    have hlast : u.limiter.lastRefill = u.now := by
      rw [hlimiter, hnow, SpeedLimiter.refill, if_neg hzero]
    have hu : u.limiter.rate = r := by rw [hlimiter, SpeedLimiter.rate_refill, ht]
    have hfollows : u.Follows u := ⟨rfl, hlast.le, le_rfl⟩
    have hgranted := (hfollows.run hrate hrun).granted_le hlast
    rw [hu] at hgranted
    linarith
  · have hkeep : ∀ s i t, s.limiter.rate = r → Input.Plain i → step .exact s i = some t →
        t.limiter.rate = r := fun s i t hs hi hstep ↦ (step_plain hi hstep).1.trans hs
    have hu : u.limiter.rate = r := by
      obtain rfl := Option.some.inj hchange
      split_ifs <;> rfl
    have hok : Within (step .exact) (fun _ i ↦ i.Plain) u inputs := within_of_forall fun i hi _ ↦ hplain i hi
    have hv : v.limiter.rate = r := run_invariant hkeep hu hok hrun
    have havailable := SpeedLimiter.available_refill (l := v.limiter) (by rw [hv]; exact hr.ne') v.now
    rw [← (step_refill hrefill).1, hv] at havailable
    exact_mod_cast havailable

/-- One call drains the bucket, waits for the rest and returns after a refill; then
the rate is lowered. -/
theorem bounds_oneCall :
    ∃ t u v w, run (step .exact) (start .exact 1000 0) [.consume 1500, .resume 0, .resume 0,
        .listen 0, .advance 1] = some t ∧ step .exact t .refill = some u ∧
      run (step .exact) u [.resume 0, .consume 700, .resume 1, .advance 2] = some v ∧
      step .exact v (.updateRate 100) = some w ∧
      ((v.limiter.available : ℚ) ≤ (1000 : ℕ) ∧
        ∀ call ∈ v.calls, call.next = none → call.taken = call.bytes) ∧
      (v.granted - u.granted : ℚ) ≤ u.limiter.available + (1000 : ℕ) * (v.now - u.now) ∧
      ∀ s, step .exact w .refill = some s → (s.limiter.available : ℚ) ≤ (100 : ℕ) := by
  have hrun : ∃ t ∈ run (step .exact) (start .exact 1000 0) [.consume 1500, .resume 0, .resume 0,
      .listen 0, .advance 1], t.limiter.rate = 1000 ∧ ∃ u ∈ step .exact t .refill,
      ∃ v ∈ run (step .exact) u [.resume 0, .consume 700, .resume 1, .advance 2],
        run (step .exact) (start .exact 1000 0) [.consume 1500, .resume 0, .resume 0, .listen 0,
          .advance 1, .refill, .resume 0, .consume 700, .resume 1, .advance 2] = some v := by
    decide +kernel
  obtain ⟨t, ht, hrate, u, hu, v, hv, hwhole⟩ := hrun
  obtain ⟨-, havailable, hcalls⟩ := (bounds (r := 1000) (by decide)).1 0 _ v (by decide) hwhole
  refine ⟨t, u, v, _, ht, hu, hv, rfl, ⟨havailable, fun call hcall ↦ (hcalls call hcall).1⟩,
    (bounds (by decide)).2.1 t u v _ hrate hu (by decide) hv, fun s hs ↦ ?_⟩
  exact (bounds (by decide)).2.2 v _ _ s [] rfl (by decide) rfl hs

/-- The rate zero means no limit, and the refill leaves the tokens as they are. -/
theorem not_refill_bound_unlimited :
    ¬ ∀ rate newRate s, run (step .exact) (start .exact rate 0) [.updateRate newRate, .refill] =
      some s → (s.limiter.available : ℚ) ≤ newRate := by
  intro h
  have hleft : ∃ s ∈ run (step .exact) (start .exact 100 0) [.updateRate 0, .refill],
      ((0 : ℕ) : ℚ) < s.limiter.available := by decide +kernel
  obtain ⟨s, hrun, hleft⟩ := hleft
  exact absurd (h 100 0 s hrun) (not_le.mpr hleft)

end TokenBucket

end Oxiproxy.Node
