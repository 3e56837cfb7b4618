import Oxiproxy.Common.Float
import Oxiproxy.Foundation.HashMap
import Oxiproxy.Foundation.Runs

/-!
# The bandwidth of a node

One token bucket bounds the bandwidth of a whole node.  Each loop that forwards
bytes has to consume tokens for what it has read before it writes it.  Time is
counted in seconds.  Tokens are exact numbers, or those of `f64`.
-/

namespace Oxiproxy.Node

open Transition

/-- What becomes of the exact result of an operation on tokens. -/
abbrev Rounding := NNRat → NNRat

namespace Rounding

def exact : Rounding := id

/-- The operations of `f64` -/
def machine : Rounding := fun q ↦ (F64.nearest q).toNNRat

@[simp]
theorem exact_apply (q : NNRat) : exact q = q := rfl

/-- `as_secs_f64`: the whole seconds and the nanoseconds are converted apart. -/
def asSecs (round : Rounding) (elapsed : NNRat) : NNRat :=
  round (round ⌊elapsed⌋₊ + round (elapsed - ⌊elapsed⌋₊))

@[simp]
theorem asSecs_exact (elapsed : NNRat) : exact.asSecs elapsed = elapsed :=
  add_tsub_cancel_of_le (Nat.floor_le zero_le)

end Rounding

structure SpeedLimiter where
  /-- Bytes per second, or zero for no limit. -/
  rate : ℕ
  available : NNRat
  lastRefill : ℚ
  deriving DecidableEq

/-- A pending call of `consume`. -/
inductive Consume
  | entered
  | locking (remaining : NNRat)
  | waiting (remaining : NNRat)
  deriving DecidableEq

namespace SpeedLimiter

def new (round : Rounding) (rate : ℕ) (now : ℚ) : SpeedLimiter := ⟨rate, round rate, now⟩

/-- At most the tokens of one second are saved up. -/
def refill (round : Rounding) (l : SpeedLimiter) (now : ℚ) : SpeedLimiter :=
  if l.rate = 0 then l
  else
    let tokensToAdd := round (round l.rate * round.asSecs (now - l.lastRefill).toNNRat)
    { l with
      lastRefill := now
      available := min (round (l.available + tokensToAdd)) (round l.rate) }

/-- The next part of a call of `consume`, which has returned when it yields
`none`; a waiting call goes on when it is notified. -/
def consume (round : Rounding) (l : SpeedLimiter) (bytes : ℕ) :
    Consume → Option (SpeedLimiter × Option Consume)
  | .entered => some (l, if l.rate = 0 then none else some (.locking (round bytes)))
  | .locking remaining =>
      if remaining ≤ l.available then
        some ({ l with available := round (l.available - remaining) }, none)
      else some ({ l with available := 0 }, some (.waiting (round (remaining - l.available))))
  | .waiting _ => none

def updateRate (l : SpeedLimiter) (newRate : ℕ) : SpeedLimiter := { l with rate := newRate }

end SpeedLimiter

/-- What has been counted so far, in bytes. -/
structure Meter where
  /-- Written while the rate was not zero. -/
  forwarded : ℕ
  /-- Granted by the calls of `consume` that have returned with tokens. -/
  granted : ℕ
  /-- The tokens taken out of the bucket. -/
  taken : NNRat
  deriving DecidableEq

namespace Meter

def write (m : Meter) (l : SpeedLimiter) (n : ℕ) : Meter :=
  if l.rate = 0 then m else { m with forwarded := m.forwarded + n }

/-- A part of a call for `n` bytes has taken tokens and may have returned.  A call
that finds no limit on entry grants nothing. -/
def consume (m : Meter) (n : ℕ) (call : Consume) (tokens : NNRat) (result : Option Consume) :
    Meter :=
  { m with
    granted := m.granted + if call ≠ .entered ∧ result = none then n else 0
    taken := m.taken + tokens }

end Meter

/-- What a task that forwards bytes does next; any of its calls may fail. -/
inductive Action
  | read (n : ℕ)
  | consume
  | write (n : ℕ)
  | fail
  deriving DecidableEq

/-- The loop that copies one direction of a connection. -/
inductive CopyLoop
  | reading
  | consuming (n : ℕ) (call : Consume)
  /-- With whether tokens were taken for the bytes. -/
  | writing (left : ℕ) (granted : Bool)
  | finished
  deriving DecidableEq

/-- After a part of `consume` for the bytes that were read. -/
def CopyLoop.resume (n : ℕ) (call : Consume) : Option Consume → CopyLoop
  | some call' => .consuming n call'
  | none => .writing n (call ≠ .entered)

def CopyLoop.step (l : SpeedLimiter) (m : Meter) :
    CopyLoop → Action → Option (SpeedLimiter × Meter × CopyLoop)
  | .reading, .read n =>
      if n ≤ 32768 then some (l, m, if n = 0 then .finished else .consuming n .entered) else none
  | .consuming n call, .consume =>
      (l.consume .exact n call).map fun result ↦
        (result.1, m.consume n call (l.available - result.1.available) result.2,
          .resume n call result.2)
  | .writing left granted, .write n =>
      if n ≤ left then
        some (l, m.write l n, if n = left then .reading else .writing (left - n) granted)
      else none
  | _, .fail => some (l, m, .finished)
  | _, _ => none

/-- The forwarding of one UDP datagram and of the answers to it. -/
inductive UdpForward
  | sending (left : ℕ)
  | reading
  | answering (n : ℕ)
  | finished
  deriving DecidableEq

/-- The limiter that the listener is given does not reach this function. -/
def UdpForward.step (l : SpeedLimiter) (m : Meter) :
    UdpForward → Action → Option (Meter × UdpForward)
  | .sending left, .write n =>
      if n ≤ left then some (m.write l n, if n = left then .reading else .sending (left - n))
      else none
  | .reading, .read n =>
      if n ≤ 65535 then some (m, if n = 0 then .finished else .answering n) else none
  | .answering left, .write n => if n = left then some (m.write l n, .reading) else none
  | _, .fail => some (m, .finished)
  | _, _ => none

/-- The tasks that forward bytes for one connection or datagram. -/
inductive ForwardSession
  | relay (up down : CopyLoop)
  | datagram (f : UdpForward)
  deriving DecidableEq

def handleTcpToTunnelUnified : ForwardSession := .relay .reading .reading

def handleUdpToTunnelUnified (data : ℕ) : ForwardSession := .datagram (.sending data)

def copyDirect : ForwardSession := .relay .reading .reading

/-- The forwarding of a domain route, to its upstream or through the tunnel. -/
def forward (direct : Bool) : ForwardSession := if direct then copyDirect else handleTcpToTunnelUnified

/-- The requests and upgraded connections of an HTTP route pass through `forward`
on their way between the bridge and the other end. -/
inductive SessionKind
  | tcp
  | udp (data : ℕ)
  | https (direct : Bool)
  | http (direct : Bool)
  | websocket (direct : Bool)
  deriving DecidableEq

def SessionKind.session : SessionKind → ForwardSession
  | .tcp => handleTcpToTunnelUnified
  | .udp data => handleUdpToTunnelUnified data
  | .https direct | .http direct | .websocket direct => forward direct

inductive Direction
  | up
  | down
  deriving DecidableEq

namespace ForwardSession

def step (l : SpeedLimiter) (m : Meter) (d : Direction) (a : Action) :
    ForwardSession → Option (SpeedLimiter × Meter × ForwardSession)
  | .relay up down =>
      match d with
      | .up => (up.step l m a).map fun r ↦ (r.1, r.2.1, .relay r.2.2 down)
      | .down => (down.step l m a).map fun r ↦ (r.1, r.2.1, .relay up r.2.2)
  | .datagram f => (f.step l m a).map fun r ↦ (l, r.1, .datagram r.2)

end ForwardSession

/-- A waiting call is notified. -/
def Consume.notify : Consume → Consume
  | .waiting remaining => .locking remaining
  | call => call

def CopyLoop.notify : CopyLoop → CopyLoop
  | .consuming n call => .consuming n call.notify
  | c => c

def ForwardSession.notify : ForwardSession → ForwardSession
  | .relay up down => .relay up.notify down.notify
  | .datagram f => .datagram f

def CopyLoop.granted : CopyLoop → Bool
  | .writing _ granted => granted
  | _ => true

/-- What a session writes in a direction has been granted.  No tokens are taken
for a datagram. -/
def ForwardSession.granted (d : Direction) : ForwardSession → Bool
  | .relay up down => match d with
    | .up => up.granted
    | .down => down.granted
  | .datagram _ => false

/-- The limiter of a node and the sessions that share it. -/
structure Bandwidth where
  limiter : SpeedLimiter
  meter : Meter
  sessions : List ForwardSession
  deriving DecidableEq

namespace Bandwidth

inductive Input
  | connect (kind : SessionKind)
  | act (i : ℕ) (d : Direction) (a : Action)
  | abort (i : ℕ)
  | refill (now : ℚ)
  | updateRate (newRate : ℕ)

def start (rate : ℕ) : Bandwidth := ⟨.new .exact rate 0, ⟨0, 0, 0⟩, []⟩

def notifyWaiters (s : Bandwidth) : Bandwidth := { s with sessions := s.sessions.map ForwardSession.notify }

def step (s : Bandwidth) : Input → Option Bandwidth
  | .connect kind => some { s with sessions := s.sessions ++ [kind.session] }
  | .act i d a =>
      s.sessions[i]?.bind fun session ↦ (session.step s.limiter s.meter d a).map fun r ↦
        ⟨r.1, r.2.1, s.sessions.set i r.2.2⟩
  | .abort i => some { s with sessions := s.sessions.eraseIdx i }
  | .refill now =>
      let s' := { s with limiter := s.limiter.refill .exact now }
      some (if s.limiter.rate = 0 then s' else s'.notifyWaiters)
  | .updateRate newRate =>
      let s' := { s with limiter := s.limiter.updateRate newRate }
      some (if newRate = 0 then s'.notifyWaiters else s')

/-- While the limit is not zero, no UDP session writes, and no loop writes what it
was let through with when there was no limit. -/
def WritesGranted (s : Bandwidth) : Input → Prop
  | .act i d (.write n) =>
      ∀ session ∈ s.sessions[i]?, session.granted d = true ∨ n = 0 ∨ s.limiter.rate = 0
  | _ => True

instance (s : Bandwidth) : ∀ i, Decidable (s.WritesGranted i)
  | .act i d (.write n) =>
      inferInstanceAs (Decidable
        (∀ session ∈ s.sessions[i]?, session.granted d = true ∨ n = 0 ∨ s.limiter.rate = 0))
  | .act _ _ (.read _) | .act _ _ .consume | .act _ _ .fail | .connect _ | .abort _ | .refill _
  | .updateRate _ => .isTrue trivial

end Bandwidth

/-! ## Bytes that are granted but not written, and tokens that are taken but not granted -/

/-- Granted bytes beyond those forwarded, and paid bytes beyond those granted. -/
def Meter.credit (m : Meter) : ℚ × ℚ := (m.granted - m.forwarded, m.taken - m.granted)

/-- What a call for `n` bytes has paid so far. -/
def Consume.paid (n : ℕ) : Consume → NNRat
  | .entered => 0
  | .locking remaining | .waiting remaining => n - remaining

/-- What a loop may still write, and what it has paid for without a grant. -/
def CopyLoop.owed : CopyLoop → ℚ × ℚ
  | .consuming n call => (0, call.paid n)
  | .writing left true => (left, 0)
  | _ => 0

def ForwardSession.owed : ForwardSession → ℚ × ℚ
  | .relay up down => up.owed + down.owed
  | .datagram _ => 0

theorem CopyLoop.owed_nonneg (c : CopyLoop) : 0 ≤ c.owed := by
  cases c with
  | reading | finished => exact le_rfl
  | consuming n call => exact ⟨le_rfl, NNRat.cast_nonneg _⟩
  | writing left granted =>
      cases granted
      · exact le_rfl
      · exact ⟨Nat.cast_nonneg _, le_rfl⟩

theorem ForwardSession.owed_nonneg (session : ForwardSession) : 0 ≤ session.owed := by
  cases session with
  | relay up down => exact add_nonneg up.owed_nonneg down.owed_nonneg
  | datagram f => exact le_rfl

theorem Meter.credit_write (m : Meter) (l : SpeedLimiter) (n : ℕ) :
    m.credit ≤ (m.write l n).credit + ((n : ℚ), 0) := by
  unfold Meter.write
  split_ifs
  · exact le_add_of_nonneg_right ⟨Nat.cast_nonneg _, le_rfl⟩
  · refine ⟨?_, ?_⟩
    · simp only [Meter.credit, Prod.fst_add]
      push_cast
      linarith
    · simp [Meter.credit]

/-- Nothing is counted that is written without a limit. -/
theorem Meter.credit_write_silent (m : Meter) {l : SpeedLimiter} {n : ℕ}
    (h : n = 0 ∨ l.rate = 0) : (m.write l n).credit = m.credit := by
  unfold Meter.write
  rcases h with rfl | hrate
  · split_ifs <;> rfl
  · rw [if_pos hrate]

/-- A part of `consume` grants no more than has been paid for. -/
theorem SpeedLimiter.credit_consume {l l' : SpeedLimiter} {n : ℕ} {call : Consume}
    {result : Option Consume} (h : l.consume .exact n call = some (l', result)) (m : Meter) :
    (CopyLoop.resume n call result).owed + m.credit ≤
      (CopyLoop.consuming n call).owed +
        (m.consume n call (l.available - l'.available) result).credit := by
  cases call with
  | entered =>
      obtain ⟨rfl, rfl⟩ := Prod.mk.inj (Option.some.inj h)
      split_ifs <;>
        refine ⟨?_, ?_⟩ <;>
        simp [CopyLoop.resume, CopyLoop.owed, Meter.credit, Meter.consume, Consume.paid]
  | locking remaining =>
      simp only [consume, Rounding.exact_apply] at h
      split_ifs at h with hle
      · obtain ⟨rfl, rfl⟩ := Prod.mk.inj (Option.some.inj h)
        have htokens : l.available - (l.available - remaining) = remaining :=
          tsub_tsub_cancel_of_le hle
        have hpaid : (n : ℚ) ≤ (((n : NNRat) - remaining : NNRat) : ℚ) + remaining := by
          have hle : (n : NNRat) ≤ n - remaining + remaining := le_tsub_add
          exact_mod_cast hle
        simp only [htokens]
        refine ⟨?_, ?_⟩
        · simp [CopyLoop.resume, CopyLoop.owed, Meter.credit, Meter.consume]
          linarith
        · simp [CopyLoop.resume, CopyLoop.owed, Meter.credit, Meter.consume, Consume.paid]
          linarith
      · obtain ⟨rfl, rfl⟩ := Prod.mk.inj (Option.some.inj h)
        have hpaid : (((n : NNRat) - (remaining - l.available) : NNRat) : ℚ) ≤
            (((n : NNRat) - remaining : NNRat) : ℚ) + l.available := by
          exact_mod_cast tsub_tsub_le_tsub_add
        refine ⟨?_, ?_⟩
        · simp [CopyLoop.resume, CopyLoop.owed, Meter.credit, Meter.consume]
        · simp [CopyLoop.resume, CopyLoop.owed, Meter.credit, Meter.consume, Consume.paid]
          linarith
  | waiting remaining => cases h

/-- A step of a loop keeps the balance, if it does not write under a limit what it
was let through with when there was none. -/
theorem CopyLoop.credit_step {l l' : SpeedLimiter} {m m' : Meter} {c c' : CopyLoop} {a : Action}
    (h : c.step l m a = some (l', m', c'))
    (hgranted : ∀ n, a = .write n → c.granted = true ∨ n = 0 ∨ l.rate = 0) :
    c'.owed + m.credit ≤ c.owed + m'.credit := by
  cases a with
  | read n =>
      cases c <;> simp only [step, reduceCtorEq] at h
      have hidle : c'.owed = 0 ∧ m' = m := by
        split_ifs at h <;> cases h
        · exact ⟨rfl, rfl⟩
        · exact ⟨by simp [owed, Consume.paid], rfl⟩
      rw [hidle.1, hidle.2]
      exact le_rfl
  | consume =>
      cases c <;> simp only [step, reduceCtorEq] at h
      obtain ⟨⟨l'', result⟩, hresult, heq⟩ := Option.map_eq_some_iff.mp h
      cases heq
      exact SpeedLimiter.credit_consume hresult m
  | write n =>
      cases c <;> simp only [step, reduceCtorEq] at h
      rename_i left granted
      cases granted with
      | false =>
          have hwritten : m' = m.write l n ∧ c'.owed = 0 := by
            split_ifs at h <;> cases h <;> exact ⟨rfl, rfl⟩
          have hsilent : n = 0 ∨ l.rate = 0 :=
            (hgranted n rfl).resolve_left (by simp [CopyLoop.granted])
          rw [hwritten.1, hwritten.2, Meter.credit_write_silent m hsilent]
          exact le_rfl
      | true =>
          have hwritten : m' = m.write l n ∧ c'.owed + ((n : ℚ), 0) = ((left : ℚ), 0) := by
            split_ifs at h with hle heq <;> cases h
            · exact ⟨rfl, by simp [owed, heq]⟩
            · exact ⟨rfl, by simp [owed, Nat.cast_sub hle]⟩
          obtain ⟨rfl, howed⟩ := hwritten
          have hcredit := m.credit_write l n
          calc c'.owed + m.credit ≤ c'.owed + ((m.write l n).credit + ((n : ℚ), 0)) :=
                add_le_add le_rfl hcredit
            _ = c'.owed + ((n : ℚ), 0) + (m.write l n).credit := by
                rw [add_assoc, add_comm _ ((n : ℚ), 0)]
            _ = (CopyLoop.writing left true).owed + (m.write l n).credit := by rw [howed, owed]
  | fail =>
      have hfinished : c' = .finished ∧ m' = m := by
        cases c <;> cases h <;> exact ⟨rfl, rfl⟩
      rw [hfinished.1, hfinished.2]
      exact add_le_add c.owed_nonneg le_rfl

/-- A datagram that writes nothing while there is a limit leaves the credit. -/
theorem UdpForward.credit_step {l : SpeedLimiter} {m m' : Meter} {f f' : UdpForward} {a : Action}
    (h : f.step l m a = some (m', f')) (hsilent : ∀ n, a = .write n → n = 0 ∨ l.rate = 0) :
    m'.credit = m.credit := by
  cases a with
  | write n =>
      have hm : m' = m.write l n := by
        cases f <;> simp only [step, reduceCtorEq] at h <;> split_ifs at h <;> cases h <;> rfl
      rw [hm, m.credit_write_silent (hsilent n rfl)]
  | read n =>
      cases f <;> simp only [step, reduceCtorEq] at h
      split_ifs at h <;> cases h <;> rfl
  | consume => cases f <;> cases h
  | fail => cases f <;> cases h <;> rfl

/-- A step of a session keeps the balance, if it does not write what has not been
granted while there is a limit. -/
theorem ForwardSession.credit_step {l l' : SpeedLimiter} {m m' : Meter} {d : Direction} {a : Action}
    {session session' : ForwardSession} (h : session.step l m d a = some (l', m', session'))
    (hgranted : ∀ n, a = .write n → session.granted d = true ∨ n = 0 ∨ l.rate = 0) :
    session'.owed + m.credit ≤ session.owed + m'.credit := by
  cases session with
  | relay up down =>
      cases d with
      | up =>
          obtain ⟨⟨l'', m'', c⟩, hc, heq⟩ := Option.map_eq_some_iff.mp h
          simp only [Prod.mk.injEq] at heq
          obtain ⟨-, rfl, rfl⟩ := heq
          have hup := CopyLoop.credit_step hc hgranted
          calc c.owed + down.owed + m.credit = c.owed + m.credit + down.owed := by ac_rfl
            _ ≤ up.owed + m''.credit + down.owed := add_le_add hup le_rfl
            _ = up.owed + down.owed + m''.credit := by ac_rfl
      | down =>
          obtain ⟨⟨l'', m'', c⟩, hc, heq⟩ := Option.map_eq_some_iff.mp h
          simp only [Prod.mk.injEq] at heq
          obtain ⟨-, rfl, rfl⟩ := heq
          have hdown := CopyLoop.credit_step hc hgranted
          calc up.owed + c.owed + m.credit = c.owed + m.credit + up.owed := by ac_rfl
            _ ≤ down.owed + m''.credit + up.owed := add_le_add hdown le_rfl
            _ = up.owed + down.owed + m''.credit := by ac_rfl
  | datagram f =>
      obtain ⟨⟨m'', f'⟩, hf, heq⟩ := Option.map_eq_some_iff.mp h
      simp only [Prod.mk.injEq] at heq
      obtain ⟨-, rfl, rfl⟩ := heq
      rw [UdpForward.credit_step hf fun n hn ↦
        (hgranted n hn).resolve_left (by simp [ForwardSession.granted])]
      exact le_rfl

namespace Bandwidth

/-- Every byte written or still to be written was granted, and every byte granted
or about to be was paid for. -/
def Balanced (s : Bandwidth) : Prop := (s.sessions.map ForwardSession.owed).sum ≤ s.meter.credit

theorem owed_notify (session : ForwardSession) : session.notify.owed = session.owed := by
  have hcall : ∀ n (call : Consume), call.notify.paid n = call.paid n := by
    intro n call
    cases call <;> rfl
  have hloop : ∀ c : CopyLoop, c.notify.owed = c.owed := by
    intro c
    cases c with
    | consuming n call => simp [CopyLoop.notify, CopyLoop.owed, hcall]
    | reading | writing | finished => rfl
  cases session with
  | relay up down => simp [ForwardSession.notify, ForwardSession.owed, hloop]
  | datagram f => rfl

theorem Balanced.notifyWaiters {s : Bandwidth} (h : s.Balanced) : s.notifyWaiters.Balanced := by
  have hmap : (s.sessions.map ForwardSession.notify).map ForwardSession.owed =
      s.sessions.map ForwardSession.owed := by
    rw [List.map_map]
    exact List.map_congr_left fun session _ ↦ owed_notify session
  unfold Balanced
  rw [Bandwidth.notifyWaiters, hmap]
  exact h

theorem owed_session (kind : SessionKind) : kind.session.owed = 0 := by
  cases kind with
  | tcp => exact add_zero 0
  | udp data => rfl
  | https direct | http direct | websocket direct => cases direct <;> exact add_zero 0

theorem Balanced.step {s s' : Bandwidth} {i : Input} (h : s.Balanced) (hgranted : s.WritesGranted i)
    (hstep : s.step i = some s') : s'.Balanced := by
  cases i with
  | connect kind =>
      obtain rfl := Option.some.inj hstep
      simpa [Balanced, owed_session] using h
  | act i d a =>
      obtain ⟨session, hsession, hmap⟩ := Option.bind_eq_some_iff.mp hstep
      obtain ⟨⟨l', m', session'⟩, hr, rfl⟩ := Option.map_eq_some_iff.mp hmap
      have hcredit := ForwardSession.credit_step hr fun n ha ↦ by
        subst ha
        exact hgranted session hsession
      have hset := List.sum_map_set ForwardSession.owed session' hsession
      have hle : ((s.sessions.set i session').map ForwardSession.owed).sum + session.owed ≤
          m'.credit + session.owed :=
        calc ((s.sessions.set i session').map ForwardSession.owed).sum + session.owed
            = (s.sessions.map ForwardSession.owed).sum + session'.owed := hset
          _ ≤ s.meter.credit + session'.owed := add_le_add h le_rfl
          _ = session'.owed + s.meter.credit := add_comm ..
          _ ≤ session.owed + m'.credit := hcredit
          _ = m'.credit + session.owed := add_comm ..
      exact le_of_add_le_add_right hle
  | abort i =>
      obtain rfl := Option.some.inj hstep
      have hsub : ((s.sessions.eraseIdx i).map ForwardSession.owed).Sublist
          (s.sessions.map ForwardSession.owed) := (List.eraseIdx_sublist s.sessions i).map _
      refine (hsub.sum_le_sum fun x hx ↦ ?_).trans h
      obtain ⟨session, -, rfl⟩ := List.mem_map.mp hx
      exact session.owed_nonneg
  | refill now =>
      obtain rfl := Option.some.inj hstep
      have hrefill : Balanced { s with limiter := s.limiter.refill .exact now } := h
      split_ifs
      · exact hrefill
      · exact hrefill.notifyWaiters
  | updateRate newRate =>
      obtain rfl := Option.some.inj hstep
      have hrate : Balanced { s with limiter := s.limiter.updateRate newRate } := h
      split_ifs
      · exact hrate.notifyWaiters
      · exact hrate

/-- What the sessions have forwarded under a limit is covered by what the limiter
has granted, and that by the tokens taken out of the bucket. -/
def Covered (s : Bandwidth) : Prop :=
  s.meter.forwarded ≤ s.meter.granted ∧ (s.meter.granted : ℚ) ≤ s.meter.taken

instance (s : Bandwidth) : Decidable s.Covered :=
  inferInstanceAs (Decidable (_ ∧ _))

theorem Balanced.covered {s : Bandwidth} (h : s.Balanced) : s.Covered := by
  have hnonneg : 0 ≤ (s.sessions.map ForwardSession.owed).sum := by
    refine List.sum_nonneg fun x hx ↦ ?_
    obtain ⟨session, -, rfl⟩ := List.mem_map.mp hx
    exact session.owed_nonneg
  obtain ⟨hforwarded, hgranted⟩ := hnonneg.trans h
  refine ⟨?_, sub_nonneg.mp hgranted⟩
  exact_mod_cast sub_nonneg.mp hforwarded

/-- In every run in which only what has been granted is written while there is a
limit, what the node forwards is covered by its limiter. -/
theorem covered_of_writesGranted {rate : ℕ} {inputs : List Input} {s : Bandwidth}
    (hgranted : Within step WritesGranted (start rate) inputs)
    (hrun : run step (start rate) inputs = some s) : s.Covered := by
  have hstart : Balanced (start rate) := by simp [Balanced, start, Meter.credit, Prod.mk_zero_zero]
  have hstep : ∀ s i s', s.Balanced → s.WritesGranted i → step s i = some s' → s'.Balanced :=
    fun s i s' h hgranted hstep ↦ h.step hgranted hstep
  exact (run_invariant hstep hstart hgranted hrun).covered

/-- A datagram and the bytes of a connection while there is no limit, and more bytes
of the connection under the next one. -/
def mixedInputs : List Input :=
  [.updateRate 0, .connect (.udp 100), .act 0 .up (.write 100), .connect .tcp,
    .act 1 .up (.read 200), .act 1 .up .consume, .act 1 .up (.write 200), .updateRate 1000,
    .act 1 .up (.read 1500), .act 1 .up .consume, .act 1 .up .consume, .refill 1,
    .act 1 .up .consume, .act 1 .up (.write 1500)]

theorem covered_of_writesGranted_mixedInputs :
    ∃ s, run step (start 1000) mixedInputs = some s ∧ s.meter.forwarded = 1500 ∧ s.Covered := by
  have hforwarded : ∃ s ∈ run step (start 1000) mixedInputs, s.meter.forwarded = 1500 := by
    decide +kernel
  obtain ⟨s, hrun, hforwarded⟩ := hforwarded
  exact ⟨s, hrun, hforwarded, covered_of_writesGranted (by decide +kernel) hrun⟩

/-- A UDP datagram of 100 bytes is forwarded without any grant. -/
theorem not_covered_udp :
    ¬ ∀ rate inputs s, rate ≠ 0 → run step (start rate) inputs = some s →
      s.meter.forwarded ≤ s.meter.granted := by
  intro h
  have hforwarded : ∃ s ∈ run step (start 1000) [.connect (.udp 100), .act 0 .up (.write 100)],
      s.meter.granted < s.meter.forwarded := by decide +kernel
  obtain ⟨s, hrun, hforwarded⟩ := hforwarded
  exact absurd (h 1000 _ s (by decide) hrun) (not_le.mpr hforwarded)

end Bandwidth

end Oxiproxy.Node
