import Oxiproxy.Foundation.Runs
import Oxiproxy.Node.Listeners

/-!
# The server name of a TLS connection

The node reads from a connection until the TLS library can tell the server name,
and then forwards every byte that it has read and all that follow.  The library
belongs to a third-party crate; what it makes of the bytes is a parameter.
-/

namespace Oxiproxy.Node

open Transition

def helloLimit : ℕ := 65536

/-- The size of the buffer that is read into. -/
def sniffBuffer : ℕ := 4096

/-- A handshake, as the TLS library sees it. -/
inductive Hello
  | accepted (serverName : Option String)
  | invalid
  deriving DecidableEq

/-- The decision on the bytes that the library was fed with so far. -/
abbrev Acceptor := List UInt8 → Option Hello

/-- A decision stays when more bytes come. -/
def Acceptor.Stable (acceptor : Acceptor) : Prop :=
  ∀ bytes more hello, acceptor bytes = some hello → acceptor (bytes ++ more) = some hello

structure TlsEnv where
  acceptor : Acceptor
  routes : AList fun _ : String ↦ Route
  directIsAllowed : Int → Except String Bool

inductive TlsPhase
  | sniffing (buffered : List UInt8)
  /-- Of the bytes read before, the rest has not been forwarded yet. -/
  | forwarding (route : Route) (rest : List UInt8)
  | closed (error : String)
  deriving DecidableEq

structure TlsConnection where
  phase : TlsPhase
  forwarded : List UInt8
  deriving DecidableEq

inductive TlsInput
  /-- A read returns bytes of the client. -/
  | read (bytes : List UInt8)
  | eof
  | fails (error : String)
  /-- The handshake has taken too long. -/
  | timeout
  /-- A part of the bytes that were read before is forwarded. -/
  | replay (n : ℕ)
  deriving DecidableEq

namespace TlsConnection

def start : TlsConnection := ⟨.sniffing [], []⟩

/-- `serve_tls` after the server name has been found. -/
def chooseRoute (env : TlsEnv) (domain : String) : Except String Route :=
  match findRoute env.routes domain with
  | none => .error "SNI 未匹配路由"
  | some route =>
      if route.upstream.isSome then do
        let allowed ← env.directIsAllowed route.config.proxyId
        ensure allowed "公网代理流量配额已用尽"
        return route
      else .ok route

/-- What follows from the decision of the library. -/
def verdict (env : TlsEnv) : Hello → Except String Route
  | .invalid => .error "无效 TLS ClientHello"
  | .accepted none => .error "TLS 缺少 SNI"
  | .accepted (some name) => do
      let domain ← normalizeDomain name
      chooseRoute env domain

/-- A turn of `read_sni`. -/
def sniff (env : TlsEnv) (buffered bytes : List UInt8) : TlsPhase :=
  if helloLimit < buffered.length + bytes.length then .closed "TLS ClientHello 过大"
  else
    match env.acceptor (buffered ++ bytes) with
    | none => .sniffing (buffered ++ bytes)
    | some hello =>
        match verdict env hello with
        | .ok route => .forwarding route (buffered ++ bytes)
        | .error e => .closed e

def step (env : TlsEnv) (s : TlsConnection) : TlsInput → Option TlsConnection
  | .read bytes =>
      match s.phase with
      | .sniffing buffered =>
          if bytes ≠ [] ∧ bytes.length ≤ sniffBuffer then
            some { s with phase := sniff env buffered bytes }
          else none
      -- the stream is read again after the bytes before it
      | .forwarding _ [] => if bytes ≠ [] then some { s with forwarded := s.forwarded ++ bytes } else none
      | _ => none
  | .replay n =>
      match s.phase with
      | .forwarding route rest =>
          if 0 < n ∧ n ≤ rest.length then
            some ⟨.forwarding route (rest.drop n), s.forwarded ++ rest.take n⟩
          else none
      | _ => none
  | .eof =>
      match s.phase with
      | .sniffing _ => some { s with phase := .closed "TLS 握手不完整" }
      | _ => none
  | .fails e =>
      match s.phase with
      | .sniffing _ => some { s with phase := .closed e }
      | _ => none
  | .timeout =>
      match s.phase with
      | .sniffing _ => some { s with phase := .closed "deadline has elapsed" }
      | _ => none

/-- The route that was chosen, or why there is none. -/
def decided (s : TlsConnection) : Option (Except String Route) :=
  match s.phase with
  | .sniffing _ => none
  | .forwarding route _ => some (.ok route)
  | .closed e => some (.error e)

/-- The bytes that are held back. -/
def buffered (s : TlsConnection) : List UInt8 :=
  match s.phase with
  | .sniffing bytes | .forwarding _ bytes => bytes
  | .closed _ => []

end TlsConnection

def TlsInput.bytes : TlsInput → List UInt8
  | .read bytes => bytes
  | _ => []

/-- All that the client has sent. -/
def clientBytes (inputs : List TlsInput) : List UInt8 := inputs.flatMap TlsInput.bytes

def TlsInput.interrupts : TlsInput → Bool
  | .eof | .fails _ | .timeout => true
  | _ => false

namespace TlsConnection

/-- The library has not decided on any part of the bytes up to a length. -/
def Undecided (env : TlsEnv) (bytes : List UInt8) (n : ℕ) : Prop :=
  n ≤ bytes.length ∧ ∀ k, 0 < k → k ≤ n → env.acceptor (bytes.take k) = none

/-- The library has decided, and the result follows from its decision. -/
def Follows (env : TlsEnv) (bytes : List UInt8) (result : Except String Route) : Prop :=
  ∃ k hello, k ≤ bytes.length ∧ env.acceptor (bytes.take k) = some hello ∧
    verdict env hello = result

/-- The connection after the client has sent some bytes; it may have been
interrupted. -/
structure Inv (env : TlsEnv) (s : TlsConnection) (bytes : List UInt8) (interrupted : Bool) : Prop where
  bounded : s.buffered.length ≤ helloLimit
  complete : (∀ e, s.phase ≠ .closed e) → s.forwarded ++ s.buffered = bytes
  sniffing : ∀ b, s.phase = .sniffing b → Undecided env bytes bytes.length ∧ s.forwarded = []
  decided : ∀ result, s.decided = some result → interrupted = false →
    Follows env bytes result ∨ Undecided env bytes (helloLimit - sniffBuffer + 1)

section Inv

variable {env : TlsEnv} {s t : TlsConnection} {bytes more : List UInt8} {interrupted : Bool}
  {input : TlsInput}

theorem Undecided.append {n : ℕ} (h : Undecided env bytes n) (more : List UInt8) :
    Undecided env (bytes ++ more) n := by
  obtain ⟨hlength, hnone⟩ := h
  refine ⟨hlength.trans (by simp), fun k hpos hk ↦ ?_⟩
  rw [List.take_append_of_le_length (hk.trans hlength)]
  exact hnone k hpos hk

theorem Follows.append {result : Except String Route} (h : Follows env bytes result)
    (more : List UInt8) : Follows env (bytes ++ more) result := by
  obtain ⟨k, hello, hk, hhello, hverdict⟩ := h
  refine ⟨k, hello, hk.trans (by simp), ?_, hverdict⟩
  rwa [List.take_append_of_le_length hk]

/-- Without a decision on the whole there was none on a part. -/
theorem undecided_of_none (hstable : env.acceptor.Stable) (h : env.acceptor bytes = none) :
    Undecided env bytes bytes.length := by
  refine ⟨le_rfl, fun k _ _ ↦ ?_⟩
  cases hpart : env.acceptor (bytes.take k) with
  | none => rfl
  | some hello =>
      have hwhole := hstable _ (bytes.drop k) hello hpart
      rw [List.take_append_drop, h] at hwhole
      cases hwhole

theorem Undecided.mono {m n : ℕ} (h : Undecided env bytes n) (hmn : m ≤ n) : Undecided env bytes m :=
  ⟨hmn.trans h.1, fun k hpos hk ↦ h.2 k hpos (hk.trans hmn)⟩

/-- A turn of the loop. -/
theorem Inv.sniff (hstable : env.acceptor.Stable) (hundecided : Undecided env bytes bytes.length)
    (hmore : more.length ≤ sniffBuffer) (interrupted : Bool) :
    Inv env ⟨sniff env bytes more, []⟩ (bytes ++ more) interrupted := by
  unfold TlsConnection.sniff
  by_cases hlimit : helloLimit < bytes.length + more.length
  · rw [if_pos hlimit]
    have hlong : helloLimit - sniffBuffer + 1 ≤ bytes.length := by
      unfold helloLimit sniffBuffer at *
      omega
    exact ⟨Nat.zero_le _, fun h ↦ (h _ rfl).elim, fun _ h ↦ (by cases h),
      fun _ _ _ ↦ .inr ((hundecided.mono hlong).append more)⟩
  · have hsize : (bytes ++ more).length ≤ helloLimit := by
      rw [List.length_append]
      exact not_lt.mp hlimit
    rw [if_neg hlimit]
    cases hhello : env.acceptor (bytes ++ more) with
    | none =>
        exact ⟨hsize, fun _ ↦ rfl, fun _ _ ↦ ⟨undecided_of_none hstable hhello, rfl⟩,
          fun _ h ↦ (by cases h)⟩
    | some hello =>
        have hfollows : Follows env (bytes ++ more) (verdict env hello) :=
          ⟨(bytes ++ more).length, hello, le_rfl, by rwa [List.take_length], rfl⟩
        dsimp only
        cases hverdict : verdict env hello with
        | ok route =>
            rw [hverdict] at hfollows
            refine ⟨hsize, fun _ ↦ rfl, fun _ h ↦ (by cases h), fun result h _ ↦ .inl ?_⟩
            obtain rfl := Option.some.inj h
            exact hfollows
        | error e =>
            rw [hverdict] at hfollows
            refine ⟨Nat.zero_le _, fun h ↦ (h _ rfl).elim, fun _ h ↦ (by cases h),
              fun result h _ ↦ .inl ?_⟩
            obtain rfl := Option.some.inj h
            exact hfollows

/-- A connection that is interrupted forwards nothing. -/
theorem Inv.close (e : String) (bytes forwarded : List UInt8) :
    Inv env ⟨.closed e, forwarded⟩ bytes true :=
  ⟨Nat.zero_le _, fun h ↦ (h e rfl).elim, fun _ h ↦ (by cases h), fun _ _ h ↦ (by cases h)⟩

theorem Inv.step (hstable : env.acceptor.Stable) (h : Inv env s bytes interrupted)
    (hstep : s.step env input = some t) :
    Inv env t (bytes ++ input.bytes) (interrupted || input.interrupts) := by
  obtain ⟨phase, forwarded⟩ := s
  cases phase with
  | sniffing buffered =>
      obtain ⟨hundecided, hnone⟩ := h.sniffing buffered rfl
      obtain rfl : forwarded = [] := hnone
      obtain rfl : buffered = bytes := h.complete fun _ h ↦ (by cases h)
      cases input with
      | read more =>
          simp only [TlsConnection.step] at hstep
          split_ifs at hstep with hmore
          obtain rfl := Option.some.inj hstep
          exact Inv.sniff hstable hundecided hmore.2 _
      | eof | fails e | timeout =>
          obtain rfl := Option.some.inj hstep
          rw [TlsInput.interrupts, Bool.or_true]
          exact Inv.close _ _ _
      | replay n => cases hstep
  | forwarding route rest =>
      have hwhole : forwarded ++ rest = bytes := h.complete fun _ h ↦ (by cases h)
      have hdecided := h.decided (.ok route) rfl
      have hsize : rest.length ≤ helloLimit := h.bounded
      cases input with
      | read more =>
          cases rest with
          | cons b rest => cases hstep
          | nil =>
              simp only [TlsConnection.step] at hstep
              split_ifs at hstep
              obtain rfl := Option.some.inj hstep
              refine ⟨hsize, fun _ ↦ ?_, fun _ h ↦ (by cases h), fun result hresult hint ↦ ?_⟩
              · rw [← hwhole]
                simp [TlsConnection.buffered, TlsInput.bytes]
              · obtain rfl := Option.some.inj hresult
                have hint : interrupted = false := by simpa [TlsInput.interrupts] using hint
                exact (hdecided hint).imp (·.append more) (·.append more)
      | replay n =>
          simp only [TlsConnection.step] at hstep
          split_ifs at hstep with hn
          obtain rfl := Option.some.inj hstep
          refine ⟨?_, fun _ ↦ ?_, fun _ h ↦ (by cases h), fun result hresult hint ↦ ?_⟩
          · have hdrop : (rest.drop n).length ≤ rest.length := by simp
            exact hdrop.trans hsize
          · rw [← hwhole]
            simp [TlsConnection.buffered, TlsInput.bytes]
          · obtain rfl := Option.some.inj hresult
            have hint : interrupted = false := by simpa [TlsInput.interrupts] using hint
            have hbytes : bytes ++ (TlsInput.replay n).bytes = bytes := List.append_nil bytes
            rw [hbytes]
            exact hdecided hint
      | eof | fails e | timeout => cases hstep
  | closed e => cases input <;> cases hstep

theorem Inv.run (hstable : env.acceptor.Stable) {inputs : List TlsInput}
    (h : Inv env s bytes interrupted)
    (hrun : Transition.run (TlsConnection.step env) s inputs = some t) :
    Inv env t (bytes ++ clientBytes inputs) (interrupted || inputs.any TlsInput.interrupts) := by
  induction inputs generalizing s bytes interrupted with
  | nil =>
      obtain rfl := Option.some.inj hrun
      rw [clientBytes, List.flatMap_nil, List.append_nil, List.any_nil, Bool.or_false]
      exact h
  | cons input inputs ih =>
      obtain ⟨u, hu, hrest⟩ := run_cons_eq_some.mp hrun
      have hnext := ih (h.step hstable hu) hrest
      rwa [List.append_assoc, Bool.or_assoc] at hnext

theorem inv_start (env : TlsEnv) : Inv env start [] false :=
  ⟨Nat.zero_le _, fun _ ↦ rfl, fun _ _ ↦ ⟨⟨le_rfl, fun _ hpos hk ↦ by simp at hk; omega⟩, rfl⟩,
    fun _ h ↦ (by cases h)⟩

end Inv

end TlsConnection

end Oxiproxy.Node
