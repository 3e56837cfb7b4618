import Oxiproxy.Common.Net
import Oxiproxy.Foundation.ByteStream
import Oxiproxy.Foundation.Runs

/-!
# A UDP session through the tunnel

For each datagram from outside the node opens a stream to the client, writes a
header and the datagram, and from then on forwards what it reads as datagrams.
The client does the same towards the target.  A turn of either loop, from its
read to its write, is one step.
-/

namespace Oxiproxy.Tunnel

open Net Transition

/-- The most that a datagram over IPv4 carries, which is less than the 65535 bytes of
the buffers. -/
def maxPayload : ℕ := 65507

abbrev Datagram := { data : List UInt8 // data.length ≤ maxPayload }

/-- `local_ip:local_port`, whose length fits into the two bytes of the header. -/
structure TargetAddr where
  text : String
  fits : text.toUTF8.data.toList.length < 65536
  /-- The first address that the text resolves to when the client sends to it. -/
  resolved : Option SocketAddr
  resolved_of_parse : ∀ addr, SocketAddr.parse text = some addr → resolved = some addr
  /-- The client's host has a route to the address and lets the socket send there. -/
  routed : Bool

/-- The client's socket is bound to an IPv4 address, and no port is zero. -/
def TargetAddr.reachable (target : TargetAddr) : Bool :=
  target.routed && target.resolved.any fun addr ↦ addr.port != 0 && match addr.ip with
    | .v4 _ => true
    | .v6 _ => false

def TargetAddr.bytes (target : TargetAddr) : List UInt8 := target.text.toUTF8.data.toList

theorem TargetAddr.length_lt (target : TargetAddr) : target.bytes.length < 65536 := target.fits

/-- `u16::to_be_bytes`. -/
def toBeBytes (n : ℕ) : List UInt8 := [UInt8.ofNat (n / 256), UInt8.ofNat (n % 256)]

/-- What the node writes before it reads, write by write. -/
def openingWrites (target : TargetAddr) (data : Datagram) : List (List UInt8) :=
  [[0x70], [0x75], toBeBytes target.bytes.length, target.bytes, data.1]

/-- The header that the client takes off the stream by exact reads: the type of
the message, the protocol, and an address after its length. -/
def readHeader : List UInt8 → Option (UInt8 × List UInt8 × List UInt8)
  | messageType :: protocol :: high :: low :: rest =>
      let len := high.toNat * 256 + low.toNat
      if messageType = 0x70 ∧ len ≤ rest.length then some (protocol, rest.take len, rest.drop len)
      else none
  | _ => none

/-- One direction of the stream. -/
structure Pipe where
  bytes : List UInt8
  /-- Nothing more will be written. -/
  finished : Bool
  deriving DecidableEq

/-- `handle_udp_to_tunnel_unified`. -/
inductive NodeLoop
  | writing (rest : List (List UInt8))
  | reading
  /-- Out of the loop, and before `finish`. -/
  | leaving
  | ended (ok : Bool)
  deriving DecidableEq

/-- `handle_proxy_stream` and `handle_udp_proxy`. -/
inductive ClientLoop
  | accepting
  | initial
  | relaying
  /-- Out of the loop, and before `shutdown`. -/
  | leaving
  | ended (ok : Bool)
  deriving DecidableEq

structure UdpSession where
  node : NodeLoop
  client : ClientLoop
  /-- Datagrams can be sent to the target. -/
  reachable : Bool
  toClient : Pipe
  toNode : Pipe
  /-- The datagrams that the node has written. -/
  sent : List (List UInt8)
  /-- The datagrams that have been sent to the target. -/
  atTarget : List (List UInt8)
  /-- The replies of the target that wait in the socket of the client. -/
  inbox : List Datagram
  /-- The replies that the client has written. -/
  replied : List (List UInt8)
  /-- The datagrams that have been sent to the peer. -/
  atPeer : List (List UInt8)
  deriving DecidableEq

inductive UdpInput
  | write
  | forward (n : ℕ)
  | nodeEof
  | finish
  | accept
  | headerEof
  | initial (n : ℕ)
  /-- The first datagram is read and cannot be sent. -/
  | initialLost (n : ℕ)
  | initialEof
  | relay (n : ℕ)
  | relayEof
  | answer
  | shutdown
  /-- The target sends a reply. -/
  | reply (data : Datagram)
  /-- A socket or the tunnel connection fails under one of the loops, or it has read
  more than a datagram carries. -/
  | nodeFails
  | clientFails
  deriving DecidableEq

namespace UdpSession

def start (target : TargetAddr) (data : Datagram) : UdpSession where
  node := .writing (openingWrites target data)
  client := .accepting
  reachable := target.reachable
  toClient := ⟨[], false⟩
  toNode := ⟨[], false⟩
  sent := []
  atTarget := []
  inbox := []
  replied := []
  atPeer := []

/-- A read returns at least one byte, and as many as can be sent on. -/
def Readable (p : Pipe) (n : ℕ) : Prop := 0 < n ∧ n ≤ p.bytes.length ∧ n ≤ maxPayload

instance (p : Pipe) (n : ℕ) : Decidable (Readable p n) := inferInstanceAs (Decidable (_ ∧ _))

/-- The end of the stream is reached. -/
def AtEnd (p : Pipe) : Prop := p.bytes = [] ∧ p.finished = true

instance (p : Pipe) : Decidable (AtEnd p) := inferInstanceAs (Decidable (_ ∧ _))

/-- A loop that ends drops its streams. -/
def endNode (s : UdpSession) (ok : Bool) : UdpSession :=
  { s with node := .ended ok, toClient := { s.toClient with finished := true } }

def endClient (s : UdpSession) (ok : Bool) : UdpSession :=
  { s with client := .ended ok, toNode := { s.toNode with finished := true } }

def step (s : UdpSession) : UdpInput → Option UdpSession
  | .write =>
      match s.node with
      | .writing (w :: rest) => some { s with
          node := match rest with
            | [] => .reading
            | rest => .writing rest
          toClient := { s.toClient with bytes := s.toClient.bytes ++ w }
          -- the last write is the datagram
          sent := match rest with
            | [] => s.sent ++ [w]
            | _ => s.sent }
      | _ => none
  | .forward n =>
      if s.node = .reading ∧ Readable s.toNode n then
        some { s with
          toNode := { s.toNode with bytes := s.toNode.bytes.drop n }
          atPeer := s.atPeer ++ [s.toNode.bytes.take n] }
      else none
  | .nodeEof => if s.node = .reading ∧ AtEnd s.toNode then some { s with node := .leaving } else none
  | .finish => if s.node = .leaving then some (s.endNode true) else none
  | .accept =>
      match s.client, readHeader s.toClient.bytes with
      | .accepting, some (protocol, _, rest) =>
          -- another protocol is not for this loop
          if protocol = 0x75 then
            some { s with client := .initial, toClient := { s.toClient with bytes := rest } }
          else some (s.endClient false)
      | _, _ => none
  | .headerEof =>
      if s.client = .accepting ∧ s.toClient.finished ∧ readHeader s.toClient.bytes = none then
        some (s.endClient false)
      else none
  | .initial n =>
      if s.client = .initial ∧ Readable s.toClient n ∧ s.reachable = true then
        some { s with
          client := .relaying
          toClient := { s.toClient with bytes := s.toClient.bytes.drop n }
          atTarget := s.atTarget ++ [s.toClient.bytes.take n] }
      else none
  | .initialLost n =>
      if s.client = .initial ∧ Readable s.toClient n ∧ s.reachable = false then
        some (s.endClient false)
      else none
  | .initialEof =>
      if s.client = .initial ∧ AtEnd s.toClient then some (s.endClient true) else none
  | .relay n =>
      if s.client = .relaying ∧ Readable s.toClient n then
        some { s with
          toClient := { s.toClient with bytes := s.toClient.bytes.drop n }
          atTarget := s.atTarget ++ [s.toClient.bytes.take n] }
      else none
  | .relayEof =>
      if s.client = .relaying ∧ AtEnd s.toClient then some { s with client := .leaving } else none
  | .answer =>
      match s.client, s.inbox with
      | .relaying, d :: rest => some { s with
          inbox := rest
          toNode := { s.toNode with bytes := s.toNode.bytes ++ d.1 }
          replied := s.replied ++ [d.1] }
      | _, _ => none
  | .shutdown => if s.client = .leaving then some (s.endClient true) else none
  | .reply data => some { s with inbox := s.inbox ++ [data] }
  | .nodeFails => some (s.endNode false)
  | .clientFails => some (s.endClient false)

/-! ## Inputs from outside -/

/-- What is not a step of the loops themselves. -/
def External : UdpInput → Prop
  | .reply _ | .nodeFails | .clientFails => True
  | _ => False

/-- Something fails under a loop. -/
def Failure : UdpInput → Prop
  | .nodeFails | .clientFails => True
  | _ => False

/-! ## The header -/

theorem toBeBytes_value {n : ℕ} (hn : n < 65536) :
    (UInt8.ofNat (n / 256)).toNat * 256 + (UInt8.ofNat (n % 256)).toNat = n := by
  simp only [UInt8.toNat_ofNat']
  omega

theorem readHeader_cons {n : ℕ} (hn : n < 65536) (rest : List UInt8) :
    readHeader (0x70 :: 0x75 :: (toBeBytes n ++ rest)) =
      if n ≤ rest.length then some (0x75, rest.take n, rest.drop n) else none := by
  have hlen := toBeBytes_value hn
  change (if (0x70 : UInt8) = 0x70 ∧ _ ≤ rest.length then some _ else none) = _
  rw [hlen]
  simp only [true_and]
  rfl

theorem flatten_openingWrites (target : TargetAddr) (data : Datagram) :
    (openingWrites target data).flatten =
      0x70 :: 0x75 :: (toBeBytes target.bytes.length ++ (target.bytes ++ data.1)) := by
  simp [openingWrites]

theorem readHeader_opening (target : TargetAddr) (data : Datagram) :
    readHeader (0x70 :: 0x75 :: (toBeBytes target.bytes.length ++ (target.bytes ++ data.1))) =
      some (0x75, target.bytes, data.1) := by
  rw [readHeader_cons target.length_lt, if_pos (by simp), List.take_left, List.drop_left]

/-- What has been written of the opening when the header can be read. -/
theorem left_of_readHeader {target : TargetAddr} {data : Datagram} {done left : List (List UInt8)}
    (hsplit : openingWrites target data = done ++ left) {protocol : UInt8} {address rest : List UInt8}
    (hheader : readHeader done.flatten = some (protocol, address, rest)) :
    protocol = 0x75 ∧ (left = [] ∧ rest = data.1 ∨
      ∃ pre, left = pre ++ [data.1] ∧ pre.flatten = [] ∧ rest = []) := by
  have hfits := target.length_lt
  unfold openingWrites at hsplit
  rcases done with _ | ⟨w₁, _ | ⟨w₂, _ | ⟨w₃, _ | ⟨w₄, _ | ⟨w₅, done⟩⟩⟩⟩⟩
  · cases hheader
  · cases hsplit
    cases hheader
  · cases hsplit
    cases hheader
  · cases hsplit
    have hread := readHeader_cons hfits []
    split_ifs at hread with hempty
    · rw [List.append_nil] at hread
      have heq := hheader.symm.trans hread
      cases heq
      have haddress : target.bytes = [] := List.eq_nil_of_length_eq_zero (Nat.le_zero.mp hempty)
      exact ⟨rfl, .inr ⟨[target.bytes], rfl, by simp [haddress], by simp⟩⟩
    · cases hheader.symm.trans hread
  · cases hsplit
    have hread := readHeader_cons hfits target.bytes
    rw [if_pos (Nat.le_refl _)] at hread
    have hflatten : [[0x70], [0x75], toBeBytes target.bytes.length, target.bytes].flatten =
        0x70 :: 0x75 :: (toBeBytes target.bytes.length ++ target.bytes) := by
      simp
    rw [hflatten, hread] at hheader
    cases hheader
    exact ⟨rfl, .inr ⟨[], rfl, rfl, by simp⟩⟩
  · simp only [List.cons_append, List.cons.injEq] at hsplit
    obtain ⟨rfl, rfl, rfl, rfl, rfl, hnil⟩ := hsplit
    obtain ⟨rfl, rfl⟩ := List.append_eq_nil_iff.mp hnil.symm
    have hflatten := flatten_openingWrites target data
    unfold openingWrites at hflatten
    rw [hflatten, readHeader_opening] at hheader
    cases hheader
    exact ⟨rfl, .inl ⟨rfl, rfl⟩⟩

/-! ## What flows through the stream -/

/-- The header has not been read; `left` is still to be written. -/
structure Unread (target : TargetAddr) (data : Datagram) (s : UdpSession) : Prop where
  split : ∃ done left, openingWrites target data = done ++ left ∧ s.toClient.bytes = done.flatten ∧
    s.sent = (if left = [] then [data.1] else []) ∧
      (∀ rest, s.node = .writing rest → rest = left ∧ rest ≠ []) ∧ (s.node = .reading → left = [])
  atTarget : s.atTarget = []
  client : s.client = .accepting ∨ ∃ ok, s.client = .ended ok

/-- The header has been read; nothing but the datagram can be left to write. -/
structure PastHeader (R : List (List UInt8) → List (List UInt8) → List UInt8 → Prop)
    (data : Datagram) (s : UdpSession) : Prop where
  left : ∀ rest, s.node = .writing rest → s.sent = [] ∧ ∃ pre, rest = pre ++ [data.1] ∧
    pre.flatten = []
  reading : s.node = .reading → s.sent = [data.1]
  flow : R s.sent s.atTarget s.toClient.bytes
  client : s.client ≠ .accepting

/-- `R` holds of what was sent, what has arrived and what is in flight, in both
directions. -/
structure Flow (R : List (List UInt8) → List (List UInt8) → List UInt8 → Prop)
    (target : TargetAddr) (data : Datagram) (s : UdpSession) : Prop where
  toClient : Unread target data s ∨ PastHeader R data s
  toNode : R s.replied s.atPeer s.toNode.bytes

section Flow

variable {R : List (List UInt8) → List (List UInt8) → List UInt8 → Prop} {target : TargetAddr}
  {data : Datagram} {s t : UdpSession} {input : UdpInput}

/-- What the steps of the loops ask of `R`. -/
structure Carries (R : List (List UInt8) → List (List UInt8) → List UInt8 → Prop)
    (data : Datagram) (s : UdpSession) (input : UdpInput) : Prop where
  nil : R [] [] []
  write : ∀ sent arrived bytes, R sent arrived bytes → input = .write ∨ input = .accept →
    R (sent ++ [data.1]) arrived (bytes ++ data.1)
  answer : ∀ d rest, R s.replied s.atPeer s.toNode.bytes → input = .answer → s.inbox = d :: rest →
    R (s.replied ++ [d.1]) s.atPeer (s.toNode.bytes ++ d.1)
  relay : ∀ n, R s.sent s.atTarget s.toClient.bytes → input = .initial n ∨ input = .relay n →
    Readable s.toClient n →
      R s.sent (s.atTarget ++ [s.toClient.bytes.take n]) (s.toClient.bytes.drop n)
  forward : ∀ n, R s.replied s.atPeer s.toNode.bytes → input = .forward n →
    Readable s.toNode n →
      R s.replied (s.atPeer ++ [s.toNode.bytes.take n]) (s.toNode.bytes.drop n)

theorem flow_start (hnil : R [] [] []) (target : TargetAddr) (data : Datagram) :
    Flow R target data (start target data) := by
  refine ⟨.inl ⟨⟨[], openingWrites target data, rfl, rfl, rfl, fun rest hrest ↦ ?_,
    fun hreading ↦ by cases hreading⟩, rfl, .inl rfl⟩, hnil⟩
  cases hrest
  exact ⟨rfl, List.cons_ne_nil _ _⟩

/-- Steps that move no bytes, after which a loop may have got further. -/
theorem Flow.frame (hs : Flow R target data s)
    (hnode : t.node = s.node ∨ t.node = .leaving ∨ ∃ ok, t.node = .ended ok)
    (hclient : t.client = s.client ∨ (∃ ok, t.client = .ended ok) ∨
      s.client = .relaying ∧ t.client = .leaving)
    (htoClient : t.toClient.bytes = s.toClient.bytes) (htoNode : t.toNode.bytes = s.toNode.bytes)
    (hsent : t.sent = s.sent) (hatTarget : t.atTarget = s.atTarget)
    (hreplied : t.replied = s.replied) (hatPeer : t.atPeer = s.atPeer) :
    Flow R target data t := by
  refine ⟨?_, by rw [hreplied, hatPeer, htoNode]; exact hs.toNode⟩
  have hwriting : ∀ rest, t.node = .writing rest → s.node = .writing rest := by
    intro rest hrest
    rcases hnode with hsame | hleaving | ⟨ok, hended⟩
    · exact hsame.symm.trans hrest
    · cases hleaving.symm.trans hrest
    · cases hended.symm.trans hrest
  have hreading : t.node = .reading → s.node = .reading := by
    intro hreading
    rcases hnode with hsame | hleaving | ⟨ok, hended⟩
    · exact hsame.symm.trans hreading
    · cases hleaving.symm.trans hreading
    · cases hended.symm.trans hreading
  rcases hs.toClient with ⟨⟨done, left, hsplit, hbytes, hs', hleft, hread⟩, hat, hunread⟩ | hpast
  · refine .inl ⟨⟨done, left, hsplit, htoClient.trans hbytes, hsent.trans hs',
      fun rest hrest ↦ hleft rest (hwriting rest hrest), fun h ↦ hread (hreading h)⟩,
        hatTarget.trans hat, ?_⟩
    rcases hclient with hsame | hended | ⟨hrelaying, -⟩
    · rw [hsame]
      exact hunread
    · exact .inr hended
    · rw [hrelaying] at hunread
      rcases hunread with hunread | ⟨ok, hunread⟩ <;> cases hunread
  · refine .inr ⟨fun rest hrest ↦ ?_, fun h ↦ ?_, ?_, fun haccepting ↦ ?_⟩
    · rw [hsent]
      exact hpast.left rest (hwriting rest hrest)
    · rw [hsent]
      exact hpast.reading (hreading h)
    · rw [hsent, hatTarget, htoClient]
      exact hpast.flow
    · rcases hclient with hsame | ⟨ok, hended⟩ | ⟨-, hleaving⟩
      · exact hpast.client (hsame.symm.trans haccepting)
      · rw [hended] at haccepting
        cases haccepting
      · rw [hleaving] at haccepting
        cases haccepting

theorem Flow.endNode (hs : Flow R target data s) (ok : Bool) : Flow R target data (s.endNode ok) :=
  hs.frame (.inr (.inr ⟨ok, rfl⟩)) (.inl rfl) rfl rfl rfl rfl rfl rfl

theorem Flow.endClient (hs : Flow R target data s) (ok : Bool) :
    Flow R target data (s.endClient ok) :=
  hs.frame (.inl rfl) (.inr (.inl ⟨ok, rfl⟩)) rfl rfl rfl rfl rfl rfl

/-- The client is in its loop, or about to be, only after the header. -/
theorem Flow.past (hs : Flow R target data s) (hclient : s.client = .initial ∨ s.client = .relaying) :
    PastHeader R data s := by
  rcases hs.toClient with ⟨-, -, hunread⟩ | hpast
  · rcases hunread with hunread | ⟨ok, hunread⟩ <;> rcases hclient with hclient | hclient <;>
      cases hclient.symm.trans hunread
  · exact hpast

theorem Flow.write (hs : Flow R target data s) (hcarries : Carries R data s .write)
    (h : s.step .write = some t) : Flow R target data t := by
  simp only [UdpSession.step] at h
  split at h
  · next w rest hnode =>
      cases h
      refine ⟨?_, hs.toNode⟩
      rcases hs.toClient with ⟨⟨done, left, hsplit, hbytes, hsent, hleft, -⟩, hat, hunread⟩ | hpast
      · obtain ⟨rfl, -⟩ := hleft _ hnode
        rw [if_neg (List.cons_ne_nil w rest)] at hsent
        refine .inl ⟨⟨done ++ [w], rest, by rw [hsplit]; simp, by simp [hbytes], ?_,
          fun rest' hrest' ↦ ?_, fun hreading ↦ ?_⟩, hat, hunread⟩
        · cases rest with
          | nil =>
              have hlast : (openingWrites target data).getLast? = (done ++ [w]).getLast? := by
                rw [hsplit]
              rw [List.getLast?_append_of_ne_nil done (List.cons_ne_nil w [])] at hlast
              obtain rfl : data.1 = w := Option.some.inj hlast
              simp [hsent]
          | cons w' rest => simp [hsent]
        · cases rest with
          | nil => cases hrest'
          | cons w' rest =>
              cases hrest'
              exact ⟨rfl, List.cons_ne_nil _ _⟩
        · cases rest with
          | nil => rfl
          | cons w' rest => cases hreading
      · obtain ⟨hsent, pre, hpre, hflatten⟩ := hpast.left _ hnode
        cases rest with
        | nil =>
            have hw : w = data.1 := by
              cases pre with
              | nil => cases hpre; rfl
              | cons w' pre => simp at hpre
            subst hw
            exact .inr ⟨fun _ hrest ↦ (by cases hrest), fun _ ↦ (by simp [hsent]),
              hcarries.write _ _ _ hpast.flow (.inl rfl), hpast.client⟩
        | cons w' rest =>
            cases pre with
            | nil => simp at hpre
            | cons w'' pre =>
                simp only [List.cons_append, List.cons.injEq] at hpre
                obtain ⟨rfl, hpre⟩ := hpre
                simp only [List.flatten_cons, List.append_eq_nil_iff] at hflatten
                refine .inr ⟨fun rest' hrest' ↦ ?_, fun hreading ↦ (by cases hreading), ?_,
                  hpast.client⟩
                · cases hrest'
                  exact ⟨hsent, pre, hpre, hflatten.2⟩
                · change R s.sent s.atTarget (s.toClient.bytes ++ w)
                  rw [hflatten.1, List.append_nil]
                  exact hpast.flow
  · cases h

theorem Flow.accept (hs : Flow R target data s) (hcarries : Carries R data s .accept)
    (h : s.step .accept = some t) : Flow R target data t := by
  simp only [UdpSession.step] at h
  split at h
  · next protocol address rest hclient hheader =>
      rcases hs.toClient with ⟨⟨done, left, hsplit, hbytes, hsent, hleft, hreading⟩, hat, -⟩ | hpast
      · rw [hbytes] at hheader
        obtain ⟨rfl, hrest⟩ := left_of_readHeader hsplit hheader
        rw [if_pos rfl] at h
        cases h
        refine ⟨.inr ⟨fun rest' hrest' ↦ ?_, fun h ↦ ?_, ?_, fun haccepting ↦ by cases haccepting⟩,
          hs.toNode⟩
        · obtain ⟨rfl, hne⟩ := hleft rest' hrest'
          rcases hrest with ⟨rfl, -⟩ | ⟨pre, rfl, hflatten, -⟩
          · exact (hne rfl).elim
          · exact ⟨by simpa using hsent, pre, rfl, hflatten⟩
        · exact hsent.trans (if_pos (hreading h))
        · change R s.sent s.atTarget rest
          rw [hsent, hat]
          rcases hrest with ⟨rfl, rfl⟩ | ⟨pre, rfl, -, rfl⟩
          · exact hcarries.write [] [] [] hcarries.nil (.inr rfl)
          · rw [if_neg (by simp)]
            exact hcarries.nil
      · exact (hpast.client hclient).elim
  · cases h

/-- The client takes bytes off the stream for a datagram to the target. -/
theorem Flow.toTarget (hs : Flow R target data s) {n : ℕ}
    (hclient : s.client = .initial ∨ s.client = .relaying)
    (hflow : R s.sent s.atTarget s.toClient.bytes →
      R s.sent (s.atTarget ++ [s.toClient.bytes.take n]) (s.toClient.bytes.drop n)) :
    Flow R target data { s with
      client := .relaying
      toClient := { s.toClient with bytes := s.toClient.bytes.drop n }
      atTarget := s.atTarget ++ [s.toClient.bytes.take n] } := by
  have hpast := hs.past hclient
  exact ⟨.inr ⟨hpast.left, hpast.reading, hflow hpast.flow, fun haccepting ↦ by cases haccepting⟩, hs.toNode⟩

theorem Flow.step (hs : Flow R target data s) (hcarries : Carries R data s input)
    (h : s.step input = some t) : Flow R target data t := by
  cases input with
  | write => exact hs.write hcarries h
  | accept => exact hs.accept hcarries h
  | forward n =>
      simp only [UdpSession.step] at h
      split_ifs at h with hok
      cases h
      refine ⟨?_, hcarries.forward n hs.toNode rfl hok.2⟩
      rcases hs.toClient with hunread | hpast
      · exact .inl ⟨hunread.split, hunread.atTarget, hunread.client⟩
      · exact .inr ⟨hpast.left, hpast.reading, hpast.flow, hpast.client⟩
  | nodeEof =>
      simp only [UdpSession.step] at h
      split_ifs at h
      cases h
      exact hs.frame (.inr (.inl rfl)) (.inl rfl) rfl rfl rfl rfl rfl rfl
  | finish =>
      simp only [UdpSession.step] at h
      split_ifs at h
      cases h
      exact hs.endNode true
  | headerEof =>
      simp only [UdpSession.step] at h
      split_ifs at h
      cases h
      exact hs.endClient false
  | initial n =>
      simp only [UdpSession.step] at h
      split_ifs at h with hok
      cases h
      exact hs.toTarget (.inl hok.1) fun hflow ↦ hcarries.relay n hflow (.inl rfl) hok.2.1
  | initialLost n =>
      simp only [UdpSession.step] at h
      split_ifs at h
      cases h
      exact hs.endClient false
  | initialEof =>
      simp only [UdpSession.step] at h
      split_ifs at h
      cases h
      exact hs.endClient true
  | relay n =>
      simp only [UdpSession.step] at h
      split_ifs at h with hok
      cases h
      have ht := hs.toTarget (n := n) (.inr hok.1)
        fun hflow ↦ hcarries.relay n hflow (.inr rfl) hok.2
      rwa [← hok.1] at ht
  | relayEof =>
      simp only [UdpSession.step] at h
      split_ifs at h with hok
      cases h
      exact hs.frame (.inl rfl) (.inr (.inr ⟨hok.1, rfl⟩)) rfl rfl rfl rfl rfl rfl
  | answer =>
      simp only [UdpSession.step] at h
      split at h
      · next d rest _ hinbox =>
          cases h
          refine ⟨?_, hcarries.answer d rest hs.toNode rfl hinbox⟩
          rcases hs.toClient with hunread | hpast
          · exact .inl ⟨hunread.split, hunread.atTarget, hunread.client⟩
          · exact .inr ⟨hpast.left, hpast.reading, hpast.flow, hpast.client⟩
      · cases h
  | shutdown =>
      simp only [UdpSession.step] at h
      split_ifs at h
      cases h
      exact hs.endClient true
  | reply d =>
      cases h
      exact hs.frame (.inl rfl) (.inl rfl) rfl rfl rfl rfl rfl rfl
  | nodeFails =>
      cases h
      exact hs.endNode false
  | clientFails =>
      cases h
      exact hs.endClient false

end Flow

/-- A target for runs that are given in full. -/
def localTarget : TargetAddr where
  text := "10.0.0.1:1"
  fits := by decide +kernel
  resolved := SocketAddr.parse "10.0.0.1:1"
  resolved_of_parse _ h := h
  routed := true

def oneByte (b : UInt8) : Datagram := ⟨[b], by simp [maxPayload]⟩

/-- The whole opening, and its header read. -/
def opening : List UdpInput := [.write, .write, .write, .write, .write, .accept]

end UdpSession

end Oxiproxy.Tunnel
