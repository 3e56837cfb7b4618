import Oxiproxy.Node.Listeners
import Oxiproxy.Tunnel.UdpSession

/-!
# The head of a proxied stream

For every connection to forward the node opens a stream to the client and writes
the protocol and the address of the target before the payload.  The length of the
address is written as a number of sixteen bits.
-/

namespace Oxiproxy.Tunnel

open ByteStream Node

def protocolByte : ProxyProtocol → UInt8
  | .tcp => 0x74
  | .udp => 0x75

/-- The address that the node asks for. -/
def targetAddr (localIp : String) (localPort : UInt16) : String :=
  localIp ++ ":" ++ toString localPort.toNat

def utf8Bytes (s : String) : List UInt8 := s.toUTF8.data.toList

/-- What the node writes before the payload. -/
def preface (protocol : ProxyProtocol) (target : String) : List UInt8 :=
  [0x70] ++ [protocolByte protocol] ++
    toBeBytes (UInt16.ofNat (utf8Bytes target).length).toNat ++ utf8Bytes target

/-- `u16::from_be_bytes`. -/
def fromBeBytes : List UInt8 → ℕ
  | [high, low] => high.toNat * 256 + low.toNat
  | _ => 0

/-- The protocol and the target, and what is left of the stream. -/
def handleProxyStream (stream : List (List UInt8)) :
    Option (ProxyProtocol × String × List (List UInt8)) := do
  let (protoBuf, stream) ← readExact 1 stream
  let (lenBuf, stream) ← readExact 2 stream
  let (addrBuf, stream) ← readExact (fromBeBytes lenBuf) stream
  let target ← String.fromUTF8? ⟨addrBuf.toArray⟩
  match protoBuf with
  | [0x74] => return (.tcp, target, stream)
  | [0x75] => return (.udp, target, stream)
  | _ => none

/-- A new stream; those of other types are not proxied. -/
def acceptStream (stream : List (List UInt8)) :
    Option (ProxyProtocol × String × List (List UInt8)) := do
  let (typeBuf, stream) ← readExact 1 stream
  match typeBuf with
  | [0x70] => handleProxyStream stream
  | _ => none

theorem fromBeBytes_toBeBytes (n : UInt16) : fromBeBytes (toBeBytes n.toNat) = n.toNat :=
  UdpSession.toBeBytes_value n.toNat_lt

theorem utf8Bytes_of_fromUTF8 {bytes : List UInt8} {s : String}
    (h : String.fromUTF8? ⟨bytes.toArray⟩ = some s) : utf8Bytes s = bytes := by
  unfold String.fromUTF8? at h
  split_ifs at h
  obtain rfl := Option.some.inj h
  rfl

theorem fromUTF8_utf8Bytes (s : String) : String.fromUTF8? ⟨(utf8Bytes s).toArray⟩ = some s := by
  have hvalid : s.toByteArray.IsValidUTF8 := s.isValidUTF8
  unfold utf8Bytes String.fromUTF8?
  simp [String.toUTF8, hvalid]
  rfl

section RoundTrip

variable {protocol : ProxyProtocol} {target : String} {payload : List UInt8}
  {fragments : List (List UInt8)}

/-- The client reads as much of the address as the written length says. -/
theorem acceptStream_preface (h : fragments.flatten = preface protocol target ++ payload) :
    ∃ rest, rest.flatten =
        (utf8Bytes target).drop (UInt16.ofNat (utf8Bytes target).length).toNat ++ payload ∧
      acceptStream fragments = (String.fromUTF8?
        ⟨((utf8Bytes target).take (UInt16.ofNat (utf8Bytes target).length).toNat).toArray⟩).map
          fun text ↦ (protocol, text, rest) := by
  generalize hlen : UInt16.ofNat (utf8Bytes target).length = len
  have hle : len.toNat ≤ (utf8Bytes target).length := by
    rw [← hlen, UInt16.toNat_ofNat']
    exact Nat.mod_le _ _
  have hsplit : fragments.flatten = [0x70] ++ ([protocolByte protocol] ++ (toBeBytes len.toNat ++
      ((utf8Bytes target).take len.toNat ++ ((utf8Bytes target).drop len.toNat ++ payload)))) := by
    rw [h, preface, hlen]
    simp only [List.append_assoc, ← List.append_assoc ((utf8Bytes target).take len.toNat),
      List.take_append_drop]
  obtain ⟨rest₁, hread₁, hrest₁⟩ := readExact_append hsplit
  obtain ⟨rest₂, hread₂, hrest₂⟩ := readExact_append hrest₁
  obtain ⟨rest₃, hread₃, hrest₃⟩ := readExact_append hrest₂
  obtain ⟨rest₄, hread₄, hrest₄⟩ := readExact_append hrest₃
  rw [List.length_take_of_le hle] at hread₄
  refine ⟨rest₄, hrest₄, ?_⟩
  have htype : readExact 1 fragments = some ([0x70], rest₁) := hread₁
  have hprotocol : readExact 1 rest₁ = some ([protocolByte protocol], rest₂) := hread₂
  have hlength : readExact 2 rest₂ = some (toBeBytes len.toNat, rest₃) := hread₃
  simp only [acceptStream, htype, Option.bind_eq_bind, Option.bind_some, handleProxyStream,
    hprotocol, hlength, fromBeBytes_toBeBytes, hread₄]
  cases String.fromUTF8? ⟨((utf8Bytes target).take len.toNat).toArray⟩ with
  | none => rfl
  | some text => cases protocol <;> rfl

/-- A target that arrives is not longer than the length can say. -/
theorem length_of_acceptStream (h : fragments.flatten = preface protocol target ++ payload)
    {rest : List (List UInt8)} (haccept : acceptStream fragments = some (protocol, target, rest)) :
    (utf8Bytes target).length < 65536 := by
  obtain ⟨other, -, hother⟩ := acceptStream_preface h
  have hsmall := (UInt16.ofNat (utf8Bytes target).length).toNat_lt
  rw [haccept, eq_comm, Option.map_eq_some_iff] at hother
  obtain ⟨text, htext, heq⟩ := hother
  obtain rfl : text = target := (Prod.mk.inj (Prod.mk.inj heq).2).1
  have hbytes := congrArg List.length (utf8Bytes_of_fromUTF8 htext)
  rw [List.length_take] at hbytes
  omega

end RoundTrip

/-- The client gets the protocol, the target and the payload back exactly if the
length of the target fits into sixteen bits. -/
theorem preface_round_trip_iff (protocol : ProxyProtocol) (localIp : String) (localPort : UInt16)
    (payload : List UInt8) (fragments : List (List UInt8))
    (h : fragments.flatten = preface protocol (targetAddr localIp localPort) ++ payload) :
    (∃ rest, acceptStream fragments = some (protocol, targetAddr localIp localPort, rest) ∧
      rest.flatten = payload) ↔ (utf8Bytes (targetAddr localIp localPort)).length < 65536 := by
  generalize targetAddr localIp localPort = target at h ⊢
  constructor
  · rintro ⟨rest, haccept, -⟩
    exact length_of_acceptStream h haccept
  · intro hfits
    obtain ⟨rest, hrest, haccept⟩ := acceptStream_preface h
    have hwhole : (UInt16.ofNat (utf8Bytes target).length).toNat = (utf8Bytes target).length := by
      rw [UInt16.toNat_ofNat', Nat.mod_eq_of_lt hfits]
    rw [hwhole, List.take_length, fromUTF8_utf8Bytes, Option.map_some] at haccept
    rw [hwhole, List.drop_length, List.nil_append] at hrest
    exact ⟨rest, haccept, hrest⟩

theorem preface_round_trip_iff_ssh :
    ∃ rest, acceptStream [[0x70, 0x74, 0], [12, 49, 50, 55, 46, 48, 46, 48, 46, 49, 58, 50, 50, 7],
        [8]] = some (.tcp, targetAddr "127.0.0.1" 22, rest) ∧ rest.flatten = [7, 8] :=
  (preface_round_trip_iff .tcp "127.0.0.1" 22 [7, 8]
    [[0x70, 0x74, 0], [12, 49, 50, 55, 46, 48, 46, 48, 46, 49, 58, 50, 50, 7], [8]]
    (by decide +kernel)).mpr (by decide +kernel)

theorem length_utf8Bytes (s : String) : (utf8Bytes s).length = s.utf8ByteSize := by
  rw [utf8Bytes, Array.length_toList]
  rfl

theorem utf8ByteSize_replicate_a (n : ℕ) :
    (String.ofList (List.replicate n 'a')).utf8ByteSize = n := by
  rw [String.utf8ByteSize_ofList]
  induction n with
  | zero => rfl
  | succ n ih =>
    have hone : 'a'.utf8Size = 1 := by decide
    rw [List.replicate_succ, String.utf8Len_cons, ih, hone]

/-- An address of 65536 letters before the port. -/
def longIp : String := String.ofList (List.replicate 65536 'a')

theorem not_preface_round_trip_longIp :
    ¬ ∃ rest, acceptStream [preface .tcp (targetAddr longIp 22) ++ [7]] =
      some (.tcp, targetAddr longIp 22, rest) ∧ rest.flatten = [7] := by
  have hsize : longIp.utf8ByteSize = 65536 := utf8ByteSize_replicate_a 65536
  generalize longIp = ip at hsize ⊢
  rintro ⟨rest, haccept, -⟩
  have hfits := length_of_acceptStream List.flatten_singleton haccept
  rw [length_utf8Bytes, targetAddr, String.utf8ByteSize_append, String.utf8ByteSize_append,
    hsize] at hfits
  omega

end Oxiproxy.Tunnel
