import Mathlib

/-!
# Socket addresses

The textual forms accepted by the standard library's `IpAddr` and
`SocketAddr` parsers.  Every reader consumes a prefix of the input and leaves
the rest; a failing reader consumes nothing.
-/

namespace Oxiproxy.Net

/-- A reader consumes a prefix of the remaining characters. -/
abbrev Reader (α : Type) := List Char → Option (α × List Char)

inductive IpAddr
  | v4 (octets : List Nat)
  | v6 (segments : List Nat)
  deriving DecidableEq, Repr

structure SocketAddr where
  ip : IpAddr
  scopeId : Nat
  port : Nat
  deriving DecidableEq, Repr

/-- The value of an ASCII digit, of either case, in the given radix. -/
def toDigit (radix : Nat) (c : Char) : Option Nat :=
  let value :=
    if '0' ≤ c ∧ c ≤ '9' then c.toNat - '0'.toNat
    else if 'a' ≤ c ∧ c ≤ 'z' then c.toNat - 'a'.toNat + 10
    else if 'A' ≤ c ∧ c ≤ 'Z' then c.toNat - 'A'.toNat + 10
    else radix
  if value < radix then some value else none

/-- The longest run of digits at the front, with the characters after it. -/
def spanDigits (radix : Nat) : List Char → List Nat × List Char
  | [] => ([], [])
  | c :: cs =>
      match toDigit radix c with
      | some d => ((d :: (spanDigits radix cs).1), (spanDigits radix cs).2)
      | none => ([], c :: cs)

def readGivenChar (target : Char) : Reader Unit
  | [] => none
  | c :: cs => if c = target then some ((), cs) else none

/-- A number below `bound`, of at most `maxDigits` digits when that is given. -/
def readNumber (radix : Nat) (maxDigits : Option Nat) (allowZeroPrefix : Bool)
    (bound : Nat) : Reader Nat := fun cs ↦
  let (digits, rest) := spanDigits radix cs
  let value := digits.foldl (fun n d ↦ n * radix + d) 0
  if maxDigits.any (· < digits.length) ∨ bound ≤ value ∨ digits = [] then none
  else if allowZeroPrefix = false ∧ cs.head? = some '0' ∧ 1 < digits.length then none
  else some (value, rest)

/-- The item at position `index` of a sequence: all but the first are preceded
by the separator. -/
def readSeparator {α : Type} (sep : Char) (index : Nat) (inner : Reader α) : Reader α :=
  fun cs ↦
    if index = 0 then inner cs
    else (readGivenChar sep cs).bind fun p ↦ inner p.2

/-- `n` dotted octets, the first of them at position `index`. -/
def readOctets : Nat → Nat → Reader (List Nat)
  | 0, _ => fun cs ↦ some ([], cs)
  | n + 1, index => fun cs ↦ do
      let (octet, cs) ← readSeparator '.' index (readNumber 10 (some 3) false 256) cs
      let (octets, cs) ← readOctets n (index + 1) cs
      return (octet :: octets, cs)

def readIpv4Addr : Reader (List Nat) := readOctets 4 0

/-- At most `fuel` sixteen-bit groups from position `index` on, with a flag for
an embedded IPv4 address at the end; it needs room for two groups. -/
def readGroups : Nat → Nat → List Char → List Nat × Bool × List Char
  | 0, _, cs => ([], false, cs)
  | fuel + 1, index, cs =>
      let embedded :=
        if fuel = 0 then none else readSeparator ':' index readIpv4Addr cs
      match embedded with
      | some ([a, b, c, d], rest) => ([a * 256 + b, c * 256 + d], true, rest)
      | _ =>
          match readSeparator ':' index (readNumber 16 (some 4) true 65536) cs with
          | some (group, rest) =>
              let (groups, v4, rest) := readGroups fuel (index + 1) rest
              (group :: groups, v4, rest)
          | none => ([], false, cs)

def readIpv6Addr : Reader (List Nat) := fun cs ↦
  let (front, frontIpv4, rest) := readGroups 8 0 cs
  if front.length = 8 then some (front, rest)
  else if frontIpv4 then none
  else do
    let (_, rest) ← readGivenChar ':' rest
    let (_, rest) ← readGivenChar ':' rest
    let (back, _, rest) := readGroups (8 - (front.length + 1)) 0 rest
    return (front ++ List.replicate (8 - front.length - back.length) 0 ++ back, rest)

def readIpAddr : Reader IpAddr := fun cs ↦
  match readIpv4Addr cs with
  | some (octets, rest) => some (.v4 octets, rest)
  | none => (readIpv6Addr cs).map fun p ↦ (.v6 p.1, p.2)

def readPort : Reader Nat := fun cs ↦
  (readGivenChar ':' cs).bind fun p ↦ readNumber 10 none true 65536 p.2

def readScopeId : Reader Nat := fun cs ↦
  (readGivenChar '%' cs).bind fun p ↦ readNumber 10 none true (2 ^ 32) p.2

def readSocketAddrV4 : Reader SocketAddr := fun cs ↦ do
  let (octets, cs) ← readIpv4Addr cs
  let (port, cs) ← readPort cs
  return (⟨.v4 octets, 0, port⟩, cs)

def readSocketAddrV6 : Reader SocketAddr := fun cs ↦ do
  let (_, cs) ← readGivenChar '[' cs
  let (segments, cs) ← readIpv6Addr cs
  let (scopeId, cs) := (readScopeId cs).getD (0, cs)
  let (_, cs) ← readGivenChar ']' cs
  let (port, cs) ← readPort cs
  return (⟨.v6 segments, scopeId, port⟩, cs)

/-- The whole input must be consumed. -/
def parseWith {α : Type} (inner : Reader α) (s : String) : Option α :=
  match inner s.toList with
  | some (a, []) => some a
  | _ => none

def IpAddr.parse : String → Option IpAddr := parseWith readIpAddr

def SocketAddr.parse : String → Option SocketAddr :=
  parseWith fun cs ↦ (readSocketAddrV4 cs).orElse fun _ ↦ readSocketAddrV6 cs

example : SocketAddr.parse "127.0.0.1:7000" = some ⟨.v4 [127, 0, 0, 1], 0, 7000⟩ := by decide +kernel

example : SocketAddr.parse "[::1%2]:80" = some ⟨.v6 [0, 0, 0, 0, 0, 0, 0, 1], 2, 80⟩ := by
  decide +kernel

example : SocketAddr.parse "node.example.org:80" = none := by decide +kernel

end Oxiproxy.Net
