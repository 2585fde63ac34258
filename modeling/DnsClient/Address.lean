import DnsClient.Text.Decimal
import DnsClient.Text.Split

/-!
Internet addresses and their text forms.

An IPv4 address is four decimal numbers with dots between them. An IPv6 address is eight
hexadecimal groups with colons between them, where a run of zero groups may be left out and the
last two groups may be written as an IPv4 address. It is printed as short as possible: small
letters, no leading zeros, the first of the longest runs of at least two zero groups left out.
-/

namespace DnsClient

inductive IpAddress where
  | v4 (a b c d : UInt8)
  | v6 (groups : List UInt16) (length_eq : groups.length = 8)
deriving DecidableEq

structure SocketAddress where
  ip : IpAddress
  port : UInt16
deriving DecidableEq

inductive AddressFamily where
  | ipv4
  | ipv6
deriving DecidableEq, Repr

def SocketAddress.family (a : SocketAddress) : AddressFamily :=
  match a.ip with
  | .v4 .. => .ipv4
  | .v6 .. => .ipv6

namespace IpAddress

def localhost : IpAddress := .v4 127 0 0 1

/-! ### Printing -/

def decimal (n : Nat) : List Char := Nat.toDigits 10 n

def hexadecimal (n : Nat) : List Char := Nat.toDigits 16 n

def v4Text (a b c d : UInt8) : List Char :=
  joinWith '.' [decimal a.toNat, decimal b.toNat, decimal c.toNat, decimal d.toNat]

def zeroRun (g : List UInt16) : Nat := (g.takeWhile (· = 0)).length

/-- The place and length of the first of the longest runs of zero groups. -/
def longestZeroRun : List UInt16 → Nat × Nat
  | [] => (0, 0)
  | a :: g =>
    let (start, len) := longestZeroRun g
    let here := zeroRun (a :: g)
    if len ≤ here then (0, here) else (start + 1, len)

def groupsText (g : List UInt16) : List Char :=
  joinWith ':' (g.map fun a => hexadecimal a.toNat)

def v6Text (g : List UInt16) : List Char :=
  match g with
  | [0, 0, 0, 0, 0, 0xFFFF, x, y] =>
    [':', ':', 'f', 'f', 'f', 'f', ':'] ++
      v4Text (x >>> 8).toUInt8 x.toUInt8 (y >>> 8).toUInt8 y.toUInt8
  | _ =>
    let (start, len) := longestZeroRun g
    if 1 < len then groupsText (g.take start) ++ [':', ':'] ++ groupsText (g.drop (start + len))
    else groupsText g

def text : IpAddress → List Char
  | .v4 a b c d => v4Text a b c d
  | .v6 g _ => v6Text g

/-! ### Reading -/

/-- An octet in decimal digits, without leading zeros. -/
def readOctet? (s : List Char) : Option UInt8 :=
  if s.head? = some '0' ∧ s.tail ≠ [] then none
  else (readDecimal? 255 s).map UInt8.ofNat

def readV4? (s : List Char) : Option (UInt8 × UInt8 × UInt8 × UInt8) :=
  match splitOn '.' s with
  | [a, b, c, d] => do return (← readOctet? a, ← readOctet? b, ← readOctet? c, ← readOctet? d)
  | _ => none

/-- The value of a hexadecimal digit in either case. -/
def hexDigit? (c : Char) : Option Nat :=
  if c.isDigit then some (c.toNat - 48)
  else if 'a' ≤ c ∧ c ≤ 'f' then some (c.toNat - 87)
  else if 'A' ≤ c ∧ c ≤ 'F' then some (c.toNat - 55)
  else none

def readGroup? (s : List Char) : Option UInt16 :=
  if s = [] ∨ 4 < s.length then none
  else (s.mapM hexDigit?).map fun ds => UInt16.ofNat (ds.foldl (fun n d => 16 * n + d) 0)

/-- The groups of the pieces between colons; the last may be an IPv4 address if `tail` is set. -/
def readGroups? (tail : Bool) : List (List Char) → Option (List UInt16)
  | [] => some []
  | [p] =>
    match (if tail then readV4? p else none) with
    | some (a, b, c, d) =>
      some [UInt16.ofNat (256 * a.toNat + b.toNat), UInt16.ofNat (256 * c.toNat + d.toNat)]
    | none => (readGroup? p).map ([·])
  | p :: ps => do return (← readGroup? p) :: (← readGroups? tail ps)

/-- The groups of a text without the mark for left out groups. -/
def readPart? (tail : Bool) (s : List Char) : Option (List UInt16) :=
  if s = [] then some [] else readGroups? tail (splitOn ':' s)

/-- What stands before and behind the first two colons in a row, if there are such. -/
def splitDouble : List Char → Option (List Char × List Char)
  | [] => none
  | c :: s =>
    if c = ':' ∧ s.head? = some ':' then some ([], s.tail)
    else (splitDouble s).map fun (p, q) => (c :: p, q)

def readV6? (s : List Char) : Option { g : List UInt16 // g.length = 8 } :=
  match splitDouble s with
  | none => do
    let g ← readPart? true s
    if h : g.length = 8 then some ⟨g, h⟩ else none
  | some (p, q) => do
    let front ← readPart? false p
    let back ← readPart? true q
    if h : front.length + back.length ≤ 7 then
      some ⟨front ++ List.replicate (8 - (front.length + back.length)) 0 ++ back, by simp; omega⟩
    else none

def ofText? (s : List Char) : Option IpAddress :=
  match readV4? s with
  | some (a, b, c, d) => some (.v4 a b c d)
  | none => (readV6? s).map fun g => .v6 g.1 g.2

end IpAddress

namespace SocketAddress

/-- The address with its port behind a colon, an IPv6 address in brackets. -/
def text (a : SocketAddress) : List Char :=
  match a.ip with
  | .v4 .. => a.ip.text ++ ':' :: IpAddress.decimal a.port.toNat
  | .v6 .. => '[' :: a.ip.text ++ ']' :: ':' :: IpAddress.decimal a.port.toNat

def display (a : SocketAddress) : String := String.ofList a.text

def readPort? (s : List Char) : Option UInt16 := (readDecimal? 65535 s).map UInt16.ofNat

def ofText? : List Char → Option SocketAddress
  | '[' :: s =>
    match splitFirst ']' s with
    | some (p, ':' :: q) => do
      let g ← IpAddress.readV6? p
      return ⟨.v6 g.1 g.2, ← readPort? q⟩
    | _ => none
  | s =>
    match splitFirst ':' s with
    | some (p, q) => do
      let (a, b, c, d) ← IpAddress.readV4? p
      return ⟨.v4 a b c d, ← readPort? q⟩
    | none => none

end SocketAddress

end DnsClient
