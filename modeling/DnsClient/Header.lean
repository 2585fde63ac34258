import DnsClient.Octets
import DnsClient.Registry

/-!
The header section of a message: ID and flags in four octets, section counts in eight.

The flags share two octets. `Header.Update` and `Counts.Update` are the ways to change a header,
one for each field.
-/

namespace DnsClient

/-- The octet with one bit set or cleared. -/
def assignBit (o mask : UInt8) (b : Bool) : UInt8 := if b then o ||| mask else o &&& ~~~mask

def hasBit (o mask : UInt8) : Bool := o &&& mask != 0

def lowBits (o : UInt8) : UInt8 := o &&& 0x0F

def opcodeBits (c : UInt8) : UInt8 := lowBits c <<< 3

/-- The first four octets of a message. -/
structure Header where
  id : UInt16 := 0
  /-- QR, the opcode, AA, TC and RD, from the highest bit down. -/
  high : UInt8 := 0
  /-- RA, a reserved bit, AD, CD and the response code, from the highest bit down. -/
  low : UInt8 := 0
deriving DecidableEq

namespace Header

/-- The header at the start of a message, if the octets reach that far. -/
def ofMessage? : Octets → Option Header
  | a :: b :: c :: d :: _ => some ⟨Octets.toWord16 [a, b], c, d⟩
  | _ => none

def wire (h : Header) : Octets := Octets.ofWord16 h.id ++ [h.high, h.low]

@[simp] theorem length_wire (h : Header) : h.wire.length = 4 := by simp [wire]

/-! ### Fields -/

def qr (h : Header) : Bool := hasBit h.high 0x80
def opcode (h : Header) : Opcode := ⟨lowBits (h.high >>> 3)⟩
def aa (h : Header) : Bool := hasBit h.high 0x04
def tc (h : Header) : Bool := hasBit h.high 0x02
def rd (h : Header) : Bool := hasBit h.high 0x01
def ra (h : Header) : Bool := hasBit h.low 0x80
/-- The reserved bit, which nothing sets. -/
def z (h : Header) : Bool := hasBit h.low 0x40
def ad (h : Header) : Bool := hasBit h.low 0x20
def cd (h : Header) : Bool := hasBit h.low 0x10
def rcode (h : Header) : Rcode := ⟨lowBits h.low⟩

/-- A new value for one field. Of opcodes and response codes only four bits are kept. -/
inductive Update where
  | id (n : UInt16)
  | qr (b : Bool)
  | opcode (c : Opcode)
  | aa (b : Bool)
  | tc (b : Bool)
  | rd (b : Bool)
  | ra (b : Bool)
  | ad (b : Bool)
  | cd (b : Bool)
  | rcode (c : Rcode)

def set (h : Header) : Update → Header
  | .id n => { h with id := n }
  | .qr b => { h with high := assignBit h.high 0x80 b }
  | .opcode c => { h with high := (h.high &&& 0x87) ||| opcodeBits c.code }
  | .aa b => { h with high := assignBit h.high 0x04 b }
  | .tc b => { h with high := assignBit h.high 0x02 b }
  | .rd b => { h with high := assignBit h.high 0x01 b }
  | .ra b => { h with low := assignBit h.low 0x80 b }
  | .ad b => { h with low := assignBit h.low 0x20 b }
  | .cd b => { h with low := assignBit h.low 0x10 b }
  | .rcode c => { h with low := (h.low &&& 0xF0) ||| lowBits c.code }

end Header

/-- How many questions and records a message has in each section. -/
structure Counts where
  qd : UInt16 := 0
  an : UInt16 := 0
  ns : UInt16 := 0
  ar : UInt16 := 0
deriving DecidableEq

namespace Counts

/-- The counts of a message, which lie behind its first four octets. -/
def ofMessage? (o : Octets) : Option Counts :=
  match o.drop 4 with
  | a :: b :: c :: d :: e :: f :: g :: h :: _ =>
    some ⟨Octets.toWord16 [a, b], Octets.toWord16 [c, d], Octets.toWord16 [e, f],
      Octets.toWord16 [g, h]⟩
  | _ => none

def wire (c : Counts) : Octets :=
  Octets.ofWord16 c.qd ++ Octets.ofWord16 c.an ++ Octets.ofWord16 c.ns ++ Octets.ofWord16 c.ar

@[simp] theorem length_wire (c : Counts) : c.wire.length = 8 := by simp [wire]

inductive Update where
  | qd (n : UInt16)
  | an (n : UInt16)
  | ns (n : UInt16)
  | ar (n : UInt16)

def set (c : Counts) : Update → Counts
  | .qd n => { c with qd := n }
  | .an n => { c with an := n }
  | .ns n => { c with ns := n }
  | .ar n => { c with ar := n }

end Counts

end DnsClient
