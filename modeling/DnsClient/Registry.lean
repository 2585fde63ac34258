/-!
Numbers with registered mnemonics: record types, classes, opcodes and response codes.

A number without a mnemonic is written as the name of its registry with the number behind it.
-/

namespace DnsClient

structure Rtype where
  code : UInt16
deriving DecidableEq, Repr

structure Class where
  code : UInt16
deriving DecidableEq, Repr

structure Opcode where
  code : UInt8
deriving DecidableEq, Repr

/-- The four-bit response code of a message header. -/
structure Rcode where
  code : UInt8
deriving DecidableEq, Repr

/-- A number's mnemonic if it has one, and else the registry's name before the number. -/
def codeText (registry : String) (code : Nat) : Option String → String
  | some m => m
  | none => registry ++ toString code

namespace Rtype

def a : Rtype := ⟨1⟩
def opt : Rtype := ⟨41⟩

def mnemonics : List (Nat × String) :=
  [(1, "A"), (2, "NS"), (5, "CNAME"), (6, "SOA"), (12, "PTR"), (15, "MX"), (16, "TXT"),
    (28, "AAAA"), (33, "SRV"), (41, "OPT"), (255, "ANY")]

def mnemonic? (t : Rtype) : Option String := mnemonics.lookup t.code.toNat

def display (t : Rtype) : String := codeText "TYPE" t.code.toNat t.mnemonic?

end Rtype

namespace Class

def internet : Class := ⟨1⟩

def mnemonics : List (Nat × String) := [(1, "IN"), (3, "CH"), (4, "HS"), (255, "ANY")]

def mnemonic? (c : Class) : Option String := mnemonics.lookup c.code.toNat

def display (c : Class) : String := codeText "CLASS" c.code.toNat c.mnemonic?

end Class

namespace Opcode

def mnemonics : List (Nat × String) := [(0, "QUERY"), (2, "STATUS"), (4, "NOTIFY"), (5, "UPDATE")]

def mnemonic? (c : Opcode) : Option String := mnemonics.lookup c.code.toNat

def display (c : Opcode) : String := codeText "OPCODE" c.code.toNat c.mnemonic?

end Opcode

namespace Rcode

def servfail : Rcode := ⟨2⟩
def refused : Rcode := ⟨5⟩

def mnemonics : List (Nat × String) :=
  [(0, "NOERROR"), (1, "FORMERR"), (2, "SERVFAIL"), (3, "NXDOMAIN"), (4, "NOTIMP"),
    (5, "REFUSED")]

def mnemonic? (c : Rcode) : Option String := mnemonics.lookup c.code.toNat

def display (c : Rcode) : String := codeText "RCODE" c.code.toNat c.mnemonic?

end Rcode

end DnsClient
