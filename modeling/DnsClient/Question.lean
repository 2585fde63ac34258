import DnsClient.Name.Text
import DnsClient.Name.Compressed
import DnsClient.Registry

/-!
Questions: which records of which name a message asks for.
-/

namespace DnsClient

/-- A question for the records of a type and class at a name. -/
structure Question where
  qname : Name
  qtype : Rtype
  qclass : Class := Class.internet

namespace Question

/-- Questions are equal if type and class are, and the names are up to the case of letters. -/
instance : BEq Question :=
  ⟨fun p q => p.qname == q.qname && p.qtype == q.qtype && p.qclass == q.qclass⟩

/-- The question on the wire, its name uncompressed. -/
def wire (q : Question) : Octets :=
  q.qname.wire ++ Octets.ofWord16 q.qtype.code ++ Octets.ofWord16 q.qclass.code

def length (q : Question) : Nat := q.qname.length + 4

@[simp] theorem length_wire (q : Question) : q.wire.length = q.length := by
  simp [wire, length]

def display (q : Question) : String :=
  q.qname.display ++ " " ++ q.qclass.display ++ " " ++ q.qtype.display

end Question

/-- The question at the cursor. A failure leaves the cursor behind the parts read before it. -/
def Read.question : Read Question := do
  let qname ← Read.name
  let qtype ← Read.word16
  let qclass ← Read.word16
  return ⟨qname, ⟨qtype⟩, ⟨qclass⟩⟩

end DnsClient
