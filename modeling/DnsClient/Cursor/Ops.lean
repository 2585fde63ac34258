import DnsClient.Question

/-!
The reads as data, to run any sequence of them over one cursor.
-/

namespace DnsClient

inductive ReadOp where
  | octet
  | word16
  | word32
  | slice (n : Nat)
  | skip (n : Nat)
  | seek (pos : Nat)
  | reopen (pos : Nat)
  | name
  | question

inductive ReadValue where
  | number (n : Nat)
  | slice (o : Octets)
  | moved
  | name (n : Name)
  | question (q : Question)

namespace ReadOp

def read : ReadOp → Read ReadValue
  | .octet => do return .number (← Read.octet).toNat
  | .word16 => do return .number (← Read.word16).toNat
  | .word32 => do return .number (← Read.word32).toNat
  | .slice n => do return .slice (← Read.slice n).1
  | .skip n => do Read.skip n; return .moved
  | .seek pos => do Read.seek pos; return .moved
  | .reopen pos => do Read.reopen pos; return .moved
  | .name => do return .name (← Read.name)
  | .question => do return .question (← Read.question)

/-- The results of the reads in order, each with the cursor it leaves. -/
def run (c : Cursor) : List ReadOp → List (Except ParseError ReadValue × Cursor)
  | [] => []
  | op :: ops =>
    let r := op.read c
    r :: run r.2 ops

end ReadOp

end DnsClient
