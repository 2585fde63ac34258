import DnsClient.Message.Builder
import DnsClient.Random

/-!
Standard queries: requests with a single question.
-/

namespace DnsClient

/-- A standard query for one question. -/
structure Request where
  question : Question
  id : UInt16
  recursionDesired : Bool := true
  checkingDisabled : Bool := false
  /-- The UDP payload size to state in an OPT record, or none for no such record. -/
  payloadSize : Option UInt16 := none

namespace Request

def new (q : Question) (supply : RandomSupply) : Request × RandomSupply :=
  let (id, supply) := supply.draw
  ({ question := q, id }, supply)

inductive Update where
  | id (n : UInt16)
  | randomId
  | recursionDesired (b : Bool)
  | checkingDisabled (b : Bool)
  | payloadSize (n : Option UInt16)

def update (r : Request) (supply : RandomSupply) : Update → Request × RandomSupply
  | .id n => ({ r with id := n }, supply)
  | .randomId =>
    let (id, supply) := supply.draw
    ({ r with id }, supply)
  | .recursionDesired b => ({ r with recursionDesired := b }, supply)
  | .checkingDisabled b => ({ r with checkingDisabled := b }, supply)
  | .payloadSize n => ({ r with payloadSize := n }, supply)

/-- The request for a question after some updates. -/
def edited (q : Question) (supply : RandomSupply) (us : List Update) : Request × RandomSupply :=
  us.foldl (fun (r, supply) u => r.update supply u) (new q supply)

def compose (r : Request) : Except PushError Message := do
  let header := (({} : Header).set (.id r.id)).set (.rd r.recursionDesired)
  let b : Builder := { header := header.set (.cd r.checkingDisabled) }
  let b ← (b.pushQuestion r.question).toExcept
  match r.payloadSize with
  | none => return b.message
  | some size => return (← (b.pushOpt size).toExcept).message

end Request

end DnsClient
