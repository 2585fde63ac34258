import DnsClient.Cell
import DnsClient.Config
import DnsClient.Request
import DnsClient.ResolvConf

/-!
A stub resolver: asks servers one after the other until one of them has an answer.

The servers are gone through in rounds. A response that says that its server failed is kept for
want of a better one; the first other response is the answer. How a request is sent and how random
numbers are drawn is left to whoever runs the resolver.
-/

namespace DnsClient

structure Stub where
  conf : ResolvConf
  /-- The settings of the engine that its requests are sent with. -/
  config : Config
  /-- Counts the queries that each start at another server, and wraps at last. -/
  next : UInt64 := 0

/-- What a resolver needs for its work. -/
structure Stub.Means (m : Type → Type) where
  draw : m UInt16
  /-- Sends a request with parameters for the query, and waits for the outcome. -/
  ask : Request → QueryParams → m Outcome

namespace Stub

def ofConf (conf : ResolvConf) : Stub :=
  let conf := conf.finalize
  let config := ({} : Config).setTimeout conf.timeout
  { conf, config := if conf.useVc then config.setMode .tcpOnly else config }

/-- The servers in the order in which a round of the next query asks them. -/
def round (s : Stub) : List SocketAddress :=
  let n := s.conf.servers.length
  let start := if s.conf.rotate then s.next.toNat % n else 0
  s.conf.servers.drop start ++ s.conf.servers.take start

def advance (s : Stub) : Stub := if s.conf.rotate then { s with next := s.next + 1 } else s

def request (s : Stub) (qname : Name) (qtype : Rtype) (id : UInt16) : Request :=
  { question := { qname, qtype }, id, recursionDesired := s.conf.recurse
    payloadSize := if s.conf.useEdns0 then some s.config.payloadSize else none }

/-- Whether the server failed to answer the question. -/
def isServerFailure (m : Message) : Bool :=
  m.header.rcode = Rcode.servfail ∨ m.header.rcode = Rcode.refused

/-- What came of the servers asked so far, none of which had an answer. -/
structure Findings where
  failure : Option Message := none
  lastError : Option QueryError := none

def Findings.result (f : Findings) : Except QueryError Message :=
  match f.failure with
  | some m => .ok m
  | none => .error (f.lastError.getD .timeout)

/-- Takes in an outcome: it is an answer, or adds to the findings. -/
def Findings.add (f : Findings) : Outcome → Message ⊕ Findings
  | .response m => if isServerFailure m then .inr { f with failure := some m } else .inl m
  | .failed e => .inr { f with lastError := some e }
  | .cancelled => .inr f

variable {m : Type → Type} [Monad m]

def askServers (means : Means m) (s : Stub) (r : Request) :
    List SocketAddress → Findings → m (Message ⊕ Findings)
  | [], f => return .inr f
  | a :: as, f => do
    let id ← means.draw
    match f.add (← means.ask { r with id } (s.config.queryParams a)) with
    | .inl m => return .inl m
    | .inr f => askServers means s r as f

def askRounds (means : Means m) (s : Stub) (r : Request) (servers : List SocketAddress) :
    (rounds : Nat) → Findings → m (Except QueryError Message)
  | 0, f => return f.result
  | rounds + 1, f => do
    match ← askServers means s r servers f with
    | .inl m => return .ok m
    | .inr f => askRounds means s r servers rounds f

def query (means : Means m) (s : Stub) (qname : Name) (qtype : Rtype) :
    m (Except QueryError Message × Stub) := do
  let r := s.request qname qtype (← means.draw)
  let res ← askRounds means s r s.round s.conf.attempts {}
  return (res, s.advance)

end Stub

end DnsClient
