import DnsClient.Config
import DnsClient.Error
import DnsClient.Message
import DnsClient.Schedule

/-!
The state of one query: its phase, its socket, and what it has read and recorded so far.

A phase has the socket that it works on. So no query is in a phase without a socket for it, or with
one of the other kind, and there is nothing to be done about such queries.
-/

namespace DnsClient

inductive Transport where
  | udp
  | tcp
deriving DecidableEq, Repr

/-- A socket, known by the number that the network gave it. -/
structure Socket where
  transport : Transport
  number : Nat
deriving DecidableEq, Repr

inductive Interest where
  | readable
  | writable
deriving DecidableEq, Repr

/-! ### Messages on a stream -/

/-- A message being read from a stream, where it follows its length in two octets. -/
inductive StreamReader where
  /-- Fewer than two octets of the length have been read. -/
  | length (got : Octets)
  /-- The length is known, and `got` are the octets read of the message. -/
  | body (size : Nat) (got : Octets)

namespace StreamReader

def start : StreamReader := .length []

/-- How many octets the next read may take. -/
def room : StreamReader → Nat
  | .length got => 2 - got.length
  | .body size got => size - got.length

/-- Takes in the octets of a read; yields the message once it is complete. -/
def advance (r : StreamReader) (o : Octets) : Octets ⊕ StreamReader :=
  match r with
  | .length got =>
    let got := got ++ o
    if got.length < 2 then .inr (.length got)
    else if Octets.toNat got = 0 then .inl []
    else .inr (.body (Octets.toNat got) [])
  | .body size got =>
    let got := got ++ o
    if got.length < size then .inr (.body size got) else .inl got

end StreamReader

/-! ### Phases -/

/-- How far a query has got, with the number of the socket in use. -/
inductive Phase where
  | idle
  | udpWrite (socket : Nat)
  | udpRead (socket : Nat)
  | tcpConnect (socket : Nat)
  /-- `written` octets of the length and the request have been written. -/
  | tcpWrite (socket : Nat) (written : Nat)
  | tcpRead (socket : Nat) (reader : StreamReader)
  | closed

namespace Phase

def socket? : Phase → Option Socket
  | .idle | .closed => none
  | .udpWrite s | .udpRead s => some ⟨.udp, s⟩
  | .tcpConnect s | .tcpWrite s _ | .tcpRead s _ => some ⟨.tcp, s⟩

def interest? : Phase → Option Interest
  | .idle | .closed => none
  | .udpWrite _ | .tcpConnect _ | .tcpWrite .. => some .writable
  | .udpRead _ | .tcpRead .. => some .readable

/-- The place of a phase in the course of a query. -/
def rank : Phase → Nat
  | .idle => 0
  | .udpWrite _ => 1
  | .udpRead _ => 2
  | .tcpConnect _ => 3
  | .tcpWrite .. => 4
  | .tcpRead .. => 5
  | .closed => 6

def display : Phase → String
  | .idle => "idle"
  | .udpWrite _ => "UDP write"
  | .udpRead _ => "UDP read"
  | .tcpConnect _ => "TCP connect"
  | .tcpWrite .. => "TCP write"
  | .tcpRead .. => "TCP read"
  | .closed => "closed"

end Phase

/-! ### Queries -/

structure Query where
  id : QueryId
  request : Message
  params : QueryParams
  phase : Phase := .idle
  /-- Whether the socket in use is registered for readiness. -/
  registered : Bool := false
  /-- Errors that the query went on after. -/
  errors : List QueryError := []

namespace Query

/-- The query without a socket and with nothing left to do. -/
def close (q : Query) : Query := { q with phase := .closed, registered := false }

end Query

/-- What a query tells after it was let do something. -/
inductive Step where
  | pending
  | done (r : Except QueryError Message)

end DnsClient
