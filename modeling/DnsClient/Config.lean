import DnsClient.Address
import DnsClient.Duration

/-!
Settings of an engine and of a single query.

Every number has a range. A setter moves a value outside of it to the nearer end, so a setting is
in its range whatever was asked for.
-/

namespace DnsClient

structure Limit where
  standard : Nat
  least : Nat
  most : Nat

def Limit.clamp (l : Limit) (n : Nat) : Nat := max l.least (min l.most n)

def workersLimit : Limit := ⟨1, 1, 64⟩

def eventsCapacityLimit : Limit := ⟨256, 16, 65536⟩

def timeoutLimit : Limit := ⟨Duration.ofSecs 5, Duration.ofMillis 1, Duration.ofSecs 60⟩

def payloadSizeLimit : Limit := ⟨1232, 512, 4096⟩

inductive QueryMode where
  | preferUdp
  | tcpOnly
deriving DecidableEq, Repr

structure QueryParams where
  server : SocketAddress
  payloadSize : UInt16 := UInt16.ofNat payloadSizeLimit.standard
  timeout : Duration := timeoutLimit.standard
  mode : QueryMode := .preferUdp

namespace QueryParams

def withPayloadSize (p : QueryParams) (n : UInt16) : QueryParams :=
  { p with payloadSize := UInt16.ofNat (payloadSizeLimit.clamp n.toNat) }

def withTimeout (p : QueryParams) (d : Duration) : QueryParams :=
  { p with timeout := timeoutLimit.clamp d }

def withMode (p : QueryParams) (m : QueryMode) : QueryParams := { p with mode := m }

end QueryParams

structure Config where
  workers : Nat := workersLimit.standard
  eventsCapacity : Nat := eventsCapacityLimit.standard
  timeout : Duration := timeoutLimit.standard
  payloadSize : UInt16 := UInt16.ofNat payloadSizeLimit.standard
  mode : QueryMode := .preferUdp

namespace Config

def setWorkers (c : Config) (n : Nat) : Config := { c with workers := workersLimit.clamp n }

def setEventsCapacity (c : Config) (n : Nat) : Config :=
  { c with eventsCapacity := eventsCapacityLimit.clamp n }

def setTimeout (c : Config) (d : Duration) : Config := { c with timeout := timeoutLimit.clamp d }

def setPayloadSize (c : Config) (n : UInt16) : Config :=
  { c with payloadSize := UInt16.ofNat (payloadSizeLimit.clamp n.toNat) }

def setMode (c : Config) (m : QueryMode) : Config := { c with mode := m }

/-- The parameters of a query that takes the engine's settings. -/
def queryParams (c : Config) (server : SocketAddress) : QueryParams :=
  { server, payloadSize := c.payloadSize, timeout := c.timeout, mode := c.mode }

end Config

end DnsClient
