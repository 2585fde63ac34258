import DnsClient.Cell
import DnsClient.Query.Basic

/-!
The state of an engine: all queries submitted to it, and the queues of work to do.

A query is tracked from its submission until it has an outcome. Queries are started from the queue
`incoming`, and tokens of ready sockets wait in `overflow` when one loop leaves them to another.
-/

namespace DnsClient

/-- What the continuation of a query may ask of its engine. -/
inductive EngineRequest where
  /-- Submit a request; `andThen` is what the continuation of the new query asks. -/
  | submit (request : Message) (params : QueryParams) (andThen : List EngineRequest)
  | cancel (handle : Nat)
  | pending
  /-- Begin to shut down. To fail what is left is not among the requests: whoever shuts the engine
  down does so once no loop runs any more. -/
  | shutdown

/-- The continuation of a query: what it asks of the engine, one after the other. -/
structure Continuation where
  handle : Nat
  requests : List EngineRequest

/-- A query of an engine, and the cell that it ends in. -/
structure Slot where
  cell : Cell Continuation QueryId
  query : Query

structure Engine where
  /-- How many loops share the work. -/
  workers : Nat := workersLimit.standard
  eventsCapacity : Nat := eventsCapacityLimit.standard
  /-- All queries ever submitted. -/
  slots : Table Slot := []
  /-- Their IDs in the order of submission. Handles are places in this list. -/
  handles : List QueryId := []
  /-- The queries without outcome. -/
  tracked : List QueryId := []
  schedule : Schedule := {}
  incoming : List QueryId := []
  /-- Tokens of ready sockets to attend to. -/
  overflow : List QueryId := []
  isShutdown : Bool := false
  nextId : QueryId := 0

namespace Engine

def pending (e : Engine) : Nat := e.tracked.length

def isTracked (e : Engine) (id : QueryId) : Bool := e.tracked.contains id

def slot? (e : Engine) (id : QueryId) : Option Slot := e.slots.get? id

def setSlot (e : Engine) (id : QueryId) (s : Slot) : Engine :=
  { e with slots := e.slots.insert id s }

/-- The outcome of the query with a handle, if it has one yet. -/
def outcome? (e : Engine) (handle : Nat) : Option Outcome :=
  (e.handles[handle]?.bind e.slot?).bind fun s => s.cell.outcome?

def forget (e : Engine) (id : QueryId) : Engine :=
  { e with tracked := e.tracked.filter (· ≠ id), schedule := (e.schedule.remove id).2 }

end Engine

end DnsClient
