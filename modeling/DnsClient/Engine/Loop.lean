import DnsClient.Engine.Tasks

/-!
The event loop of an engine, from one wait for readiness to the next.

`prepare` fails what is overdue and tells how long the wait may take; `serve` attends to what the
wait reported. With several loops at work, each takes its share of the ready sockets and of the
queues, rounded up so that none of them comes away from a queue empty-handed, and leaves the rest
with a wake-up for the others.
-/

namespace DnsClient

/-- An order in which to take queries. An engine does not keep to any, so what is said of engines is
said for all of them. -/
structure DrainOrder where
  arrange : List QueryId → List QueryId
  perm (ids : List QueryId) : (arrange ids).Perm ids

namespace DrainOrder

/-- The order of submission. -/
def submitted : DrainOrder := ⟨id, fun ids => .refl ids⟩

/-- Every arrangement of some queries belongs to an order. -/
theorem exists_arrange {ids is : List QueryId} (h : is.Perm ids) :
    ∃ o : DrainOrder, o.arrange ids = is := by
  refine ⟨⟨fun l => if l = ids then is else l, fun l => ?_⟩, if_pos rfl⟩
  split
  · next hl => exact hl ▸ h
  · exact .refl l

end DrainOrder

/-- The token of wake-ups. Query IDs never get there. -/
def wakeToken : QueryId := 0xffff_ffff_ffff_ffff

namespace Engine

def ofConfig (c : Config) : Engine := { workers := c.workers, eventsCapacity := c.eventsCapacity }

def create (c : Config) : Program (Except IoError Engine) := do
  match ← Program.setup .poll with
  | .error e => return .error e
  | .ok () =>
    match ← Program.setup .registry with
    | .error e => return .error e
    | .ok () =>
      match ← Program.setup .waker with
      | .error e => return .error e
      | .ok () => return .ok (ofConfig c)

/-! ### Waits -/

/-- How long a wait may take from `now` on: up to the first deadline, if there is one. -/
def waitTime (e : Engine) (now : Instant) : Option Duration × Engine :=
  let (time, schedule) := e.schedule.nextDeadline
  (time.map (· - now), { e with schedule })

/-- Fails overdue queries, and tells how long the wait may take that follows. -/
def prepare (e : Engine) : Program (Option Duration × Engine) := do
  let now ← Program.now
  let e ← e.settle [.expire now]
  let now ← Program.now
  return e.waitTime now

/-! ### Shares -/

/-- How many of `n` things one loop takes on. -/
def share (e : Engine) (n : Nat) : Nat := (n + e.workers - 1) / e.workers

/-- Takes the share of one loop off the front of a queue. -/
def takeShare (e : Engine) (queue : List QueryId) : List QueryId × List QueryId :=
  queue.splitAt (e.share queue.length)

/-- Wakes another loop if something is left for it. -/
def wakeFor (rest : List QueryId) : Program Unit :=
  if rest = [] then return () else Program.wake

/-- Attends to a share of the tokens in the overflow queue. -/
def serveOverflow (e : Engine) : Program Engine := do
  let (mine, rest) := e.takeShare e.overflow
  wakeFor rest
  settle { e with overflow := rest } (mine.map .dispatch)

/-- Starts a share of the queries in the queue of incoming ones. -/
def serveIncoming (e : Engine) : Program Engine := do
  let (mine, rest) := e.takeShare e.incoming
  wakeFor rest
  settle { e with incoming := rest } (mine.map .start)

/-- Attends to a share of the tokens that a wait reported, and leaves the rest in the overflow
queue. -/
def serveReady (e : Engine) (tokens : List QueryId) : Program Engine := do
  let (mine, rest) := e.takeShare (tokens.filter (· ≠ wakeToken))
  wakeFor rest
  settle { e with overflow := e.overflow ++ rest } (mine.map .dispatch)

/-- What a loop does after a wait that reported these tokens. -/
def serve (e : Engine) (tokens : List QueryId) : Program Engine := do
  let e ← e.serveReady tokens
  let e ← e.serveOverflow
  e.serveIncoming

/-! ### Shutdown -/

/-- What a loop does last when the engine shuts down: it passes the news on to another one, which
may be waiting. -/
def leave : Program Unit := Program.wake

/-- Empties the queues, and fails these queries in this order. -/
def failAll (e : Engine) (ids : List QueryId) : Program Engine :=
  settle { e with tracked := [], schedule := {}, incoming := [], overflow := [] }
    (ids.map .shutDown)

/-- Fails all queries that are left when no loop runs any more, in some order. -/
def failRemaining (e : Engine) (o : DrainOrder) : Program Engine :=
  e.failAll (o.arrange e.tracked)

/-- Shuts the engine down, unless that was done before. -/
def shutdown (e : Engine) (o : DrainOrder) : Program Engine := do
  let (first, e) ← e.beginShutdown
  if first then e.failRemaining o else return e

end Engine

end DnsClient
