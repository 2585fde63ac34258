import DnsClient.Query.Exchange

/-!
What an engine does, task by task.

Tasks are performed in order, and what a task sets off comes before the tasks behind it: when a
query gets its outcome, its continuations run next, and what they ask of the engine is done before
anything else. Every task takes load off the engine and the agenda together, since each one that
is put on the agenda was submitted, scheduled or registered before; so an agenda comes to its end.
-/

namespace DnsClient

inductive Task where
  | request (r : EngineRequest)
  | reply (r : Reply)
  | notify (k : Continuation) (o : Outcome)
  | start (id : QueryId)
  | dispatch (token : QueryId)
  /-- Fail the queries whose deadline is not after the given time. -/
  | expire (now : Instant)
  /-- Fail a query because the engine shut down. -/
  | shutDown (id : QueryId)

namespace Engine

/-- Sets the outcome of a query, and puts its continuations on the agenda. -/
def complete (e : Engine) (id : QueryId) (o : Outcome) : List Task × Engine :=
  match e.slot? id with
  | none => ([], e)
  | some s =>
    match s.cell.complete? o with
    | none => ([], e)
    | some (ks, cell) => (ks.map (.notify · o), e.setSlot id { s with cell })

def abandon (e : Engine) (id : QueryId) : Program Engine :=
  match e.slot? id with
  | none => return e
  | some s => do
    let query ← s.query.abandon
    return e.setSlot id { s with query }

/-- Takes in what a query told. -/
def conclude (e : Engine) (id : QueryId) (s : Slot) (r : Step × Query) : List Task × Engine :=
  let e := e.setSlot id { s with query := r.2 }
  match r.1 with
  | .pending => ([], e)
  | .done (.ok m) => (e.forget id).complete id (.response m)
  | .done (.error x) => (e.forget id).complete id (.failed x)

/-! ### Requests -/

def accept (e : Engine) (m : Message) (p : QueryParams) (now : Instant) : Engine :=
  let id := e.nextId
  { e with
    slots := e.slots.insert id ⟨{ hook? := some id }, { id, request := m, params := p }⟩
    handles := e.handles ++ [id]
    tracked := e.tracked ++ [id]
    schedule := e.schedule.insert id (now + p.timeout)
    incoming := e.incoming ++ [id]
    nextId := id + 1 }

/-- Submits a request, and yields a handle for the query. An ID is used up even if the engine
refuses the request. -/
def submit (e : Engine) (m : Message) (p : QueryParams) : Program (Except QueryError Nat × Engine) :=
  if e.isShutdown then return (.error .shutdown, { e with nextId := e.nextId + 1 })
  else do
    let now ← Program.now
    Program.wake
    return (.ok e.handles.length, e.accept m p now)

/-- Registers a continuation for the query with its handle. If the query has its outcome, the
continuation is put on the agenda. -/
def onComplete (e : Engine) (k : Continuation) : List Task × Engine :=
  match e.handles[k.handle]? with
  | none => ([], e)
  | some id =>
    match e.slot? id with
    | none => ([], e)
    | some s =>
      let (o, cell) := s.cell.onComplete k
      ((o.map (.notify k)).toList, e.setSlot id { s with cell })

/-- Withdraws a query that was cancelled: nothing is left of it but its outcome. -/
def withdraw (e : Engine) (id : QueryId) : Program Engine := do
  let e ← (if e.isTracked id then (e.forget id).abandon id else return e.forget id)
  Program.wake
  return e

def cleanUp (e : Engine) : (hook : Option QueryId) → Program Engine
  | none => return e
  | some id => e.withdraw id

/-- Cancels the query with an ID, and tells whether this call did it. -/
def cancelQuery (e : Engine) (id : QueryId) : Program (Bool × List Task × Engine) :=
  match e.slot? id with
  | none => return (false, [], e)
  | some s =>
    match s.cell.cancel? with
    | none => return (false, [], e)
    | some (hook, ks, cell) => do
      let e ← (e.setSlot id { s with cell }).cleanUp hook
      return (true, ks.map (.notify · .cancelled), e)

/-- Cancels the query with a handle, and replies when its continuations have run. -/
def cancel (e : Engine) (handle : Nat) : Program (List Task × Engine) :=
  match e.handles[handle]? with
  | none => return ([.reply (.cancelled handle false)], e)
  | some id => do
    let (b, ts, e) ← e.cancelQuery id
    return (ts ++ [.reply (.cancelled handle b)], e)

/-- Begins to shut down, and tells whether that had not been begun before. -/
def beginShutdown (e : Engine) : Program (Bool × Engine) :=
  if e.isShutdown then return (false, e)
  else do
    Program.wake
    return (true, { e with isShutdown := true })

/-- Serves a request. One to shut down is served when the shutdown has begun, and fails no query. -/
def serveRequest (e : Engine) : EngineRequest → Program (List Task × Engine)
  | .submit m p requests => do
    match ← e.submit m p with
    | (.ok handle, e) =>
      let r := e.onComplete ⟨handle, requests⟩
      return (.reply (.submitted handle) :: r.1, r.2)
    | (.error x, e) => return ([.reply (.refused x)], e)
  | .cancel handle => e.cancel handle
  | .pending => return ([.reply (.pending e.pending)], e)
  | .shutdown => do
    let (b, e) ← e.beginShutdown
    return ([.reply (.shutdown b)], e)

/-! ### Tasks -/

/-- Starts a query, unless it has an outcome already. -/
def start (e : Engine) (id : QueryId) : Program (List Task × Engine) :=
  match e.slot? id with
  | none => return ([], e)
  | some s =>
    if s.cell.isFinished then return ([], e)
    else do return e.conclude id s (← s.query.start)

/-- Lets the query with a token go on. Tokens of queries that are not tracked mean nothing. -/
def dispatch (e : Engine) (token : QueryId) : Program (List Task × Engine) :=
  if e.isTracked token then
    match e.slot? token with
    | none => return ([], e)
    | some s =>
      if s.cell.isFinished then do return ([], (← e.abandon token).forget token)
      else do return e.conclude token s (← s.query.ready)
  else return ([], e)

/-- Fails the first query whose deadline has passed, and sees to the others after it. -/
def expire (e : Engine) (now : Instant) : Program (List Task × Engine) :=
  let (id, schedule) := e.schedule.popExpired now
  let e := { e with schedule }
  match id with
  | none => return ([], e)
  | some id =>
    if e.isTracked id then do
      let e := { e with tracked := e.tracked.filter (· ≠ id) }
      let e ← e.abandon id
      let (ts, e) := e.complete id (.failed .timeout)
      return (ts ++ [.expire now], e)
    else return ([.expire now], e)

def shutDown (e : Engine) (id : QueryId) : Program (List Task × Engine) := do
  let e ← e.abandon id
  return e.complete id (.failed .shutdown)

/-- Performs a task, and yields the tasks that it sets off. -/
def perform (e : Engine) : Task → Program (List Task × Engine)
  | .request r => e.serveRequest r
  | .reply r => do
    Program.reply r
    return ([], e)
  | .notify k o => do
    Program.notify k o e
    return (k.requests.map .request, e)
  | .start id => e.start id
  | .dispatch token => e.dispatch token
  | .expire now => e.expire now
  | .shutDown id => e.shutDown id

end Engine

/-! ### Load -/

mutual

/-- The most tasks that a request can lead to, itself included. -/
def EngineRequest.load : EngineRequest → Nat
  | .submit _ _ requests => loads requests + 5
  | _ => 2

def EngineRequest.loads : List EngineRequest → Nat
  | [] => 0
  | r :: rs => r.load + loads rs

end

/-- The most tasks that a continuation can lead to. -/
def Continuation.load (k : Continuation) : Nat := EngineRequest.loads k.requests + 1

def Task.load : Task → Nat
  | .request r => r.load
  | .notify k _ => k.load
  | .reply _ | .start _ | .dispatch _ | .expire _ | .shutDown _ => 1

/-- The most tasks that the continuations of a query can lead to. -/
def Slot.load (s : Slot) : Nat := total Continuation.load s.cell.continuations

namespace Engine

/-- The most tasks that the continuations and the deadlines in an engine can lead to. -/
def load (e : Engine) : Nat :=
  total (fun p => p.2.load) e.slots + e.schedule.size

/-- Performs tasks until none is left, but no more than `limit`. -/
def settleWithin : (limit : Nat) → List Task → Engine → Program Engine
  | 0, _, e | _, [], e => return e
  | limit + 1, t :: ts, e => do
    let (new, e) ← e.perform t
    settleWithin limit (new ++ ts) e

/-- The most tasks that an agenda and an engine can lead to together. -/
def totalLoad (ts : List Task) (e : Engine) : Nat := total Task.load ts + e.load

/-- Performs tasks and all that they set off. -/
def settle (e : Engine) (ts : List Task) : Program Engine := settleWithin (totalLoad ts e) ts e

end Engine

end DnsClient
