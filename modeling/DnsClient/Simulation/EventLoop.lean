import DnsClient.Simulation.Network

/-!
One event loop on the scripted network, with actions that take place while it waits.

The loop runs until its engine is shut down, and the clock moves only when the loop is idle and
nothing else is left to happen.
-/

namespace DnsClient

namespace Simulation

inductive Action where
  | request (r : EngineRequest)
  | advance (d : Duration)
  | fire (tokens : List QueryId)
  | pollError (e : IoError)

/-- An engine on the scripted network. -/
structure World where
  engine : Engine
  network : Network

namespace World

def run (w : World) (p : Engine → Program Engine) : World :=
  let (engine, network) := w.network.run (p w.engine)
  ⟨engine, network⟩

def request (w : World) (r : EngineRequest) : World := w.run fun e => e.settle [.request r]

def events (w : World) : List QueryId × World :=
  let (tokens, network) := w.network.events w.engine.eventsCapacity
  (tokens, { w with network })

/-- Lets an action take place; it may settle what the wait results in. -/
def act (w : World) : Action → Option (Except IoError (List QueryId)) × World
  | .request r => (none, w.request r)
  | .advance d => (none, { w with network.clock := w.network.clock + d })
  | .fire tokens => (some (.ok tokens), w)
  | .pollError e => (some (.error e), w)

def idleText (w : World) (timeout : Option Duration) : String :=
  "idle at " ++ toString (Duration.toMillis w.network.clock) ++ " for " ++
    (match timeout with
      | none => "ever"
      | some d => toString (Duration.toMillis d)) ++
    " open [" ++ ",".intercalate w.network.openNames ++ "]"

/-- Lets time pass up to the end of a wait. A wait without an end is ended by a shutdown. -/
def passTime (w : World) : Option Duration → World
  | some d => { w with network.clock := w.network.clock + d }
  | none => w.run fun e => do return (← e.beginShutdown).2

end World

structure LoopState extends World where
  first : Option Action := none
  idle : List Action := []

namespace LoopState

/-- Waits for readiness after the action for the first wait. -/
def waitOn (s : LoopState) (timeout : Option Duration) :
    Except IoError (List QueryId) × LoopState :=
  if s.network.hasEvents then
    let (tokens, w) := s.events
    (.ok tokens, { s with toWorld := w })
  else
    let noted : World := { s.toWorld with network := s.network.note (s.idleText timeout) }
    match s.idle with
    | [] =>
      let (tokens, w) := (noted.passTime timeout).events
      (.ok tokens, { s with toWorld := w })
    | a :: idle =>
      match noted.act a with
      | (some r, w) => (r, { s with toWorld := w, idle })
      | (none, w) =>
        let (tokens, w) := w.events
        (.ok tokens, { s with toWorld := w, idle })

def wait (s : LoopState) (timeout : Option Duration) :
    Except IoError (List QueryId) × LoopState :=
  match s.first with
  | none => s.waitOn timeout
  | some a =>
    match s.act a with
    | (some r, w) => (r, { s with toWorld := w, first := none })
    | (none, w) => waitOn { s with toWorld := w, first := none } timeout

/-- One turn of the loop: the work before a wait, the wait, and the work after it. -/
def turn (s : LoopState) : LoopState :=
  let ((timeout, engine), network) := s.network.run s.engine.prepare
  match wait { s with engine, network } timeout with
  | (.error _, s) => s
  | (.ok tokens, s) => { s with toWorld := s.toWorld.run fun e => e.serve tokens }

/-- Turns until the engine is shut down, but no more than `limit`. -/
def turns : (limit : Nat) → LoopState → LoopState
  | 0, s => s
  | limit + 1, s => if s.engine.isShutdown then s else turns limit s.turn

/-- More turns than any script keeps a loop busy for. -/
def horizon : Nat := 1_000_000_000_000

/-- The whole run: actions before the loop, the loop, and the end of the queries left over. -/
def runAll (s : LoopState) (before : List Action) : LoopState × List String :=
  let w := before.foldl (fun w a => (w.act a).2) s.toWorld
  let s := turns horizon { s with toWorld := w }
  let w := s.toWorld.run fun e => do Engine.leave; return e
  let w : World := { w with network := w.network.note ("stopped pending " ++
    toString w.engine.pending) }
  let lines := w.network.lines
  let w := { w with network := w.network.clearLog }.run fun e => e.failRemaining .submitted
  ({ s with toWorld := w }, lines ++ w.network.lines.mergeSort fun a b => a ≤ b)

end LoopState

def World.create (n : Network) (c : Config) : Except IoError World :=
  match n.run (Engine.create c) with
  | (.ok engine, network) => .ok ⟨engine, network⟩
  | (.error e, _) => .error e

end Simulation

end DnsClient
