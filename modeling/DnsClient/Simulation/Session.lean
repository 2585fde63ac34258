import DnsClient.Simulation.EventLoop
import DnsClient.Stub

/-!
An engine in use on the scripted network, with its loops running whenever something is ready.

After every request the loops run until they are at rest. At rest nothing is ready; and if time
may pass, no socket is waited for either, since then the clock is moved on to the next deadline.
-/

namespace DnsClient

namespace Simulation

namespace World

/-- One turn of a loop. The loops are at rest if there was nothing for it to do. -/
def turn (advance : Bool) (w : World) : Bool × World :=
  let ((timeout, engine), network) := w.network.run w.engine.prepare
  let w : World := ⟨engine, network⟩
  let serve (w : World) : World :=
    let (tokens, w) := w.events
    w.run fun e => e.serve tokens
  if w.network.hasEvents then (true, serve w)
  else
    match timeout with
    | some d =>
      if advance ∧ w.network.armed ≠ [] then
        (true, serve { w with network.clock := w.network.clock + d })
      else (false, w)
    | none => (false, w)

/-- Turns until the loops are at rest, but no more than `limit`. -/
def turns (advance : Bool) : (limit : Nat) → World → World
  | 0, w => w
  | limit + 1, w =>
    match w.turn advance with
    | (true, w) => turns advance limit w
    | (false, w) => w

def rest (advance : Bool) (w : World) : World :=
  if w.engine.isShutdown then w else turns advance LoopState.horizon w

/-- Submits a request, and yields the handle of the query. -/
def submit (advance : Bool) (w : World) (m : Message) (p : QueryParams) :
    Except QueryError Nat × World :=
  let ((r, engine), network) := w.network.run (w.engine.submit m p)
  (r, rest advance ⟨engine, network⟩)

def query (advance : Bool) (w : World) (m : Message) (p : QueryParams) :
    Option Outcome × World :=
  match w.submit advance m p with
  | (.ok handle, w) => (w.engine.outcome? handle, w)
  | (.error e, w) => (some (.failed e), w)

/-- Cancels a query, and tells whether this call did it. -/
def cancel (advance : Bool) (w : World) (handle : Nat) : Bool × World :=
  let was := (w.engine.outcome? handle).isSome
  (!was, (w.request (.cancel handle)).rest advance)

def draw (w : World) : UInt16 × World :=
  let (n, random) := w.network.random.draw
  (n, { w with network.random := random })

/-- Changes to a request that is made with a random ID. -/
def makeRequest (w : World) (q : Question) (us : List Request.Update) : Request × World :=
  let (r, random) := Request.edited q w.network.random us
  (r, { w with network.random := random })

def shutdown (w : World) : World := w.run fun e => e.shutdown .submitted

end World

/-- An engine that is used through clones of one handle, the last of which shuts it down. -/
structure Session extends World where
  advance : Bool := true
  clones : Nat := 1
  handles : List Nat := []

namespace Session

def submit (s : Session) (m : Message) (p : QueryParams) : Except QueryError Unit × Session :=
  match s.toWorld.submit s.advance m p with
  | (.ok h, w) => (.ok (), { s with toWorld := w, handles := s.handles ++ [h] })
  | (.error e, w) => (.error e, { s with toWorld := w })

def query (s : Session) (m : Message) (p : QueryParams) : Option Outcome × Session :=
  let (o, w) := s.toWorld.query s.advance m p
  (o, { s with toWorld := w })

def cancel (s : Session) (handle : Nat) : Bool × Session :=
  let (b, w) := s.toWorld.cancel s.advance handle
  (b, { s with toWorld := w })

def shutdown (s : Session) : Session := { s with toWorld := s.toWorld.shutdown }

def clone (s : Session) : Session := { s with clones := s.clones + 1 }

/-- Drops a clone. With the last one the engine shuts down. -/
def drop (s : Session) : Session :=
  match s.clones with
  | 0 => s
  | 1 => { s.shutdown with clones := 0 }
  | n + 2 => { s with clones := n + 1 }

def close (s : Session) : Session := if s.clones = 0 then s else { s.shutdown with clones := 0 }

end Session

/-! ### A resolver -/

/-- A stub resolver whose engine runs on the scripted network. -/
structure Resolver extends World where
  stub : Stub

def means : Stub.Means (StateM World) where
  draw := World.draw
  ask r p := fun w =>
    match r.compose with
    | .error _ => (.failed .compose, w)
    | .ok m =>
      let (o, w) := w.query true m p
      (o.getD .cancelled, w)

namespace Resolver

def create (n : Network) (conf : ResolvConf) : Except IoError Resolver :=
  let stub := Stub.ofConf conf
  (World.create n stub.config).map fun w => { toWorld := w, stub }

def query (r : Resolver) (qname : Name) (qtype : Rtype) :
    Except QueryError Message × Resolver :=
  let ((res, stub), w) := (r.stub.query means qname qtype : StateM World _).run
    { r.toWorld with network := r.network.clearLog }
  (res, { toWorld := w, stub })

end Resolver

end Simulation

end DnsClient
