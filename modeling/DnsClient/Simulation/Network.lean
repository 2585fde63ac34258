import DnsClient.Engine.Loop
import DnsClient.Random

/-!
A scripted network, which answers the calls of programs and keeps a log of them.

Every socket follows a script that says what its operations result in. The clock stands still
unless it is moved, and random numbers come from a list. So a run is determined by its input.
-/

namespace DnsClient

namespace Simulation

/-- What asking a socket for a pending error results in. -/
inductive PendingError where
  | none
  | some (e : IoError)
  | fail (e : IoError)

/-- What the operations on a socket result in. Lists have an item for each operation. -/
structure Script where
  opening : Option IoError := none
  connect : Option IoError := none
  pendingErrors : List PendingError := []
  peer : List (Option IoError) := []
  /-- How many octets a write accepts at most. Writes beyond the list accept everything. -/
  send : List (Except IoError Nat) := []
  /-- What arrives. Reads beyond the list would block. -/
  recv : List (Except IoError Octets) := []
  /-- How often the socket is reported writable, if not always. -/
  writable : Option Nat := none

structure SocketState where
  socket : Socket
  script : Script
  server : Option SocketAddress := none
  isOpen : Bool := true
  sent : Octets := []

structure Arming where
  socket : Socket
  token : QueryId
  interest : Interest

inductive LogLine where
  | call (text : String)
  | note (text : String)

def LogLine.text : LogLine → String
  | .call t | .note t => t

structure Network where
  udp : List Script := []
  tcp : List Script := []
  /-- The results of registering, for the first time or anew. -/
  registerResults : List (Option IoError) := []
  deregisterResults : List (Option IoError) := []
  setupResults : List (Option IoError) := []
  random : RandomSupply := []
  udpCount : Nat := 0
  tcpCount : Nat := 0
  sockets : List SocketState := []
  /-- The sockets waited for, in the order in which they were armed. -/
  armed : List Arming := []
  wakePending : Bool := false
  clock : Instant := 0
  /-- The log, with the last line in front. -/
  log : List LogLine := []

def kindText : IoErrorKind → String
  | .addrInUse => "AddrInUse"
  | .addrNotAvailable => "AddrNotAvailable"
  | .brokenPipe => "BrokenPipe"
  | .connectionAborted => "ConnectionAborted"
  | .connectionRefused => "ConnectionRefused"
  | .connectionReset => "ConnectionReset"
  | .interrupted => "Interrupted"
  | .invalidInput => "InvalidInput"
  | .notConnected => "NotConnected"
  | .other => "Other"
  | .outOfMemory => "OutOfMemory"
  | .permissionDenied => "PermissionDenied"
  | .timedOut => "TimedOut"
  | .unexpectedEof => "UnexpectedEof"
  | .wouldBlock => "WouldBlock"
  | .writeZero => "WriteZero"

def plainError (k : IoErrorKind) : IoError := ⟨k, kindText k⟩

def socketName (s : Socket) : String :=
  (match s.transport with | .udp => "udp" | .tcp => "tcp") ++ toString s.number

def interestText : Interest → String
  | .readable => "R"
  | .writable => "W"

def resultText {α : Type} (print : α → String) : Except IoError α → String
  | .ok a => print a
  | .error e => kindText e.kind

def okText : Except IoError Unit → String := resultText fun _ => "ok"

/-- The next of some results; beyond the list, success. -/
def nextResult : List (Option IoError) → Except IoError Unit × List (Option IoError)
  | [] => (.ok (), [])
  | none :: rs => (.ok (), rs)
  | some e :: rs => (.error e, rs)

namespace Network

def note (n : Network) (text : String) : Network := { n with log := .note text :: n.log }

def logCall (n : Network) (text result : String) : Network :=
  { n with log := .call (text ++ " -> " ++ result) :: n.log }

def state? (n : Network) (s : Socket) : Option SocketState := n.sockets.find? (·.socket == s)

def script (n : Network) (s : Socket) : Script := ((n.state? s).map (·.script)).getD {}

def updateSocket (n : Network) (s : Socket) (f : SocketState → SocketState) : Network :=
  { n with sockets := n.sockets.map fun x => if x.socket = s then f x else x }

def updateScript (n : Network) (s : Socket) (f : Script → Script) : Network :=
  n.updateSocket s fun x => { x with script := f x.script }

def accept (n : Network) (s : Socket) (o : Octets) : Network :=
  n.updateSocket s fun x => { x with sent := x.sent ++ o }

def openNames (n : Network) : List String :=
  (n.sockets.filter (·.isOpen)).map fun x => socketName x.socket

def disarm (n : Network) (s : Socket) : Network :=
  { n with armed := n.armed.filter fun a => a.socket ≠ s }

def arm (n : Network) (s : Socket) (token : QueryId) (i : Interest) : Network :=
  { n.disarm s with armed := (n.disarm s).armed ++ [⟨s, token, i⟩] }

/-! ### Sockets -/

/-- Adds a socket, which is open if opening it succeeds. -/
def addSocket (n : Network) (s : Socket) (script : Script) (server : Option SocketAddress) :
    Except IoError Nat × Network :=
  match script.opening with
  | some e => (.error e, n)
  | none => (.ok s.number, { n with sockets := n.sockets ++ [{ socket := s, script, server }] })

def bindUdp (n : Network) (f : AddressFamily) : Except IoError Nat × Network :=
  let s : Socket := ⟨.udp, n.udpCount⟩
  let (r, n) := addSocket { n with udp := n.udp.tail, udpCount := n.udpCount + 1 } s
    (n.udp.head?.getD {}) none
  let address := match f with | .ipv4 => "0.0.0.0:0" | .ipv6 => "[::]:0"
  (r, n.logCall (socketName s ++ " bind " ++ address) (resultText (fun _ => "ok") r))

def connectTcp (n : Network) (server : SocketAddress) : Except IoError Nat × Network :=
  let s : Socket := ⟨.tcp, n.tcpCount⟩
  let script := n.tcp.head?.getD { opening := some (plainError .connectionRefused) }
  let (r, n) := addSocket { n with tcp := n.tcp.tail, tcpCount := n.tcpCount + 1 } s script
    (some server)
  (r, n.logCall (socketName s ++ " connect " ++ server.display) (resultText (fun _ => "ok") r))

def connectUdp (n : Network) (s : Socket) (server : SocketAddress) :
    Except IoError Unit × Network :=
  let r : Except IoError Unit := match (n.script s).connect with
    | none => .ok ()
    | some e => .error e
  (r, n.logCall (socketName s ++ " connect " ++ server.display) (okText r))

/-- How many of `size` octets the socket accepts next. -/
def nextSend (n : Network) (s : Socket) (size : Nat) :
    Except IoError { k : Nat // k ≤ size } × Network :=
  let rest := n.updateScript s fun x => { x with send := x.send.tail }
  match (n.script s).send with
  | [] => (.ok ⟨size, Nat.le_refl _⟩, rest)
  | .ok k :: _ => (.ok ⟨min k size, Nat.min_le_right _ _⟩, rest)
  | .error e :: _ => (.error e, rest)

/-- Logs a write of `o` and counts the octets that were accepted. -/
def logSend (n : Network) (s : Socket) (text : String) (o : Octets) {size : Nat}
    (r : Except IoError { k : Nat // k ≤ size }) : Network :=
  let n := n.logCall text (resultText (fun k => toString k.1) r)
  match r with
  | .ok k => n.accept s (o.take k.1)
  | .error _ => n

/-- The next octets to arrive, at most `size` of them. What is left of a chunk of a stream stays. -/
def nextRecv (n : Network) (s : Socket) (size : Nat) :
    Except IoError { o : Octets // o.length ≤ size } × Network :=
  match (n.script s).recv with
  | [] => (.error (plainError .wouldBlock), n)
  | .error e :: rest => (.error e, n.updateScript s fun x => { x with recv := rest })
  | .ok o :: rest =>
    let left := o.drop size
    let recv := if s.transport = .udp ∨ left = [] then rest else .ok left :: rest
    (.ok ⟨o.take size, List.length_take_le size o⟩, n.updateScript s fun x => { x with recv })

def recv (n : Network) (s : Socket) (verb : String) (size : Nat) :
    Except IoError { o : Octets // o.length ≤ size } × Network :=
  let (r, n) := n.nextRecv s size
  (r, n.logCall (socketName s ++ " " ++ verb ++ " " ++ toString size)
    (resultText (fun o => toString o.1.length) r))

def takeError (n : Network) (s : Socket) : Except IoError (Option IoError) × Network :=
  let rest := n.updateScript s fun x => { x with pendingErrors := x.pendingErrors.tail }
  let log := rest.logCall (socketName s ++ " take_error")
  match (n.script s).pendingErrors.head?.getD .none with
  | .none => (.ok none, log "none")
  | .some e => (.ok (some e), log ("some " ++ kindText e.kind))
  | .fail e => (.error e, log (kindText e.kind))

def peerAddress (n : Network) (s : Socket) : Except IoError Unit × Network :=
  let (r, peer) := nextResult (n.script s).peer
  let address := (((n.state? s).bind (·.server)).map SocketAddress.display).getD ""
  (r, (n.updateScript s fun x => { x with peer }).logCall (socketName s ++ " peer_addr")
    (resultText (fun _ => address) r))

def close (n : Network) (s : Socket) : Network :=
  (n.disarm s).updateSocket s fun x => { x with isOpen := false }

/-! ### Readiness -/

/-- Registers a socket with the next of the results for that. -/
def register (n : Network) (verb : String) (s : Socket) (token : QueryId) (i : Interest) :
    Except IoError Unit × Network :=
  let (r, rest) := nextResult n.registerResults
  let n := { n with registerResults := rest }
  let n := match r with
    | .ok () => n.arm s token i
    | .error _ => n
  (r, n.logCall (verb ++ " " ++ socketName s ++ " q" ++ toString token ++ " " ++ interestText i)
    (okText r))

/-- Takes back a registration, even if the result is a failure. -/
def deregister (n : Network) (s : Socket) : Except IoError Unit × Network :=
  let (r, rest) := nextResult n.deregisterResults
  (r, { n.disarm s with deregisterResults := rest }.logCall ("deregister " ++ socketName s)
    (okText r))

def isReady (n : Network) (a : Arming) : Bool :=
  match a.interest with
  | .writable => (n.script a.socket).writable ≠ some 0
  | .readable => !(n.script a.socket).recv.isEmpty

def hasEvents (n : Network) : Bool := n.wakePending || n.armed.any n.isReady

/-- The tokens of a wake-up and of ready sockets, at most `capacity` of them. What is reported is
not reported again. -/
def events (n : Network) (capacity : Nat) : List QueryId × Network :=
  let woken := if n.wakePending then [wakeToken] else []
  let reported := (n.armed.filter n.isReady).take (capacity - woken.length)
  let n := reported.foldl (fun n a =>
    let n := n.disarm a.socket
    match a.interest with
    | .readable => n
    | .writable => n.updateScript a.socket fun x => { x with writable := x.writable.map (· - 1) })
    { n with wakePending := false }
  (woken ++ reported.map (·.token), n)

/-! ### Calls -/

def outcomeText : Outcome → String
  | .response m => "response " ++ toString m.id.toNat
  | .failed e => "failed: " ++ e.message
  | .cancelled => "cancelled"

def replyText : Reply → String
  | .submitted h => "submitted h" ++ toString h
  | .refused e => "not submitted: " ++ e.message
  | .cancelled h b => "cancel h" ++ toString h ++ " -> " ++ toString b
  | .pending n => "pending " ++ toString n
  | .shutdown b => "shutdown -> " ++ toString b

def answer : (c : Call) → Network → c.Answer × Network
  | .setup _, n =>
    let (r, rest) := nextResult n.setupResults
    (r, { n with setupResults := rest })
  | .now, n => (n.clock, n)
  | .bindUdp f, n => n.bindUdp f
  | .connectUdp s server, n => n.connectUdp ⟨.udp, s⟩ server
  | .sendUdp s o, n =>
    let (r, n) := n.nextSend ⟨.udp, s⟩ o.length
    (r, n.logSend ⟨.udp, s⟩ (socketName ⟨.udp, s⟩ ++ " send " ++ toString o.length) o r)
  | .recvUdp s size, n => n.recv ⟨.udp, s⟩ "recv" size
  | .connectTcp server, n => n.connectTcp server
  | .takeError s, n => n.takeError ⟨.tcp, s⟩
  | .peerAddress s, n => n.peerAddress ⟨.tcp, s⟩
  | .writeTcp s head tail, n =>
    let (r, n) := n.nextSend ⟨.tcp, s⟩ (head.length + tail.length)
    (r, n.logSend ⟨.tcp, s⟩ (socketName ⟨.tcp, s⟩ ++ " write " ++ toString head.length ++ "+" ++
      toString tail.length) (head ++ tail) r)
  | .readTcp s size, n => n.recv ⟨.tcp, s⟩ "read" size
  | .close s, n => ((), n.close s)
  | .register s token i, n => n.register "register" s token i
  | .reregister s token i, n => n.register "reregister" s token i
  | .deregister s, n => n.deregister s
  | .wake, n => ((), { n with wakePending := true })
  | .notify k o _, n =>
    ((), n.note ("h" ++ toString k.handle ++ " at " ++ toString (Duration.toMillis n.clock) ++
      " " ++ outcomeText o))
  | .reply r, n => ((), n.note (replyText r))

def run {α : Type} (n : Network) (p : Program α) : α × Network := p.run answer n

def clearLog (n : Network) : Network := { n with log := [] }

def lines (n : Network) : List String := n.log.reverse.map LogLine.text

def calls (n : Network) : List String :=
  n.log.reverse.filterMap fun
    | .call t => some t
    | .note _ => none

/-- The sockets that accepted octets, with those octets. -/
def sent (n : Network) : List (String × Octets) :=
  (n.sockets.filter fun x => x.sent ≠ []).map fun x => (socketName x.socket, x.sent)

end Network

end Simulation

end DnsClient
