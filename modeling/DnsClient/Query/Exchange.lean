import DnsClient.Program

/-!
The course of one query: over UDP first, then over TCP if that comes to nothing.

Whatever goes wrong with UDP is recorded, and the query starts over with TCP; a reply that was cut
short sends it there without a record. What goes wrong with TCP is final. Each call of
`Query.ready` performs one operation on the socket, and then the query is over, or its socket is
registered for what the phase waits for.
-/

namespace DnsClient

namespace Query

/-! ### Sockets -/

/-- Takes back the registration of the socket in use and closes it, if there is one. -/
def release (q : Query) : Program Unit :=
  match q.phase.socket? with
  | none => pure ()
  | some s => do
    if q.registered then
      let _ ← Program.deregister s
    Program.close s

def abandon (q : Query) : Program Query := do
  q.release
  return q.close

/-- Registers the socket in use, or registers it anew. -/
def arm (q : Query) (i : Interest) : Program (Except QueryError Query) :=
  match q.phase.socket? with
  | none => return .ok q
  | some s => do
    let r ←
      if q.registered then Program.reregister s q.id i else Program.register s q.id i
    match r with
    | .ok () => return .ok { q with registered := true }
    | .error e => return .error (.register e)

/-! ### Ends -/

/-- Ends the query with an error, bundled with those recorded before. -/
def fail (q : Query) (e : QueryError) : Program (Step × Query) := do
  let closed ← q.abandon
  let e := (QueryError.bundle? (q.errors ++ [e])).getD e
  return (.done (.error e), { closed with errors := [] })

def succeed (q : Query) (m : Message) : Program (Step × Query) := do
  let closed ← q.abandon
  return (.done (.ok m), closed)

/-! ### TCP -/

def armTcp (q : Query) (i : Interest) : Program (Step × Query) := do
  match ← q.arm i with
  | .ok q => return (.pending, q)
  | .error e => q.fail e

/-- Starts over with TCP, without the socket used before. -/
def tcpConnect (q : Query) : Program (Step × Query) := do
  let q ← q.abandon
  match ← Program.connectTcp q.params.server with
  | .error e => q.fail (.tcpConnect e)
  | .ok s => armTcp { q with phase := .tcpConnect s } .writable

/-- The length of the request in two octets. -/
def lengthOctets (q : Query) : Octets := Octets.ofNat 2 q.request.octets.length

/-- Writes what is left of the length and the request. -/
def tcpWrite (q : Query) (s written : Nat) : Program (Step × Query) :=
  if maxMessageLength < q.request.octets.length then q.fail (.streamWrite .requestTooLong)
  else do
    match ← Program.writeTcp s (q.lengthOctets.drop written)
        (q.request.octets.drop (written - 2)) with
    | .ok ⟨0, _⟩ => q.fail (.streamWrite .writeZero)
    | .ok ⟨n, _⟩ =>
      if written + n < 2 + q.request.octets.length then
        armTcp { q with phase := .tcpWrite s (written + n) } .writable
      else armTcp { q with phase := .tcpRead s .start } .readable
    | .error e => if e.isRetry then q.armTcp .writable else q.fail (.streamWrite e)

/-- Checks whether the connection stands, and begins to write if so. -/
def tcpConnected (q : Query) (s : Nat) : Program (Step × Query) := do
  match ← Program.takeError s with
  | .error e | .ok (some e) => q.fail (.tcpConnect e)
  | .ok none =>
    match ← Program.peerAddress s with
    | .ok () => tcpWrite { q with phase := .tcpWrite s 0 } s 0
    | .error e =>
      if e.kind = .notConnected ∨ e.isRetry then q.armTcp .writable
      else q.fail (.tcpConnect e)

def tcpReply (q : Query) (o : Octets) : Program (Step × Query) :=
  match Message.ofOctets? o with
  | none => q.fail .shortMessage
  | some m => if m.id = q.request.id then q.succeed m else q.fail .wrongReply

def tcpRead (q : Query) (s : Nat) (reader : StreamReader) : Program (Step × Query) := do
  match ← Program.readTcp s reader.room with
  | .ok ⟨[], _⟩ => q.fail .streamEnd
  | .ok ⟨o, _⟩ =>
    match reader.advance o with
    | .inl body => q.tcpReply body
    | .inr reader => armTcp { q with phase := .tcpRead s reader } .readable
  | .error e => if e.isRetry then q.armTcp .readable else q.fail (.streamRead e)

/-! ### UDP -/

/-- Gives up on UDP, for an error or for none, and starts over with TCP. -/
def fallback (q : Query) (e : Option QueryError) : Program (Step × Query) :=
  tcpConnect { q with errors := q.errors ++ e.toList }

def armUdp (q : Query) (i : Interest) : Program (Step × Query) := do
  match ← q.arm i with
  | .ok q => return (.pending, q)
  | .error e => q.fallback (some e)

/-- Opens a UDP socket for the server. If that fails half-way, the socket is closed and then the
connection begins, as with sockets in use. This one is not registered yet, so the order of the two
shows in nothing but how many sockets are open meanwhile. -/
def udpConnect (q : Query) : Program (Step × Query) := do
  match ← Program.bindUdp q.params.server.family with
  | .error e => q.fallback (some (.udpBind e))
  | .ok s =>
    match ← Program.connectUdp s q.params.server with
    | .error e =>
      Program.close ⟨.udp, s⟩
      q.fallback (some (.udpConnect e))
    | .ok () => armUdp { q with phase := .udpWrite s } .writable

def udpWrite (q : Query) (s : Nat) : Program (Step × Query) := do
  match ← Program.sendUdp s q.request.octets with
  | .ok ⟨n, _⟩ =>
    if n = q.request.octets.length then armUdp { q with phase := .udpRead s } .readable
    else q.fallback (some .udpShortSend)
  | .error e => if e.isRetry then q.armUdp .writable else q.fallback (some (.udpSend e))

/-- Judges a datagram. -/
def udpReply (q : Query) (o : Octets) : Program (Step × Query) :=
  match Message.ofOctets? o with
  | none => q.fallback (some .wrongReply)
  | some m =>
    if m.id ≠ q.request.id then q.fallback (some .wrongReply)
    else if m.isTruncated then q.fallback none
    else q.succeed m

def udpRead (q : Query) (s : Nat) : Program (Step × Query) := do
  match ← Program.recvUdp s q.params.payloadSize.toNat with
  | .ok ⟨o, _⟩ => q.udpReply o
  | .error e => if e.isRetry then q.armUdp .readable else q.fallback (some (.udpReceive e))

/-! ### Calls -/

/-- Starts the query, unless it was started before. -/
def start (q : Query) : Program (Step × Query) :=
  match q.phase with
  | .idle =>
    match q.params.mode with
    | .preferUdp => q.udpConnect
    | .tcpOnly => q.tcpConnect
  | _ => return (.pending, q)

/-- Lets the query go on after its socket was reported ready. -/
def ready (q : Query) : Program (Step × Query) :=
  match q.phase with
  | .idle | .closed => return (.pending, q)
  | .udpWrite s => q.udpWrite s
  | .udpRead s => q.udpRead s
  | .tcpConnect s => q.tcpConnected s
  | .tcpWrite s written => q.tcpWrite s written
  | .tcpRead s reader => q.tcpRead s reader

inductive Action where
  | start
  | ready
  | abandon
deriving DecidableEq, Repr

def act (q : Query) : Action → Program (Step × Query)
  | .start => q.start
  | .ready => q.ready
  | .abandon => do return (.pending, ← q.abandon)

def acts (q : Query) : List Action → Program (List Step × Query)
  | [] => return ([], q)
  | a :: as => do
    let (s, q) ← q.act a
    let (ss, q) ← q.acts as
    return (s :: ss, q)

end Query

end DnsClient
