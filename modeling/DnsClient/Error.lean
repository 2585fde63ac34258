/-!
Errors of sockets and of queries.
-/

namespace DnsClient

/-- The kinds of error that sockets and the readiness facility report. -/
inductive IoErrorKind where
  | addrInUse
  | addrNotAvailable
  | brokenPipe
  | connectionAborted
  | connectionRefused
  | connectionReset
  | interrupted
  | invalidInput
  | notConnected
  | other
  | outOfMemory
  | permissionDenied
  | timedOut
  | unexpectedEof
  | wouldBlock
  | writeZero
deriving DecidableEq, Repr

/-- An error of a socket or of the readiness facility. -/
structure IoError where
  kind : IoErrorKind
  text : String
deriving DecidableEq, Repr

namespace IoError

/-- Whether the operation may succeed if simply tried again later. -/
def isRetry (e : IoError) : Bool := e.kind = .wouldBlock ∨ e.kind = .interrupted

/-- A stream accepted nothing of what was to be written. -/
def writeZero : IoError := ⟨.writeZero, "write zero"⟩

/-- A request does not fit behind a two-octet length. -/
def requestTooLong : IoError := ⟨.invalidInput, "request too long for stream transport"⟩

end IoError

inductive QueryError where
  | udpBind (e : IoError)
  | udpConnect (e : IoError)
  | udpSend (e : IoError)
  /-- A datagram was sent in part only. -/
  | udpShortSend
  | udpReceive (e : IoError)
  | tcpConnect (e : IoError)
  | streamWrite (e : IoError)
  | streamRead (e : IoError)
  /-- The stream ended within a message. -/
  | streamEnd
  | shortMessage
  | wrongReply
  | compose
  | register (e : IoError)
  | timeout
  | shutdown
  | setup (e : IoError)
  /-- Several attempts failed, in this order. -/
  | multiple (causes : List QueryError)

namespace QueryError

mutual

def message : QueryError → String
  | .udpBind _ => "error binding UDP socket"
  | .udpConnect _ => "error connecting UDP socket"
  | .udpSend _ => "error sending to UDP socket"
  | .udpShortSend => "partial sent to UDP socket"
  | .udpReceive _ => "error receiving from UDP socket"
  | .tcpConnect _ => "error connecting TCP socket"
  | .streamWrite _ => "error writing to stream"
  | .streamRead _ => "error reading from stream"
  | .streamEnd => "unexpected end of data"
  | .shortMessage => "octet sequence to short to be a valid message"
  | .wrongReply => "reply does not match query"
  | .compose => "PushError from MessageBuilder"
  | .register _ => "error registering socket for readiness"
  | .timeout => "timeout waiting for response"
  | .shutdown => "query engine shut down"
  | .setup e => "I/O error: " ++ e.text
  | .multiple [] => "multiple errors: "
  | .multiple (e :: es) => "multiple errors: " ++ message e ++ furtherMessages es

/-- The wordings of further causes, each behind a semicolon. -/
def furtherMessages : List QueryError → String
  | [] => ""
  | e :: es => "; " ++ message e ++ furtherMessages es

end

/-- The socket error at the bottom of a query error, if there is one. -/
def source? : QueryError → Option IoError
  | .udpBind e | .udpConnect e | .udpSend e | .udpReceive e | .tcpConnect e | .streamWrite e
  | .streamRead e | .register e | .setup e => some e
  | _ => none

def isTimeout : QueryError → Bool
  | .timeout => true
  | _ => false

def causes : QueryError → List QueryError
  | .multiple es => es
  | e => [e]

/-- One error made of the given ones; a single error stays as it is. -/
def bundle? : List QueryError → Option QueryError
  | [] => none
  | [e] => some e
  | es => some (.multiple es)

end QueryError

end DnsClient
