import DnsClient.Header
import DnsClient.Question

/-!
Messages as received: octets that are known to hold a header and are read further only when asked.
-/

namespace DnsClient

/-- The length of ID, flags and section counts. -/
def headerLength : Nat := 12

/-- The most octets of a message: a stream announces its length in two octets. -/
def maxMessageLength : Nat := 65535

/-- The octets of a message, long enough for the header section. -/
structure Message where
  octets : Octets
  length_ge : headerLength ≤ octets.length

namespace Message

@[ext] theorem ext {m n : Message} (h : m.octets = n.octets) : m = n := by
  cases m; cases n; cases h; rfl

/-- The message in the octets, if they are long enough for a header section. -/
def ofOctets? (o : Octets) : Option Message :=
  if h : headerLength ≤ (o.take headerLength).length then
    some ⟨o, by rw [List.length_take] at h; omega⟩
  else none

theorem ofOctets?_eq_some {o : Octets} {m : Message} : ofOctets? o = some m ↔ m.octets = o := by
  constructor
  · intro h
    unfold ofOctets? at h
    split at h
    · cases h; rfl
    · cases h
  · rintro rfl
    have h : headerLength ≤ (m.octets.take headerLength).length := by
      have := m.length_ge
      rw [List.length_take]
      omega
    rw [ofOctets?, dif_pos h]

/-- The wording for octets that are too short for a message. -/
def shortMessage : String := "short message"

def header (m : Message) : Header := (Header.ofMessage? m.octets).getD {}

def counts (m : Message) : Counts := (Counts.ofMessage? m.octets).getD {}

def id (m : Message) : UInt16 := m.header.id

/-- Whether the message was cut to fit into a datagram. -/
def isTruncated (m : Message) : Bool := m.header.tc

def body (m : Message) : Cursor :=
  ⟨m.octets.toArray, headerLength, m.length_ge⟩

def firstQuestion (m : Message) : Except ParseError (Option Question) :=
  if m.counts.qd = 0 then .ok none
  else (Read.question m.body).1.map some

/-- Whether the message is an answer to the query: a response with its ID and its question. -/
def isAnswer (m query : Message) : Bool :=
  m.header.qr && m.id == query.id &&
    match m.firstQuestion, query.firstQuestion with
    | .ok p, .ok q => p == q
    | _, _ => false

/-! ### Records -/

def skipQuestions : Nat → Read Unit
  | 0 => pure ()
  | n + 1 => do
    let _ ← Read.question
    skipQuestions n

/-- Passes over a record for its type and the number in its class field. -/
def skipRecord : Read (Rtype × UInt16) := do
  let _ ← Read.name
  let rtype ← Read.word16
  let rclass ← Read.word16
  let _ ← Read.word32
  let rdlength ← Read.word16
  Read.skip rdlength.toNat
  return (⟨rtype⟩, rclass)

def skipRecords : Nat → Read Unit
  | 0 => pure ()
  | n + 1 => do
    let _ ← skipRecord
    skipRecords n

/-- The class field of the first OPT record among the next `n` records. -/
def findOpt : Nat → Read (Option UInt16)
  | 0 => pure none
  | n + 1 => do
    let (rtype, rclass) ← skipRecord
    if rtype = Rtype.opt then pure (some rclass) else findOpt n

/-- The UDP payload size that the OPT record of the message states, if it has one. -/
def optPayloadSize (m : Message) : Except ParseError (Option UInt16) :=
  let read : Read (Option UInt16) := do
    skipQuestions m.counts.qd.toNat
    skipRecords (m.counts.an.toNat + m.counts.ns.toNat)
    findOpt m.counts.ar.toNat
  (read m.body).1

def summary (m : Message) : String :=
  "Message \x7b id: " ++ toString m.id.toNat ++ ", qr: " ++ toString m.header.qr ++
    ", tc: " ++ toString m.header.tc ++ ", rcode: Rcode(" ++ toString m.header.rcode.code.toNat ++
    "), len: " ++ toString m.octets.length ++ " \x7d"

end Message

end DnsClient
