import DnsClient.Message

/-!
Composing messages section by section.

The sections are filled in order, and a message never grows beyond 65535 octets. Pushes change a
builder in place, so one that fails has to leave it as it was.
-/

namespace DnsClient

/-- The sections of a message in the order of appearance. -/
inductive Section where
  | question
  | answer
  | authority
  | additional
deriving DecidableEq, Repr

def Section.index : Section → Nat
  | .question => 0
  | .answer => 1
  | .authority => 2
  | .additional => 3

inductive PushError where
  | sectionOrder
  | shortBuffer
  | countOverflow
deriving DecidableEq, Repr

def PushError.message : PushError → String
  | .sectionOrder => "sections out of order"
  | .shortBuffer => "message too long"
  | .countOverflow => "counter overflow"

/-- A record to add to a message. The class is a number, since OPT records use it otherwise. -/
structure Record where
  owner : Name
  rtype : Rtype
  rclass : UInt16
  ttl : UInt32
  rdata : Octets

namespace Record

def wire (r : Record) : Octets :=
  r.owner.wire ++ Octets.ofWord16 r.rtype.code ++ Octets.ofWord16 r.rclass ++
    Octets.ofWord32 r.ttl ++ Octets.ofNat 2 r.rdata.length ++ r.rdata

/-- The OPT record that states a UDP payload size and nothing else. -/
def opt (size : UInt16) : Record := ⟨Name.root, Rtype.opt, size, 0, []⟩

end Record

structure Builder where
  header : Header := {}
  counts : Counts := {}
  body : Octets := []
  /-- The last section entered. -/
  current : Section := .question

namespace Builder

/-- What a push answers, and the builder that it leaves. -/
abbrev Pushed := Except PushError Unit × Builder

/-- The builder after a push, if it succeeded. -/
def Pushed.toExcept : Pushed → Except PushError Builder
  | (.ok (), b) => .ok b
  | (.error e, _) => .error e

/-- Moves to a section, if it is not passed yet and `n` more octets may go into the message. -/
def enter (b : Builder) (s : Section) (n : Nat) : Pushed :=
  if s.index < b.current.index then (.error .sectionOrder, b)
  else if maxMessageLength < headerLength + b.body.length + n then (.error .shortBuffer, b)
  else (.ok (), { b with current := s })

/-- One more than a count, unless that leaves its range. -/
def bump (n : UInt16) : Except PushError UInt16 :=
  if n = 0xFFFF then .error .countOverflow else .ok (n + 1)

def recordCount (b : Builder) : Section → UInt16
  | .question => b.counts.qd
  | .answer => b.counts.an
  | .authority => b.counts.ns
  | .additional => b.counts.ar

def countUpdate (n : UInt16) : Section → Counts.Update
  | .question => .qd n
  | .answer => .an n
  | .authority => .ns n
  | .additional => .ar n

/-- Adds the `n` octets of one more entry to a section. -/
def add (b : Builder) (s : Section) (n : Nat) (o : Octets) : Pushed :=
  match b.enter s n with
  | (.error e, b) => (.error e, b)
  | (.ok (), b) =>
    -- The section has been entered by now, whatever becomes of the count.
    match bump (b.recordCount s) with
    | .error e => (.error e, b)
    | .ok count =>
      (.ok (), { b with counts := b.counts.set (countUpdate count s), body := b.body ++ o })

def pushQuestion (b : Builder) (q : Question) : Pushed := b.add .question q.length q.wire

def pushRecord (b : Builder) (s : Section) (r : Record) : Pushed :=
  if maxMessageLength < r.rdata.length then (.error .shortBuffer, b)
  else b.add s (r.owner.length + 10 + r.rdata.length) r.wire

def pushAnswer (b : Builder) (r : Record) : Pushed := b.pushRecord .answer r

def pushAuthority (b : Builder) (r : Record) : Pushed := b.pushRecord .authority r

def pushAdditional (b : Builder) (r : Record) : Pushed := b.pushRecord .additional r

/-- Adds an OPT record that states a UDP payload size. -/
def pushOpt (b : Builder) (size : UInt16) : Pushed := b.pushRecord .additional (.opt size)

def message (b : Builder) : Message :=
  ⟨b.header.wire ++ b.counts.wire ++ b.body, by simp [headerLength]; omega⟩

/-! ### Steps -/

inductive Step where
  | set (u : Header.Update)
  /-- Replaces the whole header. -/
  | header (h : Header)
  | question (q : Question)
  | answer (r : Record)
  | authority (r : Record)
  | additional (r : Record)
  | opt (size : UInt16)

/-- Makes a step in place. -/
def apply (b : Builder) : Step → Pushed
  | .set u => (.ok (), { b with header := b.header.set u })
  | .header h => (.ok (), { b with header := h })
  | .question q => b.pushQuestion q
  | .answer r => b.pushAnswer r
  | .authority r => b.pushAuthority r
  | .additional r => b.pushAdditional r
  | .opt size => b.pushOpt size

/-- The builder after a step that succeeds. -/
def attempt (b : Builder) (s : Step) : Except PushError Builder := (b.apply s).toExcept

/-- The builder that a step leaves, whether it succeeds or not. -/
def step (b : Builder) (s : Step) : Builder := (b.apply s).2

def run (b : Builder) (ss : List Step) : Builder := ss.foldl step b

@[simp] theorem run_nil (b : Builder) : run b [] = b := rfl
@[simp] theorem run_cons (b : Builder) (s : Step) (ss : List Step) :
    run b (s :: ss) = run (step b s) ss := rfl
theorem run_append (b : Builder) (ss ts : List Step) :
    run b (ss ++ ts) = run (run b ss) ts := by
  simp [run, List.foldl_append]

end Builder

end DnsClient
