import DnsClient.Engine.Basic

/-!
Programs that call on the network, the clock and whoever waits for a query.

A program is a tree: it ends in a value, or makes a call and goes on as the answer has it. Nothing
is assumed of the answers beyond their type, which says what a call can answer at all: a read
yields no more than its buffer holds, a write accepts no more than it is given. `Program.run` has
a handler answer the calls, and `Program.Yields` is the relation between a program, the calls with
their answers, and the value, over all answers.
-/

namespace DnsClient

/-- The parts of the readiness facility that are set up one after the other. -/
inductive SetupPart where
  | poll
  | registry
  | waker
deriving DecidableEq, Repr

/-- What an engine tells whoever made a request. -/
inductive Reply where
  | submitted (handle : Nat)
  | refused (e : QueryError)
  | cancelled (handle : Nat) (b : Bool)
  | pending (n : Nat)
  | shutdown (b : Bool)

inductive Call where
  | setup (part : SetupPart)
  | now
  /-- Open a UDP socket of a family of addresses, at any address and port. -/
  | bindUdp (family : AddressFamily)
  | connectUdp (socket : Nat) (server : SocketAddress)
  | sendUdp (socket : Nat) (o : Octets)
  | recvUdp (socket : Nat) (size : Nat)
  /-- Open a TCP socket and begin to connect it. -/
  | connectTcp (server : SocketAddress)
  /-- Ask for an error that occurred on the socket meanwhile. -/
  | takeError (socket : Nat)
  | peerAddress (socket : Nat)
  | writeTcp (socket : Nat) (head tail : Octets)
  | readTcp (socket : Nat) (size : Nat)
  | close (socket : Socket)
  | register (socket : Socket) (token : QueryId) (interest : Interest)
  | reregister (socket : Socket) (token : QueryId) (interest : Interest)
  | deregister (socket : Socket)
  /-- Make the current or the next wait for readiness end. -/
  | wake
  /-- Run a continuation with the outcome, while the engine is in the given state. -/
  | notify (k : Continuation) (o : Outcome) (engine : Engine)
  | reply (r : Reply)

abbrev Call.Answer : Call → Type
  | .setup _ => Except IoError Unit
  | .now => Instant
  | .bindUdp _ => Except IoError Nat
  | .connectUdp .. => Except IoError Unit
  | .sendUdp _ o => Except IoError { n : Nat // n ≤ o.length }
  | .recvUdp _ size => Except IoError { o : Octets // o.length ≤ size }
  | .connectTcp _ => Except IoError Nat
  | .takeError _ => Except IoError (Option IoError)
  | .peerAddress _ => Except IoError Unit
  | .writeTcp _ head tail => Except IoError { n : Nat // n ≤ head.length + tail.length }
  | .readTcp _ size => Except IoError { o : Octets // o.length ≤ size }
  | .close _ => Unit
  | .register .. => Except IoError Unit
  | .reregister .. => Except IoError Unit
  | .deregister _ => Except IoError Unit
  | .wake => Unit
  | .notify .. => Unit
  | .reply _ => Unit

inductive Program (α : Type) where
  | pure (a : α)
  | call (c : Call) (k : c.Answer → Program α)

namespace Program

variable {α β γ : Type}

def bind : Program α → (α → Program β) → Program β
  | .pure a, f => f a
  | .call c k, f => .call c fun x => (k x).bind f

instance : Monad Program where
  pure := .pure
  bind := bind

@[simp] theorem pure_eq (a : α) : (Pure.pure a : Program α) = .pure a := rfl
@[simp] theorem pure_bind' (a : α) (f : α → Program β) : (Program.pure a >>= f) = f a := rfl
@[simp] theorem call_bind (c : Call) (k : c.Answer → Program α) (f : α → Program β) :
    (Program.call c k >>= f) = .call c fun x => k x >>= f := rfl

theorem bind_pure' (p : Program α) : p >>= Program.pure = p := by
  induction p with
  | pure a => rfl
  | call c k ih => simp [ih]

theorem bind_assoc' (p : Program α) (f : α → Program β) (g : β → Program γ) :
    p >>= f >>= g = p >>= fun a => f a >>= g := by
  induction p with
  | pure a => rfl
  | call c k ih => simp [ih]

instance : LawfulMonad Program := .mk' _ bind_pure' (fun _ _ => rfl) bind_assoc'

/-- Runs a program with a handler that answers its calls. -/
def run {σ : Type} (handle : (c : Call) → σ → c.Answer × σ) : Program α → σ → α × σ
  | .pure a, s => (a, s)
  | .call c k, s =>
    let r := handle c s
    (k r.1).run handle r.2

abbrev Event := (c : Call) × c.Answer

/-- The program may end in the value after these calls with these answers. -/
inductive Yields : Program α → List Event → α → Prop where
  | pure (a : α) : Yields (.pure a) [] a
  | call {c : Call} {k : c.Answer → Program α} (x : c.Answer) {t : List Event} {a : α}
      (h : Yields (k x) t a) : Yields (.call c k) (⟨c, x⟩ :: t) a

@[simp] theorem yields_pure {a b : α} {t : List Event} :
    Yields (.pure a) t b ↔ t = [] ∧ b = a := by
  constructor
  · rintro ⟨⟩; exact ⟨rfl, rfl⟩
  · rintro ⟨rfl, rfl⟩; exact .pure _

theorem yields_bind {p : Program α} {f : α → Program β} {t : List Event} {b : β} :
    Yields (p >>= f) t b ↔ ∃ u a v, Yields p u a ∧ Yields (f a) v b ∧ t = u ++ v := by
  induction p generalizing t with
  | pure a =>
    constructor
    · intro h; exact ⟨[], a, t, .pure a, h, rfl⟩
    · rintro ⟨u, a', v, h, h', rfl⟩
      obtain ⟨rfl, rfl⟩ := yields_pure.1 h
      exact h'
  | call c k ih =>
    constructor
    · rintro (_ | ⟨x, h⟩)
      obtain ⟨u, a, v, h1, h2, rfl⟩ := (ih x).1 h
      exact ⟨_, a, v, .call x h1, h2, rfl⟩
    · rintro ⟨_, a, v, _ | ⟨x, h⟩, h', rfl⟩
      exact .call x ((ih x).2 ⟨_, a, v, h, h', rfl⟩)

/-- A program may go on differently only where the values it ends in are the same. -/
theorem bind_congr {p : Program α} {f g : α → Program β}
    (h : ∀ t a, Yields p t a → f a = g a) : p >>= f = p >>= g := by
  induction p with
  | pure a => exact h [] a (.pure a)
  | call c k ih =>
    rw [call_bind, call_bind]
    congr 1
    funext x
    exact ih x fun t a ht => h _ a (.call x ht)

/-! ### Calls as programs -/

def perform (c : Call) : Program c.Answer := .call c .pure

theorem yields_perform {c : Call} {t : List Event} {x : c.Answer} :
    Yields (perform c) t x ↔ t = [⟨c, x⟩] := by
  constructor
  · rintro (_ | ⟨x, ⟨⟩⟩); rfl
  · rintro rfl; exact .call x (.pure x)

theorem yields_perform_bind {c : Call} {f : c.Answer → Program α} {t : List Event} {a : α} :
    Yields (perform c >>= f) t a ↔ ∃ x u, t = ⟨c, x⟩ :: u ∧ Yields (f x) u a := by
  constructor
  · rintro (_ | ⟨x, h⟩); exact ⟨x, _, rfl, h⟩
  · rintro ⟨x, u, rfl, h⟩; exact .call x h

def setup (part : SetupPart) : Program (Except IoError Unit) := perform (.setup part)
def now : Program Instant := perform .now
def bindUdp (f : AddressFamily) : Program (Except IoError Nat) := perform (.bindUdp f)

def connectUdp (s : Nat) (server : SocketAddress) : Program (Except IoError Unit) :=
  perform (.connectUdp s server)

def sendUdp (s : Nat) (o : Octets) : Program (Except IoError { n : Nat // n ≤ o.length }) :=
  perform (.sendUdp s o)

def recvUdp (s size : Nat) : Program (Except IoError { o : Octets // o.length ≤ size }) :=
  perform (.recvUdp s size)

def connectTcp (server : SocketAddress) : Program (Except IoError Nat) :=
  perform (.connectTcp server)

def takeError (s : Nat) : Program (Except IoError (Option IoError)) := perform (.takeError s)

def peerAddress (s : Nat) : Program (Except IoError Unit) := perform (.peerAddress s)

def writeTcp (s : Nat) (head tail : Octets) :
    Program (Except IoError { n : Nat // n ≤ head.length + tail.length }) :=
  perform (.writeTcp s head tail)

def readTcp (s size : Nat) : Program (Except IoError { o : Octets // o.length ≤ size }) :=
  perform (.readTcp s size)

def close (s : Socket) : Program Unit := perform (.close s)

def wake : Program Unit := perform .wake

def notify (k : Continuation) (o : Outcome) (e : Engine) : Program Unit :=
  perform (.notify k o e)

def reply (r : Reply) : Program Unit := perform (.reply r)

/-- Registers a socket. A wait that goes on meanwhile is made to end, so that it takes notice. -/
def register (s : Socket) (token : QueryId) (i : Interest) : Program (Except IoError Unit) := do
  wake
  perform (.register s token i)

/-- Registers a socket anew, for another interest or for the same once more. -/
def reregister (s : Socket) (token : QueryId) (i : Interest) : Program (Except IoError Unit) := do
  wake
  perform (.reregister s token i)

def deregister (s : Socket) : Program (Except IoError Unit) := do
  wake
  perform (.deregister s)

end Program

end DnsClient
