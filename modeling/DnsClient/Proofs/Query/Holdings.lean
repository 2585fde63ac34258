import DnsClient.Proofs.Query.Account
import DnsClient.Proofs.Query.Visits

/-!
What the network holds for a query: its open sockets and their registrations.

`Holdings.account` is kept from the calls and their answers alone. It rules out work on sockets
that are not open, and registrations that do not go with those made before.
-/

namespace DnsClient

open Program

/-- A socket that is watched, under which token and what for. -/
structure Registration where
  socket : Socket
  token : QueryId
  interest : Interest
deriving DecidableEq

structure Holdings where
  sockets : List Socket := []
  registrations : List Registration := []
deriving DecidableEq

/-- The socket that a call works on. -/
def Call.socket? : Call → Option Socket
  | .connectUdp n _ | .sendUdp n _ | .recvUdp n _ => some ⟨.udp, n⟩
  | .takeError n | .peerAddress n | .writeTcp n .. | .readTcp n _ => some ⟨.tcp, n⟩
  | .register s .. | .reregister s .. | .deregister s | .close s => some s
  | _ => none

/-- Whether the call does something with a socket besides registering or closing it. -/
def Call.isWork : Call → Bool
  | .connectUdp .. | .sendUdp .. | .recvUdp .. | .takeError _ | .peerAddress _ | .writeTcp ..
  | .readTcp .. => true
  | _ => false

namespace Holdings

def isWatched (h : Holdings) (s : Socket) : Bool := h.registrations.any (·.socket = s)

def unwatch (h : Holdings) (s : Socket) : List Registration :=
  h.registrations.filter (·.socket ≠ s)

/-- Calls work on open sockets only. A socket is registered if it is not yet, and otherwise
registered anew or taken back. -/
def Allows (h : Holdings) (c : Call) : Prop :=
  (∀ s ∈ c.socket?, s ∈ h.sockets) ∧
    match c with
    | .register s .. => h.isWatched s = false
    | .reregister s .. | .deregister s => h.isWatched s = true
    | _ => True

/-- The account after an event. A call that fails changes nothing, and a registration lasts no
longer than its socket. -/
def after (h : Holdings) : Event → Holdings
  | ⟨.bindUdp _, .ok n⟩ => { h with sockets := ⟨.udp, n⟩ :: h.sockets }
  | ⟨.connectTcp _, .ok n⟩ => { h with sockets := ⟨.tcp, n⟩ :: h.sockets }
  | ⟨.register s token i, .ok _⟩ | ⟨.reregister s token i, .ok _⟩ =>
    { h with registrations := ⟨s, token, i⟩ :: h.unwatch s }
  | ⟨.deregister s, .ok _⟩ => { h with registrations := h.unwatch s }
  | ⟨.close s, _⟩ => ⟨h.sockets.erase s, h.unwatch s⟩
  | _ => h

def account : Account Holdings := ⟨Allows, after⟩

@[simp] lemma account_allows : account.allows = Allows := rfl

@[simp] lemma account_after : account.after = after := rfl

/-! ### A single socket -/

/-- Nothing but one open socket, which is not registered. -/
def opened (s : Socket) : Holdings := ⟨[s], []⟩

/-- Nothing but one open socket, and its registration. -/
def watched (s : Socket) (token : QueryId) (i : Interest) : Holdings := ⟨[s], [⟨s, token, i⟩]⟩

variable {s : Socket} {token : QueryId} {i j : Interest} {n : Nat} {h : Holdings} {c : Call}

@[simp] lemma sockets_opened : (opened s).sockets = [s] := rfl

@[simp] lemma sockets_watched : (watched s token i).sockets = [s] := rfl

@[simp] lemma isWatched_opened : (opened s).isWatched s = false := rfl

@[simp] lemma isWatched_watched : (watched s token i).isWatched s = true := by
  simp [isWatched, watched]

@[simp] lemma allows_wake : h.Allows .wake := by simp [Allows, Call.socket?]

@[simp] lemma allows_close : h.Allows (.close s) ↔ s ∈ h.sockets := by simp [Allows, Call.socket?]

@[simp] lemma allows_register :
    h.Allows (.register s token i) ↔ s ∈ h.sockets ∧ h.isWatched s = false := by
  simp [Allows, Call.socket?]

@[simp] lemma allows_reregister :
    h.Allows (.reregister s token i) ↔ s ∈ h.sockets ∧ h.isWatched s = true := by
  simp [Allows, Call.socket?]

@[simp] lemma allows_deregister :
    h.Allows (.deregister s) ↔ s ∈ h.sockets ∧ h.isWatched s = true := by
  simp [Allows, Call.socket?]

/-- Work on a socket asks for no more than that the socket is open. -/
lemma allows_of_work (hc : c.socket? = some s) (hs : s ∈ h.sockets) (hw : c.isWork = true) :
    h.Allows c := by
  refine ⟨by simpa [hc] using hs, ?_⟩
  cases c <;> simp_all [Call.isWork]

@[simp] lemma after_wake (x : Unit) : h.after ⟨.wake, x⟩ = h := rfl

@[simp] lemma after_register_ok (x : Unit) :
    (opened s).after ⟨.register s token i, .ok x⟩ = watched s token i := rfl

@[simp] lemma after_reregister_ok (x : Unit) :
    (watched s token j).after ⟨.reregister s token i, .ok x⟩ = watched s token i := by
  simp [after, watched, unwatch]

@[simp] lemma after_deregister_ok (x : Unit) :
    (watched s token i).after ⟨.deregister s, .ok x⟩ = opened s := by
  simp [after, watched, unwatch, opened]

@[simp] lemma after_close_opened (x : Unit) : (opened s).after ⟨.close s, x⟩ = {} := by
  simp [after, unwatch, opened]

@[simp] lemma after_close_watched (x : Unit) : (watched s token i).after ⟨.close s, x⟩ = {} := by
  simp [after, unwatch, watched]

end Holdings

end DnsClient
