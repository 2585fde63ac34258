import DnsClient.Query.Exchange
import Mathlib.Tactic.Common

/-!
What can be read off the trace of a query.

Calls are sorted by purpose. A trace is `Quiet` if it is nothing but upkeep, and `Late` if there
is also work on a stream, as when a query has left UDP.
-/

namespace DnsClient

open Program

/-- The shortest message, with nothing in its header. -/
def Message.blank : Message := ⟨List.replicate headerLength 0, by decide⟩

/-- What a call is for. -/
inductive Purpose where
  /-- Wake-ups, closing a socket, and the registration of streams. -/
  | upkeep
  /-- Work on a UDP socket, its registration included. -/
  | datagram
  | connect
  /-- Work on a stream. -/
  | stream
  | other
deriving DecidableEq

def Call.purpose : Call → Purpose
  | .wake | .deregister _ | .close _ => .upkeep
  | .register s _ _ | .reregister s _ _ =>
    match s.transport with
    | .udp => .datagram
    | .tcp => .upkeep
  | .bindUdp _ | .connectUdp .. | .sendUdp .. | .recvUdp .. => .datagram
  | .connectTcp _ => .connect
  | .takeError _ | .peerAddress _ | .writeTcp .. | .readTcp .. => .stream
  | .setup _ | .now | .notify .. | .reply _ => .other

/-- The servers that TCP connections are begun to. -/
def tcpTargets (t : List Event) : List SocketAddress :=
  t.filterMap fun
    | ⟨.connectTcp server, _⟩ => some server
    | _ => none

/-- The address families that UDP sockets are bound for. -/
def udpBinds (t : List Event) : List AddressFamily :=
  t.filterMap fun
    | ⟨.bindUdp f, _⟩ => some f
    | _ => none

/-- What was given to the UDP sends that succeed. -/
def udpSends (t : List Event) : List Octets :=
  t.filterMap fun
    | ⟨.sendUdp _ o, .ok _⟩ => some o
    | _ => none

/-- The datagrams that are received. -/
def datagrams (t : List Event) : List Octets :=
  t.filterMap fun
    | ⟨.recvUdp .., .ok o⟩ => some o.1
    | _ => none

/-- The streams that are read from. -/
def reads (t : List Event) : List Nat :=
  t.filterMap fun
    | ⟨.readTcp s _, _⟩ => some s
    | _ => none

/-- The octets that are read from streams. -/
def streamed (t : List Event) : Octets :=
  t.flatMap fun
    | ⟨.readTcp .., .ok o⟩ => o.1
    | _ => []

/-- The streams that are written to. -/
def writes (t : List Event) : List Nat :=
  t.filterMap fun
    | ⟨.writeTcp s .., _⟩ => some s
    | _ => none

/-- The octets that streams accept. -/
def accepted (t : List Event) : Octets :=
  t.flatMap fun
    | ⟨.writeTcp _ head tail, .ok k⟩ => (head ++ tail).take k.1
    | _ => []

/-- What is registered, under which token, what for, and with which result. -/
def Program.Event.arming? : Event → Option (Socket × QueryId × Interest × Except IoError Unit)
  | ⟨.register s token i, x⟩ | ⟨.reregister s token i, x⟩ => some (s, token, i, x)
  | _ => none

/-- Nothing but upkeep. -/
def Quiet (t : List Event) : Prop := ∀ v ∈ t, v.1.purpose = .upkeep

/-- Nothing but upkeep and work on a stream. -/
def Late (t : List Event) : Prop := ∀ v ∈ t, v.1.purpose = .upkeep ∨ v.1.purpose = .stream

/-- No work on a UDP socket. -/
def OffUdp (t : List Event) : Prop := ∀ v ∈ t, v.1.purpose ≠ .datagram

/-! ### Appending -/

section
variable (t u : List Event)

@[simp] lemma tcpTargets_append : tcpTargets (t ++ u) = tcpTargets t ++ tcpTargets u :=
  List.filterMap_append

@[simp] lemma udpBinds_append : udpBinds (t ++ u) = udpBinds t ++ udpBinds u :=
  List.filterMap_append

@[simp] lemma udpSends_append : udpSends (t ++ u) = udpSends t ++ udpSends u :=
  List.filterMap_append

@[simp] lemma datagrams_append : datagrams (t ++ u) = datagrams t ++ datagrams u :=
  List.filterMap_append

@[simp] lemma reads_append : reads (t ++ u) = reads t ++ reads u :=
  List.filterMap_append

@[simp] lemma streamed_append : streamed (t ++ u) = streamed t ++ streamed u :=
  List.flatMap_append

@[simp] lemma writes_append : writes (t ++ u) = writes t ++ writes u :=
  List.filterMap_append

@[simp] lemma accepted_append : accepted (t ++ u) = accepted t ++ accepted u :=
  List.flatMap_append

end

variable {t u : List Event} {v : Event}

@[simp] lemma quiet_nil : Quiet [] := by simp [Quiet]

lemma quiet_cons : Quiet (v :: t) ↔ v.1.purpose = .upkeep ∧ Quiet t := List.forall_mem_cons

lemma quiet_append : Quiet (t ++ u) ↔ Quiet t ∧ Quiet u := List.forall_mem_append

lemma late_cons :
    Late (v :: t) ↔ (v.1.purpose = .upkeep ∨ v.1.purpose = .stream) ∧ Late t :=
  List.forall_mem_cons

lemma Quiet.late (h : Quiet t) : Late t := fun v hv => .inl (h v hv)

lemma Late.offUdp (h : Late t) : OffUdp t := fun v hv he => by simpa [he] using h v hv

lemma offUdp_append : OffUdp (t ++ u) ↔ OffUdp t ∧ OffUdp u := List.forall_mem_append

lemma offUdp_cons : OffUdp (v :: t) ↔ v.1.purpose ≠ .datagram ∧ OffUdp t := List.forall_mem_cons

/-! ### What traces leave out -/

/-- Calls for some purposes leave nothing of what only calls for other purposes show. -/
lemma filterMap_of_purpose {α : Type} {p : Purpose → Prop} {f : Event → Option α}
    (h : ∀ v ∈ t, p v.1.purpose) (hf : ∀ c x, p (Call.purpose c) → f ⟨c, x⟩ = none) :
    t.filterMap f = [] :=
  List.filterMap_eq_nil_iff.2 fun v hv => hf v.1 v.2 (h v hv)

lemma OffUdp.udpBinds_eq (h : OffUdp t) : udpBinds t = [] :=
  filterMap_of_purpose (p := (· ≠ .datagram)) h
    fun c _ hc => by cases c <;> simp [Call.purpose] at hc ⊢

lemma OffUdp.udpSends_eq (h : OffUdp t) : udpSends t = [] :=
  filterMap_of_purpose (p := (· ≠ .datagram)) h
    fun c _ hc => by cases c <;> simp [Call.purpose] at hc ⊢

lemma OffUdp.datagrams_eq (h : OffUdp t) : datagrams t = [] :=
  filterMap_of_purpose (p := (· ≠ .datagram)) h
    fun c _ hc => by cases c <;> simp [Call.purpose] at hc ⊢

lemma Late.tcpTargets_eq (h : Late t) : tcpTargets t = [] :=
  filterMap_of_purpose (p := fun k => k = .upkeep ∨ k = .stream) h
    fun c _ hc => by cases c <;> simp [Call.purpose] at hc ⊢

lemma reads_eq_nil (h : ∀ v ∈ t, v.1.purpose = .upkeep ∨ v.1.purpose = .datagram) :
    reads t = [] :=
  filterMap_of_purpose (p := fun k => k = .upkeep ∨ k = .datagram) h
    fun c _ hc => by cases c <;> simp [Call.purpose] at hc ⊢

lemma tcpTargets_eq_nil (h : ∀ v ∈ t, v.1.purpose = .upkeep ∨ v.1.purpose = .datagram) :
    tcpTargets t = [] :=
  filterMap_of_purpose (p := fun k => k = .upkeep ∨ k = .datagram) h
    fun c _ hc => by cases c <;> simp [Call.purpose] at hc ⊢

lemma Quiet.reads_eq (h : Quiet t) : reads t = [] := reads_eq_nil fun v hv => .inl (h v hv)

lemma streamed_eq_nil (h : reads t = []) : streamed t = [] := by
  refine List.flatMap_eq_nil_iff.2 fun ⟨c, x⟩ hv => ?_
  have hc := List.filterMap_eq_nil_iff.1 h _ hv
  cases c <;> simp at hc ⊢

lemma writes_eq_nil (h : ∀ v ∈ t, v.1.purpose ≠ .stream) : writes t = [] :=
  filterMap_of_purpose (p := (· ≠ .stream)) h
    fun c _ hc => by cases c <;> simp [Call.purpose] at hc ⊢

lemma Quiet.writes_eq (h : Quiet t) : writes t = [] :=
  writes_eq_nil fun v hv hs => by simp [h v hv] at hs

lemma accepted_eq_nil (h : writes t = []) : accepted t = [] := by
  refine List.flatMap_eq_nil_iff.2 fun ⟨c, x⟩ hv => ?_
  have hc := List.filterMap_eq_nil_iff.1 h _ hv
  cases c <;> simp at hc ⊢

end DnsClient
