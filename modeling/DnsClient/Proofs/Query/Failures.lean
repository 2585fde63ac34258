import DnsClient.Proofs.Query.Account
import DnsClient.Proofs.Query.ReplyFrame

/-!
What the error of a query is made of.

`Failures.account` takes down what goes wrong with the calls of a query, on each transport, from
the answers alone. A query goes on over TCP with at most one failure behind it, and ends with the
first failure there (`Query.Recorded`, `Query.Reports`). So the error it reports is the failure over
TCP, alone or behind the one that ended UDP.
-/

namespace DnsClient

open Program

/-- The error can be what ends the UDP attempt of a query. -/
def QueryError.mayEndUdp : QueryError → Bool
  | .udpBind _ | .udpConnect _ | .udpSend _ | .udpShortSend | .udpReceive _ | .wrongReply
  | .register _ => true
  | _ => false

/-- The error can be what ends a query over TCP. -/
def QueryError.mayEndTcp : QueryError → Bool
  | .tcpConnect _ | .streamWrite _ | .streamRead _ | .streamEnd | .shortMessage | .wrongReply
  | .register _ => true
  | _ => false

/-- What has gone wrong for a query, and what it has been sent over TCP. -/
structure Failures where
  udp : List QueryError := []
  /-- A reply was cut short, which ends the UDP attempt without an error. -/
  truncated : Bool := false
  tcp : List QueryError := []
  received : Octets := []

namespace Failures

def onUdp (f : Failures) (e : QueryError) : Failures := { f with udp := f.udp ++ [e] }

def onTcp (f : Failures) (e : QueryError) : Failures := { f with tcp := f.tcp ++ [e] }

/-- A socket could not be registered. -/
def onRegister (f : Failures) (s : Socket) (e : IoError) : Failures :=
  match s.transport with
  | .udp => f.onUdp (.register e)
  | .tcp => f.onTcp (.register e)

/-- A datagram came. -/
def onDatagram (f : Failures) (request : Message) (o : Octets) : Failures :=
  match Message.ofOctets? o with
  | none => f.onUdp .wrongReply
  | some m =>
    if m.id ≠ request.id then f.onUdp .wrongReply
    else if m.isTruncated then { f with truncated := true }
    else f

/-- Octets came from the stream, and may have made the reply complete. -/
def onRead (f : Failures) (request : Message) (o : Octets) : Failures :=
  let f := { f with received := f.received ++ o }
  if o = [] then f.onTcp .streamEnd
  else if f.received.length < frameEnd f.received then f
  else
    match Message.ofOctets? (frameBody f.received) with
    | none => f.onTcp .shortMessage
    | some m => if m.id ≠ request.id then f.onTcp .wrongReply else f

def after (request : Message) (f : Failures) : Event → Failures
  | ⟨.bindUdp _, .error e⟩ => f.onUdp (.udpBind e)
  | ⟨.connectUdp .., .error e⟩ => f.onUdp (.udpConnect e)
  | ⟨.register s .., .error e⟩ | ⟨.reregister s .., .error e⟩ => f.onRegister s e
  | ⟨.sendUdp _ o, .ok k⟩ => if k.1 = o.length then f else f.onUdp .udpShortSend
  | ⟨.sendUdp .., .error e⟩ => if e.isRetry then f else f.onUdp (.udpSend e)
  | ⟨.recvUdp .., .ok o⟩ => f.onDatagram request o.1
  | ⟨.recvUdp .., .error e⟩ => if e.isRetry then f else f.onUdp (.udpReceive e)
  | ⟨.connectTcp _, .error e⟩ | ⟨.takeError _, .error e⟩ | ⟨.takeError _, .ok (some e)⟩ =>
    f.onTcp (.tcpConnect e)
  | ⟨.peerAddress _, .error e⟩ =>
    if e.kind = .notConnected ∨ e.isRetry then f else f.onTcp (.tcpConnect e)
  | ⟨.peerAddress _, .ok _⟩ =>
    if maxMessageLength < request.octets.length then f.onTcp (.streamWrite .requestTooLong) else f
  | ⟨.writeTcp .., .ok k⟩ => if k.1 = 0 then f.onTcp (.streamWrite .writeZero) else f
  | ⟨.writeTcp .., .error e⟩ => if e.isRetry then f else f.onTcp (.streamWrite e)
  | ⟨.readTcp .., .ok o⟩ => f.onRead request o.1
  | ⟨.readTcp .., .error e⟩ => if e.isRetry then f else f.onTcp (.streamRead e)
  | _ => f

/-- The failures of a query with this request. No call is ruled out. -/
def account (request : Message) : Account Failures := ⟨fun _ _ => True, after request⟩

/-- Why a query with these parameters is not on UDP: it never was, or it had a reply that was cut
short, and nothing went wrong; or one thing went wrong over UDP. -/
def LeftUdp (params : QueryParams) (f : Failures) : Prop :=
  (params.mode = .tcpOnly ∨ f.truncated = true) ∧ f.udp = [] ∨
    (params.mode = .preferUdp ∧ f.truncated = false) ∧ ∃ e, e.mayEndUdp ∧ f.udp = [e]

/-- A query has turned to TCP with these errors on record, and nothing went wrong there yet. -/
structure Turned (params : QueryParams) (errors : List QueryError) (f : Failures) : Prop where
  left : f.LeftUdp params
  errors : errors = f.udp
  tcp : f.tcp = []

lemma Turned.receive {params : QueryParams} {errors : List QueryError} {f : Failures}
    (h : f.Turned params errors) (o : Octets) : Turned params errors { f with received := o } :=
  ⟨h.left, h.errors, h.tcp⟩

variable {request : Message} {f : Failures} {o body : Octets} {reader : StreamReader}

/-- A read that leaves the reader in want of more is no failure. -/
lemma onRead_holds (ho : o ≠ []) (h : reader.Holds (f.received ++ o)) :
    f.onRead request o = { f with received := f.received ++ o } := by
  simp only [onRead]
  rw [if_neg ho, if_pos (h.length_lt List.prefix_rfl)]

/-- A read that makes the message complete has it judged. -/
lemma onRead_framed (ho : o ≠ []) (h : Framed (f.received ++ o) body) :
    f.onRead request o =
      match Message.ofOctets? body with
      | none => onTcp { f with received := f.received ++ o } .shortMessage
      | some m =>
        if m.id ≠ request.id then onTcp { f with received := f.received ++ o } .wrongReply
        else { f with received := f.received ++ o } := by
  obtain ⟨hl, rfl⟩ := h.of_isPrefix List.prefix_rfl
  simp only [onRead]
  rw [if_neg ho, if_neg (Nat.not_lt.2 (Nat.le_of_eq hl.symm))]

end Failures

namespace Query

variable {q : Query} {f : Failures} {r : Step × Query} {i : Interest} {s : Socket} {n : Nat}
  {e : QueryError} {p : Phase}

/-- What has gone wrong up to a phase, and what the query has on record of it. -/
def Recorded (q : Query) (f : Failures) : Prop :=
  match q.phase with
  | .idle => f = {} ∧ q.errors = []
  | .udpWrite _ | .udpRead _ => f = {} ∧ q.errors = [] ∧ q.params.mode = .preferUdp
  | .tcpConnect _ => f.Turned q.params q.errors ∧ f.received = []
  | .tcpWrite .. =>
    f.Turned q.params q.errors ∧ f.received = [] ∧ q.request.octets.length ≤ maxMessageLength
  | .tcpRead _ reader => f.Turned q.params q.errors ∧ reader.Holds f.received
  | .closed => True

/-- What a call tells of the failures. -/
def Reports (params : QueryParams) (r : Step × Query) (f : Failures) : Prop :=
  match r.1 with
  | .pending => r.2.Recorded f
  | .done (.ok _) => True
  | .done (.error x) =>
    ∃ e, e.mayEndTcp ∧ f.tcp = [e] ∧ f.LeftUdp params ∧
      x = (QueryError.bundle? (f.udp ++ [e])).getD e

/-- However its calls are answered, the program reports the failures on the network. -/
def Logs (q : Query) (p : Program (Step × Query)) (f : Failures) : Prop :=
  p.Ensures (Failures.account q.request) f (Reports q.params)

lemma Recorded.tcp (hq : q.Recorded f) (hp : q.phase ≠ .closed) : f.tcp = [] := by
  unfold Recorded at hq
  split at hq
  case h_7 hc => exact absurd hc hp
  case h_1 => rw [hq.1]
  case h_2 | h_3 => rw [hq.1]
  case h_4 | h_5 | h_6 => exact hq.1.tcp

/-! ### Giving up a socket, and registering one -/

lemma failures_release {m : Message} :
    q.release.Ensures (Failures.account m) f fun _ f' => f' = f := by
  unfold release
  split
  · rfl
  · split_ifs
    · refine ensures_bind.2 (ensures_perform_bind.2 ⟨trivial, fun _ => ensures_perform.2 ?_⟩)
      exact ⟨trivial, fun _ => ensures_perform.2 ⟨trivial, fun _ => rfl⟩⟩
    · exact ensures_perform.2 ⟨trivial, fun _ => rfl⟩

lemma failures_abandon {m : Message} :
    q.abandon.Ensures (Failures.account m) f fun c f' => c = q.close ∧ f' = f :=
  ensures_bind.2 (failures_release.mono fun _ _ h => ⟨rfl, h⟩)

lemma logs_succeed {m : Message} : q.Logs (q.succeed m) f := by
  refine ensures_bind.2 (failures_abandon.mono ?_)
  rintro _ _ ⟨rfl, rfl⟩
  exact trivial

/-- A query that fails over TCP reports that failure, behind the one on record. -/
lemma logs_fail (hq : f.Turned q.params q.errors) (he : e.mayEndTcp) :
    q.Logs (q.fail e) (f.onTcp e) := by
  refine ensures_bind.2 (failures_abandon.mono ?_)
  rintro _ _ ⟨rfl, rfl⟩
  have hf : (f.onTcp e).tcp = [e] := by rw [Failures.onTcp, hq.tcp, List.nil_append]
  refine ⟨e, he, hf, hq.left, ?_⟩
  rw [hq.errors]
  rfl

lemma failures_arm {m : Message} (hs : q.phase.socket? = some s) :
    (q.arm i).Ensures (Failures.account m) f fun x f' =>
      match x with
      | .ok q' => q' = { q with registered := true } ∧ f' = f
      | .error e => ∃ x, e = .register x ∧ f' = f.onRegister s x := by
  simp only [arm, hs]
  split_ifs
  all_goals
    refine ensures_bind.2 (ensures_perform_bind.2 ⟨trivial, fun _ => ensures_perform.2 ?_⟩)
    refine ⟨trivial, fun x => ?_⟩
    cases x with
    | ok _ => exact ⟨rfl, rfl⟩
    | error e => exact ⟨e, rfl, rfl⟩

/-! ### TCP -/

lemma logs_armTcp (hs : q.phase.socket? = some ⟨.tcp, n⟩) (hq : q.Recorded f)
    (ht : f.Turned q.params q.errors) : q.Logs (q.armTcp i) f := by
  refine ensures_bind.2 ((failures_arm hs).mono ?_)
  rintro (e | q') f' hx
  · obtain ⟨x, rfl, rfl⟩ := hx
    exact logs_fail ht rfl
  · obtain ⟨rfl, rfl⟩ := hx
    exact (hq : Recorded { q with registered := true } f')

lemma logs_tcpConnect (hq : f.Turned q.params q.errors) (hr : f.received = []) :
    q.Logs q.tcpConnect f := by
  refine ensures_bind.2 (failures_abandon.mono ?_)
  rintro _ f' ⟨rfl, rfl⟩
  refine ensures_perform_bind.2 ⟨trivial, fun x => ?_⟩
  cases x with
  | error e => exact logs_fail (q := q.close) hq rfl
  | ok n => exact logs_armTcp (q := { q.close with phase := .tcpConnect n }) rfl ⟨hq, hr⟩ hq

lemma logs_tcpWrite {w : Nat} (hp : q.phase = .tcpWrite n w) (hq : q.Recorded f) :
    q.Logs (q.tcpWrite n w) f := by
  have hs : q.phase.socket? = some ⟨.tcp, n⟩ := by rw [hp]; rfl
  obtain ⟨ht, hr, hl⟩ : _ ∧ _ ∧ _ := by simpa only [Recorded, hp] using hq
  have hh : StreamReader.start.Holds f.received := by
    rw [hr]
    exact StreamReader.holds_start
  unfold tcpWrite
  rw [if_neg (Nat.not_lt.2 hl)]
  refine ensures_perform_bind.2 ⟨trivial, fun x => ?_⟩
  match x with
  | .ok ⟨0, _⟩ => exact logs_fail ht rfl
  | .ok ⟨k + 1, _⟩ =>
    simp only
    split_ifs
    · exact logs_armTcp (q := { q with phase := .tcpWrite n _ }) rfl ⟨ht, hr, hl⟩ ht
    · exact logs_armTcp (q := { q with phase := .tcpRead n .start }) rfl ⟨ht, hh⟩ ht
  | .error e =>
    simp only [Failures.account, Failures.after]
    split_ifs
    · exact logs_armTcp hs hq ht
    · exact logs_fail ht rfl

/-- A query that has connected finds out at once if its request is too long for a stream. -/
lemma logs_tcpConnected (hp : q.phase = .tcpConnect n) (hq : q.Recorded f) :
    q.Logs (q.tcpConnected n) f := by
  have hs : q.phase.socket? = some ⟨.tcp, n⟩ := by rw [hp]; rfl
  obtain ⟨ht, hr⟩ : _ ∧ _ := by simpa only [Recorded, hp] using hq
  refine ensures_perform_bind.2 ⟨trivial, fun x => ?_⟩
  match x with
  | .error e | .ok (some e) => exact logs_fail ht rfl
  | .ok none =>
    refine ensures_perform_bind.2 ⟨trivial, fun y => ?_⟩
    cases y with
    | ok _ =>
      simp only [Failures.account, Failures.after]
      split_ifs with hl
      · simp only [tcpWrite, hl, if_true]
        exact logs_fail (q := { q with phase := .tcpWrite n 0 }) ht rfl
      · exact logs_tcpWrite (q := { q with phase := .tcpWrite n 0 }) rfl ⟨ht, hr, Nat.not_lt.1 hl⟩
    | error e =>
      simp only [Failures.account, Failures.after]
      split_ifs
      · exact logs_armTcp hs hq ht
      · exact logs_fail ht rfl

lemma logs_tcpRead {reader : StreamReader} (hp : q.phase = .tcpRead n reader)
    (hq : q.Recorded f) : q.Logs (q.tcpRead n reader) f := by
  have hs : q.phase.socket? = some ⟨.tcp, n⟩ := by rw [hp]; rfl
  obtain ⟨ht, hh⟩ : _ ∧ _ := by simpa only [Recorded, hp] using hq
  refine ensures_perform_bind.2 ⟨trivial, fun x => ?_⟩
  match x with
  | .ok ⟨[], _⟩ => exact logs_fail (ht.receive _) rfl
  | .ok ⟨a :: o, ho⟩ =>
    have ha := hh.advance ho
    simp only [Failures.account, Failures.after]
    cases hb : reader.advance (a :: o) with
    | inl body =>
      rw [hb] at ha
      rw [Failures.onRead_framed (List.cons_ne_nil a o) ha]
      simp only [tcpReply, ne_eq]
      cases hm : Message.ofOctets? body with
      | none => exact logs_fail (ht.receive _) rfl
      | some m =>
        simp only [ite_not]
        split_ifs
        · exact logs_succeed
        · exact logs_fail (ht.receive _) rfl
    | inr reader' =>
      rw [hb] at ha
      rw [Failures.onRead_holds (List.cons_ne_nil a o) ha]
      exact logs_armTcp (q := { q with phase := .tcpRead n reader' }) rfl ⟨ht.receive _, ha⟩
        (ht.receive _)
  | .error e =>
    simp only [Failures.account, Failures.after]
    split_ifs
    · exact logs_armTcp hs hq ht
    · exact logs_fail ht rfl

/-! ### UDP -/

/-- A query that leaves UDP has nothing on record but what it leaves for. -/
lemma logs_fallback {e : Option QueryError} (he : q.errors = []) (hf : f.Turned q.params e.toList)
    (hr : f.received = []) : q.Logs (q.fallback e) f := by
  have hf' : f.Turned q.params (q.errors ++ e.toList) := by rwa [he]
  exact logs_tcpConnect (q := { q with errors := q.errors ++ e.toList }) hf' hr

lemma logs_fallback_error (he : q.errors = []) (hm : q.params.mode = .preferUdp)
    (hu : e.mayEndUdp) : q.Logs (q.fallback (some e)) (Failures.onUdp {} e) :=
  logs_fallback he ⟨.inr ⟨⟨hm, rfl⟩, e, hu, rfl⟩, rfl, rfl⟩ rfl

lemma logs_armUdp (hs : q.phase.socket? = some ⟨.udp, n⟩) (hq : q.Recorded {})
    (he : q.errors = []) (hm : q.params.mode = .preferUdp) : q.Logs (q.armUdp i) {} := by
  refine ensures_bind.2 ((failures_arm hs).mono ?_)
  rintro (e | q') f' hx
  · obtain ⟨x, rfl, rfl⟩ := hx
    exact logs_fallback_error he hm rfl
  · obtain ⟨rfl, rfl⟩ := hx
    exact (hq : Recorded { q with registered := true } {})

lemma logs_udpConnect (he : q.errors = []) (hm : q.params.mode = .preferUdp) :
    q.Logs q.udpConnect {} := by
  refine ensures_perform_bind.2 ⟨trivial, fun x => ?_⟩
  cases x with
  | error e => exact logs_fallback_error he hm rfl
  | ok n =>
    refine ensures_perform_bind.2 ⟨trivial, fun y => ?_⟩
    cases y with
    | error e =>
      exact ensures_perform_bind.2 ⟨trivial, fun _ => logs_fallback_error he hm rfl⟩
    | ok _ => exact logs_armUdp (q := { q with phase := .udpWrite n }) rfl ⟨rfl, he, hm⟩ he hm

lemma logs_udpWrite (hp : q.phase = .udpWrite n) (he : q.errors = [])
    (hm : q.params.mode = .preferUdp) : q.Logs (q.udpWrite n) {} := by
  have hs : q.phase.socket? = some ⟨.udp, n⟩ := by rw [hp]; rfl
  have hq : q.Recorded {} := by simp [Recorded, hp, he, hm]
  refine ensures_perform_bind.2 ⟨trivial, fun x => ?_⟩
  cases x with
  | ok k =>
    simp only [Failures.account, Failures.after]
    split_ifs
    · exact logs_armUdp (q := { q with phase := .udpRead n }) rfl ⟨rfl, he, hm⟩ he hm
    · exact logs_fallback_error he hm rfl
  | error e =>
    simp only [Failures.account, Failures.after]
    split_ifs
    · exact logs_armUdp hs hq he hm
    · exact logs_fallback_error he hm rfl

lemma logs_udpRead (hp : q.phase = .udpRead n) (he : q.errors = [])
    (hm : q.params.mode = .preferUdp) : q.Logs (q.udpRead n) {} := by
  have hs : q.phase.socket? = some ⟨.udp, n⟩ := by rw [hp]; rfl
  have hq : q.Recorded {} := by simp [Recorded, hp, he, hm]
  refine ensures_perform_bind.2 ⟨trivial, fun x => ?_⟩
  cases x with
  | ok o =>
    simp only [Failures.account, Failures.after, Failures.onDatagram, udpReply]
    cases Message.ofOctets? o.1 with
    | none => exact logs_fallback_error he hm rfl
    | some m =>
      simp only
      split_ifs
      · exact logs_fallback_error he hm rfl
      · exact logs_fallback (e := none) he ⟨.inl ⟨.inr rfl, rfl⟩, rfl, rfl⟩ rfl
      · exact logs_succeed
  | error e =>
    simp only [Failures.account, Failures.after]
    split_ifs
    · exact logs_armUdp hs hq he hm
    · exact logs_fallback_error he hm rfl

/-! ### Calls -/

lemma logs_act (a : Action) (hq : q.Recorded f) : q.Logs (q.act a) f := by
  cases a with
  | start =>
    simp only [act, start]
    split
    · next hp =>
      obtain ⟨rfl, he⟩ : _ ∧ _ := by simpa only [Recorded, hp] using hq
      split
      · next hm => exact logs_udpConnect he hm
      · next hm => exact logs_tcpConnect ⟨.inl ⟨.inl hm, rfl⟩, he, rfl⟩ rfl
    · exact hq
  | ready =>
    simp only [act, ready]
    split
    case h_1 | h_2 => exact hq
    case h_3 hp =>
      obtain ⟨rfl, he, hm⟩ : _ ∧ _ ∧ _ := by simpa only [Recorded, hp] using hq
      exact logs_udpWrite hp he hm
    case h_4 hp =>
      obtain ⟨rfl, he, hm⟩ : _ ∧ _ ∧ _ := by simpa only [Recorded, hp] using hq
      exact logs_udpRead hp he hm
    case h_5 hp => exact logs_tcpConnected hp hq
    case h_6 hp => exact logs_tcpWrite hp hq
    case h_7 hp => exact logs_tcpRead hp hq
  | abandon =>
    refine ensures_bind.2 (failures_abandon.mono ?_)
    rintro _ _ ⟨rfl, rfl⟩
    exact trivial

/-- A run keeps the record, and stays closed once it is. -/
lemma Visits.recorded {q' : Query} {vs : List Visit} (h : Visits q vs q') (hq : q.Recorded f) :
    q'.Recorded ((Failures.account q.request).afterAll f (eventsOf vs)) := by
  induction h generalizing f with
  | nil q => exact hq
  | @cons q q₁ q₂ a t s vs h hs ih =>
    have hm := (move_of_act h).leads
    obtain ⟨-, hr⟩ := (logs_act a hq).yields h
    rw [eventsOf_cons, Account.afterAll_append, ← hm.same.request]
    refine ih ?_
    rw [hm.same.request]
    cases s with
    | pending => exact hr
    | done x =>
      have hc : q₁.phase = .closed := (hm.closed x rfl).1
      simp only [Recorded, hc]

end Query

/-- What makes up an error: a failure over TCP alone, where nothing went wrong over UDP; or behind
the failure that ended UDP. -/
inductive Composed (params : QueryParams) (f : Failures) : QueryError → Prop where
  | single {t : QueryError} (ht : t.mayEndTcp) (hf : f.tcp = [t]) (hu : f.udp = [])
      (h : params.mode = .tcpOnly ∨ f.truncated = true) : Composed params f t
  | both {u t : QueryError} (hu : u.mayEndUdp) (ht : t.mayEndTcp) (hf : f.udp = [u])
      (hf' : f.tcp = [t]) (h : params.mode = .preferUdp ∧ f.truncated = false) :
      Composed params f (.multiple [u, t])

lemma Query.Reports.composed {params : QueryParams} {f : Failures} {x : QueryError} {q : Query}
    (h : Query.Reports params (.done (.error x), q) f) : Composed params f x := by
  obtain ⟨t, ht, hf, ⟨hw, hu⟩ | ⟨hw, u, he, hu⟩, rfl⟩ := h
  · rw [hu]
    exact .single ht hf hu hw
  · rw [hu]
    exact .both he ht hu hf hw

lemma Composed.multiple_iff {params : QueryParams} {f : Failures} {x : QueryError}
    (h : Composed params f x) :
    (∃ es, x = .multiple es) ↔ params.mode = .preferUdp ∧ f.truncated = false := by
  cases h with
  | single ht _ _ h =>
    constructor
    · rintro ⟨es, rfl⟩
      cases ht
    · rintro ⟨hm, hf⟩
      simp [hm, hf] at h
  | both _ _ _ _ h => exact ⟨fun _ => h, fun _ => ⟨_, rfl⟩⟩

/-- **The composition of errors**: whatever the calls on a query and their results, a call that
reports an error made the first failure over TCP, and the error is that failure, alone or behind the
one that ended UDP; it is behind one if and only if UDP was tried and no reply was cut short. -/
theorem error_composition {id : QueryId} {request : Message} {params : QueryParams}
    {vs ws ws' : List Query.Visit} {v : Query.Visit} {q : Query} {x : QueryError}
    (h : Query.Visits { id, request, params } vs q) (hv : vs = ws ++ v :: ws')
    (hx : v.step = .done (.error x)) :
    ((Failures.account request).afterAll {} (Query.eventsOf ws)).tcp = [] ∧
      Composed params ((Failures.account request).afterAll {} (Query.eventsOf (ws ++ [v]))) x ∧
      ((∃ es, x = .multiple es) ↔ params.mode = .preferUdp ∧
        ((Failures.account request).afterAll {} (Query.eventsOf (ws ++ [v]))).truncated = false) := by
  subst hv
  obtain ⟨hws, ha, -⟩ := h.split
  have hs := hws.same.1
  have hq := hws.recorded (f := {}) ⟨rfl, rfl⟩
  have hr := ((Query.logs_act v.action hq).yields ha).2
  have hp : v.before.phase ≠ .closed := by
    intro hp
    have := ((Query.move_of_act ha).closed hp).2.1
    rw [hx] at this
    cases this
  rw [Query.eventsOf_append, Account.afterAll_append]
  rw [hs.params, hs.request, hx] at hr
  have hc := Query.Reports.composed hr
  simp only [Query.eventsOf_cons, Query.eventsOf_nil, List.append_nil]
  exact ⟨hq.tcp hp, hc, hc.multiple_iff⟩

/-- The error of a query whose datagram cannot be sent and whose server refuses the connection. -/
theorem error_composition_both : ∃ (request : Message) (params : QueryParams)
    (ws : List Query.Visit) (v : Query.Visit) (q : Query) (e e' : IoError),
    Query.Visits { id := 7, request, params } (ws ++ [v]) q ∧
      v.step = .done (.error (.multiple [.udpSend e, .tcpConnect e'])) ∧
      Composed params ((Failures.account request).afterAll {} (Query.eventsOf (ws ++ [v])))
        (.multiple [.udpSend e, .tcpConnect e']) := by
  let server : SocketAddress := ⟨.localhost, 53⟩
  let bind : List Event := [⟨.bindUdp .ipv4, .ok 1⟩, ⟨.connectUdp 1 server, .ok ()⟩,
    ⟨.wake, ()⟩, ⟨.register ⟨.udp, 1⟩ 7 .writable, .ok ()⟩]
  let turn : List Event := [⟨.sendUdp 1 Message.blank.octets, .error ⟨.permissionDenied, "denied"⟩⟩,
    ⟨.wake, ()⟩, ⟨.deregister ⟨.udp, 1⟩, .ok ()⟩, ⟨.close ⟨.udp, 1⟩, ()⟩,
    ⟨.connectTcp server, .ok 2⟩, ⟨.wake, ()⟩, ⟨.register ⟨.tcp, 2⟩ 7 .writable, .ok ()⟩]
  let refused : List Event := [⟨.takeError 2, .ok (some ⟨.connectionRefused, "refused"⟩)⟩,
    ⟨.wake, ()⟩, ⟨.deregister ⟨.tcp, 2⟩, .ok ()⟩, ⟨.close ⟨.tcp, 2⟩, ()⟩]
  have h : Query.Visits { id := 7, request := .blank, params := { server } } _ _ :=
    .cons (a := .start) (t := bind) (.call _ (.call _ (.call _ (.call _ (.pure _)))))
    <| .cons (a := .ready) (t := turn) (.call _ (.call _ (.call _ (.call _ (.call _ (.call _
        (.call _ (.pure _))))))))
    <| .cons (a := .ready) (t := refused) (.call _ (.call _ (.call _ (.call _ (.pure _))))) (.nil _)
  exact ⟨_, _, [_, _], _, _, _, _, h, rfl, (@error_composition _ _ _ _ [_, _] [] _ _ _ h rfl rfl).2.1⟩

end DnsClient
