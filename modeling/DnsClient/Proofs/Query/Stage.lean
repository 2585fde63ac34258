import DnsClient.Proofs.Query.Account
import DnsClient.Proofs.Query.Visits

/-!
Where a query stands, as a function of the results of its calls on sockets.

A stage is a phase with what is on record, or a place on the way to the next phase. It fixes the
call that comes next but for its answer, and `Stage.next` goes on from there with the result. A
result that only asks for another try is idle, and leaves the stage as it is. As long as sockets
can be registered, a query is at the stage that its results lead to, and each of its calls is the
one fixed there (`Query.reaches_act`).
-/

namespace DnsClient

open Program

/-- What a call on a socket comes to, without what it was given. -/
inductive SocketResult where
  | bound (x : Except IoError Nat)
  | directed (x : Except IoError Unit)
  | sent (x : Except IoError Nat)
  | received (x : Except IoError Octets)
  | begun (x : Except IoError Nat)
  | pendingError (x : Except IoError (Option IoError))
  | peer (x : Except IoError Unit)
  | written (x : Except IoError Nat)
  | read (x : Except IoError Octets)

def Program.Event.result? : Event → Option SocketResult
  | ⟨.bindUdp _, x⟩ => some (.bound x)
  | ⟨.connectUdp .., x⟩ => some (.directed x)
  | ⟨.sendUdp .., x⟩ => some (.sent (x.map Subtype.val))
  | ⟨.recvUdp .., x⟩ => some (.received (x.map Subtype.val))
  | ⟨.connectTcp _, x⟩ => some (.begun x)
  | ⟨.takeError _, x⟩ => some (.pendingError x)
  | ⟨.peerAddress _, x⟩ => some (.peer x)
  | ⟨.writeTcp .., x⟩ => some (.written (x.map Subtype.val))
  | ⟨.readTcp .., x⟩ => some (.read (x.map Subtype.val))
  | _ => none

/-- The result asks for another try, and for nothing else. -/
def SocketResult.isIdle : SocketResult → Bool
  | .sent (.error e) | .received (.error e) | .written (.error e) | .read (.error e) => e.isRetry
  | .peer (.error e) => e.kind = .notConnected ∨ e.isRetry
  | .pendingError (.ok none) => true
  | _ => false

inductive Stage where
  /-- To open a UDP socket. -/
  | unbound
  /-- To set the address of the UDP socket. -/
  | bound (socket : Nat)
  /-- To begin a connection, with these errors on record. -/
  | turning (errors : List QueryError)
  | waiting (p : Phase) (errors : List QueryError)
  | ended (r : Except QueryError Message)

namespace Stage

def start : QueryMode → Stage
  | .preferUdp => .unbound
  | .tcpOnly => .turning []

/-- Ended with an error, behind those on record. -/
def fail (errors : List QueryError) (e : QueryError) : Stage :=
  .ended (.error ((QueryError.bundle? (errors ++ [e])).getD e))

/-- To begin a connection, with one more error on record. -/
def turn (errors : List QueryError) (e : QueryError) : Stage := .turning (errors ++ [e])

/-- From a phase on, with a result that is not idle. -/
def leave (request : Message) (errors : List QueryError) : Phase → SocketResult → Stage
  | .udpWrite s, .sent (.ok n) =>
    if n = request.octets.length then .waiting (.udpRead s) errors else turn errors .udpShortSend
  | .udpWrite _, .sent (.error e) => turn errors (.udpSend e)
  | .udpRead _, .received (.ok o) =>
    match Message.ofOctets? o with
    | none => turn errors .wrongReply
    | some m =>
      if m.id ≠ request.id then turn errors .wrongReply
      else if m.isTruncated then .turning errors
      else .ended (.ok m)
  | .udpRead _, .received (.error e) => turn errors (.udpReceive e)
  | .tcpConnect _, .pendingError (.error e) => fail errors (.tcpConnect e)
  | .tcpConnect _, .pendingError (.ok (some e)) => fail errors (.tcpConnect e)
  | .tcpConnect s, .peer (.ok _) =>
    if maxMessageLength < request.octets.length then fail errors (.streamWrite .requestTooLong)
    else .waiting (.tcpWrite s 0) errors
  | .tcpConnect _, .peer (.error e) => fail errors (.tcpConnect e)
  | .tcpWrite .., .written (.ok 0) => fail errors (.streamWrite .writeZero)
  | .tcpWrite s w, .written (.ok n) =>
    if w + n < 2 + request.octets.length then .waiting (.tcpWrite s (w + n)) errors
    else .waiting (.tcpRead s .start) errors
  | .tcpWrite .., .written (.error e) => fail errors (.streamWrite e)
  | .tcpRead .., .read (.ok []) => fail errors .streamEnd
  | .tcpRead s reader, .read (.ok o) =>
    match reader.advance o with
    | .inl body =>
      match Message.ofOctets? body with
      | none => fail errors .shortMessage
      | some m => if m.id = request.id then .ended (.ok m) else fail errors .wrongReply
    | .inr reader => .waiting (.tcpRead s reader) errors
  | .tcpRead .., .read (.error e) => fail errors (.streamRead e)
  | p, _ => .waiting p errors

def next (request : Message) : Stage → SocketResult → Stage
  | .unbound, .bound (.ok n) => .bound n
  | .unbound, .bound (.error e) => .turning [.udpBind e]
  | .bound n, .directed (.ok _) => .waiting (.udpWrite n) []
  | .bound _, .directed (.error e) => .turning [.udpConnect e]
  | .turning errors, .begun (.ok n) => .waiting (.tcpConnect n) errors
  | .turning errors, .begun (.error e) => fail errors (.tcpConnect e)
  | .waiting p errors, r => if r.isIdle then .waiting p errors else leave request errors p r
  | s, _ => s

/-- The calls on sockets that may come next. There are two only where they differ in kind. -/
def calls (request : Message) (params : QueryParams) : Stage → List Call
  | .unbound => [.bindUdp params.server.family]
  | .bound n => [.connectUdp n params.server]
  | .turning _ => [.connectTcp params.server]
  | .waiting (.udpWrite s) _ => [.sendUdp s request.octets]
  | .waiting (.udpRead s) _ => [.recvUdp s params.payloadSize.toNat]
  | .waiting (.tcpConnect s) _ => [.takeError s, .peerAddress s]
  | .waiting (.tcpWrite s w) _ =>
    [.writeTcp s ((Octets.ofNat 2 request.octets.length).drop w) (request.octets.drop (w - 2))]
  | .waiting (.tcpRead s reader) _ => [.readTcp s reader.room]
  | _ => []

def verdict? : Stage → Option (Except QueryError Message)
  | .ended r => some r
  | _ => none

/-- The stage from event to event, as long as nothing fails to be registered. Calls on sockets are
those of the stage. -/
def account (request : Message) (params : QueryParams) : Account (Option Stage) where
  allows o c := ∀ s ∈ o, c ∈ s.calls request params ∨ ∀ x, Event.result? ⟨c, x⟩ = none
  after o v :=
    match v.arming?, v.result? with
    | some (_, _, _, .error _), _ => none
    | _, some r => o.map (·.next request r)
    | _, none => o

variable {request : Message} {errors : List QueryError} {p : Phase} {r : SocketResult}

lemma next_idle (h : r.isIdle) : (waiting p errors).next request r = .waiting p errors := by
  simp only [next, if_pos h]

lemma next_waiting (h : r.isIdle = false) :
    (waiting p errors).next request r = leave request errors p r := by
  simp only [next, h, Bool.false_eq_true, if_false]

end Stage

namespace Query

variable {q : Query} {s : Stage} {r : Step × Query} {i : Interest} {n : Nat} {e : QueryError}
  {m : Message} {o : Option Stage}

/-- The query is at the stage. -/
def At (q : Query) (s : Stage) : Prop :=
  match q.phase with
  | .idle => s = .start q.params.mode ∧ q.errors = []
  | .tcpWrite n w =>
    s = .waiting (.tcpWrite n w) q.errors ∧ q.request.octets.length ≤ maxMessageLength
  | .closed => True
  | p => s = .waiting p q.errors

/-- What a call that began at the stage tells, and where it leaves the query. -/
def Arrives (r : Step × Query) (s : Stage) : Prop :=
  match r.1 with
  | .pending => r.2.At s ∧ s.verdict? = none
  | .done x => s = .ended x

/-- However its calls are answered, the program makes those of the stages it comes through, and
ends as the last stage says. -/
def Reaches (q : Query) (p : Program (Step × Query)) (s : Stage) : Prop :=
  p.Ensures (Stage.account q.request q.params) (some s) fun r o => ∀ s' ∈ o, Arrives r s'

/-- Once something could not be registered, nothing is said any more. -/
lemma ensures_none {α : Type} {request : Message} {params : QueryParams} (p : Program α) :
    p.Ensures (Stage.account request params) none fun _ o => o = none := by
  induction p with
  | pure a => rfl
  | call c k ih =>
    refine ⟨fun s hs => absurd hs (Option.not_mem_none s), fun x => ?_⟩
    have h : (Stage.account request params).after none ⟨c, x⟩ = none := by
      simp only [Stage.account]
      split <;> rfl
    rw [h]
    exact ih x

lemma reaches_none {p : Program (Step × Query)} :
    p.Ensures (Stage.account q.request q.params) none fun r o => ∀ s' ∈ o, Arrives r s' :=
  (ensures_none p).mono fun _ _ h => by simp [h]

/-- A call of the stage leads on by its result. -/
lemma reaches_perform {c : Call} {f : c.Answer → Program (Step × Query)}
    (hc : c ∈ s.calls q.request q.params)
    (hr : ∀ x, ∃ r, Event.arming? ⟨c, x⟩ = none ∧ Event.result? ⟨c, x⟩ = some r ∧
      q.Reaches (f x) (s.next q.request r)) : q.Reaches (perform c >>= f) s := by
  refine ensures_perform_bind.2 ⟨fun s' hs => ?_, fun x => ?_⟩
  · obtain rfl := Option.some.inj hs
    exact .inl hc
  · obtain ⟨r, ha, hr, hf⟩ := hr x
    have h : (Stage.account q.request q.params).after (some s) ⟨c, x⟩ =
        some (s.next q.request r) := by
      simp only [Stage.account, ha, hr]
      rfl
    rw [h]
    exact hf

/-- Behind a result there is another try if it is idle. -/
lemma reaches_retry {p : Phase} {es : List QueryError} {x : SocketResult} {b : Prop} [Decidable b]
    {f g : Program (Step × Query)} (hb : x.isIdle ↔ b) (hf : q.Reaches f (.waiting p es))
    (hg : q.Reaches g (Stage.leave q.request es p x)) :
    q.Reaches (if b then f else g) ((Stage.waiting p es).next q.request x) := by
  split_ifs with h
  · rwa [Stage.next_idle (hb.2 h)]
  · rwa [Stage.next_waiting (Bool.eq_false_iff.2 fun hi => h (hb.1 hi))]

/-! ### Giving up a socket, and registering one -/

lemma stage_release {request : Message} {params : QueryParams} :
    q.release.Ensures (Stage.account request params) o fun _ o' => o' = o := by
  have upkeep {c : Call} (h : ∀ x, Event.result? ⟨c, x⟩ = none) :
      (Stage.account request params).allows o c := fun _ _ => .inr h
  unfold release
  split
  · rfl
  · split_ifs
    · refine ensures_bind.2 (ensures_perform_bind.2 ⟨upkeep fun _ => rfl, fun _ => ?_⟩)
      refine ensures_perform.2 ⟨upkeep fun _ => rfl, fun _ => ensures_perform.2 ?_⟩
      exact ⟨upkeep fun _ => rfl, fun _ => rfl⟩
    · exact ensures_perform.2 ⟨upkeep fun _ => rfl, fun _ => rfl⟩

lemma stage_abandon {request : Message} {params : QueryParams} :
    q.abandon.Ensures (Stage.account request params) o fun c o' => c = q.close ∧ o' = o :=
  ensures_bind.2 (stage_release.mono fun _ _ h => ⟨rfl, h⟩)

lemma reaches_fail : q.Reaches (q.fail e) (.fail q.errors e) := by
  refine ensures_bind.2 (stage_abandon.mono ?_)
  rintro _ _ ⟨rfl, rfl⟩ s' hs
  obtain rfl := Option.some.inj hs
  rfl

lemma reaches_succeed : q.Reaches (q.succeed m) (.ended (.ok m)) := by
  refine ensures_bind.2 (stage_abandon.mono ?_)
  rintro _ _ ⟨rfl, rfl⟩ s' hs
  obtain rfl := Option.some.inj hs
  rfl

lemma stage_arm (hs : q.phase.socket?.isSome) :
    (q.arm i).Ensures (Stage.account q.request q.params) (some s) fun x o =>
      match x with
      | .ok q' => q' = { q with registered := true } ∧ o = some s
      | .error _ => o = none := by
  obtain ⟨sock, hs⟩ := Option.isSome_iff_exists.1 hs
  simp only [arm, hs]
  split_ifs
  all_goals
    refine ensures_bind.2 (ensures_perform_bind.2 ⟨fun _ _ => .inr fun _ => rfl, fun _ => ?_⟩)
    refine ensures_perform.2 ⟨fun _ _ => .inr fun _ => rfl, fun x => ?_⟩
    cases x with
    | ok _ => exact ⟨rfl, rfl⟩
    | error e => rfl

/-- A socket that is armed waits at the stage. -/
lemma reaches_arm {g : Except QueryError Query → Program (Step × Query)}
    (hg : ∀ q', g (.ok q') = .pure (.pending, q')) (hs : q.phase.socket?.isSome) (hq : q.At s)
    (hv : s.verdict? = none) : q.Reaches (q.arm i >>= g) s := by
  refine ensures_bind.2 ((stage_arm hs).mono ?_)
  rintro (e | q') o ho
  · obtain rfl := ho
    exact reaches_none
  · obtain ⟨rfl, rfl⟩ := ho
    rw [hg]
    rintro s' hs'
    obtain rfl := Option.some.inj hs'
    exact ⟨hq, hv⟩

lemma reaches_armTcp (hs : q.phase.socket?.isSome) (hq : q.At s) (hv : s.verdict? = none) :
    q.Reaches (q.armTcp i) s := reaches_arm (fun _ => rfl) hs hq hv

/-! ### TCP -/

lemma reaches_tcpConnect : q.Reaches q.tcpConnect (.turning q.errors) := by
  refine ensures_bind.2 (stage_abandon.mono ?_)
  rintro _ o ⟨rfl, rfl⟩
  refine reaches_perform (q := q.close) (.head _) fun x => ⟨_, rfl, rfl, ?_⟩
  cases x with
  | error e => exact reaches_fail
  | ok n => exact reaches_armTcp (q := { q.close with phase := .tcpConnect n }) rfl rfl rfl

lemma reaches_tcpWrite {w : Nat} (hp : q.phase = .tcpWrite n w)
    (hl : q.request.octets.length ≤ maxMessageLength) :
    q.Reaches (q.tcpWrite n w) (.waiting (.tcpWrite n w) q.errors) := by
  unfold tcpWrite
  rw [if_neg (Nat.not_lt.2 hl)]
  refine reaches_perform (.head _) fun x => ⟨_, rfl, rfl, ?_⟩
  match x with
  | .ok ⟨0, _⟩ => exact reaches_fail
  | .ok ⟨k + 1, _⟩ =>
    rw [Stage.next_waiting rfl]
    simp only [Except.map, Stage.leave]
    split_ifs
    · exact reaches_armTcp (q := { q with phase := .tcpWrite n _ }) rfl ⟨rfl, hl⟩ rfl
    · exact reaches_armTcp (q := { q with phase := .tcpRead n .start }) rfl rfl rfl
  | .error e =>
    refine reaches_retry Iff.rfl ?_ reaches_fail
    exact reaches_armTcp (by rw [hp]; rfl) (by simp [At, hp, hl]) rfl

lemma reaches_tcpConnected (hp : q.phase = .tcpConnect n) :
    q.Reaches (q.tcpConnected n) (.waiting (.tcpConnect n) q.errors) := by
  refine reaches_perform (.head _) fun x => ⟨_, rfl, rfl, ?_⟩
  match x with
  | .error e | .ok (some e) => exact reaches_fail
  | .ok none =>
    -- no error is pending, which is idle: the other call of the stage comes next
    rw [Stage.next_idle rfl]
    refine reaches_perform (.tail _ (.head _)) fun y => ⟨_, rfl, rfl, ?_⟩
    cases y with
    | ok _ =>
      rw [Stage.next_waiting rfl]
      simp only [Stage.leave]
      split_ifs with hl
      · simp only [tcpWrite, hl, if_true]
        exact reaches_fail (q := { q with phase := .tcpWrite n 0 })
      · exact reaches_tcpWrite (q := { q with phase := .tcpWrite n 0 }) rfl (Nat.not_lt.1 hl)
    | error e =>
      refine reaches_retry decide_eq_true_iff ?_ reaches_fail
      exact reaches_armTcp (by rw [hp]; rfl) (by simp only [At, hp]) rfl

lemma reaches_tcpRead {reader : StreamReader} (hp : q.phase = .tcpRead n reader) :
    q.Reaches (q.tcpRead n reader) (.waiting (.tcpRead n reader) q.errors) := by
  refine reaches_perform (.head _) fun x => ⟨_, rfl, rfl, ?_⟩
  match x with
  | .ok ⟨[], _⟩ => exact reaches_fail
  | .ok ⟨a :: o, _⟩ =>
    rw [Stage.next_waiting rfl]
    simp only [Except.map, Stage.leave]
    cases reader.advance (a :: o) with
    | inl body =>
      simp only [tcpReply]
      cases Message.ofOctets? body with
      | none => exact reaches_fail
      | some m =>
        simp only
        split_ifs
        · exact reaches_succeed
        · exact reaches_fail
    | inr reader => exact reaches_armTcp (q := { q with phase := .tcpRead n reader }) rfl rfl rfl
  | .error e =>
    refine reaches_retry Iff.rfl ?_ reaches_fail
    exact reaches_armTcp (by rw [hp]; rfl) (by simp only [At, hp]) rfl

/-! ### UDP -/

lemma reaches_fallback {u : Option QueryError} :
    q.Reaches (q.fallback u) (.turning (q.errors ++ u.toList)) :=
  reaches_tcpConnect (q := { q with errors := q.errors ++ u.toList })

lemma reaches_armUdp (hs : q.phase.socket?.isSome) (hq : q.At s) (hv : s.verdict? = none) :
    q.Reaches (q.armUdp i) s := reaches_arm (fun _ => rfl) hs hq hv

lemma reaches_udpConnect (he : q.errors = []) : q.Reaches q.udpConnect .unbound := by
  have turn {u : QueryError} : q.Reaches (q.fallback (some u)) (.turning [u]) := by
    simpa [he] using reaches_fallback (q := q) (u := some u)
  refine reaches_perform (.head _) fun x => ⟨_, rfl, rfl, ?_⟩
  cases x with
  | error e => exact turn
  | ok n =>
    refine reaches_perform (.head _) fun y => ⟨_, rfl, rfl, ?_⟩
    cases y with
    | error e =>
      refine ensures_perform_bind.2 ⟨fun _ _ => .inr fun _ => rfl, fun _ => ?_⟩
      exact turn
    | ok _ =>
      exact reaches_armUdp (q := { q with phase := .udpWrite n }) rfl
        (show Stage.waiting _ [] = .waiting _ q.errors by rw [he]) rfl

lemma reaches_udpWrite (hp : q.phase = .udpWrite n) :
    q.Reaches (q.udpWrite n) (.waiting (.udpWrite n) q.errors) := by
  refine reaches_perform (.head _) fun x => ⟨_, rfl, rfl, ?_⟩
  cases x with
  | ok k =>
    rw [Stage.next_waiting rfl]
    simp only [Except.map, Stage.leave]
    split_ifs
    · exact reaches_armUdp (q := { q with phase := .udpRead n }) rfl rfl rfl
    · exact reaches_fallback
  | error e =>
    refine reaches_retry Iff.rfl ?_ reaches_fallback
    exact reaches_armUdp (by rw [hp]; rfl) (by simp only [At, hp]) rfl

lemma reaches_udpRead (hp : q.phase = .udpRead n) :
    q.Reaches (q.udpRead n) (.waiting (.udpRead n) q.errors) := by
  refine reaches_perform (.head _) fun x => ⟨_, rfl, rfl, ?_⟩
  cases x with
  | ok o =>
    rw [Stage.next_waiting rfl]
    simp only [Except.map, Stage.leave, udpReply]
    cases Message.ofOctets? o.1 with
    | none => exact reaches_fallback
    | some m =>
      simp only
      split_ifs
      · exact reaches_fallback
      · simpa using reaches_fallback (q := q) (u := none)
      · exact reaches_succeed
  | error e =>
    refine reaches_retry Iff.rfl ?_ reaches_fallback
    exact reaches_armUdp (by rw [hp]; rfl) (by simp only [At, hp]) rfl

/-! ### Calls -/

lemma At.eq_waiting (hq : q.At s) (hs : q.phase.socket?.isSome) :
    s = .waiting q.phase q.errors := by
  unfold At at hq
  split at hq
  case h_1 hp | h_3 hp => simp [hp, Phase.socket?] at hs
  case h_2 hp => rw [hp, hq.1]
  case h_4 => exact hq

lemma At.verdict? (hq : q.At s) (hc : q.phase ≠ .closed) : s.verdict? = none := by
  unfold At at hq
  split at hq
  case h_1 =>
    rw [hq.1]
    cases q.params.mode <;> rfl
  case h_2 => rw [hq.1]; rfl
  case h_3 hp => exact absurd hp hc
  case h_4 => rw [hq]; rfl

/-- A call on a query goes through the stages that its results lead to. -/
theorem reaches_act (a : Action) (hq : q.At s) (hc : q.phase ≠ .closed) :
    q.Reaches (q.act a) s := by
  have hv := hq.verdict? hc
  have rests : q.Reaches (.pure (.pending, q)) s := by
    rintro _ ⟨⟩
    exact ⟨hq, hv⟩
  have waits {p : Phase} (hp : q.phase = p) (hs : p.socket?.isSome) : s = .waiting p q.errors := by
    subst hp
    exact hq.eq_waiting hs
  cases a with
  | start =>
    simp only [act, start]
    split
    · next hp =>
      obtain ⟨rfl, he⟩ : _ ∧ _ := by simpa only [At, hp] using hq
      split
      · next hm => simpa only [hm, Stage.start] using reaches_udpConnect he
      · next hm => simpa only [hm, Stage.start, he] using reaches_tcpConnect (q := q)
    · exact rests
  | ready =>
    simp only [act, ready]
    split
    case h_1 => exact rests
    case h_2 hp => exact absurd hp hc
    case h_3 hp => exact waits hp rfl ▸ reaches_udpWrite hp
    case h_4 hp => exact waits hp rfl ▸ reaches_udpRead hp
    case h_5 hp => exact waits hp rfl ▸ reaches_tcpConnected hp
    case h_6 hp =>
      obtain ⟨rfl, hl⟩ : _ ∧ _ := by simpa only [At, hp] using hq
      exact reaches_tcpWrite hp hl
    case h_7 hp => exact waits hp rfl ▸ reaches_tcpRead hp
  | abandon =>
    refine ensures_bind.2 (stage_abandon.mono ?_)
    rintro _ _ ⟨rfl, rfl⟩ _ ⟨⟩
    exact ⟨trivial, hv⟩

end Query

end DnsClient
