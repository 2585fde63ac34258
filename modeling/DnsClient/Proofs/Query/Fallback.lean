import DnsClient.Proofs.Query.Arming
import DnsClient.Proofs.Query.Failures
import DnsClient.Proofs.Query.Lockstep
import DnsClient.Proofs.Query.Order

/-!
A query that has left UDP, beside one that never was on it.

`q.behind p u` is the query `q` with the parameters `p` and with what ended UDP on record. As long
as `p` names the same server, each function for TCP does the same for both (`alike_*`), up to the
error that it may end with. A call that ends the UDP attempt gives up the socket and then does what
the start of a query over TCP does (`Query.Turns`).
-/

namespace DnsClient

open Program

/-- The step of a query that has the error on record, where the same query without it takes the
step `s`. -/
def Step.behind (u : Option QueryError) : Step → Step
  | .done (.error t) =>
    match u with
    | none => .done (.error t)
    | some u => .done (.error (.multiple [u, t]))
  | s => s

namespace Query

variable {q f : Query} {p : QueryParams} {u : Option QueryError} {n : Nat} {i : Interest}
  {e : QueryError} {t : List Event} {r r' : Step × Query}

/-- The query with other parameters, and with what ended UDP on record. -/
def behind (q : Query) (p : QueryParams) (u : Option QueryError) : Query :=
  { q with params := p, errors := u.toList }

/-- The results of a query behind a UDP attempt, and of the query without it. -/
structure Mirrored (p : QueryParams) (u : Option QueryError) (r r' : Step × Query) : Prop where
  step : r.1 = r'.1.behind u
  phase : r.2.phase = r'.2.phase
  goesOn : r'.2.phase = .closed ∨
    r.2 = r'.2.behind p u ∧ r'.2.errors = [] ∧ p.server = r'.2.params.server

/-! ### Functions of the TCP phases -/

lemma alike_release (hp : q.phase = f.phase) (hr : q.registered = f.registered) :
    Alike (fun _ _ => True) q.release f.release := by
  simp only [release, hp, hr]
  split
  · exact .pure trivial
  · split
    · exact .perform_bind fun _ _ _ => .perform_bind fun _ _ _ => .call fun _ _ _ => .pure trivial
    · exact .call fun _ _ _ => .pure trivial

lemma alike_abandon (hp : q.phase = f.phase) (hr : q.registered = f.registered) :
    Alike (fun c c' => c = q.close ∧ c' = f.close) q.abandon f.abandon :=
  (alike_release hp hr).bind fun _ _ _ => .pure ⟨rfl, rfl⟩

variable (hf : f.errors = []) (hp : p.server = f.params.server)
include hf

lemma alike_fail : Alike (Mirrored p u) ((f.behind p u).fail e) (f.fail e) := by
  refine Alike.bind (alike_abandon rfl rfl) ?_
  rintro _ _ ⟨rfl, rfl⟩
  refine .pure ⟨?_, rfl, .inl rfl⟩
  cases u <;> simp [behind, hf, QueryError.bundle?, Step.behind]

omit hf in
lemma alike_succeed {m : Message} :
    Alike (Mirrored p u) ((f.behind p u).succeed m) (f.succeed m) := by
  refine Alike.bind (alike_abandon rfl rfl) ?_
  rintro _ _ ⟨rfl, rfl⟩
  exact .pure ⟨rfl, rfl, .inl rfl⟩

include hp

lemma alike_arm :
    Alike (fun x y => match y with
      | .ok c => x = .ok (c.behind p u) ∧ c.errors = [] ∧ p.server = c.params.server
      | .error e => x = .error e) ((f.behind p u).arm i) (f.arm i) := by
  simp only [arm, behind]
  split
  · exact .pure ⟨rfl, hf, hp⟩
  · refine .ite (fun _ => ?_) fun _ => ?_
    all_goals
      refine .call fun _ _ _ => .call fun x _ hx => ?_
      obtain rfl := hx
      cases x with
      | error e => exact .pure rfl
      | ok _ => exact .pure ⟨rfl, hf, hp⟩

lemma alike_armTcp : Alike (Mirrored p u) ((f.behind p u).armTcp i) (f.armTcp i) := by
  refine Alike.bind (alike_arm hf hp) ?_
  rintro x (e | c) hx
  · obtain rfl := hx
    exact alike_fail hf
  · obtain ⟨rfl, hc, hp⟩ := hx
    exact .pure ⟨rfl, rfl, .inr ⟨rfl, hc, hp⟩⟩

lemma alike_tcpConnect : Alike (Mirrored p u) (f.behind p u).tcpConnect f.tcpConnect := by
  refine Alike.bind (alike_abandon rfl rfl) ?_
  rintro _ _ ⟨rfl, rfl⟩
  rw [show ((f.behind p u).close.params.server) = f.close.params.server from hp]
  refine .perform_bind fun x _ hx => ?_
  obtain rfl := hx
  cases x with
  | error e => exact alike_fail (f := f.close) hf
  | ok n => exact alike_armTcp (f := { f.close with phase := .tcpConnect n }) hf hp

lemma alike_tcpWrite {w : Nat} :
    Alike (Mirrored p u) ((f.behind p u).tcpWrite n w) (f.tcpWrite n w) := by
  refine .ite (fun _ => alike_fail hf) fun _ => .perform_bind fun x _ hx => ?_
  obtain rfl := hx
  match x with
  | .ok ⟨0, _⟩ => exact alike_fail hf
  | .ok ⟨k + 1, _⟩ =>
    refine .ite (fun _ => ?_) fun _ => ?_
    · exact alike_armTcp (f := { f with phase := .tcpWrite n _ }) hf hp
    · exact alike_armTcp (f := { f with phase := .tcpRead n .start }) hf hp
  | .error e => exact .ite (fun _ => alike_armTcp hf hp) fun _ => alike_fail hf

lemma alike_tcpConnected :
    Alike (Mirrored p u) ((f.behind p u).tcpConnected n) (f.tcpConnected n) := by
  refine .perform_bind fun x _ hx => ?_
  obtain rfl := hx
  match x with
  | .error e | .ok (some e) => exact alike_fail hf
  | .ok none =>
    refine .perform_bind fun y _ hy => ?_
    obtain rfl := hy
    cases y with
    | ok _ => exact alike_tcpWrite (f := { f with phase := .tcpWrite n 0 }) hf hp
    | error e => exact .ite (fun _ => alike_armTcp hf hp) fun _ => alike_fail hf

lemma alike_tcpRead {reader : StreamReader} :
    Alike (Mirrored p u) ((f.behind p u).tcpRead n reader) (f.tcpRead n reader) := by
  refine .perform_bind fun x _ hx => ?_
  obtain rfl := hx
  match x with
  | .ok ⟨[], _⟩ => exact alike_fail hf
  | .ok ⟨a :: o, _⟩ =>
    simp only
    cases reader.advance (a :: o) with
    | inl body =>
      simp only [tcpReply]
      cases Message.ofOctets? body with
      | none => exact alike_fail hf
      | some m => exact .ite (fun _ => alike_succeed) fun _ => alike_fail hf
    | inr reader => exact alike_armTcp (f := { f with phase := .tcpRead n reader }) hf hp
  | .error e => exact .ite (fun _ => alike_armTcp hf hp) fun _ => alike_fail hf

/-- While a stream is in use, what UDP left on record makes no difference to a call. -/
lemma alike_act (a : Action) (hr : 2 < f.phase.rank) :
    Alike (Mirrored p u) ((f.behind p u).act a) (f.act a) := by
  have rests : Alike (Mirrored p u) (.pure (.pending, f.behind p u)) (.pure (.pending, f)) :=
    .pure ⟨rfl, rfl, .inr ⟨rfl, hf, hp⟩⟩
  cases a with
  | start =>
    -- it is not idle, so a start does nothing, and in particular does not look at the mode
    have hi (q : Query) (h : q.phase = f.phase) : q.start = .pure (.pending, q) := by
      unfold start
      split
      · next hp => simp [← h, hp, Phase.rank] at hr
      · rfl
    simpa only [act, hi f rfl, hi (f.behind p u) rfl] using rests
  | ready =>
    simp only [act, ready, show (f.behind p u).phase = f.phase from rfl]
    split
    case h_1 | h_2 => exact rests
    case h_3 hp | h_4 hp => simp [hp, Phase.rank] at hr
    case h_5 => exact alike_tcpConnected hf hp
    case h_6 => exact alike_tcpWrite hf hp
    case h_7 => exact alike_tcpRead hf hp
  | abandon =>
    refine Alike.bind (alike_abandon rfl rfl) ?_
    rintro _ _ ⟨rfl, rfl⟩
    exact .pure ⟨rfl, rfl, .inl rfl⟩

omit hf hp

/-! ### Leaving UDP -/

/-- What becomes of a UDP socket: it is closed, and its registration is taken back before if there
is one. -/
inductive Drops : Bool → List Event → Prop where
  | nothing : Drops false []
  | closes (n : Nat) : Drops false [⟨.close ⟨.udp, n⟩, ()⟩]
  | unregisters (n : Nat) (x : Except IoError Unit) :
    Drops true [⟨.wake, ()⟩, ⟨.deregister ⟨.udp, n⟩, x⟩, ⟨.close ⟨.udp, n⟩, ()⟩]

/-- How a call turns to TCP: an event ends the UDP attempt and leaves `u` on record, the socket is
given up if there is one, and `v` is all that comes behind. -/
structure Turns (q : Query) (t : List Event) (u : Option QueryError) (v : List Event) : Prop where
  split : ∃ t₀ w d, t = t₀ ++ w :: (d ++ v) ∧ (∀ w ∈ t₀, w.endsUdp q.request = false) ∧
    w.endsUdp q.request ∧ (Failures.after q.request {} w).udp = u.toList ∧ Drops q.registered d

/-- The call turns to TCP and then starts over with what is on record, or it has no event that ends
the UDP attempt. -/
def TurnsOrStays (q : Query) (t : List Event) (r : Step × Query) : Prop :=
  (∃ u v, q.Turns t u v ∧
    Yields (tcpConnect { q.close with errors := q.errors ++ u.toList }) v r) ∨
  ∀ w ∈ t, w.endsUdp q.request = false

lemma TurnsOrStays.cons {w : Event} (hw : w.endsUdp q.request = false)
    (h : q.TurnsOrStays t r) : q.TurnsOrStays (w :: t) r := by
  obtain ⟨u, v, ⟨t₀, w', d, rfl, ht, hr⟩, hv⟩ | h := h
  · exact .inl ⟨u, v, ⟨w :: t₀, w', d, rfl, List.forall_mem_cons.2 ⟨hw, ht⟩, hr⟩, hv⟩
  · exact .inr (List.forall_mem_cons.2 ⟨hw, h⟩)

/-- The same before a query goes to another phase with its socket. -/
lemma TurnsOrStays.of_phase {p : Phase} (h : TurnsOrStays { q with phase := p } t r) :
    q.TurnsOrStays t r :=
  h.imp_left fun ⟨u, v, ⟨ht⟩, hv⟩ => ⟨u, v, ⟨ht⟩, hv⟩

lemma TurnsOrStays.of_last {w : Event} {d v : List Event} (hw : w.endsUdp q.request)
    (hu : (Failures.after q.request {} w).udp = u.toList) (hd : Drops q.registered d)
    (hv : Yields (tcpConnect { q.close with errors := q.errors ++ u.toList }) v r) :
    q.TurnsOrStays (w :: (d ++ v)) r :=
  .inl ⟨u, v, ⟨[], w, d, rfl, fun _ h => (List.not_mem_nil h).elim, hw, hu, hd⟩, hv⟩

lemma drops_release {x : Unit} (hs : q.phase.socket? = some ⟨.udp, n⟩)
    (h : Yields q.release t x) : Drops q.registered t := by
  simp only [release, hs] at h
  split_ifs at h with hr
  · obtain ⟨_, _, _, hd, hc, rfl⟩ := yields_bind.1 h
    obtain ⟨_, _, rfl, hd'⟩ := yields_perform_bind.1 hd
    obtain rfl := yields_perform.1 hd'
    obtain rfl := yields_perform.1 hc
    exact hr ▸ .unregisters n _
  · obtain rfl := yields_perform.1 h
    rw [Bool.not_eq_true] at hr
    exact hr ▸ .closes n

lemma tcpConnect_eq : q.tcpConnect = q.release >>= fun _ => q.close.tcpConnect := by
  unfold tcpConnect abandon
  rw [bind_assoc]
  rfl

/-- A query that falls back gives up its socket first. -/
lemma turns_fallback {w : Event} (hs : q.phase.socket? = some ⟨.udp, n⟩)
    (hw : w.endsUdp q.request) (hu : (Failures.after q.request {} w).udp = u.toList)
    (h : Yields (q.fallback u) t r) : q.TurnsOrStays (w :: t) r := by
  rw [fallback, tcpConnect_eq] at h
  obtain ⟨d, _, v, hd, hv, rfl⟩ := yields_bind.1 h
  exact .of_last hw hu (drops_release hs hd) hv

lemma turns_armUdp (hs : q.phase.socket? = some ⟨.udp, n⟩) (h : Yields (q.armUdp i) t r) :
    q.TurnsOrStays t r := by
  obtain ⟨_, x, v, ha, hr, rfl⟩ := yields_bind.1 h
  -- the selector is woken first, which ends nothing; the registration may fail
  obtain ⟨⟨c, z⟩, y, rfl, hw, rfl⟩ := yields_arm hs ha
  refine .cons rfl ?_
  cases y with
  | ok _ =>
    obtain ⟨rfl, rfl⟩ := yields_pure.1 hr
    refine .cons ?_ (.inr fun _ h => by cases h)
    cases c <;> simp [Event.arming?] at hw
    all_goals simp [Event.endsUdp, hw]
  | error e =>
    cases c <;> simp [Event.arming?] at hw
    all_goals
      obtain ⟨rfl, -, -, rfl⟩ := hw
      exact turns_fallback hs rfl rfl hr

lemma turns_udpConnect (hp : q.phase = .idle) (hr : q.registered = false)
    (h : Yields q.udpConnect t r) : q.TurnsOrStays t r := by
  have hn (es : List QueryError) : release { q with errors := es } = .pure () := by
    simp [release, hp, Phase.socket?]
  have turn {w : Event} {d v : List Event} {u : QueryError} (hw : w.endsUdp q.request)
      (hu : (Failures.after q.request {} w).udp = [u]) (hd : Drops false d)
      (hv : Yields (q.fallback (some u)) v r) : q.TurnsOrStays (w :: (d ++ v)) r := by
    rw [fallback, tcpConnect_eq, hn] at hv
    exact .of_last (u := some u) hw hu (hr ▸ hd) hv
  obtain ⟨x, u, rfl, hu⟩ := yields_perform_bind.1 h
  cases x with
  | error e => exact turn rfl rfl .nothing hu
  | ok n =>
    refine .cons rfl ?_
    obtain ⟨y, v, rfl, hv⟩ := yields_perform_bind.1 hu
    cases y with
    | error e =>
      obtain ⟨z, w, rfl, hw⟩ := yields_perform_bind.1 hv
      exact turn rfl rfl (.closes n) hw
    | ok _ => exact .cons rfl (turns_armUdp (q := { q with phase := .udpWrite n }) rfl hv).of_phase

lemma turns_udpWrite (hs : q.phase.socket? = some ⟨.udp, n⟩) (h : Yields (q.udpWrite n) t r) :
    q.TurnsOrStays t r := by
  obtain ⟨x, v, rfl, hv⟩ := yields_perform_bind.1 h
  cases x with
  | ok k =>
    simp only at hv
    split_ifs at hv with hk
    · refine .cons (by simp [Event.endsUdp, hk]) (.of_phase (p := .udpRead n) ?_)
      exact turns_armUdp (q := { q with phase := .udpRead n }) rfl hv
    · exact turns_fallback hs (by simp [Event.endsUdp, hk]) (by simp [Failures.after, hk]; rfl) hv
  | error e =>
    simp only at hv
    split_ifs at hv with he
    · exact .cons (by simp [Event.endsUdp, he]) (turns_armUdp hs hv)
    · exact turns_fallback hs (by simp [Event.endsUdp, he]) (by simp [Failures.after, he]; rfl) hv

lemma turns_udpRead (hs : q.phase.socket? = some ⟨.udp, n⟩) (h : Yields (q.udpRead n) t r) :
    q.TurnsOrStays t r := by
  obtain ⟨x, v, rfl, hv⟩ := yields_perform_bind.1 h
  cases x with
  | ok o =>
    simp only [udpReply] at hv
    have turn {u : Option QueryError} (hv : Yields (q.fallback u) v r)
        (ha : q.request.accepts o.1 = false)
        (hu : ((Failures.onDatagram {} q.request o.1).udp) = u.toList) := turns_fallback (n := n) hs
          (w := ⟨.recvUdp n q.params.payloadSize.toNat, .ok o⟩) (by simpa [Event.endsUdp]) hu hv
    split at hv
    · next hm =>
      exact turn hv (by simp [Message.accepts, hm]) (by simp [Failures.onDatagram, hm]; rfl)
    · next m hm =>
      split_ifs at hv with hi ht
      · refine turn hv (by simp [Message.accepts, hm, hi]) ?_
        simp [Failures.onDatagram, hm, hi]
        rfl
      · exact turn hv (by simp [Message.accepts, hm, ht])
          (by simp [Failures.onDatagram, hm, hi, ht])
      · obtain ⟨hq, -⟩ := yields_succeed hv
        refine .cons ?_ (.inr (hq.late.offUdp.endsUdp_eq _))
        simpa [Event.endsUdp, Message.accepts, hm, ht] using hi
  | error e =>
    simp only at hv
    split_ifs at hv with he
    · exact .cons (by simp [Event.endsUdp, he]) (turns_armUdp hs hv)
    · exact turns_fallback hs (by simp [Event.endsUdp, he]) (by simp [Failures.after, he]; rfl) hv

lemma turns_act {a : Action} (hr : q.registered = q.phase.socket?.isSome)
    (h : Yields (q.act a) t r) : q.TurnsOrStays t r := by
  have stays (ht : OffUdp t) : q.TurnsOrStays t r := .inr (ht.endsUdp_eq _)
  cases a with
  | start =>
    simp only [act, start] at h
    split at h
    · next hp =>
      split at h
      · exact turns_udpConnect hp (by simp [hr, hp, Phase.socket?]) h
      · exact stays (offUdp_tcpConnect h)
    · obtain ⟨rfl, -⟩ := yields_pure.1 h
      exact stays quiet_nil.late.offUdp
  | ready =>
    simp only [act, ready] at h
    split at h
    case h_1 | h_2 =>
      obtain ⟨rfl, -⟩ := yields_pure.1 h
      exact stays quiet_nil.late.offUdp
    case h_3 hp => exact turns_udpWrite (by rw [hp]; rfl) h
    case h_4 hp => exact turns_udpRead (by rw [hp]; rfl) h
    case h_5 hp => exact stays (leads_tcpConnected hp h).1.offUdp
    case h_6 hp => exact stays (leads_tcpWrite hp h).1.offUdp
    case h_7 hp => exact stays (leads_tcpRead hp h).1.offUdp
  | abandon =>
    obtain ⟨_, _, _, ha, hp, rfl⟩ := yields_bind.1 h
    obtain ⟨rfl, -⟩ := yields_pure.1 hp
    exact stays (by simpa using (yields_abandon ha).1.late.offUdp)

lemma Move.rank_of_endsUdp {a : Action} {m : Message} (h : Move q a t r)
    (he : ∃ w ∈ t, w.endsUdp m) : q.phase.rank ≤ 2 := by
  have late (ht : Late t) : q.phase.rank ≤ 2 := by
    obtain ⟨w, hw, he⟩ := he
    rw [ht.offUdp.endsUdp_eq m w hw] at he
    cases he
  cases h with
  | rests _ => exact late quiet_nil.late
  | givesUp ht _ => exact late ht.late
  | attempts hp _ _ => exact hp
  | starts hp _ _ => simp [hp, Phase.rank]
  | streams hs h => exact late (late_leads_ready hs h).1

lemma Recorded.errors_eq_nil {f : Failures} (hq : q.Recorded f) (hr : q.phase.rank ≤ 2) :
    q.errors = [] := by
  unfold Recorded at hq
  split at hq
  case h_1 => exact hq.2
  case h_2 | h_3 => exact hq.2.1
  all_goals next hp => simp [hp, Phase.rank] at hr

/-! ### Runs side by side -/

/-- The first query is where the second is, with what ended UDP on record; or both are closed. -/
structure Beside (p : QueryParams) (u : Option QueryError) (q f : Query) : Prop where
  rank : 2 < f.phase.rank
  phase : q.phase = f.phase
  goesOn : f.phase = .closed ∨ q = f.behind p u ∧ f.errors = [] ∧ p.server = f.params.server

lemma act_closed (a : Action) (hp : q.phase = .closed) :
    ∃ q', q'.phase = .closed ∧ q.act a = .pure (.pending, q') := by
  cases a with
  | start => exact ⟨q, hp, by simp [act, start, hp]⟩
  | ready => exact ⟨q, hp, by simp [act, ready, hp]⟩
  | abandon => exact ⟨q.close, rfl, by simp [act, abandon, release, hp, Phase.socket?]⟩

lemma Beside.alike (h : Beside p u q f) (a : Action) :
    Alike (Mirrored p u) (q.act a) (f.act a) := by
  rcases h.goesOn with hc | ⟨rfl, hf, hp⟩
  · obtain ⟨q', hq, hq'⟩ := act_closed a (h.phase.trans hc)
    obtain ⟨f', hf, hf'⟩ := act_closed a hc
    rw [hq', hf']
    exact .pure ⟨rfl, hq.trans hf.symm, .inl hf⟩
  · exact alike_act hf hp a h.rank

lemma Mirrored.beside (h : Mirrored p u r r') (hr : 2 < r'.2.phase.rank) :
    Beside p u r.2 r'.2 :=
  ⟨hr, h.phase, h.goesOn⟩

/-- The visits do the same, up to the error on record in the first. -/
structure Visit.Mirrors (u : Option QueryError) (v w : Visit) : Prop where
  action : v.action = w.action
  calls : List.Forall₂ Event.Alike v.calls w.calls
  step : v.step = w.step.behind u
  phase : v.after.phase = w.after.phase

variable {q' f' : Query} {vs ws : List Visit}

lemma Visits.mirrored (h : Visits q vs q') (hb : Beside p u q f) :
    ∃ ws f', Visits f ws f' ∧ List.Forall₂ (Visit.Mirrors u) vs ws ∧
      ws.map (·.calls) = vs.map (·.calls) := by
  induction h generalizing f with
  | nil q => exact ⟨[], f, .nil f, .nil, rfl⟩
  | @cons q q₁ q₂ a t s vs h _ ih =>
    obtain ⟨⟨s', f₁⟩, hy, hm⟩ := (hb.alike a).yields h
    have hr := Nat.lt_of_lt_of_le hb.rank (move_of_act hy).leads.rank
    obtain ⟨ws, f', hws, hm', hc⟩ := ih (hm.beside hr)
    refine ⟨_, f', .cons hy hws, .cons ⟨rfl, ?_, hm.step, hm.phase⟩ hm', ?_⟩
    · exact List.forall₂_same.2 fun w _ => .refl w
    · rw [List.map_cons, List.map_cons, hc]

lemma Visits.lockstep (h : Visits q vs q') (h' : Visits f ws f') (hb : Beside p u q f)
    (ha : vs.map (·.action) = ws.map (·.action))
    (hs : SameAnswers (eventsOf vs) (eventsOf ws)) : List.Forall₂ (Visit.Mirrors u) vs ws := by
  induction h generalizing f ws with
  | nil q =>
    obtain rfl : ws = [] := by simpa using ha.symm
    exact .nil
  | @cons q q₁ q₂ a t s vs h _ ih =>
    cases h' with
    | nil => cases ha
    | @cons _ f₁ _ a' t' s' ws hy hws =>
      obtain ⟨rfl, ha'⟩ := List.cons_eq_cons.1 ha
      obtain ⟨hc, hm, hs'⟩ := (hb.alike a).lockstep h hy hs
      have hr := Nat.lt_of_lt_of_le hb.rank (move_of_act hy).leads.rank
      exact .cons ⟨rfl, hc, hm.step, hm.phase⟩ (ih hws (hm.beside hr) ha' hs')

end Query

/-- **A query that falls back is a query over TCP only**: from the call that ends UDP on, once the
socket is given up, the run is one of a fresh query that starts over TCP, up to the error on record.
And every run of a fresh query with the same answers is like it, call by call. -/
theorem fallback_as_tcpOnly {id : QueryId} {request : Message} {params fresh : QueryParams}
    {ws ws' : List Query.Visit} {v : Query.Visit} {q : Query}
    (h : Query.Visits { id, request, params } (ws ++ v :: ws') q)
    (hv : (∃ w ∈ v.calls, w.endsUdp request) ∨
      params.mode = .preferUdp ∧ tcpTargets v.calls ≠ [])
    (hm : fresh.mode = .tcpOnly) (hs : fresh.server = params.server) :
    ∃ u rest, v.before.Turns v.calls u rest ∧
      (∃ fs f, Query.Visits { id, request, params := fresh } fs f ∧
        List.Forall₂ (Query.Visit.Mirrors u) ({ v with action := .start, calls := rest } :: ws')
          fs ∧
        fs.map (·.calls) = rest :: ws'.map (·.calls)) ∧
      ∀ fs f, Query.Visits { id, request, params := fresh } fs f →
        fs.map (·.action) = .start :: ws'.map (·.action) →
        SameAnswers (rest ++ Query.eventsOf ws') (Query.eventsOf fs) →
        List.Forall₂ (Query.Visit.Mirrors u) ({ v with action := .start, calls := rest } :: ws')
          fs := by
  obtain ⟨hws, hy, hws'⟩ := h.split
  have hb := hws.same.1
  have he : ∃ w ∈ v.calls, w.endsUdp request := by
    refine hv.elim (fun he => he) fun ⟨hp, ht⟩ => ?_
    refine ((h.fits v (by simp)).cause ht).resolve_right fun hc => ?_
    simp [hp] at hc
  have hreg : v.before.registered = v.before.phase.socket?.isSome :=
    (hws.stands ⟨rfl, rfl⟩).2.registered
  have herr : v.before.errors = [] :=
    (hws.recorded (f := {}) ⟨rfl, rfl⟩).errors_eq_nil ((Query.move_of_act hy).rank_of_endsUdp he)
  have hturn := (Query.turns_act hreg hy).resolve_right fun hn => by
    obtain ⟨w, hw, he⟩ := he
    have hn := hn w hw
    rw [hb.request, he] at hn
    cases hn
  obtain ⟨u, rest, ht, hr⟩ := hturn
  -- both start over without a socket: the one with what ended UDP on record, the other fresh
  let f : Query := { id, request, params := fresh, phase := .closed }
  have hq : { v.before.close with errors := v.before.errors ++ u.toList } = f.behind params u := by
    rw [herr]
    simp [Query.behind, Query.close, f, hb.id, hb.request, hb.params]
  have hf : Query.act { id, request, params := fresh } .start = f.tcpConnect := by
    simp only [Query.act, Query.start, hm]
    rfl
  have ha : Alike (Query.Mirrored params u) (f.behind params u).tcpConnect f.tcpConnect :=
    Query.alike_tcpConnect rfl hs.symm
  rw [hq] at hr
  refine ⟨u, rest, ht, ?_, ?_⟩
  · obtain ⟨⟨s, f₁⟩, hy₁, hm₁⟩ := ha.yields hr
    obtain ⟨fs, f', hfs, hms, hcs⟩ := hws'.mirrored (hm₁.beside (Query.leads_tcpConnect hy₁).rank)
    refine ⟨_, f', .cons (hf ▸ hy₁) hfs, .cons ⟨rfl, ?_, hm₁.step, hm₁.phase⟩ hms, ?_⟩
    · exact List.forall₂_same.2 fun w _ => .refl w
    · rw [List.map_cons, hcs]
  · rintro _ f' (_ | ⟨hy₁, hfs⟩) hact hans
    · cases hact
    · obtain ⟨rfl, hact'⟩ := List.cons_eq_cons.1 hact
      rw [hf] at hy₁
      obtain ⟨hc, hm₁, hans⟩ := ha.lockstep hr hy₁ hans
      have hl := (Query.leads_tcpConnect hy₁).rank
      exact .cons ⟨rfl, hc, hm₁.step, hm₁.phase⟩ (hws'.lockstep hfs (hm₁.beside hl) hact'.symm hans)

/-- A query that receives no datagram and cannot connect either, though its UDP socket could not
even be taken off the selector: without UDP it is a query that cannot connect. -/
theorem fallback_as_tcpOnly_refused : ∃ (request : Message) (params fresh : QueryParams)
    (ws : List Query.Visit) (v w : Query.Visit) (q : Query) (e e' : IoError),
    Query.Visits { id := 7, request, params } (ws ++ v :: [w]) q ∧
      (∃ w ∈ v.calls, w.endsUdp request) ∧ fresh.mode = .tcpOnly ∧ fresh.server = params.server ∧
      w.step = .done (.error (.multiple [.udpReceive e, .tcpConnect e'])) ∧
      ∃ u rest, v.before.Turns v.calls u rest ∧ ∃ fs f,
        Query.Visits { id := 7, request, params := fresh } fs f ∧
          List.Forall₂ (Query.Visit.Mirrors u) [{ v with action := .start, calls := rest }, w]
            fs := by
  let server : SocketAddress := ⟨.localhost, 53⟩
  let bind : List Event := [⟨.bindUdp .ipv4, .ok 1⟩, ⟨.connectUdp 1 server, .ok ()⟩,
    ⟨.wake, ()⟩, ⟨.register ⟨.udp, 1⟩ 7 .writable, .ok ()⟩]
  let send : List Event := [⟨.sendUdp 1 Message.blank.octets, .ok ⟨12, by decide⟩⟩, ⟨.wake, ()⟩,
    ⟨.reregister ⟨.udp, 1⟩ 7 .readable, .ok ()⟩]
  let turn : List Event := [⟨.recvUdp 1 1232, .error ⟨.connectionRefused, "refused"⟩⟩,
    ⟨.wake, ()⟩, ⟨.deregister ⟨.udp, 1⟩, .error ⟨.other, "gone"⟩⟩, ⟨.close ⟨.udp, 1⟩, ()⟩,
    ⟨.connectTcp server, .ok 2⟩, ⟨.wake, ()⟩, ⟨.register ⟨.tcp, 2⟩ 7 .writable, .ok ()⟩]
  let refused : List Event := [⟨.takeError 2, .ok (some ⟨.connectionRefused, "refused"⟩)⟩,
    ⟨.wake, ()⟩, ⟨.deregister ⟨.tcp, 2⟩, .ok ()⟩, ⟨.close ⟨.tcp, 2⟩, ()⟩]
  have h : Query.Visits { id := 7, request := .blank, params := { server } }
      ([_, _] ++ _ :: [_]) _ :=
    .cons (a := .start) (t := bind) (.call _ (.call _ (.call _ (.call _ (.pure _)))))
    <| .cons (a := .ready) (t := send) (.call _ (.call _ (.call _ (.pure _))))
    <| .cons (a := .ready) (t := turn)
      (.call _ (.call _ (.call _ (.call _ (.call _ (.call _ (.call _ (.pure _))))))))
    <| .cons (a := .ready) (t := refused) (.call _ (.call _ (.call _ (.call _ (.pure _))))) (.nil _)
  have he : ∃ w ∈ turn, w.endsUdp .blank := ⟨_, .head _, rfl⟩
  let fresh : QueryParams := { server, mode := .tcpOnly }
  have hfresh : fresh.mode = .tcpOnly := rfl
  obtain ⟨u, rest, ht, ⟨fs, f, hf, hm, -⟩, -⟩ := fallback_as_tcpOnly h (.inl he) hfresh rfl
  exact ⟨_, _, fresh, [_, _], _, _, _, _, _, h, he, rfl, rfl, rfl, u, rest, ht, fs, f, hf, hm⟩

end DnsClient
