import DnsClient.Proofs.Query.Visits

/-!
The order in which a query goes through UDP and TCP.

Over a whole run a query binds one socket at most, completes one send at most, and begins one
connection at most: each of these is spent from an allowance that a phase further on does not have.
Which call begins the connection, and why, is decided in that call alone.
-/

namespace DnsClient

open Program

/-- What a run does in which order, for a query with this request and these parameters. -/
structure ProtocolOrder (request : Message) (params : QueryParams) (vs : List Query.Visit) :
    Prop where
  /-- Phases only move forward. -/
  forward : (Phase.idle :: vs.map (·.after.phase)).Pairwise fun p p' => p.rank ≤ p'.rank
  oneBind : (udpBinds (Query.eventsOf vs)).length ≤ 1
  oneConnect : (tcpTargets (Query.eventsOf vs)).length ≤ 1
  tcpOnly : params.mode = .tcpOnly → udpBinds (Query.eventsOf vs) = []
  /-- The one send that may succeed was given the whole request. -/
  send : udpSends (Query.eventsOf vs) = [] ∨ udpSends (Query.eventsOf vs) = [request.octets]
  /-- A query that is answered over UDP ends with that, and never turns to TCP. -/
  answered : ∀ v ∈ vs, ∀ o ∈ datagrams v.calls, request.accepts o →
    (∃ m, v.step = .done (.ok m) ∧ m.octets = o) ∧ tcpTargets (Query.eventsOf vs) = []
  /-- UDP is used with the same server as TCP. -/
  server : ∀ v ∈ vs, ∀ n a x, (⟨.connectUdp n a, x⟩ : Event) ∈ v.calls → a = params.server
  /-- A call that ends the UDP attempt in any other way begins one connection to the server. -/
  fallback : ∀ v ∈ vs, (∃ w ∈ v.calls, w.endsUdp request) → tcpTargets v.calls = [params.server]
  /-- No other call does so, but for the start without UDP. -/
  cause : ∀ v ∈ vs, tcpTargets v.calls ≠ [] →
    (∃ w ∈ v.calls, w.endsUdp request) ∨ params.mode = .tcpOnly ∧ v.action = .start
  /-- UDP is left with an answer or for TCP, unless the query is given up. -/
  leave : ∀ v ∈ vs, v.action ≠ .abandon → v.before.phase.rank ≤ 2 → 2 < v.after.phase.rank →
    (∃ o ∈ datagrams v.calls, request.accepts o) ∨ tcpTargets v.calls = [params.server]
  /-- After the query is done, calls neither do nor tell anything. -/
  done : vs.Pairwise fun v w => v.step ≠ .pending → w.step = .pending ∧ w.calls = []

variable {t u : List Event} {p p' p'' : Phase}

lemma OffUdp.endsUdp_eq (h : OffUdp t) (m : Message) : ∀ w ∈ t, w.endsUdp m = false := by
  rintro ⟨c, x⟩ hw
  have hc := h _ hw
  cases c <;> simp [Call.purpose] at hc <;> simp [Event.endsUdp]
  all_goals
    split at hc
    · simp at hc
    · next hs => cases x <;> simp [hs]

lemma Phase.rank_le_of_udp {n : Nat} (h : p.socket? = some ⟨.udp, n⟩) : p.rank ≤ 2 := by
  cases p <;> simp [Phase.socket?] at h <;> simp [Phase.rank]

lemma Phase.rank_of_tcp {n : Nat} (h : p.socket? = some ⟨.tcp, n⟩) : 2 < p.rank := by
  cases p <;> simp [Phase.socket?] at h <;> simp [Phase.rank]

/-! ### Allowances -/

/-- What may be done only once, done or still to do. -/
structure Spends (p : Phase) (t : List Event) (p' : Phase) : Prop where
  binds : (udpBinds t).length + p'.allowance 0 ≤ p.allowance 0
  sends : (udpSends t).length + p'.allowance 1 ≤ p.allowance 1
  connects : (tcpTargets t).length + p'.allowance 2 ≤ p.allowance 2

lemma Spends.append (h : Spends p t p') (h' : Spends p' u p'') : Spends p (t ++ u) p'' where
  binds := by
    have h1 := h.binds
    have h2 := h'.binds
    rw [udpBinds_append, List.length_append]
    omega
  sends := by
    have h1 := h.sends
    have h2 := h'.sends
    rw [udpSends_append, List.length_append]
    omega
  connects := by
    have h1 := h.connects
    have h2 := h'.connects
    rw [tcpTargets_append, List.length_append]
    omega

lemma Late.spends (h : Late t) (hr : p.rank ≤ p'.rank) : Spends p t p' where
  binds := by
    rw [h.offUdp.udpBinds_eq]
    simpa using Phase.allowance_anti hr
  sends := by
    rw [h.offUdp.udpSends_eq]
    simpa using Phase.allowance_anti hr
  connects := by
    rw [h.tcpTargets_eq]
    simpa using Phase.allowance_anti hr

namespace Query

variable {v : List Event} {q q' q'' : Query} {r : Step × Query} {a : Action} {vs : List Visit}

/-! ### Single calls -/

lemma spends_tcpConnect (hp : p.rank ≤ 2) (h : Yields q.tcpConnect t r) :
    Spends p t r.2.phase := by
  have hr := (leads_tcpConnect h).rank
  obtain ⟨u, x, v, rfl, hu, hv, -⟩ := yields_tcpConnect h
  have hc : Spends p [⟨.connectTcp q.params.server, x⟩] r.2.phase := by
    refine ⟨?_, ?_, ?_⟩
    · simpa [udpBinds] using Phase.allowance_anti (by omega)
    · simpa [udpSends] using Phase.allowance_anti (by omega)
    · rw [Phase.allowance_eq_zero (p := r.2.phase) (by omega), Phase.allowance_eq_one hp]
      simp [tcpTargets]
  exact (hu.late.spends (Nat.le_refl _)).append (hc.append (hv.late.spends (Nat.le_refl _)))

lemma tcpTargets_tcpConnect (h : Yields q.tcpConnect t r) :
    tcpTargets t = [q.params.server] := by
  obtain ⟨u, x, v, rfl, hu, hv, -⟩ := yields_tcpConnect h
  rw [tcpTargets_append, hu.late.tcpTargets_eq]
  simpa [tcpTargets] using hv.late.tcpTargets_eq

lemma offUdp_tcpConnect (h : Yields q.tcpConnect t r) : OffUdp t := by
  obtain ⟨u, x, v, rfl, hu, hv, -⟩ := yields_tcpConnect h
  exact offUdp_append.2 ⟨hu.late.offUdp, offUdp_cons.2 ⟨by simp [Call.purpose], hv.late.offUdp⟩⟩

lemma UdpPart.tcpTargets_eq (h : UdpPart q p u) : tcpTargets u = [] := tcpTargets_eq_nil h.purpose

lemma UdpPart.spends (h : UdpPart q p u) (hr : q.phase.rank ≤ p.rank) :
    Spends q.phase u p where
  binds := h.binds
  sends := h.sends
  connects := by
    rw [h.tcpTargets_eq]
    simpa using Phase.allowance_anti hr

lemma Attempt.spends (hp : q.phase.rank ≤ 2) (h : Attempt q t r) :
    Spends q.phase t r.2.phase := by
  cases h with
  | goesOn hu _ _ _ hr _ _ => exact hu.spends hr
  | @succeeds v n m hp' o _ _ _ hv =>
    have ho : Spends q.phase [⟨.recvUdp n q.params.payloadSize.toNat, .ok o⟩] .closed := by
      refine ⟨?_, ?_, ?_⟩
      all_goals simp [udpBinds, udpSends, tcpTargets, Phase.allowance, Phase.rank]
    exact ho.append (hv.late.spends (Nat.le_refl _))
  | @ends u v q' r hu _ _ h hs =>
    -- nothing but the connection is left to do, as in the last phase of UDP
    have hu' : Spends q.phase u (.udpRead 0) := by
      refine ⟨hu.binds, hu.sends, ?_⟩
      rw [hu.tcpTargets_eq, Phase.allowance_eq_one hp]
      simp [Phase.allowance, Phase.rank]
    exact hu'.append (spends_tcpConnect (Nat.le_refl _) h)

lemma Move.spends (h : Move q a t r) : Spends q.phase t r.2.phase := by
  cases h with
  | rests _ => exact Late.spends (fun _ h => by cases h) (Nat.le_refl _)
  | givesUp ht _ => exact ht.late.spends (Phase.rank_le _)
  | attempts hp _ h => exact h.spends hp
  | starts hp _ h => exact spends_tcpConnect (by simp [hp, Phase.rank]) h
  | streams hs h =>
    obtain ⟨ht, hl⟩ := late_leads_ready hs h
    exact ht.spends hl.rank

/-! ### What single calls do -/

/-- What a call tells from why it does something, for a query with this request and these
parameters. -/
structure Fits (request : Message) (params : QueryParams) (v : Visit) : Prop where
  tcpOnly : params.mode = .tcpOnly → udpBinds v.calls = []
  whole : ∀ o ∈ udpSends v.calls, o = request.octets
  answered : ∀ o ∈ datagrams v.calls, request.accepts o →
    (∃ m, v.step = .done (.ok m) ∧ m.octets = o) ∧ tcpTargets v.calls = [] ∧
      v.after.phase = .closed
  server : ∀ n a x, (⟨.connectUdp n a, x⟩ : Event) ∈ v.calls → a = params.server
  fallback : (∃ w ∈ v.calls, w.endsUdp request) → tcpTargets v.calls = [params.server]
  cause : tcpTargets v.calls ≠ [] →
    (∃ w ∈ v.calls, w.endsUdp request) ∨ params.mode = .tcpOnly ∧ v.action = .start
  leave : v.action ≠ .abandon → v.before.phase.rank ≤ 2 → 2 < v.after.phase.rank →
    (∃ o ∈ datagrams v.calls, request.accepts o) ∨ tcpTargets v.calls = [params.server]

variable {request : Message} {params : QueryParams}

/-- Away from UDP, all that matters is why a connection is begun, and whether one is. -/
lemma fits_of_offUdp {w : Visit} (h : OffUdp w.calls)
    (hc : tcpTargets w.calls ≠ [] → params.mode = .tcpOnly ∧ w.action = .start)
    (hl : w.action ≠ .abandon → w.before.phase.rank ≤ 2 → 2 < w.after.phase.rank →
      tcpTargets w.calls = [params.server]) : Fits request params w where
  tcpOnly _ := h.udpBinds_eq
  whole o ho := by simp [h.udpSends_eq] at ho
  answered o ho := by simp [h.datagrams_eq] at ho
  server n a x hx := absurd rfl (h _ hx)
  fallback := fun ⟨w, hw, he⟩ => by simp [h.endsUdp_eq request w hw] at he
  cause ht := .inr (hc ht)
  leave ha hb hp := .inr (hl ha hb hp)

/-- No socket is bound without UDP. -/
lemma UdpPart.udpBinds_eq (h : UdpPart q p u) (hm : q.phase = .idle → q.params.mode = .preferUdp)
    (ht : q.params.mode = .tcpOnly) : udpBinds u = [] := by
  have hr : 0 < q.phase.rank := by
    rcases hp : q.phase with _ | _ | _ | _ | _ | _ | _
    case idle => simp [ht] at hm; exact absurd hp hm
    all_goals simp [Phase.rank]
  have hb := h.binds
  rw [Phase.allowance_eq_zero hr] at hb
  exact List.eq_nil_of_length_eq_zero (by omega)

lemma Attempt.fits (h : Attempt q t r) (hm : q.phase = .idle → q.params.mode = .preferUdp) :
    Fits q.request q.params ⟨q, a, t, r.1, r.2⟩ := by
  cases h with
  | @goesOn u q' n hu hd he _ _ hp _ =>
    refine ⟨hu.udpBinds_eq hm, hu.request, ?_, hu.server, ?_, fun h => absurd hu.tcpTargets_eq h,
      ?_⟩
    · intro o ho
      simp [hd] at ho
    · rintro ⟨w, hw, he'⟩
      simp [he w hw] at he'
    · intro _ _ hr
      have := Phase.rank_le_of_udp hp
      exact absurd hr (by simpa using this)
  | @succeeds v n m _ o ho hi ht hv =>
    have hc : tcpTargets (⟨.recvUdp n q.params.payloadSize.toNat, .ok o⟩ :: v) = [] := by
      simpa [tcpTargets] using hv.late.tcpTargets_eq
    have hd : datagrams (⟨.recvUdp n q.params.payloadSize.toNat, .ok o⟩ :: v) = [o.1] := by
      simpa [datagrams] using hv.late.offUdp.datagrams_eq
    have ha : q.request.accepts o.1 := by simp [Message.accepts, ho, hi, ht]
    refine ⟨?_, ?_, ?_, ?_, ?_, fun h => absurd hc h, fun _ _ _ => .inl ⟨o.1, ?_, ha⟩⟩
    · intro _
      simpa [udpBinds] using hv.late.offUdp.udpBinds_eq
    · intro o' ho'
      have hs := hv.late.offUdp.udpSends_eq
      simp only [udpSends, List.filterMap_cons] at hs ho'
      simp [hs] at ho'
    · intro o' ho' _
      rw [hd, List.mem_singleton] at ho'
      subst ho'
      exact ⟨⟨m, rfl, Message.ofOctets?_eq_some.1 ho⟩, hc, rfl⟩
    · intro n a x hx
      rcases List.mem_cons.1 hx with h | h
      · cases h
      · exact absurd rfl (hv.late.offUdp _ h)
    · rintro ⟨w, hw, he⟩
      rcases List.mem_cons.1 hw with rfl | h
      · simp [Event.endsUdp, ha] at he
      · simp [hv.late.offUdp.endsUdp_eq q.request w h] at he
    · rw [hd, List.mem_singleton]
  | @ends u v q' r hu hd he h hs =>
    have hv := offUdp_tcpConnect h
    have hc : tcpTargets (u ++ v) = [q.params.server] := by
      rw [tcpTargets_append, hu.tcpTargets_eq, tcpTargets_tcpConnect h, hs.params]
      rfl
    obtain ⟨w, hw, he'⟩ := he
    refine ⟨?_, ?_, ?_, ?_, fun _ => hc, fun _ => .inl ⟨w, List.mem_append_left _ hw, he'⟩,
      fun _ _ _ => .inr hc⟩
    · intro ht
      rw [udpBinds_append, hu.udpBinds_eq hm ht, hv.udpBinds_eq]
      rfl
    · intro o ho
      rw [udpSends_append, hv.udpSends_eq, List.append_nil] at ho
      exact hu.request o ho
    · intro o ho ha
      rw [datagrams_append, hv.datagrams_eq, List.append_nil] at ho
      simp [hd o ho] at ha
    · intro n a x hx
      rcases List.mem_append.1 hx with h | h
      · exact hu.server n a x h
      · exact absurd rfl (hv _ h)

lemma Move.fits (h : Move q a t r) : Fits q.request q.params ⟨q, a, t, r.1, r.2⟩ := by
  cases h with
  | rests _ =>
    exact fits_of_offUdp (fun _ h => by cases h) (fun h => absurd rfl h)
      fun _ h h' => absurd h (Nat.not_le.2 h')
  | givesUp ht _ =>
    exact fits_of_offUdp ht.late.offUdp (fun h => absurd ht.late.tcpTargets_eq h)
      fun h => absurd rfl h
  | attempts _ hm h => exact h.fits hm
  | starts _ hm h =>
    exact fits_of_offUdp (offUdp_tcpConnect h) (fun _ => ⟨hm, rfl⟩)
      fun _ _ _ => tcpTargets_tcpConnect h
  | streams hs h =>
    obtain ⟨ht, -⟩ := late_leads_ready hs h
    have hr := Phase.rank_of_tcp hs
    exact fits_of_offUdp ht.offUdp (fun h => absurd ht.tcpTargets_eq h)
      fun _ h _ => absurd h (Nat.not_le.2 hr)

/-- Datagrams are received on UDP only. -/
lemma Move.rank_of_datagrams (h : Move q a t r) (hd : datagrams t ≠ []) : q.phase.rank ≤ 2 := by
  cases h with
  | rests _ => exact absurd rfl hd
  | givesUp ht _ => exact absurd ht.late.offUdp.datagrams_eq hd
  | attempts hp _ _ => exact hp
  | starts _ _ h => exact absurd (offUdp_tcpConnect h).datagrams_eq hd
  | streams hs h => exact absurd (late_leads_ready hs h).1.offUdp.datagrams_eq hd

/-! ### Runs -/

lemma Visits.spends (h : Visits q vs q') : Spends q.phase (eventsOf vs) q'.phase := by
  induction h with
  | nil q => exact Late.spends (fun _ h => by cases h) (Nat.le_refl _)
  | cons h _ ih => exact (move_of_act h).spends.append ih

lemma Visits.fits (h : Visits q vs q') : ∀ v ∈ vs, Fits q.request q.params v := by
  induction h with
  | nil q => intro v hv; cases hv
  | cons h _ ih =>
    have hm := move_of_act h
    have hs := hm.leads.same
    rw [hs.request, hs.params] at ih
    exact List.forall_mem_cons.2 ⟨hm.fits, ih⟩

lemma Visits.forward (h : Visits q vs q') :
    (q.phase :: vs.map (·.after.phase)).Pairwise fun p p' => p.rank ≤ p'.rank := by
  induction h with
  | nil q => exact List.pairwise_singleton _ _
  | cons h _ ih =>
    have hr := (move_of_act h).leads.rank
    refine List.pairwise_cons.2 ⟨List.forall_mem_cons.2 ⟨hr, fun p hp => ?_⟩, ih⟩
    exact Nat.le_trans hr (List.rel_of_pairwise_cons ih hp)

lemma Visits.done (h : Visits q vs q') :
    vs.Pairwise fun v w => v.step ≠ .pending → w.step = .pending ∧ w.calls = [] := by
  induction h with
  | nil q => exact .nil
  | @cons q q₁ q₂ a t s vs h hs ih =>
    refine List.pairwise_cons.2 ⟨fun w hw hd => ?_, ih⟩
    cases s with
    | pending => exact absurd rfl hd
    | done x => exact hs.closed ((move_of_act h).leads.closed x rfl).1 w hw

lemma Visits.rank_of_datagrams (h : Visits q vs q') (hd : datagrams (eventsOf vs) ≠ []) :
    q.phase.rank ≤ 2 := by
  induction h with
  | nil q => exact absurd rfl hd
  | @cons q q₁ q₂ a t s vs h _ ih =>
    have hm := move_of_act h
    by_cases ht : datagrams t = []
    · rw [eventsOf_cons, datagrams_append, ht] at hd
      exact Nat.le_trans hm.leads.rank (ih hd)
    · exact hm.rank_of_datagrams ht

lemma udpBinds_eventsOf (vs : List Visit) :
    udpBinds (eventsOf vs) = vs.flatMap fun v => udpBinds v.calls := List.filterMap_flatMap

lemma udpSends_eventsOf (vs : List Visit) :
    udpSends (eventsOf vs) = vs.flatMap fun v => udpSends v.calls := List.filterMap_flatMap

lemma datagrams_eventsOf (vs : List Visit) :
    datagrams (eventsOf vs) = vs.flatMap fun v => datagrams v.calls := List.filterMap_flatMap

/-- Before an answer comes over UDP no connection is begun, and after it there is nothing. -/
lemma Visits.answered (h : Visits q vs q') {v : Visit} (hv : v ∈ vs) {o : Octets}
    (ho : o ∈ datagrams v.calls) (ha : q.request.accepts o) : tcpTargets (eventsOf vs) = [] := by
  induction h with
  | nil q => cases hv
  | @cons q q₁ q₂ a t s vs h hs ih =>
    have hm := move_of_act h
    rw [eventsOf_cons, tcpTargets_append]
    rcases List.mem_cons.1 hv with rfl | hv
    · obtain ⟨-, ht, hp⟩ := hm.fits.answered o ho ha
      have he : eventsOf vs = [] :=
        List.flatMap_eq_nil_iff.2 fun w hw => (hs.closed hp w hw).2
      rw [ht, he]
      rfl
    · have hd : datagrams (eventsOf vs) ≠ [] := by
        rw [datagrams_eventsOf]
        exact List.ne_nil_of_mem (List.mem_flatMap.2 ⟨v, hv, ho⟩)
      have hc := hm.spends.connects
      have h1 : q.phase.allowance 2 ≤ 1 := Phase.allowance_le_one _
      have h2 : (tcpTargets t).length = 0 := by
        rw [Phase.allowance_eq_one (hs.rank_of_datagrams hd)] at hc
        omega
      rw [ih hv (by rw [hm.leads.same.request]; exact ha), List.append_nil]
      exact List.eq_nil_of_length_eq_zero h2

end Query

/-- **The order of a query**: whatever the calls on it and their results, a query that starts
fresh keeps to the order of UDP before TCP. -/
theorem protocol_order {id : QueryId} {request : Message} {params : QueryParams}
    {vs : List Query.Visit} {q : Query} (h : Query.Visits { id, request, params } vs q) :
    ProtocolOrder request params vs := by
  have hs := h.spends
  have hf := h.fits
  have hb : (udpBinds (Query.eventsOf vs)).length ≤ 1 := Nat.le_of_add_right_le hs.binds
  have hc : (tcpTargets (Query.eventsOf vs)).length ≤ 1 := Nat.le_of_add_right_le hs.connects
  have hd : (udpSends (Query.eventsOf vs)).length ≤ 1 := Nat.le_of_add_right_le hs.sends
  refine ⟨h.forward, hb, hc, ?_, ?_, ?_, fun v hv => (hf v hv).server,
    fun v hv => (hf v hv).fallback, fun v hv => (hf v hv).cause, fun v hv => (hf v hv).leave,
    h.done⟩
  · intro hm
    rw [Query.udpBinds_eventsOf]
    exact List.flatMap_eq_nil_iff.2 fun v hv => (hf v hv).tcpOnly hm
  · have ho : ∀ o ∈ udpSends (Query.eventsOf vs), o = request.octets := by
      intro o ho
      rw [Query.udpSends_eventsOf] at ho
      obtain ⟨v, hv, ho⟩ := List.mem_flatMap.1 ho
      exact (hf v hv).whole o ho
    rcases hl : udpSends (Query.eventsOf vs) with _ | ⟨o, os⟩
    · exact .inl rfl
    · rw [hl] at hd ho
      obtain rfl : os = [] := List.eq_nil_of_length_eq_zero (by simpa using hd)
      rw [ho o (List.mem_singleton_self o)]
      exact .inr rfl
  · intro v hv o ho ha
    exact ⟨((hf v hv).answered o ho ha).1, h.answered hv ho ha⟩

/-- The order of a query whose datagram is refused: it goes on over TCP until it is given up. -/
theorem protocol_order_refused : ∃ (request : Message) (params : QueryParams)
    (vs : List Query.Visit) (q : Query), Query.Visits { id := 7, request, params } vs q ∧
      vs.map (·.action) = [.start, .ready, .ready, .abandon] ∧
      udpSends (Query.eventsOf vs) = [request.octets] ∧
      tcpTargets (Query.eventsOf vs) = [params.server] ∧ ProtocolOrder request params vs := by
  let server : SocketAddress := ⟨.localhost, 53⟩
  let bind : List Event := [⟨.bindUdp .ipv4, .ok 1⟩, ⟨.connectUdp 1 server, .ok ()⟩,
    ⟨.wake, ()⟩, ⟨.register ⟨.udp, 1⟩ 7 .writable, .ok ()⟩]
  let send : List Event := [⟨.sendUdp 1 Message.blank.octets, .ok ⟨12, by decide⟩⟩, ⟨.wake, ()⟩,
    ⟨.reregister ⟨.udp, 1⟩ 7 .readable, .ok ()⟩]
  let refused : List Event := [⟨.recvUdp 1 1232, .error ⟨.connectionRefused, "refused"⟩⟩,
    ⟨.wake, ()⟩, ⟨.deregister ⟨.udp, 1⟩, .ok ()⟩, ⟨.close ⟨.udp, 1⟩, ()⟩,
    ⟨.connectTcp server, .ok 2⟩, ⟨.wake, ()⟩, ⟨.register ⟨.tcp, 2⟩ 7 .writable, .ok ()⟩]
  let leave : List Event := [⟨.wake, ()⟩, ⟨.deregister ⟨.tcp, 2⟩, .ok ()⟩, ⟨.close ⟨.tcp, 2⟩, ()⟩]
  have h : Query.Visits { id := 7, request := .blank, params := { server } } _ _ :=
    .cons (a := .start) (t := bind) (.call _ (.call _ (.call _ (.call _ (.pure _)))))
    <| .cons (a := .ready) (t := send) (.call _ (.call _ (.call _ (.pure _))))
    <| .cons (a := .ready) (t := refused)
      (.call _ (.call _ (.call _ (.call _ (.call _ (.call _ (.call _ (.pure _))))))))
    <| .cons (a := .abandon) (t := leave) (.call _ (.call _ (.call _ (.pure _)))) (.nil _)
  exact ⟨_, _, _, _, h, rfl, rfl, rfl, protocol_order h⟩

end DnsClient
