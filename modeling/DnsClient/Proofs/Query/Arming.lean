import DnsClient.Proofs.Query.Holdings

/-!
What a query waits for, the network watches.

Within a call the network may hold a socket of the query that is not registered, or registered for
something else (`Query.Keeps`). After a call it holds what the phase says and nothing else
(`Query.Stands`). Each function of a query leads from the one to the other, and so a run keeps to
it, call by call.
-/

namespace DnsClient

open Program

/-- What the network is to hold for a query in some phase: nothing, or the one socket in use,
registered for what the phase waits for. -/
def Phase.holdings (token : QueryId) (p : Phase) : Holdings :=
  match p.socket?, p.interest? with
  | some s, some i => .watched s token i
  | _, _ => {}

/-- After each call of a run the network holds what the phase says, and every call is in place. -/
structure KeepsWatch (token : QueryId) (vs : List Query.Visit) : Prop where
  held : ∀ ws v ws', vs = ws ++ v :: ws' →
    Holdings.account.afterAll {} (Query.eventsOf (ws ++ [v])) = v.after.phase.holdings token
  registered : ∀ v ∈ vs, v.after.registered = v.after.phase.socket?.isSome
  proper : Holdings.account.Proper {} (Query.eventsOf vs)
  /-- A query that has a socket does something with it whenever it is let go on. -/
  works : ∀ v ∈ vs, v.action = .ready → ∀ s ∈ v.before.phase.socket?,
    ∃ w ∈ v.calls, w.1.socket? = some s

namespace Query

variable {q q' : Query} {h : Holdings} {r : Step × Query} {i : Interest} {s : Socket} {n : Nat}
  {e : QueryError} {t : List Event} {p : Phase} {vs : List Visit}

/-- The network holds the socket of the query and nothing else, watched for something if the query
has it registered. -/
def Keeps (q : Query) (h : Holdings) : Prop :=
  match q.phase.socket? with
  | none => h = {}
  | some s => if q.registered then ∃ i, h = .watched s q.id i else h = .opened s

/-- The network holds what the phase of the query says. -/
structure Stands (q : Query) (h : Holdings) : Prop where
  held : h = q.phase.holdings q.id
  registered : q.registered = q.phase.socket?.isSome

/-- However its calls are answered, the program leaves the network with what the phase says. -/
def Watches (p : Program (Step × Query)) (h : Holdings) : Prop :=
  p.Ensures Holdings.account h fun r h' => r.2.Stands h'

lemma stands_close : q.close.Stands {} := ⟨rfl, rfl⟩

lemma stands_watched (hs : q.phase.socket? = some s) (hi : q.phase.interest? = some i)
    (hr : q.registered = true) : q.Stands (.watched s q.id i) where
  held := by simp [Phase.holdings, hs, hi]
  registered := by simp [hs, hr]

lemma Stands.watched (hq : q.Stands h) (hs : q.phase.socket? = some s) :
    q.registered = true ∧ ∃ i, h = .watched s q.id i := by
  have hi : ∃ i, q.phase.interest? = some i := by
    rcases hp : q.phase with _ | _ | _ | _ | _ | _ | _
    case idle | closed => simp [hp, Phase.socket?] at hs
    all_goals exact ⟨_, rfl⟩
  obtain ⟨i, hi⟩ := hi
  exact ⟨by simp [hq.registered, hs], i, by rw [hq.held, Phase.holdings, hs, hi]⟩

/-- With its socket in use, a query may go to any phase of that socket. -/
lemma Stands.keeps_with (hq : q.Stands h) (hs : q.phase.socket? = some s)
    (hp : p.socket? = some s) : Keeps { q with phase := p } h := by
  obtain ⟨hr, i, rfl⟩ := hq.watched hs
  simp [Keeps, hp, hr]

lemma Stands.keeps (hq : q.Stands h) : q.Keeps h := by
  rcases hs : q.phase.socket? with _ | s
  · simp [Keeps, hs, hq.held, Phase.holdings]
  · exact hq.keeps_with hs hs

lemma Stands.allows {c : Call} (hq : q.Stands h) (hs : q.phase.socket? = some s)
    (hc : c.socket? = some s) (hw : c.isWork) : h.Allows c := by
  obtain ⟨-, i, rfl⟩ := hq.watched hs
  exact Holdings.allows_of_work hc (List.mem_singleton_self s) hw

/-! ### Giving up a socket, and registering one -/

lemma holdings_release (hq : q.Keeps h) :
    q.release.Ensures Holdings.account h fun _ h' => h' = {} := by
  unfold release
  unfold Keeps at hq
  split
  · next hs => simpa [hs, Ensures] using hq
  · next s hs =>
    simp only [hs] at hq
    split_ifs at hq ⊢ with hr
    · obtain ⟨i, rfl⟩ := hq
      refine ensures_bind.2 (ensures_perform_bind.2 ⟨by simp, fun _ => ensures_perform.2 ?_⟩)
      refine ⟨by simp, fun x => ensures_perform.2 ?_⟩
      -- whether or not the registration is taken back, it ends with the socket
      cases x with
      | error e => exact ⟨by simp [Holdings.after], fun _ => Holdings.after_close_watched ()⟩
      | ok _ => simp
    · subst hq
      exact ensures_perform.2 (by simp)

lemma holdings_abandon (hq : q.Keeps h) :
    q.abandon.Ensures Holdings.account h fun c h' => c = q.close ∧ h' = {} :=
  ensures_bind.2 ((holdings_release hq).mono fun _ _ h' => ⟨rfl, h'⟩)

lemma watches_fail (hq : q.Keeps h) : Watches (q.fail e) h := by
  refine ensures_bind.2 ((holdings_abandon hq).mono ?_)
  rintro _ _ ⟨rfl, rfl⟩
  exact ⟨rfl, rfl⟩

lemma watches_succeed {m : Message} (hq : q.Keeps h) : Watches (q.succeed m) h := by
  refine ensures_bind.2 ((holdings_abandon hq).mono ?_)
  rintro _ _ ⟨rfl, rfl⟩
  exact stands_close

lemma holdings_arm (hs : q.phase.socket? = some s) (hq : q.Keeps h) :
    (q.arm i).Ensures Holdings.account h fun x h' =>
      match x with
      | .ok q' => q' = { q with registered := true } ∧ h' = .watched s q.id i
      | .error _ => h' = h := by
  simp only [arm, hs]
  simp only [Keeps, hs] at hq
  split_ifs at hq ⊢ with hr
  · obtain ⟨j, rfl⟩ := hq
    refine ensures_bind.2 (ensures_perform_bind.2 ⟨by simp, fun _ => ensures_perform.2 ?_⟩)
    refine ⟨by simp, fun x => ?_⟩
    cases x with
    | ok _ => exact ⟨rfl, Holdings.after_reregister_ok ()⟩
    | error e => rfl
  · subst hq
    refine ensures_bind.2 (ensures_perform_bind.2 ⟨by simp, fun _ => ensures_perform.2 ?_⟩)
    refine ⟨by simp, fun x => ?_⟩
    cases x with
    | ok _ => exact ⟨rfl, Holdings.after_register_ok ()⟩
    | error e => rfl

/-! ### TCP -/

lemma watches_armTcp (hs : q.phase.socket? = some s) (hi : q.phase.interest? = some i)
    (hq : q.Keeps h) : Watches (q.armTcp i) h := by
  refine ensures_bind.2 ((holdings_arm hs hq).mono ?_)
  rintro (e | q') h' hx
  · obtain rfl : h' = h := hx
    exact watches_fail hq
  · obtain ⟨rfl, rfl⟩ := hx
    exact stands_watched (q := { q with registered := true }) hs hi rfl

lemma watches_tcpConnect (hq : q.Keeps h) : Watches q.tcpConnect h := by
  refine ensures_bind.2 ((holdings_abandon hq).mono ?_)
  rintro _ _ ⟨rfl, rfl⟩
  refine ensures_perform_bind.2 ⟨by simp [Holdings.Allows, Call.socket?], fun x => ?_⟩
  cases x with
  | error e => exact watches_fail (q := q.close) rfl
  | ok n => exact watches_armTcp (q := { q.close with phase := .tcpConnect n }) rfl rfl rfl

lemma watches_tcpWrite {w : Nat} (hp : q.phase = .tcpWrite n w) (hq : q.Stands h) :
    Watches (q.tcpWrite n w) h := by
  have hs : q.phase.socket? = some ⟨.tcp, n⟩ := by rw [hp]; rfl
  unfold tcpWrite
  split_ifs
  · exact watches_fail hq.keeps
  · refine ensures_perform_bind.2 ⟨hq.allows hs rfl rfl, fun x => ?_⟩
    match x with
    | .ok ⟨0, _⟩ => exact watches_fail hq.keeps
    | .ok ⟨k + 1, _⟩ =>
      simp only
      split_ifs
      · exact watches_armTcp rfl rfl (hq.keeps_with hs rfl)
      · exact watches_armTcp rfl rfl (hq.keeps_with hs rfl)
    | .error e =>
      simp only
      split_ifs
      · exact watches_armTcp hs (by rw [hp]; rfl) hq.keeps
      · exact watches_fail hq.keeps

lemma watches_tcpConnected (hp : q.phase = .tcpConnect n) (hq : q.Stands h) :
    Watches (q.tcpConnected n) h := by
  have hs : q.phase.socket? = some ⟨.tcp, n⟩ := by rw [hp]; rfl
  refine ensures_perform_bind.2 ⟨hq.allows hs rfl rfl, fun x => ?_⟩
  match x with
  | .error e | .ok (some e) => exact watches_fail hq.keeps
  | .ok none =>
    refine ensures_perform_bind.2 ⟨hq.allows hs rfl rfl, fun y => ?_⟩
    cases y with
    | ok _ =>
      -- a query that writes waits for the same as one that connects
      have hq' : Stands { q with phase := .tcpWrite n 0 } h :=
        ⟨by rw [hq.held, hp]; rfl, by rw [hq.registered, hp]; rfl⟩
      exact watches_tcpWrite rfl hq'
    | error e =>
      simp only
      split_ifs
      · exact watches_armTcp hs (by rw [hp]; rfl) hq.keeps
      · exact watches_fail hq.keeps

lemma watches_tcpRead {reader : StreamReader} (hp : q.phase = .tcpRead n reader)
    (hq : q.Stands h) : Watches (q.tcpRead n reader) h := by
  have hs : q.phase.socket? = some ⟨.tcp, n⟩ := by rw [hp]; rfl
  refine ensures_perform_bind.2 ⟨hq.allows hs rfl rfl, fun x => ?_⟩
  match x with
  | .ok ⟨[], _⟩ => exact watches_fail hq.keeps
  | .ok ⟨a :: o, _⟩ =>
    simp only
    split
    · unfold tcpReply
      split
      · exact watches_fail hq.keeps
      · split_ifs
        · exact watches_succeed hq.keeps
        · exact watches_fail hq.keeps
    · exact watches_armTcp rfl rfl (hq.keeps_with hs rfl)
  | .error e =>
    simp only
    split_ifs
    · exact watches_armTcp hs (by rw [hp]; rfl) hq.keeps
    · exact watches_fail hq.keeps

/-! ### UDP -/

lemma watches_fallback {e : Option QueryError} (hq : q.Keeps h) :
    Watches (q.fallback e) h := watches_tcpConnect hq

lemma watches_armUdp (hs : q.phase.socket? = some s) (hi : q.phase.interest? = some i)
    (hq : q.Keeps h) : Watches (q.armUdp i) h := by
  refine ensures_bind.2 ((holdings_arm hs hq).mono ?_)
  rintro (e | q') h' hx
  · obtain rfl : h' = h := hx
    exact watches_fallback hq
  · obtain ⟨rfl, rfl⟩ := hx
    exact stands_watched (q := { q with registered := true }) hs hi rfl

lemma watches_udpConnect (hp : q.phase = .idle) (hq : q.Stands h) : Watches q.udpConnect h := by
  have hr : q.registered = false := by rw [hq.registered, hp]; rfl
  obtain rfl : h = {} := by rw [hq.held, hp]; rfl
  refine ensures_perform_bind.2 ⟨by simp [Holdings.Allows, Call.socket?], fun x => ?_⟩
  cases x with
  | error e => exact watches_fallback hq.keeps
  | ok n =>
    have hm : (⟨.udp, n⟩ : Socket) ∈ [⟨.udp, n⟩] := List.mem_singleton_self _
    refine ensures_perform_bind.2 ⟨Holdings.allows_of_work rfl hm rfl, fun y => ?_⟩
    cases y with
    | error e =>
      have hc : (Holdings.opened ⟨.udp, n⟩).after ⟨.close ⟨.udp, n⟩, ()⟩ = {} := by simp
      refine ensures_perform_bind.2 ⟨Holdings.allows_close.2 hm, fun _ => watches_fallback ?_⟩
      simp only [Keeps, hp, Phase.socket?]
      exact hc
    | ok _ =>
      refine watches_armUdp rfl rfl ?_
      simp only [Keeps, Phase.socket?, hr]
      rfl

lemma watches_udpWrite (hp : q.phase = .udpWrite n) (hq : q.Stands h) :
    Watches (q.udpWrite n) h := by
  have hs : q.phase.socket? = some ⟨.udp, n⟩ := by rw [hp]; rfl
  refine ensures_perform_bind.2 ⟨hq.allows hs rfl rfl, fun x => ?_⟩
  cases x with
  | ok k =>
    simp only
    split_ifs
    · exact watches_armUdp rfl rfl (hq.keeps_with hs rfl)
    · exact watches_fallback hq.keeps
  | error e =>
    simp only
    split_ifs
    · exact watches_armUdp hs (by rw [hp]; rfl) hq.keeps
    · exact watches_fallback hq.keeps

lemma watches_udpRead (hp : q.phase = .udpRead n) (hq : q.Stands h) : Watches (q.udpRead n) h := by
  have hs : q.phase.socket? = some ⟨.udp, n⟩ := by rw [hp]; rfl
  refine ensures_perform_bind.2 ⟨hq.allows hs rfl rfl, fun x => ?_⟩
  cases x with
  | ok o =>
    simp only [udpReply]
    split
    · exact watches_fallback hq.keeps
    · split_ifs
      · exact watches_fallback hq.keeps
      · exact watches_fallback hq.keeps
      · exact watches_succeed hq.keeps
  | error e =>
    simp only
    split_ifs
    · exact watches_armUdp hs (by rw [hp]; rfl) hq.keeps
    · exact watches_fallback hq.keeps

/-! ### Calls -/

/-- A call on a query leaves the network with what the phase then says. -/
lemma watches_act (a : Action) (hq : q.Stands h) : Watches (q.act a) h := by
  cases a with
  | start =>
    simp only [act, start]
    split
    · next hp =>
      split
      · exact watches_udpConnect hp hq
      · exact watches_tcpConnect hq.keeps
    · exact hq
  | ready =>
    simp only [act, ready]
    split
    · exact hq
    · exact hq
    · next hp => exact watches_udpWrite hp hq
    · next hp => exact watches_udpRead hp hq
    · next hp => exact watches_tcpConnected hp hq
    · next hp => exact watches_tcpWrite hp hq
    · next hp => exact watches_tcpRead hp hq
  | abandon =>
    refine ensures_bind.2 ((holdings_abandon hq.keeps).mono ?_)
    rintro _ _ ⟨rfl, rfl⟩
    exact stands_close

lemma Visits.stands (hv : Visits q vs q') (hq : q.Stands h) :
    Holdings.account.Proper h (eventsOf vs) ∧
      q'.Stands (Holdings.account.afterAll h (eventsOf vs)) := by
  induction hv generalizing h with
  | nil q => exact ⟨trivial, hq⟩
  | @cons q q₁ q₂ a t s vs ha _ ih =>
    obtain ⟨ht, hq₁⟩ := (watches_act a hq).yields ha
    obtain ⟨hvs, hq₂⟩ := ih hq₁
    rw [eventsOf_cons, Account.proper_append, Account.afterAll_append]
    exact ⟨⟨ht, hvs⟩, hq₂⟩

/-- The calls that give up the socket of a query, if it has one. -/
def closings (q : Query) : List Call :=
  match q.phase.socket? with
  | none => []
  | some s => [.wake, .deregister s, .close s]

lemma calls_of_abandon (hr : q.registered = q.phase.socket?.isSome) (h : Yields q.abandon t q') :
    t.map (·.1) = q.closings := by
  obtain ⟨u, _, v, hu, hv, rfl⟩ := yields_bind.1 h
  obtain ⟨rfl, -⟩ := yields_pure.1 hv
  rw [List.append_nil, closings]
  unfold release at hu
  cases hs : q.phase.socket? with
  | none =>
    simp only [hs] at hu
    obtain ⟨rfl, -⟩ := yields_pure.1 hu
    rfl
  | some s =>
    have hr : q.registered = true := by rw [hr, hs]; rfl
    simp only [hs, hr, if_true] at hu
    obtain ⟨_, _, _, hd, hc, rfl⟩ := yields_bind.1 hu
    obtain ⟨_, _, rfl, hd'⟩ := yields_perform_bind.1 hd
    obtain rfl := yields_perform.1 hd'
    obtain rfl := yields_perform.1 hc
    rfl

/-- A socket that is given up is closed. -/
lemma close_mem_of_release (hs : q.phase.socket? = some s) {x : Unit}
    (h : Yields q.release t x) : (⟨.close s, ()⟩ : Event) ∈ t := by
  simp only [release, hs] at h
  split at h
  · obtain ⟨_, _, _, -, hc, rfl⟩ := yields_bind.1 h
    obtain rfl := yields_perform.1 hc
    simp
  · obtain rfl := yields_perform.1 h
    simp

lemma works_of_perform {α : Type} {c : Call} {f : c.Answer → Program α} {a : α}
    (hc : c.socket? = some s) (h : Yields (perform c >>= f) t a) :
    ∃ w ∈ t, w.1.socket? = some s := by
  obtain ⟨x, u, rfl, -⟩ := yields_perform_bind.1 h
  exact ⟨_, List.mem_cons_self, hc⟩

lemma works_tcpWrite {w : Nat} (hs : q.phase.socket? = some ⟨.tcp, n⟩)
    (h : Yields (q.tcpWrite n w) t r) : ∃ v ∈ t, v.1.socket? = some ⟨.tcp, n⟩ := by
  unfold tcpWrite at h
  split at h
  · obtain ⟨_, _, _, ha, -, rfl⟩ := yields_bind.1 h
    obtain ⟨_, _, _, hr, -, rfl⟩ := yields_bind.1 ha
    have hm := close_mem_of_release hs hr
    exact ⟨_, List.mem_append_left _ (List.mem_append_left _ hm), rfl⟩
  · exact works_of_perform rfl h

lemma works_ready (hs : q.phase.socket? = some s) (h : Yields q.ready t r) :
    ∃ v ∈ t, v.1.socket? = some s := by
  unfold ready at h
  split at h
  case h_1 hp | h_2 hp => simp [hp, Phase.socket?] at hs
  case h_6 hp =>
    obtain rfl : ⟨.tcp, _⟩ = s := by simpa [hp, Phase.socket?] using hs
    exact works_tcpWrite hs h
  all_goals
    next hp =>
    obtain rfl : _ = s := by simpa [hp, Phase.socket?] using hs
    exact works_of_perform rfl h

end Query

/-- **A query is watched for what it waits for**: whatever the calls on it and their results, after
each call the network holds the one socket of its phase, registered under the query's own token for
what that phase waits for, or nothing if the phase has no socket. -/
theorem keeps_watch {id : QueryId} {request : Message} {params : QueryParams}
    {vs : List Query.Visit} {q : Query} (h : Query.Visits { id, request, params } vs q) :
    KeepsWatch id vs := by
  have hq : Query.Stands { id, request, params } {} := ⟨rfl, rfl⟩
  -- a run up to one of its visits is a run as well
  have stands (ws : List Query.Visit) (v : Query.Visit) (ws' : List Query.Visit)
      (hv : vs = ws ++ v :: ws') :
      v.after.Stands (Holdings.account.afterAll {} (Query.eventsOf (ws ++ [v]))) := by
    obtain ⟨hws, ha, -⟩ := Query.Visits.split (hv ▸ h)
    exact ((hws.snoc ha).stands hq).2
  refine ⟨fun ws v ws' hv => ?_, fun v hv => ?_, (h.stands hq).1, fun v hv ha s hs => ?_⟩
  · obtain ⟨hws, ha, -⟩ := Query.Visits.split (hv ▸ h)
    rw [(stands ws v ws' hv).held, (hws.snoc ha).same.1.id]
  · obtain ⟨ws, ws', hv⟩ := List.append_of_mem hv
    exact (stands ws v ws' hv).registered
  · obtain ⟨ws, ws', hv⟩ := List.append_of_mem hv
    obtain ⟨-, hr, -⟩ := Query.Visits.split (hv ▸ h)
    rw [ha] at hr
    exact Query.works_ready hs hr

/-- The sockets of a query that cannot register for reading: it leaves UDP at once, and is watched
as it connects, until it is given up. -/
theorem keeps_watch_unregistered : ∃ (request : Message) (params : QueryParams)
    (vs : List Query.Visit) (q : Query), Query.Visits { id := 7, request, params } vs q ∧
      vs.map (·.action) = [.start, .ready, .abandon] ∧
      vs.map (fun v => v.after.phase.holdings 7) =
        [.watched ⟨.udp, 1⟩ 7 .writable, .watched ⟨.tcp, 2⟩ 7 .writable, {}] ∧
      KeepsWatch 7 vs := by
  let server : SocketAddress := ⟨.localhost, 53⟩
  let bind : List Event := [⟨.bindUdp .ipv4, .ok 1⟩, ⟨.connectUdp 1 server, .ok ()⟩,
    ⟨.wake, ()⟩, ⟨.register ⟨.udp, 1⟩ 7 .writable, .ok ()⟩]
  let turn : List Event := [⟨.sendUdp 1 Message.blank.octets, .ok ⟨12, by decide⟩⟩, ⟨.wake, ()⟩,
    ⟨.reregister ⟨.udp, 1⟩ 7 .readable, .error ⟨.outOfMemory, "out of memory"⟩⟩,
    ⟨.wake, ()⟩, ⟨.deregister ⟨.udp, 1⟩, .ok ()⟩, ⟨.close ⟨.udp, 1⟩, ()⟩,
    ⟨.connectTcp server, .ok 2⟩, ⟨.wake, ()⟩, ⟨.register ⟨.tcp, 2⟩ 7 .writable, .ok ()⟩]
  let leave : List Event := [⟨.wake, ()⟩, ⟨.deregister ⟨.tcp, 2⟩, .ok ()⟩, ⟨.close ⟨.tcp, 2⟩, ()⟩]
  have h : Query.Visits { id := 7, request := .blank, params := { server } } _ _ :=
    .cons (a := .start) (t := bind) (.call _ (.call _ (.call _ (.call _ (.pure _)))))
    <| .cons (a := .ready) (t := turn) (.call _ (.call _ (.call _ (.call _ (.call _ (.call _
        (.call _ (.call _ (.call _ (.pure _))))))))))
    <| .cons (a := .abandon) (t := leave) (.call _ (.call _ (.call _ (.pure _)))) (.nil _)
  exact ⟨_, _, _, _, h, rfl, rfl, keeps_watch h⟩

end DnsClient
