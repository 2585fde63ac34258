import DnsClient.Proofs.Query.Trace

/-!
What a query does once it has left UDP, function by function.

Each function has a lemma that takes its trace and its result apart. From those come the two facts
about all of them: the trace is late, and the query is led on (`Leads`): it stays the same query,
its phase does not fall back, and if it is done, it is closed.
-/

namespace DnsClient

open Program

/-- The error comes from an exchange with a server, and not from the engine around it. -/
def QueryError.isProtocol : QueryError → Bool
  | .timeout | .shutdown | .compose | .setup _ => false
  | _ => true

lemma Phase.rank_eq_zero {p : Phase} : p.rank = 0 ↔ p = .idle := by cases p <;> simp [Phase.rank]

lemma Phase.rank_le (p : Phase) : p.rank ≤ 6 := by cases p <;> simp [Phase.rank]

namespace Query

variable {t : List Event} {q : Query} {r : Step × Query} {i : Interest} {s : Socket} {n : Nat}

/-! ### Giving up a socket -/

lemma yields_release {x : Unit} (h : Yields q.release t x) :
    Quiet t ∧ (q.phase.socket? = none → t = []) := by
  unfold release at h
  split at h
  · obtain ⟨rfl, -⟩ := yields_pure.1 h
    simp
  · next s hs =>
    refine ⟨?_, by simp [hs]⟩
    split at h
    · obtain ⟨_, _, _, hd, hc, rfl⟩ := yields_bind.1 h
      obtain ⟨_, _, rfl, hd'⟩ := yields_perform_bind.1 hd
      obtain rfl := yields_perform.1 hd'
      obtain rfl := yields_perform.1 hc
      simp [quiet_cons, Call.purpose]
    · obtain rfl := yields_perform.1 h
      simp [quiet_cons, Call.purpose]

lemma yields_abandon {c : Query} (h : Yields q.abandon t c) :
    Quiet t ∧ (q.phase.socket? = none → t = []) ∧ c = q.close := by
  obtain ⟨_, _, _, hr, hc, rfl⟩ := yields_bind.1 h
  obtain ⟨rfl, rfl⟩ := yields_pure.1 hc
  have := yields_release hr
  simpa using this

/-- The error that a query fails with, made of the last one and those recorded before. -/
def failure (q : Query) (e : QueryError) : QueryError :=
  (QueryError.bundle? (q.errors ++ [e])).getD e

/-- The end of a query that fails. -/
def failed (q : Query) (e : QueryError) : Step × Query :=
  (.done (.error (q.failure e)), { q.close with errors := [] })

/-- The query is over with this error, behind those recorded before. -/
def FailsWith (q : Query) (e : QueryError) (r : Step × Query) : Prop :=
  r.2.phase = .closed ∧ ∃ x, r.1 = .done (.error x) ∧ x.causes = q.errors ++ [e]

lemma failsWith_failed {e : QueryError} (he : e.causes = [e]) : q.FailsWith e (q.failed e) := by
  refine ⟨rfl, q.failure e, rfl, ?_⟩
  rcases hq : q.errors with _ | ⟨e', es⟩
  · simpa [failure, hq, QueryError.bundle?] using he
  · cases es <;> simp [failure, hq, QueryError.bundle?, QueryError.causes]

lemma yields_fail {e : QueryError} (h : Yields (q.fail e) t r) : Quiet t ∧ r = q.failed e := by
  obtain ⟨_, _, _, ha, hr, rfl⟩ := yields_bind.1 h
  obtain ⟨hq, -, rfl⟩ := yields_abandon ha
  obtain ⟨rfl, rfl⟩ := yields_pure.1 hr
  exact ⟨by simpa using hq, rfl⟩

lemma yields_succeed {m : Message} (h : Yields (q.succeed m) t r) :
    Quiet t ∧ r = (.done (.ok m), q.close) := by
  obtain ⟨_, _, _, ha, hr, rfl⟩ := yields_bind.1 h
  obtain ⟨hq, -, rfl⟩ := yields_abandon ha
  obtain ⟨rfl, rfl⟩ := yields_pure.1 hr
  exact ⟨by simpa using hq, rfl⟩

/-! ### Registration -/

/-- The socket in use is registered with one call, for the first time or anew. -/
lemma yields_arm {x : Except QueryError Query} (hs : q.phase.socket? = some s)
    (h : Yields (q.arm i) t x) :
    ∃ v y, t = [⟨.wake, ()⟩, v] ∧ v.arming? = some (s, q.id, i, y) ∧
      x = match y with
        | .ok () => .ok { q with registered := true }
        | .error e => .error (.register e) := by
  simp only [arm, hs] at h
  split at h
  all_goals
    obtain ⟨_, y, _, hv, hx, rfl⟩ := yields_bind.1 h
    obtain ⟨_, _, rfl, hv'⟩ := yields_perform_bind.1 hv
    obtain rfl := yields_perform.1 hv'
    cases y
    all_goals
      obtain ⟨rfl, rfl⟩ := yields_pure.1 hx
      exact ⟨_, _, rfl, rfl, rfl⟩

/-- The query waits with its stream registered, or registering the stream was the last thing that
went wrong. -/
def Armed (q : Query) (r : Step × Query) : Prop :=
  r = (.pending, { q with registered := true }) ∨ ∃ e, r = q.failed (.register e)

lemma yields_armTcp (hs : q.phase.socket? = some ⟨.tcp, n⟩) (h : Yields (q.armTcp i) t r) :
    Quiet t ∧ q.Armed r := by
  obtain ⟨_, x, u, ha, hr, rfl⟩ := yields_bind.1 h
  obtain ⟨v, y, rfl, hv, rfl⟩ := yields_arm hs ha
  have hq : Quiet [⟨.wake, ()⟩, v] := by
    obtain ⟨c, z⟩ := v
    cases c <;> simp [Event.arming?] at hv
    all_goals simp [quiet_cons, Call.purpose, hv]
  cases y with
  | ok _ =>
    obtain ⟨rfl, rfl⟩ := yields_pure.1 hr
    exact ⟨by simpa using hq, .inl rfl⟩
  | error e =>
    obtain ⟨hu, rfl⟩ := yields_fail hr
    exact ⟨quiet_append.2 ⟨hq, hu⟩, .inr ⟨e, rfl⟩⟩

/-! ### TCP -/

/-- Starting over with TCP gives up the socket, begins one connection to the server, and registers
the stream. -/
lemma yields_tcpConnect (h : Yields q.tcpConnect t r) :
    ∃ u x v, t = u ++ ⟨.connectTcp q.params.server, x⟩ :: v ∧ Quiet u ∧ Quiet v ∧
      match x with
      | .error e => r = q.failed (.tcpConnect e)
      | .ok s => Armed { q with phase := .tcpConnect s } r := by
  obtain ⟨u, _, _, ha, hc, rfl⟩ := yields_bind.1 h
  obtain ⟨hu, -, rfl⟩ := yields_abandon ha
  obtain ⟨x, v, rfl, hv⟩ := yields_perform_bind.1 hc
  refine ⟨u, x, v, rfl, hu, ?_⟩
  cases x with
  | error e => exact yields_fail (q := q.close) hv
  | ok s => exact yields_armTcp (q := { q.close with phase := .tcpConnect s }) rfl hv

lemma yields_tcpWrite {w : Nat} (hs : q.phase.socket? = some ⟨.tcp, n⟩)
    (h : Yields (q.tcpWrite n w) t r) :
    (maxMessageLength < q.request.octets.length ∧ Quiet t ∧
      r = q.failed (.streamWrite .requestTooLong)) ∨
    q.request.octets.length ≤ maxMessageLength ∧
      ∃ x v, t = ⟨.writeTcp n (q.lengthOctets.drop w) (q.request.octets.drop (w - 2)), x⟩ :: v ∧
        Quiet v ∧
        match x with
        | .ok k =>
          if k.1 = 0 then r = q.failed (.streamWrite .writeZero)
          else if w + k.1 < 2 + q.request.octets.length then
            Armed { q with phase := .tcpWrite n (w + k.1) } r
          else Armed { q with phase := .tcpRead n .start } r
        | .error e => if e.isRetry then q.Armed r else r = q.failed (.streamWrite e) := by
  unfold tcpWrite at h
  split at h
  · next hl => exact .inl ⟨hl, yields_fail h⟩
  · next hl =>
    obtain ⟨x, v, rfl, hv⟩ := yields_perform_bind.1 h
    refine .inr ⟨Nat.le_of_not_lt hl, x, v, rfl, ?_⟩
    match x with
    | .ok ⟨0, _⟩ => exact yields_fail hv
    | .ok ⟨k + 1, _⟩ =>
      simp only at hv ⊢
      split at hv
      · simpa [*] using yields_armTcp rfl hv
      · simpa [*] using yields_armTcp rfl hv
    | .error e =>
      simp only at hv ⊢
      split at hv
      · simpa [*] using yields_armTcp hs hv
      · simpa [*] using yields_fail hv

lemma yields_tcpRead {reader : StreamReader} (hs : q.phase.socket? = some ⟨.tcp, n⟩)
    (h : Yields (q.tcpRead n reader) t r) :
    ∃ x v, t = ⟨.readTcp n reader.room, x⟩ :: v ∧ Quiet v ∧
      match x with
      | .ok o =>
        if o.1 = [] then r = q.failed .streamEnd
        else match reader.advance o.1 with
          | .inl body =>
            match Message.ofOctets? body with
            | none => r = q.failed .shortMessage
            | some m =>
              if m.id = q.request.id then r = (.done (.ok m), q.close) else r = q.failed .wrongReply
          | .inr reader => Armed { q with phase := .tcpRead n reader } r
      | .error e => if e.isRetry then q.Armed r else r = q.failed (.streamRead e) := by
  obtain ⟨x, v, rfl, hv⟩ := yields_perform_bind.1 h
  refine ⟨x, v, rfl, ?_⟩
  match x with
  | .ok ⟨[], _⟩ => exact yields_fail hv
  | .ok ⟨a :: o, _⟩ =>
    simp only [reduceCtorEq, ↓reduceIte] at hv ⊢
    cases hb : reader.advance (a :: o) with
    | inl body =>
      simp only [hb, tcpReply] at hv ⊢
      cases hm : Message.ofOctets? body with
      | none => simp only [hm] at hv ⊢; exact yields_fail hv
      | some m =>
        simp only [hm] at hv ⊢
        split at hv
        · simpa [*] using yields_succeed hv
        · simpa [*] using yields_fail hv
    | inr reader' =>
      simp only [hb] at hv ⊢
      exact yields_armTcp rfl hv
  | .error e =>
    simp only at hv ⊢
    split at hv
    · simpa [*] using yields_armTcp hs hv
    · simpa [*] using yields_fail hv

lemma yields_tcpConnected (hs : q.phase.socket? = some ⟨.tcp, n⟩)
    (h : Yields (q.tcpConnected n) t r) :
    ∃ x u, t = ⟨.takeError n, x⟩ :: u ∧
      match x with
      | .error e | .ok (some e) => Quiet u ∧ r = q.failed (.tcpConnect e)
      | .ok none =>
        ∃ y v, u = ⟨.peerAddress n, y⟩ :: v ∧
          match y with
          | .ok () => Yields (tcpWrite { q with phase := .tcpWrite n 0 } n 0) v r
          | .error e =>
            Quiet v ∧
              if e.kind = .notConnected ∨ e.isRetry then q.Armed r
              else r = q.failed (.tcpConnect e) := by
  obtain ⟨x, u, rfl, hu⟩ := yields_perform_bind.1 h
  refine ⟨x, u, rfl, ?_⟩
  match x with
  | .error e | .ok (some e) => exact yields_fail hu
  | .ok none =>
    obtain ⟨y, v, rfl, hv⟩ := yields_perform_bind.1 hu
    refine ⟨y, v, rfl, ?_⟩
    cases y with
    | ok _ => exact hv
    | error e =>
      simp only at hv ⊢
      split at hv
      · rw [if_pos ‹_›]; exact yields_armTcp hs hv
      · rw [if_neg ‹_›]; exact yields_fail hv

/-! ### Where calls lead -/

/-- It is still the same query. -/
structure Same (q q' : Query) : Prop where
  id : q'.id = q.id
  request : q'.request = q.request
  params : q'.params = q.params

/-- The query gets to the phase of rank `k` at least, and it is closed if it is done. -/
structure Leads (k : Nat) (q : Query) (r : Step × Query) : Prop where
  same : q.Same r.2
  rank : k ≤ r.2.phase.rank
  closed : ∀ x, r.1 = .done x → r.2.phase = .closed ∧ r.2.registered = false
  error : ∀ x, r.1 = .done (.error x) → x.isProtocol = true

lemma Same.refl (q : Query) : q.Same q := ⟨rfl, rfl, rfl⟩

lemma Same.trans {q' q'' : Query} (h : q.Same q') (h' : q'.Same q'') : q.Same q'' :=
  ⟨h'.id.trans h.id, h'.request.trans h.request, h'.params.trans h.params⟩

lemma Leads.mono {k l : Nat} (h : Leads l q r) (hk : k ≤ l) : Leads k q r :=
  { h with rank := Nat.le_trans hk h.rank }

lemma Leads.of_same {k : Nat} {q' : Query} (hl : Leads k q' r) (h : q.Same q') : Leads k q r :=
  { hl with same := h.trans hl.same }

lemma isProtocol_failure {e : QueryError} (h : e.isProtocol) : (q.failure e).isProtocol := by
  rcases he : q.errors with _ | ⟨e', es⟩
  · simpa [failure, he, QueryError.bundle?] using h
  · cases es <;> simp [failure, he, QueryError.bundle?, QueryError.isProtocol]

lemma leads_failed {k : Nat} {e : QueryError} (hk : k ≤ 6) (he : e.isProtocol) :
    Leads k q (q.failed e) where
  same := ⟨rfl, rfl, rfl⟩
  rank := hk
  closed _ _ := ⟨rfl, rfl⟩
  error x hx := by cases hx; exact isProtocol_failure he

lemma leads_succeeded {k : Nat} {m : Message} (hk : k ≤ 6) :
    Leads k q (.done (.ok m), q.close) where
  same := ⟨rfl, rfl, rfl⟩
  rank := hk
  closed _ _ := ⟨rfl, rfl⟩
  error x hx := by cases hx

lemma leads_pending {k : Nat} {q' : Query} (hs : q.Same q') (hk : k ≤ q'.phase.rank) :
    Leads k q (.pending, q') where
  same := hs
  rank := hk
  closed x hx := by cases hx
  error x hx := by cases hx

lemma Armed.leads (h : q.Armed r) : Leads q.phase.rank q r := by
  obtain rfl | ⟨e, rfl⟩ := h
  · exact leads_pending ⟨rfl, rfl, rfl⟩ (Nat.le_refl _)
  · exact leads_failed (Phase.rank_le _) rfl

/-- Arming in a later phase. -/
lemma Armed.leads_of {k : Nat} {p : Phase} (h : Armed { q with phase := p } r)
    (hk : k ≤ p.rank) : Leads k q r :=
  (h.leads.mono hk).of_same ⟨rfl, rfl, rfl⟩

lemma leads_tcpConnect (h : Yields q.tcpConnect t r) : Leads 3 q r := by
  obtain ⟨_, x, _, -, -, -, hx⟩ := yields_tcpConnect h
  cases x with
  | error e => exact hx ▸ leads_failed (by decide) rfl
  | ok s => exact hx.leads_of (Nat.le_refl _)

lemma leads_tcpWrite {w : Nat} (hp : q.phase = .tcpWrite n w) (h : Yields (q.tcpWrite n w) t r) :
    Late t ∧ Leads q.phase.rank q r := by
  obtain ⟨-, hq, rfl⟩ | ⟨-, x, v, rfl, hv, hx⟩ := yields_tcpWrite (by rw [hp]; rfl) h
  · exact ⟨hq.late, leads_failed (Phase.rank_le _) rfl⟩
  · refine ⟨late_cons.2 ⟨.inr rfl, hv.late⟩, ?_⟩
    cases x with
    | ok k =>
      simp only at hx
      split_ifs at hx
      · exact hx ▸ leads_failed (Phase.rank_le _) rfl
      · exact hx.leads_of (by rw [hp]; simp [Phase.rank])
      · exact hx.leads_of (by rw [hp]; simp [Phase.rank])
    | error e =>
      simp only at hx
      split_ifs at hx
      · exact hx.leads
      · exact hx ▸ leads_failed (Phase.rank_le _) rfl

lemma leads_tcpConnected (hp : q.phase = .tcpConnect n) (h : Yields (q.tcpConnected n) t r) :
    Late t ∧ Leads q.phase.rank q r := by
  obtain ⟨x, u, rfl, hx⟩ := yields_tcpConnected (by rw [hp]; rfl) h
  rw [late_cons]
  match x with
  | .error e | .ok (some e) =>
    exact ⟨⟨.inr rfl, hx.1.late⟩, hx.2 ▸ leads_failed (Phase.rank_le _) rfl⟩
  | .ok none =>
    obtain ⟨y, v, rfl, hy⟩ := hx
    rw [late_cons]
    cases y with
    | ok _ =>
      obtain ⟨hv, hl⟩ := leads_tcpWrite rfl hy
      have hr : q.phase.rank ≤ 4 := by simp [hp, Phase.rank]
      exact ⟨⟨.inr rfl, .inr rfl, hv⟩, (hl.mono hr).of_same ⟨rfl, rfl, rfl⟩⟩
    | error e =>
      obtain ⟨hv, hy⟩ := hy
      refine ⟨⟨.inr rfl, .inr rfl, hv.late⟩, ?_⟩
      split_ifs at hy
      · exact hy.leads
      · exact hy ▸ leads_failed (Phase.rank_le _) rfl

lemma leads_tcpRead {reader : StreamReader} (hp : q.phase = .tcpRead n reader)
    (h : Yields (q.tcpRead n reader) t r) : Late t ∧ Leads q.phase.rank q r := by
  obtain ⟨x, v, rfl, hv, hx⟩ := yields_tcpRead (by rw [hp]; rfl) h
  refine ⟨late_cons.2 ⟨.inr rfl, hv.late⟩, ?_⟩
  cases x with
  | ok o =>
    simp only at hx
    split_ifs at hx
    · exact hx ▸ leads_failed (Phase.rank_le _) rfl
    · split at hx
      · split at hx
        · exact hx ▸ leads_failed (Phase.rank_le _) rfl
        · split_ifs at hx
          · exact hx ▸ leads_succeeded (Phase.rank_le _)
          · exact hx ▸ leads_failed (Phase.rank_le _) rfl
      · exact hx.leads_of (by simp [hp, Phase.rank])
  | error e =>
    simp only at hx
    split_ifs at hx
    · exact hx.leads
    · exact hx ▸ leads_failed (Phase.rank_le _) rfl

end Query

end DnsClient
