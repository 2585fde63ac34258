import DnsClient.Proofs.Query.Attempt

/-!
Runs of a query, call by call.

`Move` lists what one call on a query can come to, whatever its phase. A run is a list of visits,
each with its events, its step and the query after it (`Visits`). What a move may do only once, up
to some phase, a run does at most once: each move spends from an allowance.
-/

namespace DnsClient

open Program

namespace Query

/-- What a call on a query can come to. -/
inductive Move (q : Query) : Action → List Event → Step × Query → Prop where
  /-- There is nothing to start any more, or nothing to go on with. -/
  | rests {a : Action}
      (h : a = .start ∧ q.phase ≠ .idle ∨ a = .ready ∧ q.phase.socket? = none) :
      Move q a [] (.pending, q)
  | givesUp {t : List Event} (ht : Quiet t) (h : q.phase.socket? = none → t = []) :
      Move q .abandon t (.pending, q.close)
  | attempts {a : Action} {t : List Event} {r : Step × Query} (hp : q.phase.rank ≤ 2)
      (hm : q.phase = .idle → q.params.mode = .preferUdp) (h : Attempt q t r) : Move q a t r
  | starts {t : List Event} {r : Step × Query} (hp : q.phase = .idle)
      (hm : q.params.mode = .tcpOnly) (h : Yields q.tcpConnect t r) : Move q .start t r
  | streams {t : List Event} {r : Step × Query} {n : Nat}
      (hs : q.phase.socket? = some ⟨.tcp, n⟩) (h : Yields q.ready t r) : Move q .ready t r

/-- A call on a query, with what it did, and the query before it and after it. -/
structure Visit where
  before : Query
  action : Action
  calls : List Event
  step : Step
  after : Query

/-- The visits take the first query to the second. -/
inductive Visits : Query → List Visit → Query → Prop where
  | nil (q : Query) : Visits q [] q
  | cons {q q' q'' : Query} {a : Action} {t : List Event} {s : Step} {vs : List Visit}
      (h : Yields (q.act a) t (s, q')) (hs : Visits q' vs q'') :
      Visits q (⟨q, a, t, s, q'⟩ :: vs) q''

/-- All events of some visits. -/
def eventsOf (vs : List Visit) : List Event := vs.flatMap (·.calls)

@[simp] lemma eventsOf_nil : eventsOf [] = [] := rfl
@[simp] lemma eventsOf_cons (v : Visit) (vs : List Visit) :
    eventsOf (v :: vs) = v.calls ++ eventsOf vs := rfl
@[simp] lemma eventsOf_append (vs ws : List Visit) :
    eventsOf (vs ++ ws) = eventsOf vs ++ eventsOf ws := List.flatMap_append

variable {t : List Event} {q q' : Query} {r : Step × Query} {a : Action} {vs : List Visit} {n : Nat}

lemma Visits.snoc {q'' : Query} {s : Step} (hs : Visits q vs q')
    (h : Yields (q'.act a) t (s, q'')) : Visits q (vs ++ [⟨q', a, t, s, q''⟩]) q'' := by
  induction hs with
  | nil q => exact .cons h (.nil _)
  | cons hv _ ih => exact .cons hv (ih h)

/-- A run up to one of its visits, and from there on. -/
lemma Visits.split {ws ws' : List Visit} {v : Visit} (h : Visits q (ws ++ v :: ws') q') :
    Visits q ws v.before ∧ Yields (v.before.act v.action) v.calls (v.step, v.after) ∧
      Visits v.after ws' q' := by
  induction ws generalizing q with
  | nil =>
    cases h with
    | cons h hs => exact ⟨.nil _, h, hs⟩
  | cons w ws ih =>
    cases h with
    | cons h hs =>
      obtain ⟨h₁, h₂, h₃⟩ := ih hs
      exact ⟨.cons h h₁, h₂, h₃⟩

/-- The runs of a list of calls are its visits. -/
theorem yields_acts {as : List Action} {ss : List Step} :
    Yields (q.acts as) t (ss, q') ↔
      ∃ vs, Visits q vs q' ∧ vs.map (·.action) = as ∧ vs.map (·.step) = ss ∧ eventsOf vs = t := by
  constructor
  · intro h
    induction as generalizing q t ss with
    | nil =>
      obtain ⟨rfl, hr⟩ := yields_pure.1 h
      obtain ⟨rfl, rfl⟩ := Prod.mk.inj hr
      exact ⟨[], .nil _, rfl, rfl, rfl⟩
    | cons a as ih =>
      obtain ⟨_, ⟨s, q₁⟩, _, ha, hr, rfl⟩ := yields_bind.1 h
      obtain ⟨_, ⟨ss', q₂⟩, _, hs, hp, rfl⟩ := yields_bind.1 hr
      obtain ⟨rfl, hq⟩ := yields_pure.1 hp
      obtain ⟨rfl, rfl⟩ := Prod.mk.inj hq
      obtain ⟨vs, hvs, rfl, rfl, rfl⟩ := ih hs
      exact ⟨_, .cons ha hvs, rfl, rfl, by simp⟩
  · rintro ⟨vs, h, rfl, rfl, rfl⟩
    induction h with
    | nil q => exact .pure _
    | cons h _ ih =>
      refine yields_bind.2 ⟨_, _, _, h, yields_bind.2 ⟨_, _, [], ih, ?_, rfl⟩, by simp⟩
      exact .pure _

/-! ### Moves -/

theorem move_of_act (h : Yields (q.act a) t r) : Move q a t r := by
  cases a with
  | start =>
    rcases hp : q.phase with _ | _ | _ | _ | _ | _ | _
    case idle =>
      rcases hm : q.params.mode with _ | _
      · exact .attempts (by simp [hp, Phase.rank]) (fun _ => hm)
          (attempt_udpConnect hp (by simpa [act, start, hp, hm] using h))
      · exact .starts hp hm (by simpa [act, start, hp, hm] using h)
    all_goals
      obtain ⟨rfl, rfl⟩ : t = [] ∧ r = (.pending, q) := by simpa [act, start, hp] using h
      exact .rests (.inl ⟨rfl, by simp [hp]⟩)
  | ready =>
    rcases hp : q.phase with _ | n | n | n | ⟨n, w⟩ | ⟨n, rd⟩ | _
    case udpWrite =>
      exact .attempts (by simp [hp, Phase.rank]) (by simp [hp])
        (attempt_udpWrite hp (by simpa [act, ready, hp] using h))
    case udpRead =>
      exact .attempts (by simp [hp, Phase.rank]) (by simp [hp])
        (attempt_udpRead hp (by simpa [act, ready, hp] using h))
    case tcpConnect => exact .streams (n := n) (by rw [hp]; rfl) h
    case tcpWrite => exact .streams (n := n) (by rw [hp]; rfl) h
    case tcpRead => exact .streams (n := n) (by rw [hp]; rfl) h
    all_goals
      obtain ⟨rfl, rfl⟩ : t = [] ∧ r = (.pending, q) := by simpa [act, ready, hp] using h
      exact .rests (.inr ⟨rfl, by simp [hp, Phase.socket?]⟩)
  | abandon =>
    obtain ⟨_, _, _, ha, hr, rfl⟩ := yields_bind.1 h
    obtain ⟨rfl, rfl⟩ := yields_pure.1 hr
    obtain ⟨ht, h0, rfl⟩ := yields_abandon ha
    rw [List.append_nil]
    exact .givesUp ht h0

/-- While a stream is in use, a call does nothing but work on it, and leads on. -/
lemma late_leads_ready (hs : q.phase.socket? = some ⟨.tcp, n⟩) (h : Yields q.ready t r) :
    Late t ∧ Leads q.phase.rank q r := by
  unfold ready at h
  split at h
  case h_5 hp => exact leads_tcpConnected hp h
  case h_6 hp => exact leads_tcpWrite hp h
  case h_7 hp => exact leads_tcpRead hp h
  all_goals next hp => simp [hp, Phase.socket?] at hs

lemma Attempt.leads (h : Attempt q t r) (hp : q.phase.rank ≤ 2) : Leads q.phase.rank q r := by
  cases h with
  | goesOn _ _ _ hs hr _ _ => exact leads_pending hs hr
  | succeeds => exact leads_succeeded (Phase.rank_le _)
  | ends _ _ _ h hs => exact ((leads_tcpConnect h).mono (by omega)).of_same hs

lemma Move.leads (h : Move q a t r) : Leads q.phase.rank q r := by
  cases h with
  | rests _ => exact leads_pending (.refl q) (Nat.le_refl _)
  | givesUp _ _ => exact leads_pending ⟨rfl, rfl, rfl⟩ (Phase.rank_le _)
  | attempts hp _ h => exact h.leads hp
  | starts hp _ h => exact (leads_tcpConnect h).mono (by simp [hp, Phase.rank])
  | streams hs h => exact (late_leads_ready hs h).2

lemma Visits.same (h : Visits q vs q') : q.Same q' ∧ ∀ v ∈ vs, q.Same v.before := by
  induction h with
  | nil q => exact ⟨.refl q, fun v hv => by cases hv⟩
  | @cons q q₁ q₂ a t s vs h hs ih =>
    have hm := (move_of_act h).leads.same
    exact ⟨hm.trans ih.1, List.forall_mem_cons.2 ⟨.refl q, fun v hv => hm.trans (ih.2 v hv)⟩⟩

/-- Every visit of a run is a move. -/
lemma Visits.move (h : Visits q vs q') :
    ∀ v ∈ vs, Move v.before v.action v.calls (v.step, v.after) := by
  intro v hv
  obtain ⟨ws, ws', rfl⟩ := List.append_of_mem hv
  exact move_of_act h.split.2.1

lemma own_tcpConnect (h : Yields q.tcpConnect t r) : ∀ w ∈ t, w.1.purpose ≠ .other := by
  obtain ⟨u, x, v, rfl, hu, hv, -⟩ := yields_tcpConnect h
  refine List.forall_mem_append.2 ⟨fun w hw => by simp [hu w hw], ?_⟩
  exact List.forall_mem_cons.2 ⟨by simp [Call.purpose], fun w hw => by simp [hv w hw]⟩

/-- A query makes no other calls than on the network. -/
lemma Move.own (h : Move q a t r) : ∀ w ∈ t, w.1.purpose ≠ .other := by
  cases h with
  | rests _ => exact fun w hw => by cases hw
  | givesUp ht _ => exact fun w hw => by simp [ht w hw]
  | attempts _ _ h =>
    cases h with
    | goesOn hu _ _ _ _ _ _ => exact fun w hw he => by simpa [he] using hu.purpose w hw
    | succeeds _ _ _ _ _ hv =>
      exact List.forall_mem_cons.2 ⟨by simp [Call.purpose], fun w hw => by simp [hv w hw]⟩
    | ends hu _ _ h _ =>
      refine List.forall_mem_append.2 ⟨?_, own_tcpConnect h⟩
      exact fun w hw he => by simpa [he] using hu.purpose w hw
  | starts _ _ h => exact own_tcpConnect h
  | streams hs h => exact fun w hw he => by simpa [he] using (late_leads_ready hs h).1 w hw

lemma ne_idle_of_tcpConnect (h : Yields q.tcpConnect t r) : r.2.phase ≠ .idle := by
  intro hi
  have hr := (leads_tcpConnect h).rank
  rw [Phase.rank_eq_zero.2 hi] at hr
  omega

/-- A query that is started is not idle any more. -/
lemma ne_idle_of_start (h : Yields q.start t r) : r.2.phase ≠ .idle := by
  cases move_of_act (a := .start) h with
  | rests hp => exact hp.elim (·.2) fun hp => by cases hp.1
  | attempts _ _ h =>
    cases h with
    | goesOn _ _ _ _ _ hp _ =>
      intro hi
      rw [hi] at hp
      cases hp
    | succeeds =>
      intro hi
      cases hi
    | ends _ _ _ h _ => exact ne_idle_of_tcpConnect h
  | starts _ _ h => exact ne_idle_of_tcpConnect h

/-- A move leaves a closed query alone. -/
lemma Move.closed (h : Move q a t r) (hp : q.phase = .closed) :
    t = [] ∧ r.1 = .pending ∧ r.2.phase = .closed := by
  cases h with
  | rests _ => exact ⟨rfl, rfl, hp⟩
  | givesUp _ h0 => exact ⟨h0 (by rw [hp]; rfl), rfl, rfl⟩
  | attempts hr _ _ => simp [hp, Phase.rank] at hr
  | starts hi _ _ => simp [hp] at hi
  | streams hs _ => simp [hp, Phase.socket?] at hs

lemma Visits.closed (h : Visits q vs q') (hp : q.phase = .closed) :
    ∀ v ∈ vs, v.step = .pending ∧ v.calls = [] := by
  induction h with
  | nil q => intro v hv; cases hv
  | cons h _ ih =>
    obtain ⟨ht, hs, hp'⟩ := (move_of_act h).closed hp
    exact List.forall_mem_cons.2 ⟨⟨hs, ht⟩, ih hp'⟩

end Query

end DnsClient
