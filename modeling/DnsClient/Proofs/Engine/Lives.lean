import DnsClient.Proofs.Engine.Outcome
import DnsClient.Proofs.Query.Arming

/-!
What has been done on a query, over its whole life in an engine.

Every deed lets queries go on by calls on them and by nothing else (`Advances`), also the deeds that
end them. So what is kept of a submission is at any time what calls have made of a fresh query, and
the events of those calls are among those of the course (`Course.lives`). They leave the network with
what the phase of the query says (`Course.held`).
-/

namespace DnsClient

open Program

namespace Query

variable {q q' q'' : Query} {vs ws : List Visit} {t : List Event}

lemma Visits.append (h : Visits q vs q') (h' : Visits q' ws q'') : Visits q (vs ++ ws) q'' := by
  induction h with
  | nil q => exact h'
  | cons hv _ ih => exact .cons hv (ih h')

lemma Visits.abandon (h : Yields q.abandon t q') : Visits q [⟨q, .abandon, t, .pending, q'⟩] q' :=
  .cons (yields_bind.2 ⟨t, q', [], h, .pure _, (List.append_nil t).symm⟩) (.nil _)

end Query

namespace Engine

variable {c : Config} {e e' : Engine} {id : QueryId} {s s' : Slot} {ts new : List Task}
  {t u : List Event} {d : Deed} {ms : List Moment} {h : Nat} {x : Submission} {k : Task}
  {vs : List Query.Visit}

/-! ### Deeds -/

/-- Each query goes on by calls on it, whose events are among these. -/
def Advances (e : Engine) (t : List Event) (e' : Engine) : Prop :=
  ∀ id s, e.slot? id = some s → ∃ s' vs, e'.slot? id = some s' ∧
    Query.Visits s.query vs s'.query ∧ (Query.eventsOf vs).Sublist t

lemma advances_of_slots (h : ∀ id s, e.slot? id = some s → e'.slot? id = some s) :
    Advances e t e' :=
  fun id s hs => ⟨s, [], h id s hs, .nil _, List.nil_sublist t⟩

lemma Changes.advances (hc : Changes e id s s' e') (hv : Query.Visits s.query vs s'.query)
    (ht : (Query.eventsOf vs).Sublist t) : Advances e t e' := by
  intro i r hr
  by_cases hi : i = id
  · subst hi
    obtain rfl : s = r := Option.some_inj.1 (hc.slot.symm.trans hr)
    exact ⟨s', vs, hc.self, hv, ht⟩
  · exact ⟨r, [], (hc.other hi).trans hr, .nil _, List.nil_sublist t⟩

lemma Changes.keeps (hc : Changes e id s s' e') (hq : s'.query = s.query) : Advances e t e' := by
  have hv : Query.Visits s.query [] s'.query := hq ▸ .nil _
  exact hc.advances hv (List.nil_sublist t)

lemma Changes.acts {a : Query.Action} {x : Step} (hc : Changes e id s s' e')
    (hv : Yields (s.query.act a) t (x, s'.query)) : Advances e t e' :=
  hc.advances (.cons hv (.nil _)) (by simp)

lemma Changes.abandons (hc : Changes e id s s' e') (hv : Yields s.query.abandon u s.query.close)
    (hu : u.Sublist t) (hq : s'.query = s.query.close) : Advances e t e' := by
  have hv := Query.Visits.abandon hv
  rw [← hq] at hv
  exact hc.advances hv (by simpa using hu)

/-- A query that is cancelled while it is tracked is given up, before anything else is done. -/
lemma abandons_of_cancel (hh : e.handles[h]? = some id) (hs : e.slot? id = some s)
    (hn : s.cell.outcome? = none) (hk : s.cell.hook? = some id) (hi : id ∈ e.tracked)
    (hy : Yields (e.cancel h) t (new, e')) :
    ∃ u, Yields s.query.abandon u s.query.close ∧ u.Sublist t := by
  simp only [cancel, hh] at hy
  obtain ⟨u, r, v, hc, -, rfl⟩ := yields_bind.1 hy
  simp only [cancelQuery, hs, Cell.cancel?, Cell.isFinished, hn, hk, Option.isSome_none] at hc
  obtain ⟨w, e₁, y, hw, -, rfl⟩ := yields_bind.1 hc
  obtain ⟨a, e₂, b, ha, -, rfl⟩ := yields_bind.1 hw
  rw [if_pos (by simpa [isTracked] using hi)] at ha
  have hs' : ((e.setSlot id (.ended .cancelled s.query)).forget id).slot? id =
      some (.ended .cancelled s.query) := by
    rw [forget_setSlot, slot?_setSlot, if_pos rfl]
  obtain ⟨hq, -⟩ := yields_abandon hs' ha
  exact ⟨a, hq, by simp⟩

lemma Tracks.advances_enroll (ht : Tracks ts e) {m : Message} {p : QueryParams}
    {ks : List Continuation} {now : Instant} : Advances e t (e.enroll m p ks now) := by
  refine advances_of_slots fun i s hs => ?_
  have hne : i ≠ e.nextId := Nat.ne_of_lt (ht.handles_lt i ((ht.slot i).2 ⟨s, hs⟩))
  rw [slot?_enroll_other e m p ks now hne, hs]

lemma advances_cue {q : Cue} (ht : Tracks ts e) (hy : Yields (e.cue q) t (new, e')) :
    Advances e t e' := by
  cases does_of_cue hy with
  | rests hr _ _ _ _ _ => exact advances_of_slots fun i s hs => (hr.slot? i).trans hs
  | takes _ _ | condemns => exact advances_of_slots fun i s hs => hs
  | accepts _ _ => exact ht.advances_enroll
  | changes hc hx =>
    cases hx with
    | waits _ _ => exact hc.keeps rfl
    | goesOn hd _ _ => exact hd.elim
    | ends hd _ _ => exact hd.elim
    | cancels hd _ _ _ | expires hd _ _ _ | shutsDown hd _ _ | closes hd _ _ => cases hd

lemma advances_perform (ht : Tracks (k :: ts) e) (hy : Yields (e.perform k) t (new, e')) :
    Advances e t e' := by
  cases does_of_perform ht hy with
  | rests hr _ _ _ _ _ => exact advances_of_slots fun i s hs => (hr.slot? i).trans hs
  | accepts _ _ => exact ht.advances_enroll
  | @changes _ _ _ _ id s s' hc hx =>
    cases hx with
    | waits _ _ => exact hc.keeps rfl
    | goesOn _ _ hv => exact hc.acts hv
    | ends _ _ hv => exact hc.acts hv
    | cancels hd hh hn _ =>
      cases hd
      by_cases hi : id ∈ e.tracked
      · obtain ⟨u, hv, hu⟩ := abandons_of_cancel hh hc.slot hn (ht.hook id s hc.slot hn) hi hy
        exact hc.abandons hv hu (if_pos hi)
      · exact hc.keeps (if_neg hi)
    | expires hd hp _ _ =>
      cases hd
      obtain ⟨hn, -⟩ | ⟨id', s₁, hp', -, hs₁, -, hv, -⟩ :=
        yields_expire ht.unfinished ht.scheduled hy
      · cases hn.symm.trans hp
      · obtain rfl : id' = id := Option.some_inj.1 (hp'.symm.trans hp)
        obtain rfl : s₁ = s := Option.some_inj.1 (hs₁.symm.trans hc.slot)
        exact hc.abandons hv (List.Sublist.refl t) rfl
    | shutsDown hd _ _ =>
      cases hd
      exact hc.abandons (yields_shutDown hc.slot hy).1 (List.Sublist.refl t) rfl
    | closes hd _ _ =>
      cases hd
      exact hc.abandons (yields_shutDown hc.slot hy).1 (List.Sublist.refl t) rfl

/-! ### Submissions -/

/-- Calls on it have made the query of the submission what it is, with events among these. -/
def Lived (t : List Event) (e : Engine) (id : QueryId) (x : Submission) : Prop :=
  ∃ s vs, e.slot? id = some s ∧ Query.Visits (x.query id) vs s.query ∧
    (Query.eventsOf vs).Sublist t

lemma Lived.advances (hl : Lived t e id x) (ha : Advances e u e') : Lived (t ++ u) e' id x := by
  obtain ⟨s, vs, hs, hv, ht⟩ := hl
  obtain ⟨s', ws, hs', hw, hu⟩ := ha id s hs
  refine ⟨s', vs ++ ws, hs', hv.append hw, ?_⟩
  rw [Query.eventsOf_append]
  exact ht.append hu

lemma outcome?_eq_none_of_le (hl : e.handles.length ≤ h) : e.outcome? h = none := by
  rw [outcome?, List.getElem?_eq_none hl]
  rfl

/-- A query that is taken in by this deed has no outcome. -/
lemma Does.outcome?_eq_none (ht : Tracks ts e) (hd : Does e d t new e')
    (hl : e.handles.length ≤ h) : e'.outcome? h = none := by
  cases hd with
  | rests hr _ _ _ _ _ => exact outcome?_eq_none_of_le (hr.handles ▸ hl)
  | takes _ _ | condemns => exact outcome?_eq_none_of_le hl
  | accepts _ _ => rw [outcome?_enroll ht.handles_lt, outcome?_eq_none_of_le hl]
  | changes hc _ => exact outcome?_eq_none_of_le (hc.handles ▸ hl)

/-- The query of each submission is what calls on it have made of it. -/
def Lives (ms : List Moment) (e : Engine) : Prop :=
  ∀ (h : Nat) id x, e.handles[h]? = some id → (submissions ms)[h]? = some x →
    Lived (callsOf ms) e id x

lemma Course.lives_snoc (hc : Course (ofConfig c) ms (d.tasks ++ ts) e)
    (hc' : Course (ofConfig c) (ms ++ [⟨e, d, t, e'⟩]) (new ++ ts) e') (hl : Lives ms e)
    (hd : Does e d t new e') (ha : Advances e t e') : Lives (ms ++ [⟨e, d, t, e'⟩]) e' := by
  intro h id x hi hx
  by_cases hlt : h < e.handles.length
  · have hi₀ : e.handles[h]? = some id := by
      obtain ⟨is, his⟩ := hd.handles
      rw [← hi, ← his, List.getElem?_append_left hlt]
    rw [submissions_append, List.getElem?_append_left (hc.files.length ▸ hlt)] at hx
    rw [callsOf_append, callsOf_singleton]
    exact (hl h id x hi₀ hx).advances ha
  · obtain ⟨⟨s, hs, hv⟩, -⟩ := hc'.files.filed h id x hi hx
    have hn := hd.outcome?_eq_none hc.tracks (Nat.le_of_not_lt hlt)
    rw [outcome?_of_handle hi hs] at hn
    obtain ⟨vs, hvs, ht⟩ := hv hn
    exact ⟨s, vs, hs, hvs, ht⟩

/-- Whatever happens to an engine, its queries are what calls on them have made of them. -/
theorem Course.lives (hc : Course (ofConfig c) ms ts e) : Lives ms e := by
  induction hc with
  | nil => exact fun h id x hi => by cases hi
  | @cue ms e e' q t ts hc hy ih =>
    have hc' := hc.cue hy
    rw [← List.append_nil ts] at hc'
    exact hc.lives_snoc (d := .cue q) hc' ih (does_of_cue hy) (advances_cue hc.tracks hy)
  | @task ms e e' k t ts new hc hy ih =>
    exact hc.lives_snoc (d := .task k) (hc.task hy) ih (does_of_perform hc.tracks hy)
      (advances_perform hc.tracks hy)

/-- The calls on a query have left the network with what its phase says. -/
theorem Course.held (hc : Course (ofConfig c) ms ts e) (hi : e.handles[h]? = some id)
    (hs : e.slot? id = some s) : ∃ x vs, (submissions ms)[h]? = some x ∧
      Query.Visits (x.query id) vs s.query ∧ (Query.eventsOf vs).Sublist (callsOf ms) ∧
      Holdings.account.afterAll {} (Query.eventsOf vs) = s.query.phase.holdings s.query.id := by
  obtain ⟨hlt, -⟩ := List.getElem?_eq_some_iff.1 hi
  have hx := List.getElem?_eq_getElem (hc.files.length ▸ hlt)
  obtain ⟨s', vs, hs', hv, hvs⟩ := hc.lives _ id _ hi hx
  obtain rfl : s' = s := Option.some_inj.1 (hs'.symm.trans hs)
  exact ⟨_, vs, hx, hv, hvs, (hv.stands (h := {}) ⟨rfl, rfl⟩).2.held⟩

end Engine

end DnsClient
