import DnsClient.Proofs.Engine.Deeds

/-!
The books of an engine stay in order.

Every deed keeps `Tracks`, so it holds in all courses (`Course.tracks`).
-/

namespace DnsClient

open Program

namespace Engine

variable {e e' e₀ : Engine} {id : QueryId} {s s' : Slot} {ts new : List Task} {t : List Event}
  {d : Deed} {ms : List Moment}

/-! ### Effects on the books -/

namespace Effect

lemma agenda_new (h : Effect e d id s t new s') : condemned new = [] ∧ starting new = [] := by
  have hk (o : Outcome) : condemned (s.cell.continuations.map (.notify · o)) = [] ∧
      starting (s.cell.continuations.map (.notify · o)) = [] :=
    ⟨condemned_map fun _ => rfl, starting_map fun _ => rfl⟩
  cases h with
  | waits | goesOn | closes => exact ⟨rfl, rfl⟩
  | ends | shutsDown => exact hk _
  | cancels | expires =>
    rw [condemned_append, starting_append, (hk _).1, (hk _).2]
    exact ⟨rfl, rfl⟩

/-- A deed that changes a slot starts or fails no other query. -/
lemma agenda_tasks (h : Effect e d id s t new s') :
    (∀ i ∈ condemned d.tasks, i = id) ∧ ∀ i ∈ starting d.tasks, i = id := by
  have hl {a} (hd : d.lets id a) :
      (∀ i ∈ condemned d.tasks, i = id) ∧ ∀ i ∈ starting d.tasks, i = id := by
    rcases Deed.lets_cases hd with rfl | rfl
    · exact ⟨fun i hi => (by cases hi), fun i hi => List.mem_singleton.1 hi⟩
    · exact ⟨fun i hi => (by cases hi), fun i hi => by cases hi⟩
  cases h with
  | goesOn hd _ _ => exact hl hd
  | ends hd _ _ => exact hl hd
  | waits hd _ | cancels hd _ _ _ | expires hd _ _ _ =>
    subst hd
    exact ⟨fun i hi => (by cases hi), fun i hi => by cases hi⟩
  | shutsDown hd _ _ | closes hd _ _ =>
    subst hd
    exact ⟨fun i hi => List.mem_singleton.1 hi, fun i hi => by cases hi⟩

lemma query_id (h : Effect e d id s t new s') : s'.query.id = s.query.id := by
  cases h with
  | waits | expires | shutsDown | closes => rfl
  | goesOn _ _ hy => exact (Query.move_of_act hy).leads.same.id
  | ends _ _ hy => exact (Query.move_of_act hy).leads.same.id
  | cancels => split <;> rfl

/-- Without an outcome the query keeps its hook. It is idle only if it was and is not started. -/
lemma unfinished (h : Effect e d id s t new s') (hn : s'.cell.outcome? = none) :
    s.cell.outcome? = none ∧ s'.cell.hook? = s.cell.hook? ∧ condemned d.tasks = [] ∧
      (s'.query.phase = .idle → s.query.phase = .idle ∧ starting d.tasks = []) := by
  cases h with
  | waits hd hn => exact ⟨hn, rfl, by rw [hd]; rfl, fun hp => ⟨hp, by rw [hd]; rfl⟩⟩
  | @goesOn a t q hd hn hy =>
    have hr := (Query.move_of_act hy).leads.rank
    unfold Deed.lets at hd
    split at hd
    · refine ⟨hn, rfl, rfl, fun hp => ?_⟩
      exact absurd hp (Query.ne_idle_of_start hy)
    · refine ⟨hn, rfl, rfl, fun hp => ⟨?_, rfl⟩⟩
      change q.phase = .idle at hp
      rw [hp] at hr
      exact Phase.rank_eq_zero.1 (Nat.le_zero.1 hr)
    · exact hd.elim
  | ends | cancels | expires | shutsDown => cases hn
  | closes _ hn' _ => exact absurd hn hn'

/-- With an outcome the query is closed, or it is about to be. -/
lemma closed (h : Effect e d id s t new s') (ht : Tracks (d.tasks ++ ts) e)
    (hs : e.slot? id = some s) (hn : s'.cell.outcome? ≠ none) :
    (s'.query.phase = .closed ∧ s'.query.registered = false) ∨ id ∈ condemned ts := by
  cases h with
  | waits _ hn' | goesOn _ hn' _ => exact absurd hn' hn
  | ends _ _ hy => exact .inl ((Query.move_of_act hy).leads.closed _ rfl)
  | cancels hd _ hn' _ =>
    subst hd
    by_cases hi : id ∈ e.tracked
    · left
      rw [if_pos hi]
      exact ⟨rfl, rfl⟩
    · right
      by_contra hc
      exact hi ((ht.tracked id).2 ⟨hc, s, hs, hn'⟩)
  | expires | shutsDown | closes => exact .inl ⟨rfl, rfl⟩

end Effect

/-! ### Deeds keep the books -/

lemma Tracks.changes (h : Tracks (d.tasks ++ ts) e) (hc : Changes e id s s' e')
    (hx : Effect e d id s t new s') : Tracks (new ++ ts) e' := by
  obtain ⟨hnc, hns⟩ := hx.agenda_new
  obtain ⟨hdc, hds⟩ := hx.agenda_tasks
  -- away from the query that changes, the agenda says the same as before
  have hcond (i) (hi : i ≠ id) : i ∈ condemned (new ++ ts) ↔ i ∈ condemned (d.tasks ++ ts) := by
    rw [condemned_append, condemned_append, hnc, List.nil_append, List.mem_append]
    exact ⟨.inr, fun hm => hm.resolve_left fun hm => hi (hdc i hm)⟩
  have hstart (i) (hi : i ≠ id) (hm : i ∈ starting (d.tasks ++ ts)) : i ∈ starting (new ++ ts) := by
    rw [starting_append, List.mem_append] at hm ⊢
    exact .inr (hm.resolve_left fun hm => hi (hds i hm))
  have hmem (i) : i ∈ e'.tracked ↔ i ∈ e.tracked ∧ (s'.cell.outcome? = none ∨ i ≠ id) := by
    rw [hc.tracked]
    split
    · next hn => simp [hn]
    · next hn => simp [hn]
  exact {
    handles_nodup := by
      rw [hc.handles]
      exact h.handles_nodup
    handles_lt := by
      rw [hc.handles, hc.nextId]
      exact h.handles_lt
    slot := by
      intro i
      rw [hc.handles, h.slot, hc.slot?]
      split
      · next hi => simp [hi, hc.slot]
      · rfl
    query := by
      intro i u hu
      rcases hc.cases hu with ⟨rfl, rfl⟩ | ⟨-, hu⟩
      · rw [hx.query_id]
        exact h.query i s hc.slot
      · exact h.query i u hu
    hook := by
      intro i u hu hn
      rcases hc.cases hu with ⟨rfl, rfl⟩ | ⟨-, hu⟩
      · obtain ⟨hn', hk, -⟩ := hx.unfinished hn
        rw [hk]
        exact h.hook i s hc.slot hn'
      · exact h.hook i u hu hn
    tracked_nodup := by
      rw [hc.tracked]
      split
      · exact h.tracked_nodup
      · exact h.tracked_nodup.filter _
    tracked := by
      intro i
      rw [hmem, h.tracked]
      by_cases hi : i = id
      · subst hi
        by_cases hn : s'.cell.outcome? = none
        · obtain ⟨hn', -, hdt, -⟩ := hx.unfinished hn
          simp [hc.self, hc.slot, hn, hn', hnc, hdt]
        · simp [hc.self, hn]
      · rw [hcond i hi, hc.other hi]
        simp [hi]
    doomed := by
      intro i hi
      rw [hc.handles]
      refine h.doomed i ?_
      rw [condemned_append, hnc, List.nil_append] at hi
      rw [condemned_append]
      exact List.mem_append_right _ hi
    live := by
      intro i
      rw [hmem, hc.live, ← h.live]
      by_cases hn : s'.cell.outcome? = none
      · simp [hn]
      · by_cases hi : i = id
        · simp [hn, hi]
        · simp [hi]
    incoming_nodup := by
      rw [hc.incoming]
      exact h.incoming_nodup
    incoming := by
      rw [hc.incoming, hc.handles]
      exact h.incoming
    idle := by
      intro i hi u hu hp
      rw [hc.incoming]
      obtain ⟨hi, ho⟩ := (hmem i).1 hi
      rcases hc.cases hu with ⟨rfl, rfl⟩ | ⟨hid, hu⟩
      · obtain ⟨-, -, -, hidle⟩ := hx.unfinished (ho.resolve_right fun h => h rfl)
        obtain ⟨hp', hs'⟩ := hidle hp
        have hm := h.idle i hi s hc.slot hp'
        rw [starting_append, hs', List.nil_append] at hm
        rw [starting_append, hns, List.nil_append]
        exact hm
      · exact (h.idle i hi u hu hp).imp_right (hstart i hid)
    closed := by
      intro i u hu ht hcd
      rcases hc.cases hu with ⟨rfl, rfl⟩ | ⟨hi, hu⟩
      · rw [condemned_append, hnc, List.nil_append] at hcd
        by_cases hn : u.cell.outcome? = none
        · obtain ⟨hn', -, hdt, -⟩ := hx.unfinished hn
          refine absurd ((hmem i).2 ⟨(h.tracked i).2 ⟨?_, s, hc.slot, hn'⟩, .inl hn⟩) ht
          rw [condemned_append, hdt, List.nil_append]
          exact hcd
        · exact (hx.closed h hc.slot hn).resolve_right hcd
      · refine h.closed i u hu (fun ht' => ht ((hmem i).2 ⟨ht', .inr hi⟩)) ?_
        rw [← hcond i hi]
        exact hcd }

lemma Tracks.rests (h : Tracks (d.tasks ++ ts) e) (hr : Rests e e') (hc : condemned new = [])
    (hd : condemned d.tasks = []) (hs : ∀ id ∈ starting d.tasks, id ∉ e.tracked) :
    Tracks (new ++ ts) e' := by
  have hcond : condemned (new ++ ts) = condemned (d.tasks ++ ts) := by
    rw [condemned_append, condemned_append, hc, hd]
  exact {
    handles_nodup := by
      rw [hr.handles]
      exact h.handles_nodup
    handles_lt := by
      intro i hi
      rw [hr.handles] at hi
      exact Nat.lt_of_lt_of_le (h.handles_lt i hi) hr.nextId
    slot := by
      intro i
      rw [hr.handles, hr.slot?]
      exact h.slot i
    query := by
      intro i u
      rw [hr.slot?]
      exact h.query i u
    hook := by
      intro i u
      rw [hr.slot?]
      exact h.hook i u
    tracked_nodup := by
      rw [hr.tracked]
      exact h.tracked_nodup
    tracked := by
      intro i
      rw [hr.tracked, hcond, hr.slot?]
      exact h.tracked i
    doomed := by
      intro i
      rw [hcond, hr.handles]
      exact h.doomed i
    live := by
      intro i
      rw [hr.live, hr.tracked]
      exact h.live i
    incoming_nodup := by
      rw [hr.incoming]
      exact h.incoming_nodup
    incoming := by
      rw [hr.incoming, hr.handles]
      exact h.incoming
    idle := by
      intro i hi u hu hp
      rw [hr.tracked] at hi
      rw [hr.slot?] at hu
      rw [hr.incoming, starting_append]
      refine (h.idle i hi u hu hp).imp_right fun hm => List.mem_append_right _ ?_
      rw [starting_append, List.mem_append] at hm
      exact hm.resolve_left fun hm => hs i hm hi
    closed := by
      intro i u hu ht
      rw [hr.slot?] at hu
      rw [hr.tracked] at ht
      rw [hcond]
      exact h.closed i u hu ht }

lemma Tracks.takes {mine rest : List QueryId} (h : Tracks ts e) (hi : e.incoming = mine ++ rest) :
    Tracks (mine.map .start ++ ts) { e with incoming := rest } := by
  have hc : condemned (mine.map .start ++ ts) = condemned ts := by
    rw [condemned_append, condemned_map fun _ => rfl, List.nil_append]
  have hs : starting (mine.map .start) = mine := List.filterMap_map.trans List.filterMap_some
  have hn := h.incoming_nodup
  have hm := h.incoming
  rw [hi] at hn hm
  exact { h with
    tracked := by
      rw [hc]
      exact h.tracked
    doomed := by
      rw [hc]
      exact h.doomed
    incoming_nodup := (List.nodup_append.1 hn).2.1
    incoming := fun i hi => hm i (List.mem_append_right _ hi)
    idle := by
      intro i ht u hu hp
      have hidle := h.idle i ht u hu hp
      rw [hi, List.mem_append] at hidle
      rw [starting_append, hs, List.mem_append]
      rcases hidle with (hidle | hidle) | hidle
      · exact .inr (.inl hidle)
      · exact .inl hidle
      · exact .inr (.inr hidle)
    closed := by
      rw [hc]
      exact h.closed }

/-- What was tracked is about to fail, and nothing is tracked any more. -/
lemma Tracks.condemns (h : Tracks ts e) (o : DrainOrder) :
    Tracks ((o.arrange e.tracked).map .shutDown ++ ts)
      { e with tracked := [], schedule := {}, incoming := [], overflow := [] } := by
  have hc (i) : i ∈ condemned ((o.arrange e.tracked).map .shutDown ++ ts) ↔
      i ∈ e.tracked ∨ i ∈ condemned ts := by
    rw [condemned_append, condemned_shutDown, List.mem_append, (o.perm e.tracked).mem_iff]
  exact { h with
    tracked_nodup := .nil
    tracked := by
      intro i
      rw [hc]
      refine ⟨fun hi => (by cases hi), fun ⟨hn, hu⟩ => absurd ?_ hn⟩
      by_cases hi : i ∈ condemned ts
      · exact .inr hi
      · exact .inl ((h.tracked i).2 ⟨hi, hu⟩)
    doomed := by
      intro i hi
      rcases (hc i).1 hi with hi | hi
      · obtain ⟨s, hs, -⟩ := h.unfinished i hi
        exact (h.slot i).2 ⟨s, hs⟩
      · exact h.doomed i hi
    live := fun i => ⟨fun ⟨d, hd⟩ => (by cases hd), fun hi => (by cases hi)⟩
    incoming_nodup := .nil
    incoming := fun i hi => by cases hi
    idle := fun i hi => by cases hi
    closed := by
      intro i u hu _ hi
      rw [hc, not_or] at hi
      exact h.closed i u hu hi.1 hi.2 }

/-- The agenda matters for what is about to fail, and for what is about to start. -/
lemma Tracks.agenda {us : List Task} (h : Tracks ts e)
    (hc : ∀ id, id ∈ condemned us ↔ id ∈ condemned ts)
    (hs : ∀ id, id ∈ starting us ↔ id ∈ starting ts) : Tracks us e :=
  { h with
    tracked := by
      simp only [hc]
      exact h.tracked
    doomed := by
      simp only [hc]
      exact h.doomed
    idle := by
      simp only [hs]
      exact h.idle
    closed := by
      simp only [hc]
      exact h.closed }

lemma Tracks.enroll (h : Tracks ts e) (m : Message) (p : QueryParams) (ks : List Continuation)
    (now : Instant) : Tracks ts (e.enroll m p ks now) := by
  have hfresh : e.nextId ∉ e.handles := fun hi => Nat.lt_irrefl _ (h.handles_lt _ hi)
  have htracked (i) (hi : i ∈ e.tracked) : i ∈ e.handles := by
    obtain ⟨s, hs, -⟩ := h.unfinished i hi
    exact (h.slot i).2 ⟨s, hs⟩
  have hself := slot?_enroll_self e m p ks now
  have hother (i) (hi : i ≠ e.nextId) := slot?_enroll_other e m p ks now hi
  have hnodup {l : List QueryId} (hl : l.Nodup) (hi : e.nextId ∉ l) : (l ++ [e.nextId]).Nodup := by
    refine List.nodup_append.2 ⟨hl, List.pairwise_singleton _ _, fun a ha b hb => ?_⟩
    rw [List.mem_singleton.1 hb]
    exact ne_of_mem_of_not_mem ha hi
  have hmem {l : List QueryId} {i : QueryId} : i ∈ l ++ [e.nextId] ↔ i ∈ l ∨ i = e.nextId := by
    rw [List.mem_append, List.mem_singleton]
  have hdoomed : e.nextId ∉ condemned ts := fun hi => hfresh (h.doomed _ hi)
  exact {
    handles_nodup := hnodup h.handles_nodup hfresh
    handles_lt := by
      intro i hi
      rcases hmem.1 hi with hi | rfl
      · exact Nat.lt_succ_of_lt (h.handles_lt i hi)
      · exact Nat.lt_succ_self _
    slot := by
      intro i
      refine hmem.trans ?_
      by_cases hi : i = e.nextId
      · rw [hi, hself]
        simp
      · rw [hother i hi, h.slot]
        simp [hi]
    query := by
      intro i u hu
      by_cases hi : i = e.nextId
      · rw [hi, hself] at hu
        cases hu
        exact hi.symm
      · rw [hother i hi] at hu
        exact h.query i u hu
    hook := by
      intro i u hu hn
      by_cases hi : i = e.nextId
      · rw [hi, hself] at hu
        cases hu
        rw [hi]
        rfl
      · rw [hother i hi] at hu
        exact h.hook i u hu hn
    tracked_nodup := hnodup h.tracked_nodup fun hi => hfresh (htracked _ hi)
    tracked := by
      intro i
      refine hmem.trans ?_
      by_cases hi : i = e.nextId
      · rw [hi, hself]
        simp [hdoomed, Slot.fresh]
      · rw [hother i hi, h.tracked]
        simp [hi]
    doomed := by
      intro i hi
      exact hmem.2 (.inl (h.doomed i hi))
    live := by
      intro i
      refine Iff.trans ?_ hmem.symm
      rw [live_enroll, ← h.live]
      split
      · next hi => simp [hi]
      · next hi => simp [hi]
    incoming_nodup := hnodup h.incoming_nodup fun hi => hfresh (h.incoming _ hi)
    incoming := by
      intro i hi
      rcases hmem.1 hi with hi | rfl
      · exact hmem.2 (.inl (h.incoming i hi))
      · exact hmem.2 (.inr rfl)
    idle := by
      intro i hi u hu hp
      rcases hmem.1 hi with hi | rfl
      · rw [hother i (ne_of_mem_of_not_mem (htracked i hi) hfresh)] at hu
        exact (h.idle i hi u hu hp).imp_left fun hm => hmem.2 (.inl hm)
      · exact .inl (hmem.2 (.inr rfl))
    closed := by
      intro i u hu ht hc
      by_cases hi : i = e.nextId
      · exact absurd (hmem.2 (.inr hi)) ht
      · rw [hother i hi] at hu
        exact h.closed i u hu (fun hm => ht (hmem.2 (.inl hm))) hc }

/-- A deed keeps the books in order. -/
theorem Tracks.does (h : Tracks (d.tasks ++ ts) e) (hd : Does e d t new e') :
    Tracks (new ++ ts) e' := by
  cases hd with
  | rests hr hc _ _ hd hs => exact h.rests hr hc hd hs
  | takes hi _ => exact Tracks.takes h hi
  | @condemns o => exact Tracks.condemns h o
  | changes hc hx => exact h.changes hc hx
  | @accepts _ m p ks now _ hd hn =>
    obtain ⟨hu, hu', -⟩ := Deed.tasks_of_submission hd
    have hv : condemned new = [] ∧ starting new = [] := by
      rcases hn with rfl | rfl <;> exact ⟨rfl, rfl⟩
    refine Tracks.enroll (h.agenda (fun i => ?_) fun i => ?_) m p ks now
    · rw [condemned_append, condemned_append, hu, hv.1]
    · rw [starting_append, starting_append, hu', hv.2]

lemma Tracks.cue {k : Cue} (h : Tracks [] e) (hy : Yields (e.cue k) t (ts, e')) : Tracks ts e' := by
  have ht : Tracks (ts ++ []) e' := Tracks.does (d := .cue k) h (does_of_cue hy)
  rwa [List.append_nil] at ht

lemma Tracks.perform {k : Task} (h : Tracks (k :: ts) e) (hy : Yields (e.perform k) t (new, e')) :
    Tracks (new ++ ts) e' := Tracks.does (d := .task k) h (does_of_perform h hy)

lemma tracks_ofConfig (c : Config) : Tracks [] (ofConfig c) := by
  constructor <;> simp [ofConfig, slot?, condemned]

/-- The books are in order all along. -/
lemma Course.tracks {c : Config} (h : Course (ofConfig c) ms ts e) : Tracks ts e := by
  induction h with
  | nil => exact tracks_ofConfig c
  | cue _ h ih => exact ih.cue h
  | task _ h ih => exact ih.perform h

/-- Courses deed by deed, with what each deed does. -/
@[elab_as_elim]
lemma Course.deeds {c : Config}
    {P : ∀ ms ts e, Course (ofConfig c) ms ts e → Prop} (nil : P [] [] (ofConfig c) .nil)
    (step : ∀ {ms ts e d t new e'} (hc : Course (ofConfig c) ms (d.tasks ++ ts) e)
      (hc' : Course (ofConfig c) (ms ++ [⟨e, d, t, e'⟩]) (new ++ ts) e'), P _ _ _ hc →
      Tracks (d.tasks ++ ts) e → Does e d t new e' → P _ _ _ hc')
    {ms : List Moment} {ts : List Task} {e : Engine} (h : Course (ofConfig c) ms ts e) :
    P ms ts e h := by
  induction h with
  | nil => exact nil
  | @cue ms e e' k t ts hs h ih =>
    have hc' := hs.cue h
    rw [← List.append_nil ts] at hc'
    have hp : P _ (ts ++ []) e' hc' := step (d := .cue k) hs hc' ih hs.tracks (does_of_cue h)
    simpa using hp
  | @task ms e e' k t ts new hs h ih =>
    exact step (d := .task k) hs (hs.task h) ih hs.tracks (does_of_perform hs.tracks h)

/-- A course up to one of its moments. -/
lemma Course.before {ns : List Moment} {a : Moment}
    (hc : Course e₀ (ms ++ a :: ns) ts e) : ∃ us, Course e₀ ms (a.deed.tasks ++ us) a.before := by
  -- the moment is the last one, or the course without the last one has it
  have split (ns l : List Moment) (b : Moment) (hl : ms ++ a :: ns = l ++ [b]) :
      (ms = l ∧ a = b) ∨ ∃ ns', ms ++ a :: ns' = l := by
    rcases List.eq_nil_or_concat ns with rfl | ⟨ns', b', rfl⟩
    · exact .inl (List.append_inj' hl rfl |>.imp_right fun h => List.head_eq_of_cons_eq h)
    · have hb : ms ++ a :: ns' ++ [b'] = l ++ [b] := by simpa using hl
      exact .inr ⟨ns', (List.append_inj' hb rfl).1⟩
  generalize hl : ms ++ a :: ns = l at hc
  induction hc generalizing ns with
  | nil => simp at hl
  | cue hc hy ih =>
    rcases split _ _ _ hl with ⟨rfl, rfl⟩ | ⟨ns', rfl⟩
    · exact ⟨[], hc⟩
    · exact ih rfl
  | task hc hy ih =>
    rcases split _ _ _ hl with ⟨rfl, rfl⟩ | ⟨ns', rfl⟩
    · exact ⟨_, hc⟩
    · exact ih rfl

end Engine

end DnsClient
