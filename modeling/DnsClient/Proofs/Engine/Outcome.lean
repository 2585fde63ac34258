import DnsClient.Proofs.Engine.Submission

/-!
How queries come by their outcomes.

An outcome is set in one moment of a course, and it lasts. The deed of that moment is the cause
(`Ends`). What a cause needs to have come before it, as its submission or the start of a shutdown,
is found in the moments before.
-/

namespace DnsClient

open Program

/-- Whether an outcome tells that the query was cancelled. -/
def Outcome.isCancelled : Outcome → Bool
  | .cancelled => true
  | _ => false

/-- The handle that the deed cancels, if it comes to change anything. -/
def Deed.cancels : Deed → List Nat
  | .task (.request (.cancel h)) => [h]
  | _ => []

namespace Engine

/-! ### Causes -/

/-- The moment ends the query with the handle, and this is how. -/
inductive Ends (a : Moment) (h : Nat) : Outcome → Prop where
  | reports {id : QueryId} {s : Slot} {b : Query.Action} {x : Except QueryError Message} {q : Query}
      (hi : a.before.handles[h]? = some id) (hs : a.before.slot? id = some s)
      (hd : a.deed.lets id b) (hy : Yields (s.query.act b) a.calls (.done x, q)) :
      Ends a h (.ofResult x)
  | cancels (hd : a.deed = .task (.request (.cancel h))) : Ends a h .cancelled
  | expires {id : QueryId} {now : Instant} (hi : a.before.handles[h]? = some id)
      (hd : a.deed = .task (.expire now))
      (hp : (a.before.schedule.popExpired now).1 = some id) : Ends a h (.failed .timeout)
  | shutsDown {id : QueryId} (hi : a.before.handles[h]? = some id)
      (hd : a.deed = .task (.shutDown id)) : Ends a h (.failed .shutdown)

variable {e e' e₀ : Engine} {id : QueryId} {s s' : Slot} {ts new : List Task} {t : List Event}
  {d : Deed} {ms : List Moment} {h : Nat} {o : Outcome}

lemma outcome?_of_handle (hi : e.handles[h]? = some id) (hs : e.slot? id = some s) :
    e.outcome? h = s.cell.outcome? := by
  simp [outcome?, hi, hs]

/-- A query that is taken in has no outcome, and the others keep theirs. -/
lemma outcome?_enroll {m : Message} {p : QueryParams} {ks : List Continuation} {now : Instant}
    (hlt : ∀ id ∈ e.handles, id < e.nextId) (h : Nat) :
    (e.enroll m p ks now).outcome? h = e.outcome? h := by
  rw [outcome?, outcome?, handles_enroll]
  by_cases hl : h < e.handles.length
  · have hi : e.handles[h] ≠ e.nextId := Nat.ne_of_lt (hlt _ (List.getElem_mem hl))
    rw [List.getElem?_append_left hl, List.getElem?_eq_getElem hl, Option.bind_some,
      Option.bind_some, slot?_enroll_other e m p ks now hi]
  · rw [List.getElem?_eq_none (Nat.le_of_not_lt hl),
      List.getElem?_append_right (Nat.le_of_not_lt hl)]
    cases h - e.handles.length with
    | zero =>
      change Option.bind (slot? _ e.nextId) _ = none
      rw [slot?_enroll_self]
      rfl
    | succ n => rfl

/-! ### Deeds -/

lemma tasks_of_lets {b : Query.Action} (hd : d.lets id b) : owed d.tasks = [] ∧ d.cancels = [] := by
  rcases Deed.lets_cases hd with rfl | rfl <;> exact ⟨rfl, rfl⟩

/-- The replies that a change of a slot makes or promises. -/
lemma Effect.told (hx : Effect e d id s t new s') :
    cancellations t ++ owed new = owed d.tasks ++ d.cancels := by
  have hk (o : Outcome) : owed (s.cell.continuations.map (.notify · o)) = [] :=
    owed_map fun _ => rfl
  have hv {b r} (hy : Yields (s.query.act b) t r) : cancellations t = [] :=
    cancellations_eq_nil (Query.move_of_act hy).own
  cases hx with
  | waits hd _ => rw [hd]; rfl
  | goesOn hd _ hy => rw [hv hy, (tasks_of_lets hd).1, (tasks_of_lets hd).2]; rfl
  | ends hd _ hy => rw [hv hy, hk, (tasks_of_lets hd).1, (tasks_of_lets hd).2]
  | cancels hd _ _ ht =>
    rw [ht.cancellations_eq, owed_append, hk, hd]
    rfl
  | expires hd _ _ ht => rw [ht.cancellations_eq, owed_append, hk, hd]; rfl
  | shutsDown hd _ ht => rw [ht.cancellations_eq, hk, hd]; rfl
  | closes hd _ ht => rw [ht.cancellations_eq, hd]; rfl

/-- The outcome of a query stays as it is, or this deed sets it. -/
lemma Effect.outcome (hx : Effect e d id s t new s') (hh : e.handles[h]? = some id)
    (hs : e.slot? id = some s) (hn : e.handles.Nodup) :
    (s'.cell.outcome? = s.cell.outcome? ∧ d.cancels.count h = 0) ∨
    s.cell.outcome? = none ∧ ∃ o, s'.cell.outcome? = some o ∧ Ends ⟨e, d, t, e'⟩ h o ∧
      d.cancels.count h = if o.isCancelled then 1 else 0 := by
  cases hx with
  | waits hd _ => exact .inl ⟨rfl, by rw [hd]; rfl⟩
  | goesOn hd _ _ => exact .inl ⟨rfl, by rw [(tasks_of_lets hd).2]; rfl⟩
  | closes hd _ _ => exact .inl ⟨rfl, by rw [hd]; rfl⟩
  | @ends b t x q hd hn hy =>
    refine .inr ⟨hn, _, rfl, .reports hh hs hd hy, ?_⟩
    rw [(tasks_of_lets hd).2]
    cases x <;> rfl
  | @cancels h' t hd hh' hn' _ =>
    obtain ⟨hlt, -⟩ := List.getElem?_eq_some_iff.1 hh
    obtain rfl : h = h' := (List.getElem?_inj hlt hn).1 (hh.trans hh'.symm)
    refine .inr ⟨hn', _, rfl, .cancels hd, ?_⟩
    rw [hd]
    simp [Deed.cancels, Outcome.isCancelled]
  | expires hd hp hn _ => exact .inr ⟨hn, _, rfl, .expires hh hd hp, by rw [hd]; rfl⟩
  | shutsDown hd hn _ => exact .inr ⟨hn, _, rfl, .shutsDown hh hd, by rw [hd]; rfl⟩

/-- A change of the slot of another query does not cancel this one. -/
lemma Effect.cancels_other (hx : Effect e d id s t new s') (hh : e.handles[h]? ≠ some id) :
    d.cancels.count h = 0 := by
  cases hx with
  | waits hd _ | expires hd _ _ _ | shutsDown hd _ _ | closes hd _ _ => rw [hd]; rfl
  | goesOn hd _ _ => rw [(tasks_of_lets hd).2]; rfl
  | ends hd _ _ => rw [(tasks_of_lets hd).2]; rfl
  | @cancels h' t hd hh' _ _ =>
    rw [hd]
    refine List.count_eq_zero.2 fun hm => hh ?_
    rw [List.mem_singleton.1 hm]
    exact hh'

/-- Every query keeps its outcome, or this deed sets it, and tells if it cancels the query. -/
lemma Does.outcome (ht : Tracks (d.tasks ++ ts) e) (hd : Does e d t new e') (h : Nat) :
    (e'.outcome? h = e.outcome? h ∧
      (cancellations t ++ owed new).count h = (owed d.tasks).count h) ∨
    e.outcome? h = none ∧ ∃ o, e'.outcome? h = some o ∧ Ends ⟨e, d, t, e'⟩ h o ∧
      (cancellations t ++ owed new).count h =
        (owed d.tasks).count h + if o.isCancelled then 1 else 0 := by
  cases hd with
  | rests hr _ ho _ _ _ =>
    refine .inl ⟨?_, by rw [ho]⟩
    have hslot : e'.slot? = e.slot? := funext hr.slot?
    rw [outcome?, outcome?, hr.handles, hslot]
  | takes _ hc =>
    refine .inl ⟨rfl, ?_⟩
    rw [hc, owed_map fun _ => rfl]
    rfl
  | condemns =>
    refine .inl ⟨rfl, ?_⟩
    rw [owed_map fun _ => rfl]
    rfl
  | @accepts _ m p ks now new hd hn =>
    obtain ⟨-, -, ho⟩ := Deed.tasks_of_submission hd
    have hnew : owed new = [] := by rcases hn with rfl | rfl <;> rfl
    exact .inl ⟨outcome?_enroll ht.handles_lt h, by rw [hnew, ho]; rfl⟩
  | @changes _ _ _ _ id s s' hc hx =>
    rw [hx.told, List.count_append]
    by_cases hh : e.handles[h]? = some id
    · rw [outcome?_of_handle hh hc.slot, outcome?_of_handle (hc.handles ▸ hh) hc.self]
      rcases hx.outcome hh hc.slot ht.handles_nodup with ⟨ho, h0⟩ | ⟨hn, o, ho, he, h1⟩
      · exact .inl ⟨ho, by rw [h0]; rfl⟩
      · exact .inr ⟨hn, o, ho, he, by rw [h1]⟩
    · refine .inl ⟨?_, by rw [hx.cancels_other hh]; rfl⟩
      rw [outcome?, outcome?, hc.handles]
      cases hi : e.handles[h]? with
      | none => rfl
      | some i =>
        have hne : i ≠ id := fun he => hh (by rw [hi, he])
        rw [Option.bind_some, Option.bind_some, hc.other hne]

/-- A shutdown that finds queries left is the one deed that has any fail for it. -/
lemma Does.condemned (hd : Does e d t new e') :
    DnsClient.condemned new = [] ∨
      ∃ o, d = .cue (.failRemaining o) ∧ DnsClient.condemned new = o.arrange e.tracked := by
  cases hd with
  | rests _ hc _ _ _ _ => exact .inl hc
  | takes _ _ => exact .inl (condemned_map fun _ => rfl)
  | @condemns o => exact .inr ⟨o, rfl, condemned_shutDown _⟩
  | accepts _ hn => rcases hn with rfl | rfl <;> exact .inl rfl
  | changes _ hx => exact .inl hx.agenda_new.1

lemma Does.handles (hd : Does e d t new e') : e.handles <+: e'.handles := by
  cases hd with
  | rests hr _ _ _ _ _ => exact hr.handles ▸ List.prefix_rfl
  | takes _ _ | condemns => exact List.prefix_rfl
  | accepts _ _ => exact List.prefix_append ..
  | changes hc _ => exact hc.handles ▸ List.prefix_rfl

lemma Does.lasts (ht : Tracks (d.tasks ++ ts) e) (hd : Does e d t new e')
    (ho : e.outcome? h = some o) : e'.outcome? h = some o := by
  rcases hd.outcome ht h with ⟨he, -⟩ | ⟨hn, -⟩
  · rw [he, ho]
  · cases hn.symm.trans ho

/-- How often the query with the handle is cancelled. -/
def cancelled (e : Engine) (h : Nat) : Nat :=
  if (e.outcome? h).any Outcome.isCancelled then 1 else 0

/-- A deed cancels a query just if it tells, or has it told, that it did. -/
lemma Does.cancelled (ht : Tracks (d.tasks ++ ts) e) (hd : Does e d t new e') (h : Nat) :
    (cancellations t).count h + (owed new).count h + e.cancelled h =
      (owed d.tasks).count h + e'.cancelled h := by
  have ho := hd.outcome ht h
  rw [List.count_append] at ho
  unfold Engine.cancelled
  rcases ho with ⟨ho, hn⟩ | ⟨hn, o, ho, -, h1⟩
  · rw [ho, hn]
  · rw [hn, ho, h1]
    simp

/-- Once all tasks are done, the calls that they owed have told of what was cancelled. -/
lemma Tracks.settle (ht : Tracks ts e) (hy : Yields (e.settle ts) t e') :
    Tracks [] e' ∧
      ∀ h, (cancellations t).count h + e.cancelled h = (owed ts).count h + e'.cancelled h := by
  refine settle_induction (P := fun ts e t => Tracks ts e → Tracks [] e' ∧
    ∀ h, (cancellations t).count h + e.cancelled h = (owed ts).count h + e'.cancelled h) ?_ ?_ hy ht
  · exact fun ht => ⟨ht, fun h => rfl⟩
  · intro k ts e u new e₁ v hp ih ht
    obtain ⟨ht', hc⟩ := ih (ht.perform hp)
    refine ⟨ht', fun h => ?_⟩
    have hd := (does_of_perform ht hp).cancelled (d := .task k) ht h
    have hc := hc h
    have hk : owed (k :: ts) = owed [k] ++ owed ts := owed_append [k] ts
    rw [owed_append, List.count_append] at hc
    rw [cancellations_append, hk, List.count_append, List.count_append]
    change _ = (owed [k]).count h + _ at hd
    omega

/-! ### Courses -/

variable {c : Config} {x : Submission}

/-- Cancel calls that returned true or are going to are the ones that cancelled. -/
lemma Course.cancellations (hc : Course (ofConfig c) ms ts e) (h : Nat) :
    (cancellations (callsOf ms) ++ owed ts).count h =
      if (e.outcome? h).any Outcome.isCancelled then 1 else 0 := by
  change _ = e.cancelled h
  induction hc using Course.deeds with
  | nil => rfl
  | @step ms ts e d t new e' _ _ ih ht hd =>
    have hc := hd.cancelled ht h
    simp only [callsOf_append, callsOf_singleton, cancellations_append, owed_append,
      List.count_append] at ih ⊢
    omega

/-- The outcome of the query with the handle is set in this moment. -/
def Moment.settles (h : Nat) (a : Moment) : Bool :=
  (a.before.outcome? h).isNone && (a.after.outcome? h).isSome

lemma Course.settled (hc : Course (ofConfig c) ms ts e) (h : Nat) :
    ms.countP (·.settles h) = if (e.outcome? h).isSome then 1 else 0 := by
  induction hc using Course.deeds with
  | nil => rfl
  | @step ms ts e d t new e' _ _ ih ht hd =>
    rw [List.countP_append, List.countP_singleton, ih, Moment.settles]
    rcases hd.outcome ht h with ⟨ho, -⟩ | ⟨hn, o, ho, -⟩
    · rw [ho]
      cases e.outcome? h <;> rfl
    · rw [hn, ho]
      rfl

/-- An outcome lasts. -/
lemma Course.lasts (hc : Course (ofConfig c) ms ts e) :
    ∀ a ∈ ms, ∀ o, a.before.outcome? h = some o ∨ a.after.outcome? h = some o →
      e.outcome? h = some o := by
  induction hc using Course.deeds with
  | nil => exact fun a ha => by cases ha
  | @step ms ts e d t new e' _ _ ih ht hd =>
    refine List.forall_mem_append.2 ⟨fun a ha o ho => hd.lasts ht (ih a ha o ho), ?_⟩
    exact List.forall_mem_singleton.2 fun o ho => ho.elim (hd.lasts ht) id

lemma Course.handles (hc : Course (ofConfig c) ms ts e) :
    ∀ a ∈ ms, a.before.handles <+: e.handles := by
  induction hc using Course.deeds with
  | nil => exact fun a ha => by cases ha
  | @step ms ts e d t new e' _ _ ih _ hd =>
    refine List.forall_mem_append.2 ⟨fun a ha => (ih a ha).trans hd.handles, ?_⟩
    exact List.forall_mem_singleton.2 hd.handles

/-- An outcome has a moment that sets it, after a course of its own. -/
lemma Course.ends (hc : Course (ofConfig c) ms ts e) (ho : e.outcome? h = some o) :
    ∃ ms₁ ts₁ a ms₂, ms = ms₁ ++ a :: ms₂ ∧
      Course (ofConfig c) ms₁ (a.deed.tasks ++ ts₁) a.before ∧ Ends a h o ∧
      a.before.outcome? h = none ∧ a.after.outcome? h = some o := by
  induction hc using Course.deeds generalizing o with
  | nil => cases ho
  | @step ms ts e d t new e' hc _ ih ht hd =>
    rcases hd.outcome ht h with ⟨he, -⟩ | ⟨hn, o', ho', hx, -⟩
    · obtain ⟨ms₁, ts₁, a, ms₂, rfl, hc₁, hx⟩ := ih (he ▸ ho)
      exact ⟨ms₁, ts₁, a, ms₂ ++ [⟨e, d, t, e'⟩], by simp, hc₁, hx⟩
    · obtain rfl : o' = o := Option.some_inj.1 (ho'.symm.trans ho)
      exact ⟨ms, ts, _, [], rfl, hc, hx, hn, ho⟩

/-- What is to fail was tracked when a shutdown failed all that was left. -/
lemma Course.condemned (hc : Course (ofConfig c) ms ts e) (hi : id ∈ DnsClient.condemned ts) :
    ∃ a ∈ ms, ∃ o, a.deed = .cue (.failRemaining o) ∧ id ∈ a.before.tracked ∧
      ∃ ts₁, Tracks ts₁ a.before := by
  induction hc using Course.deeds with
  | nil => cases hi
  | @step ms ts e d t new e' _ _ ih ht hd =>
    rw [condemned_append, List.mem_append] at hi
    by_cases hts : id ∈ DnsClient.condemned ts
    · rw [condemned_append] at ih
      obtain ⟨a, ha, hf⟩ := ih (List.mem_append_right _ hts)
      exact ⟨a, List.mem_append_left _ ha, hf⟩
    · rcases hd.condemned with hn | ⟨o, hf, hn⟩
      · rw [hn] at hi
        exact absurd hi (by simp [hts])
      · rw [hn] at hi
        have hi := (o.perm e.tracked).mem_iff.1 (hi.resolve_right hts)
        exact ⟨_, List.mem_append_right _ (List.mem_singleton_self _), o, hf, hi, _, ht⟩

/-! ### Accounts -/

/-- The query was taken out of the schedule at a time not before its deadline, without outcome. -/
def TimedOut (ms : List Moment) (h : Nat) (x : Submission) : Prop :=
  ∃ a ∈ ms, ∃ id now, a.deed = .task (.expire now) ∧ a.before.handles[h]? = some id ∧
    (a.before.schedule.popExpired now).1 = some id ∧ x.deadline ≤ now ∧
    a.before.outcome? h = none ∧ a.after.outcome? h = some (.failed .timeout)

/-- The query was tracked and without outcome when a shutdown failed all that was left. -/
def LeftOver (ms : List Moment) (h : Nat) : Prop :=
  ∃ a ∈ ms, ∃ order id, a.deed = .cue (.failRemaining order) ∧
    a.before.handles[h]? = some id ∧ id ∈ a.before.tracked ∧ a.before.outcome? h = none

/-- The query of the submission reported the result, at the end of a run that is part of the course,
when it had no outcome. -/
inductive Reported (ms : List Moment) (h : Nat) (x : Submission) (r : Except QueryError Message) :
    Prop where
  | mk {a : Moment} {id : QueryId} {s : Slot} {vs : List Query.Visit} {b : Query.Action} {q : Query}
    (ha : a ∈ ms) (hi : a.before.handles[h]? = some id) (hs : a.before.slot? id = some s)
    (hv : Query.Visits (x.query id) (vs ++ [⟨s.query, b, a.calls, .done r, q⟩]) q)
    (ht : (Query.eventsOf (vs ++ [⟨s.query, b, a.calls, .done r, q⟩])).Sublist (callsOf ms))
    (hn : a.before.outcome? h = none) (ho : a.after.outcome? h = some (.ofResult r))

/-- The outcome of a submission, under its handle, is accounted for by the moments of a course. -/
structure Accounted (ms : List Moment) (ts : List Task) (e : Engine) (h : Nat) (x : Submission) :
    Prop where
  once : ms.countP (·.settles h) ≤ 1
  lasts : ∀ a ∈ ms, ∀ o, a.before.outcome? h = some o ∨ a.after.outcome? h = some o →
    e.outcome? h = some o
  cancelled : e.outcome? h = some .cancelled ↔ h ∈ cancellations (callsOf ms) ++ owed ts
  cancelledOnce : (cancellations (callsOf ms) ++ owed ts).count h ≤ 1
  timeout : e.outcome? h = some (.failed .timeout) → TimedOut ms h x
  shutdown : e.outcome? h = some (.failed .shutdown) → LeftOver ms h
  reported : ∀ o, e.outcome? h = some o → o ≠ .cancelled → o ≠ .failed .timeout →
    o ≠ .failed .shutdown → ∃ r, o = .ofResult r ∧ Reported ms h x r

/-- A query never reports a timeout or a shutdown by itself. -/
lemma ofResult_ne {q q' : Query} {b : Query.Action} {r : Except QueryError Message}
    (hy : Yields (q.act b) t (.done r, q')) :
    Outcome.ofResult r ≠ .failed .timeout ∧ Outcome.ofResult r ≠ .failed .shutdown := by
  have he := (Query.move_of_act hy).leads.error
  constructor <;>
  · intro hr
    cases r with
    | ok m => cases hr
    | error y =>
      cases hr
      cases he _ rfl

lemma Course.timedOut (hc : Course (ofConfig c) ms ts e) (hx : (submissions ms)[h]? = some x)
    (ho : e.outcome? h = some (.failed .timeout)) : TimedOut ms h x := by
  obtain ⟨ms₁, ts₁, a, ms₂, rfl, hc₁, ha, hn, ho'⟩ := hc.ends ho
  generalize hr : Outcome.failed .timeout = r at ha
  cases ha with
  | reports _ _ _ hy => exact absurd hr.symm (ofResult_ne hy).1
  | cancels | shutsDown => cases hr
  | @expires id now hi hd hp =>
    obtain ⟨⟨d, hl, hle⟩, -⟩ := Schedule.popExpired_some hp
    have hdl := (hc₁.filed_of_append hi hx).live d hl
    exact ⟨a, by simp, id, now, hd, hi, hp, hdl ▸ hle, hn, ho'⟩

lemma Course.leftOver (hc : Course (ofConfig c) ms ts e)
    (ho : e.outcome? h = some (.failed .shutdown)) : LeftOver ms h := by
  obtain ⟨ms₁, ts₁, a, ms₂, rfl, hc₁, ha, -, -⟩ := hc.ends ho
  generalize hr : Outcome.failed .shutdown = r at ha
  cases ha with
  | reports _ _ _ hy => exact absurd hr.symm (ofResult_ne hy).2
  | cancels | expires => cases hr
  | @shutsDown id hi hd =>
    have hmem : id ∈ DnsClient.condemned (a.deed.tasks ++ ts₁) := by
      rw [hd]
      exact List.mem_cons_self ..
    obtain ⟨b, hb, o, hf, ht, ts₂, htr⟩ := hc₁.condemned hmem
    obtain ⟨s, hs, hn⟩ := htr.unfinished id ht
    -- its handle there is the one it has later on
    obtain ⟨k, hk⟩ := List.mem_iff_getElem?.1 ((htr.slot id).2 ⟨s, hs⟩)
    obtain ⟨hlt, -⟩ := List.getElem?_eq_some_iff.1 hk
    obtain ⟨is, his⟩ := hc₁.handles b hb
    have hk' : a.before.handles[k]? = some id := by rw [← his, List.getElem?_append_left hlt, hk]
    obtain ⟨hlt, -⟩ := List.getElem?_eq_some_iff.1 hi
    obtain rfl : h = k := (List.getElem?_inj hlt hc₁.tracks.handles_nodup).1 (hi.trans hk'.symm)
    refine ⟨b, List.mem_append_left _ hb, o, id, hf, hk, ht, ?_⟩
    rw [outcome?_of_handle hk hs, hn]

lemma Course.reported (hc : Course (ofConfig c) ms ts e) (hx : (submissions ms)[h]? = some x)
    (ho : e.outcome? h = some o) (h₁ : o ≠ .cancelled) (h₂ : o ≠ .failed .timeout)
    (h₃ : o ≠ .failed .shutdown) : ∃ r, o = .ofResult r ∧ Reported ms h x r := by
  obtain ⟨ms₁, ts₁, a, ms₂, rfl, hc₁, ha, hn, ho'⟩ := hc.ends ho
  cases ha with
  | cancels => exact absurd rfl h₁
  | expires => exact absurd rfl h₂
  | shutsDown => exact absurd rfl h₃
  | @reports id s b r q hi hs hd hy =>
    refine ⟨r, rfl, ?_⟩
    obtain ⟨s', hs', hv⟩ := (hc₁.filed_of_append hi hx).slot
    obtain rfl : s' = s := Option.some_inj.1 (hs'.symm.trans hs)
    obtain ⟨vs, hvs, ht⟩ := hv (by rw [← outcome?_of_handle hi hs, hn])
    refine ⟨by simp, hi, hs, hvs.snoc hy, ?_, hn, ho'⟩
    rw [Query.eventsOf_append]
    simpa [callsOf] using ht.append (List.sublist_append_left a.calls _)

/-- **Outcomes**: whatever happens to an engine, the outcome of every query submitted to it is set
at most once and lasts, and it has the cause that it tells of. -/
theorem accounted_of_course (hc : Course (ofConfig c) ms ts e)
    (hx : (submissions ms)[h]? = some x) : Accounted ms ts e h x := by
  have hcount := hc.cancellations h
  refine ⟨?_, hc.lasts, ?_, ?_, hc.timedOut hx, hc.leftOver, fun o => hc.reported hx⟩
  · rw [hc.settled h]
    split <;> omega
  · rw [← List.count_pos_iff, hcount]
    cases ho : e.outcome? h with
    | none => simp
    | some o => cases o <;> simp [Outcome.isCancelled]
  · rw [hcount]
    split <;> omega

/-- A query that is submitted at 5 with a timeout of 50 is taken out of the schedule at 60. -/
theorem accounted_of_course_overdue :
    ∃ (c : Config) (ms : List Moment) (e : Engine) (x : Submission),
      Course (ofConfig c) ms [] e ∧ (submissions ms)[0]? = some x ∧
        e.outcome? 0 = some (.failed .timeout) ∧ Accounted ms [] e 0 x := by
  let p : QueryParams := { server := ⟨.localhost, 53⟩, timeout := 50 }
  have hs : Yields ((ofConfig {}).cue (.submit .blank p)) [⟨.now, 5⟩, ⟨.wake, ()⟩] ([], _) :=
    .call _ (.call _ (.pure _))
  have hc := (Course.nil.cue hs).cue (c := .expire 60) (.pure _)
  have hc := hc.task (t := []) (.pure _)
  have hc := hc.task (t := []) (.pure _)
  exact ⟨_, _, _, ⟨.blank, p, 5⟩, hc, rfl, rfl, accounted_of_course hc rfl⟩

end Engine

end DnsClient
