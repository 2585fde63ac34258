import DnsClient.Engine.Loop
import DnsClient.Proofs.Query.Visits
import DnsClient.Proofs.Schedule.Live

/-!
What the operations of an engine do to its parts.

A query that gets its outcome has its slot replaced and is forgotten. The lemmas say so with the
two operations `setSlot` and `forget` alone, whatever way the outcome came.
-/

namespace DnsClient

open Program

/-- What a query told at its end, as an outcome. -/
def Outcome.ofResult : Except QueryError Message → Outcome
  | .ok m => .response m
  | .error x => .failed x

/-- A slot with its outcome, where nothing waits for it any more. -/
def Slot.ended (o : Outcome) (q : Query) : Slot := ⟨{ outcome? := some o }, q⟩

/-- A slot for a request that was submitted just now. -/
def Slot.fresh (id : QueryId) (m : Message) (p : QueryParams) (ks : List Continuation) : Slot :=
  ⟨{ continuations := ks, hook? := some id }, { id, request := m, params := p }⟩

namespace Engine

variable {e e' : Engine} {id i : QueryId} {s s' : Slot} {t : List Event}

/-! ### Slots -/

lemma slot?_setSlot (e : Engine) (id i : QueryId) (s : Slot) :
    (e.setSlot id s).slot? i = if i = id then some s else e.slot? i := Table.get?_insert ..

@[simp] lemma tracked_setSlot : (e.setSlot id s).tracked = e.tracked := rfl
@[simp] lemma schedule_setSlot : (e.setSlot id s).schedule = e.schedule := rfl

@[simp] lemma setSlot_setSlot : (e.setSlot id s).setSlot id s' = e.setSlot id s' := by
  unfold setSlot
  rw [Table.insert_insert]

lemma forget_setSlot : (e.setSlot id s).forget i = (e.forget i).setSlot id s := rfl

lemma live_forget : (e.forget id).schedule.live = e.schedule.live.erase id :=
  Schedule.live_remove ..

/-! ### Outcomes -/

lemma complete_setSlot (e : Engine) (id : QueryId) (hn : s.cell.outcome? = none) (o : Outcome) :
    (e.setSlot id s).complete id o =
      (s.cell.continuations.map (.notify · o), e.setSlot id (.ended o s.query)) := by
  simp only [complete, slot?_setSlot, if_true, Cell.complete?, Cell.isFinished, hn,
    Option.isSome_none, Bool.false_eq_true, if_false, setSlot_setSlot]
  rfl

lemma complete_of_finished (hs : e.slot? id = some s) (hf : s.cell.outcome? ≠ none) (o : Outcome) :
    e.complete id o = ([], e) := by
  have hf' : s.cell.isFinished = true := Option.isSome_iff_ne_none.2 hf
  simp [complete, hs, Cell.complete?, hf']

lemma conclude_done (hn : s.cell.outcome? = none) (x : Except QueryError Message) (q : Query) :
    e.conclude id s (.done x, q) = (s.cell.continuations.map (.notify · (.ofResult x)),
      (e.forget id).setSlot id (.ended (.ofResult x) q)) := by
  have hc (o : Outcome) := complete_setSlot (e.forget id) id (s := { s with query := q }) hn o
  cases x with
  | ok m => exact hc (.response m)
  | error x => exact hc (.failed x)

/-- Whatever the calls of an abandoned query answer, it is closed. -/
lemma yields_abandon (hs : e.slot? id = some s) (h : Yields (e.abandon id) t e') :
    Yields s.query.abandon t s.query.close ∧
      e' = e.setSlot id { s with query := s.query.close } := by
  simp only [abandon, hs] at h
  obtain ⟨u, q, v, hq, hr, rfl⟩ := yields_bind.1 h
  obtain ⟨-, -, rfl⟩ := Query.yields_abandon hq
  obtain ⟨rfl, rfl⟩ := yields_pure.1 hr
  exact ⟨by simpa using hq, rfl⟩

/-! ### Tasks -/

variable {new : List Task}

lemma yields_start (h : Yields (e.start id) t (new, e')) :
    (t = [] ∧ new = [] ∧ e' = e ∧ ∀ s, e.slot? id = some s → s.cell.outcome? ≠ none) ∨
    ∃ s r, e.slot? id = some s ∧ s.cell.outcome? = none ∧ Yields s.query.start t r ∧
      (new, e') = e.conclude id s r := by
  unfold start at h
  split at h
  · next hs =>
    obtain ⟨rfl, hr⟩ := yields_pure.1 h
    cases hr
    exact .inl ⟨rfl, rfl, rfl, fun s hs' => by cases hs.symm.trans hs'⟩
  · next s hs =>
    split at h
    · next hf =>
      obtain ⟨rfl, hr⟩ := yields_pure.1 h
      cases hr
      refine .inl ⟨rfl, rfl, rfl, fun s' hs' => ?_⟩
      cases hs.symm.trans hs'
      exact Option.isSome_iff_ne_none.1 hf
    · next hf =>
      obtain ⟨u, r, v, hq, hr, rfl⟩ := yields_bind.1 h
      obtain ⟨rfl, he⟩ := yields_pure.1 hr
      rw [List.append_nil]
      exact .inr ⟨s, r, hs, by simpa [Cell.isFinished] using hf, hq, he⟩

lemma yields_dispatch (hu : ∀ i ∈ e.tracked, ∃ s, e.slot? i = some s ∧ s.cell.outcome? = none)
    (h : Yields (e.dispatch id) t (new, e')) :
    (t = [] ∧ new = [] ∧ e' = e) ∨
    ∃ s r, id ∈ e.tracked ∧ e.slot? id = some s ∧ s.cell.outcome? = none ∧
      Yields s.query.ready t r ∧ (new, e') = e.conclude id s r := by
  unfold dispatch at h
  split at h
  · next ht =>
    have ht : id ∈ e.tracked := by simpa [isTracked] using ht
    obtain ⟨s, hs, hn⟩ := hu id ht
    simp only [hs, Cell.isFinished, hn] at h
    obtain ⟨u, r, v, hq, hr, rfl⟩ := yields_bind.1 h
    obtain ⟨rfl, he⟩ := yields_pure.1 hr
    rw [List.append_nil]
    exact .inr ⟨s, r, ht, hs, hn, hq, he⟩
  · obtain ⟨rfl, hr⟩ := yields_pure.1 h
    cases hr
    exact .inl ⟨rfl, rfl, rfl⟩

/-- The engine without the first query that is overdue. -/
def overdue (e : Engine) (now : Instant) (id : QueryId) : Engine :=
  { e with tracked := e.tracked.filter (· ≠ id), schedule := (e.schedule.popExpired now).2 }

lemma yields_expire {now : Instant}
    (hu : ∀ i ∈ e.tracked, ∃ s, e.slot? i = some s ∧ s.cell.outcome? = none)
    (hl : ∀ i d, e.schedule.live.get? i = some d → i ∈ e.tracked)
    (h : Yields (e.expire now) t (new, e')) :
    ((e.schedule.popExpired now).1 = none ∧ t = [] ∧ new = [] ∧
      e' = { e with schedule := (e.schedule.popExpired now).2 }) ∨
    ∃ id s, (e.schedule.popExpired now).1 = some id ∧ id ∈ e.tracked ∧ e.slot? id = some s ∧
      s.cell.outcome? = none ∧ Yields s.query.abandon t s.query.close ∧
      new = s.cell.continuations.map (.notify · (.failed .timeout)) ++ [.expire now] ∧
      e' = (e.overdue now id).setSlot id (.ended (.failed .timeout) s.query.close) := by
  unfold expire at h
  dsimp only at h
  split at h
  · next hp =>
    obtain ⟨rfl, hr⟩ := yields_pure.1 h
    cases hr
    exact .inl ⟨hp, rfl, rfl, rfl⟩
  · next id hp =>
    obtain ⟨⟨d, hd, -⟩, -⟩ := Schedule.popExpired_some hp
    have ht := hl id d hd
    obtain ⟨s, hs, hn⟩ := hu id ht
    rw [if_pos (by simpa [isTracked] using ht)] at h
    obtain ⟨u, e₁, v, ha, hr, rfl⟩ := yields_bind.1 h
    have hs' : (e.overdue now id).slot? id = some s := hs
    obtain ⟨hq, rfl⟩ := yields_abandon hs' ha
    obtain ⟨rfl, he⟩ := yields_pure.1 hr
    have hc := complete_setSlot (e.overdue now id) id
      (s := { s with query := s.query.close }) hn (.failed .timeout)
    have he' := he.trans (congrArg (fun r => (r.1 ++ [Task.expire now], r.2)) hc)
    obtain ⟨rfl, rfl⟩ := Prod.mk.inj he'
    exact .inr ⟨id, s, hp, ht, hs, hn, by simpa using hq, rfl, rfl⟩

lemma yields_shutDown (hs : e.slot? id = some s) (h : Yields (e.shutDown id) t (new, e')) :
    Yields s.query.abandon t s.query.close ∧
      ((s.cell.outcome? = none ∧
          new = s.cell.continuations.map (.notify · (.failed .shutdown)) ∧
          e' = e.setSlot id (.ended (.failed .shutdown) s.query.close)) ∨
        (s.cell.outcome? ≠ none ∧ new = [] ∧
          e' = e.setSlot id { s with query := s.query.close })) := by
  obtain ⟨u, e₁, v, ha, hr, rfl⟩ := yields_bind.1 h
  obtain ⟨hq, rfl⟩ := yields_abandon hs ha
  obtain ⟨rfl, he⟩ := yields_pure.1 hr
  refine ⟨by simpa using hq, ?_⟩
  by_cases hn : s.cell.outcome? = none
  · rw [complete_setSlot e id (s := { s with query := s.query.close }) hn] at he
    cases he
    exact .inl ⟨hn, rfl, rfl⟩
  · have hs' : (e.setSlot id { s with query := s.query.close }).slot? id =
        some { s with query := s.query.close } := by rw [slot?_setSlot, if_pos rfl]
    rw [complete_of_finished hs' hn] at he
    cases he
    exact .inr ⟨hn, rfl, rfl⟩

/-! ### Requests -/

lemma yields_beginShutdown {b : Bool} (h : Yields e.beginShutdown t (b, e')) :
    (b = false ∧ e.isShutdown = true ∧ t = [] ∧ e' = e) ∨
      (b = true ∧ e.isShutdown = false ∧ t = [⟨.wake, ()⟩] ∧
        e' = { e with isShutdown := true }) := by
  unfold beginShutdown at h
  split at h
  · next hi =>
    obtain ⟨rfl, hr⟩ := yields_pure.1 h
    cases hr
    exact .inl ⟨rfl, hi, rfl, rfl⟩
  · next hi =>
    obtain ⟨_, u, rfl, hu⟩ := yields_perform_bind.1 h
    obtain ⟨rfl, hr⟩ := yields_pure.1 hu
    cases hr
    exact .inr ⟨rfl, by simpa using hi, rfl, rfl⟩

lemma yields_withdraw (hs : e.slot? id = some s) (h : Yields (e.withdraw id) t e') :
    Quiet t ∧ (id ∉ e.tracked → t = [⟨.wake, ()⟩]) ∧ e' = if id ∈ e.tracked then
      (e.forget id).setSlot id { s with query := s.query.close } else e.forget id := by
  obtain ⟨u, e₁, v, ha, hw, rfl⟩ := yields_bind.1 h
  obtain ⟨_, w, rfl, hr⟩ := yields_perform_bind.1 hw
  obtain ⟨rfl, rfl⟩ := yields_pure.1 hr
  have hq (hu : Quiet u) : Quiet (u ++ [⟨.wake, ()⟩]) :=
    quiet_append.2 ⟨hu, by simp [quiet_cons, Call.purpose]⟩
  split at ha
  · next ht =>
    have ht : id ∈ e.tracked := by simpa [isTracked] using ht
    rw [if_pos ht]
    have hs' : (e.forget id).slot? id = some s := hs
    obtain ⟨hu, rfl⟩ := yields_abandon hs' ha
    exact ⟨hq (Query.yields_abandon hu).1, fun hn => absurd ht hn, rfl⟩
  · next ht =>
    rw [if_neg (by simpa [isTracked] using ht)]
    obtain ⟨rfl, rfl⟩ := yields_pure.1 ha
    exact ⟨hq quiet_nil, fun _ => rfl, rfl⟩

/-- A query that is cancelled while it is tracked is closed. -/
lemma yields_cancel {handle : Nat} (hh : ∀ i s, e.slot? i = some s → s.cell.outcome? = none →
      s.cell.hook? = some i) (h : Yields (e.cancel handle) t (new, e')) :
    (t = [] ∧ new = [.reply (.cancelled handle false)] ∧ e' = e ∧
      (∀ i, e.handles[handle]? = some i → ∀ s, e.slot? i = some s → s.cell.outcome? ≠ none)) ∨
    ∃ id s, e.handles[handle]? = some id ∧ e.slot? id = some s ∧ s.cell.outcome? = none ∧
      Quiet t ∧ (id ∉ e.tracked → t = [⟨.wake, ()⟩]) ∧
      new = s.cell.continuations.map (.notify · .cancelled) ++ [.reply (.cancelled handle true)] ∧
      e' = (e.forget id).setSlot id
        (.ended .cancelled (if id ∈ e.tracked then s.query.close else s.query)) := by
  unfold cancel at h
  split at h
  · next hn =>
    obtain ⟨rfl, hr⟩ := yields_pure.1 h
    cases hr
    exact .inl ⟨rfl, rfl, rfl, fun i hi => by simp [hn] at hi⟩
  · next id hi =>
    obtain ⟨u, ⟨b, ks, e₁⟩, v, hc, hr, rfl⟩ := yields_bind.1 h
    obtain ⟨rfl, he⟩ := yields_pure.1 hr
    unfold cancelQuery at hc
    split at hc
    · next hs =>
      obtain ⟨rfl, hb⟩ := yields_pure.1 hc
      cases hb
      cases he
      refine .inl ⟨rfl, rfl, rfl, fun i hi' s hs' => ?_⟩
      cases hi.symm.trans hi'
      cases hs.symm.trans hs'
    · next s hs =>
      by_cases hn : s.cell.outcome? = none
      · have hk := hh id s hs hn
        simp only [Cell.cancel?, Cell.isFinished, hn, hk, Option.isSome_none] at hc
        obtain ⟨w, e₂, x, hw, hb, rfl⟩ := yields_bind.1 hc
        obtain ⟨rfl, hb'⟩ := yields_pure.1 hb
        cases hb'
        cases he
        have hs' : (e.setSlot id (.ended .cancelled s.query)).slot? id =
            some (.ended .cancelled s.query) := by rw [slot?_setSlot, if_pos rfl]
        obtain ⟨hq, hu, rfl⟩ := yields_withdraw hs' hw
        refine .inr ⟨id, s, hi, hs, hn, by simpa using hq, by simpa using hu, rfl, ?_⟩
        rw [forget_setSlot, setSlot_setSlot, tracked_setSlot]
        split <;> rfl
      · have hf : s.cell.isFinished = true := Option.isSome_iff_ne_none.2 hn
        simp only [Cell.cancel?, hf, if_true] at hc
        obtain ⟨rfl, hb⟩ := yields_pure.1 hc
        cases hb
        cases he
        refine .inl ⟨rfl, rfl, rfl, fun i hi' s' hs' => ?_⟩
        cases hi.symm.trans hi'
        cases hs.symm.trans hs'
        exact hn

end Engine

end DnsClient
