import DnsClient.Proofs.Engine.Outcome
import DnsClient.Proofs.Query.Arming
import DnsClient.Proofs.Schedule.DeadlineMap

/-!
The deadlines of an engine over whole courses.

The schedule stays consistent whatever the engine does, so what is in front after cleaning is the
first deadline of all. Its deadlines are those of the tracked queries, each as it was set when the
query was submitted: nothing that a query does moves it.
-/

namespace DnsClient

open Program

namespace Schedule

variable {s : Schedule} {id : QueryId} {now d : Instant}

/-! ### First deadlines -/

/-- If no query is taken out, none is overdue. -/
lemma Consistent.lt_of_popExpired (h : s.Consistent) (hp : (s.popExpired now).1 = none)
    (hd : s.live.get? id = some d) : now < d := by
  rw [popExpired] at hp
  cases hc : s.clean.entries with
  | nil =>
    have he : s.deadlines.lookup id = some d := (Table.lookup_toFinmap ..).trans hd
    rw [h.eq_empty hc, Finmap.lookup_empty] at he
    cases he
  | cons f es =>
    simp only [hc] at hp
    split at hp
    · next hf =>
      have hl : isLive s.live ⟨d, id⟩ = true := isLive_iff.2 hd
      have hle := (h.isLeast hc).2 (mem_pairs_deadlines.2 hl)
      rcases Prod.Lex.toLex_le_toLex.1 hle with hlt | ⟨heq, -⟩
      · exact hf.trans hlt
      · exact Nat.lt_of_lt_of_eq hf heq
    · cases hp

/-- The query that is taken out comes first, by its deadline and then by its ID. -/
lemma Consistent.first_of_popExpired (h : s.Consistent) (hp : (s.popExpired now).1 = some id) :
    ∃ d, s.live.get? id = some d ∧ d ≤ now ∧
      ∀ j d', s.live.get? j = some d' → toLex (d, id) ≤ toLex (d', j) := by
  rw [popExpired] at hp
  cases hc : s.clean.entries with
  | nil => simp [hc] at hp
  | cons f es =>
    simp only [hc] at hp
    split at hp
    · cases hp
    · next hf =>
      cases hp
      obtain ⟨hm, hle⟩ := h.isLeast hc
      refine ⟨f.time, isLive_iff.1 (mem_pairs_deadlines.1 hm), Nat.le_of_not_lt hf, ?_⟩
      intro j d' hd
      have hl : isLive s.live ⟨d', j⟩ = true := isLive_iff.2 hd
      exact hle (mem_pairs_deadlines.2 hl)

lemma Consistent.popExpired (h : s.Consistent) (now : Instant) :
    (s.popExpired now).2.Consistent := (h.apply (.popExpired now)).1

lemma mem_times_deadlines : d ∈ s.deadlines.times ↔ ∃ id, s.live.get? id = some d := by
  rw [DeadlineMap.mem_times, deadlines]
  simp only [Table.lookup_toFinmap]

lemma Consistent.nextDeadline_eq_none (h : s.Consistent) :
    s.nextDeadline.1 = none ↔ ∀ id, s.live.get? id = none := by
  rw [h.nextDeadline, least?]
  split
  · next hs =>
    obtain ⟨d, hd⟩ := hs
    obtain ⟨id, hid⟩ := mem_times_deadlines.1 hd
    exact ⟨fun hn => (by cases hn), fun hn => by cases (hn id).symm.trans hid⟩
  · next hs =>
    refine ⟨fun _ id => Option.eq_none_iff_forall_ne_some.2 fun d hd => hs ⟨d, ?_⟩, fun _ => rfl⟩
    exact mem_times_deadlines.2 ⟨id, hd⟩

lemma Consistent.isLeast_of_nextDeadline (h : s.Consistent) (hd : s.nextDeadline.1 = some d) :
    IsLeast { t | ∃ id, s.live.get? id = some t } d := by
  rw [h.nextDeadline, least?] at hd
  split at hd
  · next hs =>
    cases hd
    have hl := s.deadlines.times.isLeast_min' hs
    exact ⟨mem_times_deadlines.1 hl.1, fun t ht => hl.2 (mem_times_deadlines.2 ht)⟩
  · cases hd

end Schedule

namespace Engine

variable {c : Config} {e e' : Engine} {id : QueryId} {s : Slot} {ts new : List Task}
  {t : List Event} {ms : List Moment} {h : Nat} {x : Submission} {d : Instant}

/-- The deadline that the schedule has for a query. -/
def deadline? (e : Engine) (id : QueryId) : Option Instant := e.schedule.live.get? id

/-! ### Consistency -/

lemma consistent_conclude (id : QueryId) (hs : e.schedule.Consistent) (hn : s.cell.outcome? = none)
    (r : Step × Query) : (e.conclude id s r).2.schedule.Consistent := by
  obtain ⟨_ | x, q⟩ := r
  · exact hs
  · rw [conclude_done hn]
    exact hs.remove id

lemma consistent_request {r : EngineRequest} (ht : Tracks (.request r :: ts) e)
    (hs : e.schedule.Consistent) (hy : Yields (e.serveRequest r) t (new, e')) :
    e'.schedule.Consistent := by
  cases r with
  | submit m p rs =>
    obtain ⟨u, ⟨x, e₁⟩, v, hu, hv, rfl⟩ := yields_bind.1 hy
    obtain ⟨rfl, rfl, rfl⟩ | ⟨now, rfl, rfl, rfl⟩ := yields_submit hu
    · cases (yields_pure.1 hv).2
      exact hs
    · obtain ⟨-, hr⟩ := yields_pure.1 hv
      rw [onComplete_accept] at hr
      cases hr
      exact hs.insert _ _
  | cancel handle =>
    obtain ⟨-, -, rfl, -⟩ | ⟨id, s, -, -, -, -, -, -, rfl⟩ := yields_cancel ht.hook hy
    · exact hs
    · exact hs.remove id
  | pending =>
    cases (yields_pure.1 hy).2
    exact hs
  | shutdown =>
    obtain ⟨u, ⟨b, e₁⟩, v, hu, hv, rfl⟩ := yields_bind.1 hy
    cases (yields_pure.1 hv).2
    obtain ⟨-, -, -, rfl⟩ | ⟨-, -, -, rfl⟩ := yields_beginShutdown hu <;> exact hs

lemma consistent_perform {k : Task} (ht : Tracks (k :: ts) e) (hs : e.schedule.Consistent)
    (hy : Yields (e.perform k) t (new, e')) : e'.schedule.Consistent := by
  cases k with
  | request r => exact consistent_request ht hs hy
  | reply r =>
    obtain ⟨_, u, -, hu⟩ := yields_perform_bind.1 hy
    cases (yields_pure.1 hu).2
    exact hs
  | notify k o =>
    obtain ⟨_, u, -, hu⟩ := yields_perform_bind.1 hy
    cases (yields_pure.1 hu).2
    exact hs
  | start id =>
    obtain ⟨-, -, rfl, -⟩ | ⟨s, r, -, hn, -, hr⟩ := yields_start hy
    · exact hs
    · have hc := consistent_conclude id hs hn r
      rwa [← hr] at hc
  | dispatch token =>
    obtain ⟨-, -, rfl⟩ | ⟨s, r, -, -, hn, -, hr⟩ := yields_dispatch ht.unfinished hy
    · exact hs
    · have hc := consistent_conclude token hs hn r
      rwa [← hr] at hc
  | expire now =>
    obtain ⟨-, -, -, rfl⟩ | ⟨id, s, -, -, -, -, -, -, rfl⟩ :=
      yields_expire ht.unfinished ht.scheduled hy
    · exact hs.popExpired now
    · exact hs.popExpired now
  | shutDown id =>
    obtain ⟨s, hsl⟩ := (ht.slot id).1 (ht.doomed id (List.mem_cons_self ..))
    obtain ⟨-, ⟨-, -, rfl⟩ | ⟨-, -, rfl⟩⟩ := yields_shutDown hsl hy
    · exact hs
    · exact hs

lemma consistent_cue {k : Cue} (hs : e.schedule.Consistent) (hy : Yields (e.cue k) t (new, e')) :
    e'.schedule.Consistent := by
  cases k with
  | submit m p =>
    obtain ⟨u, ⟨x, e₁⟩, v, hu, hv, rfl⟩ := yields_bind.1 hy
    cases (yields_pure.1 hv).2
    obtain ⟨-, -, rfl⟩ | ⟨now, -, -, rfl⟩ := yields_submit hu
    · exact hs
    · exact hs.insert _ _
  | request | start | dispatch | expire =>
    cases (yields_pure.1 hy).2
    exact hs
  | onComplete k =>
    have hr := (yields_pure.1 hy).2
    unfold onComplete at hr
    split at hr
    · cases hr
      exact hs
    · split at hr <;> cases hr <;> exact hs
  | overdue | leave =>
    obtain ⟨_, u, -, hu⟩ := yields_perform_bind.1 hy
    cases (yields_pure.1 hu).2
    exact hs
  | wait =>
    obtain ⟨_, u, -, hu⟩ := yields_perform_bind.1 hy
    cases (yields_pure.1 hu).2
    exact hs.clean
  | ready | overflow | incoming =>
    obtain ⟨_, _, _, -, hv, -⟩ := yields_bind.1 hy
    cases (yields_pure.1 hv).2
    exact hs
  | beginShutdown =>
    obtain ⟨u, ⟨b, e₁⟩, v, hu, hv, rfl⟩ := yields_bind.1 hy
    cases (yields_pure.1 hv).2
    obtain ⟨-, -, -, rfl⟩ | ⟨-, -, -, rfl⟩ := yields_beginShutdown hu <;> exact hs
  | failRemaining =>
    cases (yields_pure.1 hy).2
    exact Schedule.consistent_empty

/-- Whatever happens to an engine, its schedule stays consistent. -/
theorem Course.consistent (hc : Course (ofConfig c) ms ts e) : e.schedule.Consistent := by
  induction hc with
  | nil => exact Schedule.consistent_empty
  | cue _ h ih => exact consistent_cue ih h
  | task hs h ih => exact consistent_perform hs.tracks ih h

/-! ### Deadlines of submissions -/

/-- The query was submitted with this deadline. -/
def DueAt (ms : List Moment) (e : Engine) (id : QueryId) (d : Instant) : Prop :=
  ∃ (h : Nat) (x : Submission), e.handles[h]? = some id ∧ (submissions ms)[h]? = some x ∧
    x.deadline = d

lemma Course.submitted (hc : Course (ofConfig c) ms ts e) (hi : id ∈ e.handles) :
    ∃ (h : Nat) (x : Submission), e.handles[h]? = some id ∧ (submissions ms)[h]? = some x := by
  obtain ⟨h, hh⟩ := List.mem_iff_getElem?.1 hi
  obtain ⟨hl, -⟩ := List.getElem?_eq_some_iff.1 hh
  rw [hc.files.length] at hl
  exact ⟨h, _, hh, List.getElem?_eq_getElem hl⟩

lemma Course.dueAt_iff (hc : Course (ofConfig c) ms ts e) (hh : e.handles[h]? = some id)
    (hx : (submissions ms)[h]? = some x) : DueAt ms e id d ↔ d = x.deadline := by
  constructor
  · rintro ⟨k, y, hk, hy, rfl⟩
    obtain ⟨hl, -⟩ := List.getElem?_eq_some_iff.1 hk
    obtain rfl : k = h := (List.getElem?_inj hl hc.tracks.handles_nodup).1 (hk.trans hh.symm)
    obtain rfl : y = x := Option.some_inj.1 (hy.symm.trans hx)
    rfl
  · rintro rfl
    exact ⟨h, x, hh, hx, rfl⟩

lemma Tracks.mem_tracked_iff (ht : Tracks [] e) (hh : e.handles[h]? = some id) :
    id ∈ e.tracked ↔ e.outcome? h = none := by
  obtain ⟨s, hs⟩ := (ht.slot id).1 (List.mem_of_getElem? hh)
  rw [ht.tracked, outcome?_of_handle hh hs]
  simp [condemned, hs]

/-- The tracked queries are the ones that have a deadline, and it is the one of their submission. -/
theorem Course.deadline?_eq_some (hc : Course (ofConfig c) ms ts e) :
    e.deadline? id = some d ↔ id ∈ e.tracked ∧ DueAt ms e id d := by
  have hlive (h : Nat) (x) (hh : e.handles[h]? = some id) (hx : (submissions ms)[h]? = some x) :=
    (hc.files.filed h id x hh hx).live
  constructor
  · intro hd
    have ht := hc.tracks.scheduled id d hd
    obtain ⟨s, hs, -⟩ := hc.tracks.unfinished id ht
    obtain ⟨h, x, hh, hx⟩ := hc.submitted ((hc.tracks.slot id).2 ⟨s, hs⟩)
    exact ⟨ht, h, x, hh, hx, (hlive h x hh hx d hd).symm⟩
  · rintro ⟨ht, h, x, hh, hx, rfl⟩
    obtain ⟨d, hd⟩ := (hc.tracks.live id).2 ht
    rw [← hlive h x hh hx d hd]
    exact hd

/-- From `now` on the engine is to wait up to the first deadline of all, if there is one. -/
def Waits (ms : List Moment) (e : Engine) (now : Instant) : Prop :=
  match (e.waitTime now).1 with
  | none => e.tracked = []
  | some w => ∃ id d, id ∈ e.tracked ∧ DueAt ms e id d ∧ w = d - now ∧
      ∀ j ∈ e.tracked, ∀ d', DueAt ms e j d' → d ≤ d'

lemma Course.waits (hc : Course (ofConfig c) ms ts e) (now : Instant) : e.Waits ms now := by
  unfold Waits
  have hw : (e.waitTime now).1 = e.schedule.nextDeadline.1.map (· - now) := rfl
  rw [hw]
  cases hd : e.schedule.nextDeadline.1 with
  | none =>
    have hn := hc.consistent.nextDeadline_eq_none.1 hd
    exact List.eq_nil_iff_forall_not_mem.2 fun id hi => by
      obtain ⟨d, hd⟩ := (hc.tracks.live id).2 hi
      cases (hn id).symm.trans hd
  | some d =>
    obtain ⟨⟨id, hi⟩, hle⟩ := hc.consistent.isLeast_of_nextDeadline hd
    obtain ⟨ht, hx⟩ := hc.deadline?_eq_some.1 hi
    exact ⟨id, d, ht, hx, rfl, fun j hj d' hd' => hle ⟨j, hc.deadline?_eq_some.2 ⟨hj, hd'⟩⟩⟩

/-- The socket of a query without outcome is registered, if it has one. -/
lemma Course.registered (hc : Course (ofConfig c) ms ts e) (hs : e.slot? id = some s)
    (hn : s.cell.outcome? = none) : s.query.registered = s.query.phase.socket?.isSome := by
  obtain ⟨h, x, hh, hx⟩ := hc.submitted ((hc.tracks.slot id).2 ⟨s, hs⟩)
  obtain ⟨s', hs', hv⟩ := (hc.files.filed h id x hh hx).slot
  obtain rfl : s' = s := Option.some_inj.1 (hs'.symm.trans hs)
  obtain ⟨vs, hvs, -⟩ := hv hn
  exact (hvs.stands (h := {}) ⟨rfl, rfl⟩).2.registered

end Engine

end DnsClient
