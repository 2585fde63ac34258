import DnsClient.Proofs.Engine.Deadlines

/-!
Queries that run out of time.

What is overdue is taken out of the schedule query by query, the first deadline in front, and each
query has come to its end before the next one is looked at (`Expires.cons`). Continuations that ask
something of the engine could change what is overdue meanwhile; here they do not.
-/

namespace DnsClient

open Program

/-- The calls with which a query leaves: its socket is given up, and its continuations are told the
outcome. -/
def Slot.Leaves (s : Slot) (o : Outcome) (t : List Event) : Prop :=
  ∃ e : Engine, t.map (·.1) = s.query.closings ++ s.cell.continuations.map (.notify · o e)

namespace Engine

variable {c : Config} {e e' e₀ : Engine} {id : QueryId} {s : Slot} {ts : List Task}
  {t u v : List Event} {ms : List Moment} {now d : Instant} {ids : List QueryId}

/-- No continuation that waits in the engine asks anything of it. -/
def Silent (e : Engine) : Prop :=
  ∀ id s, e.slot? id = some s → ∀ k ∈ s.cell.continuations, k.requests = []

lemma silent_of_slots (h : ∀ p ∈ e.slots, p.2.cell.continuations = []) : e.Silent := by
  intro id s hs k hk
  obtain ⟨p, hp, rfl⟩ := Option.map_eq_some_iff.1 hs
  rw [h p (List.mem_of_find?_eq_some hp)] at hk
  cases hk

lemma Silent.setSlot_ended {o : Outcome} {q : Query} (hs : e.Silent) :
    (e.setSlot id (.ended o q)).Silent := by
  intro i s hi
  rw [slot?_setSlot] at hi
  split at hi
  · cases hi
    exact fun k hk => by cases hk
  · exact hs i s hi

/-- The query had no outcome and comes to this one, with the calls that go with it. -/
def Leaves (e : Engine) (id : QueryId) (o : Outcome) (t : List Event) (e' : Engine) : Prop :=
  ∃ s, e.slot? id = some s ∧ s.cell.outcome? = none ∧ s.Leaves o t ∧
    e'.slot? id = some (.ended o s.query.close)

/-- These queries fail because their deadline is not after `now`, in this order. -/
structure Expires (e : Engine) (now : Instant) (ids : List QueryId) (t : List Event)
    (e' : Engine) : Prop where
  due : ∀ id, id ∈ ids ↔ ∃ d, e.deadline? id = some d ∧ d ≤ now
  ordered : ids.Pairwise fun i j => ∀ d d', e.deadline? i = some d → e.deadline? j = some d' →
    toLex (d, i) < toLex (d', j)
  leave : ∃ us, List.Forall₂ (fun id u => e.Leaves id (.failed .timeout) u e') ids us ∧
    us.flatten = t
  others : ∀ id, id ∉ ids → e'.slot? id = e.slot? id
  tracked : e'.tracked = e.tracked.filter (· ∉ ids)
  deadline : ∀ id, e'.deadline? id = if id ∈ ids then none else e.deadline? id
  rest : e' = { e with slots := e'.slots, tracked := e'.tracked, schedule := e'.schedule }

/-! ### One query after the other -/

lemma expires_nil (hs : e.schedule.Consistent) (hp : (e.schedule.popExpired now).1 = none) :
    Expires e now [] [] { e with schedule := (e.schedule.popExpired now).2 } where
  due id := by
    refine ⟨fun hi => (by cases hi), fun ⟨d, hd, hle⟩ => ?_⟩
    exact absurd hle (Nat.not_le.2 (hs.lt_of_popExpired hp hd))
  ordered := .nil
  leave := ⟨[], .nil, rfl⟩
  others _ _ := rfl
  tracked := by simp
  deadline id := congrArg (Table.get? · id) (Schedule.popExpired_none hp)
  rest := rfl

lemma Expires.cons (hc : e.schedule.Consistent) (hp : (e.schedule.popExpired now).1 = some id)
    (hs : e.slot? id = some s) (hn : s.cell.outcome? = none) (hu : s.Leaves (.failed .timeout) u)
    (h : Expires ((e.overdue now id).setSlot id (.ended (.failed .timeout) s.query.close)) now ids
      v e') : Expires e now (id :: ids) (u ++ v) e' := by
  generalize he : (e.overdue now id).setSlot id (.ended (.failed .timeout) s.query.close) = e₁ at h
  obtain ⟨d, hd, hle, hfirst⟩ := hc.first_of_popExpired hp
  have hslot (i) : e₁.slot? i =
      if i = id then some (.ended (.failed .timeout) s.query.close) else e.slot? i := by
    rw [← he, slot?_setSlot]
    rfl
  have hdead (i) : e₁.deadline? i = if i = id then none else e.deadline? i := by
    have hl : e₁.schedule.live = e.schedule.live.erase id := by
      rw [← he]
      exact (Schedule.popExpired_some hp).2
    rw [deadline?, hl, Table.get?_erase]
    rfl
  have hid : id ∉ ids := fun hi => by
    obtain ⟨d', hd', -⟩ := (h.due id).1 hi
    rw [hdead, if_pos rfl] at hd'
    cases hd'
  have hne {i} (hi : i ∈ ids) : i ≠ id := fun he => hid (he ▸ hi)
  exact {
    due := by
      intro i
      rw [List.mem_cons, h.due, hdead]
      by_cases hi : i = id
      · subst hi
        simpa using ⟨d, hd, hle⟩
      · simp [hi]
    ordered := by
      refine List.pairwise_cons.2 ⟨fun j hj d₁ d' hd₁ hd' => ?_, h.ordered.imp_of_mem ?_⟩
      · obtain rfl : d = d₁ := Option.some_inj.1 (hd.symm.trans hd₁)
        refine lt_of_le_of_ne (hfirst j d' hd') fun heq => hne hj ?_
        exact (Prod.mk.inj (toLex.injective heq)).2.symm
      · intro i j hi hj hij d₁ d₂ h₁ h₂
        refine hij d₁ d₂ ?_ ?_
        · rw [hdead, if_neg (hne hi), h₁]
        · rw [hdead, if_neg (hne hj), h₂]
    leave := by
      have hself : e'.slot? id = some (.ended (.failed .timeout) s.query.close) := by
        rw [h.others id hid, hslot, if_pos rfl]
      obtain ⟨us, hus, rfl⟩ := h.leave
      refine ⟨u :: us, .cons ⟨s, hs, hn, hu, hself⟩ (hus.imp fun i w hw => ?_), rfl⟩
      obtain ⟨s', hs', hn', hx⟩ := hw
      rw [hslot] at hs'
      split at hs'
      · cases hs'
        cases hn'
      · exact ⟨s', hs', hn', hx⟩
    others := by
      intro i hi
      rw [List.mem_cons, not_or] at hi
      rw [h.others i hi.2, hslot, if_neg hi.1]
    tracked := by
      have ht : e₁.tracked = e.tracked.filter (· ≠ id) := by
        rw [← he]
        rfl
      rw [h.tracked, ht, List.filter_filter]
      congr 1
      funext i
      simp [Bool.and_comm]
    deadline := by
      intro i
      rw [h.deadline, hdead]
      by_cases hi : i = id
      · simp [hi]
      · simp [hi]
    rest := by
      rw [h.rest, ← he]
      rfl }

/-- Continuations that ask nothing are told the outcome, and that is all. -/
lemma Course.notifies {ks : List Continuation} {o : Outcome}
    (hc : Course e₀ ms (ks.map (.notify · o) ++ ts) e) (hk : ∀ k ∈ ks, k.requests = [])
    (hy : Yields (e.settle (ks.map (.notify · o) ++ ts)) t e') :
    ∃ ns u v, Course e₀ (ms ++ ns) ts e ∧ Yields (e.settle ts) v e' ∧ t = u ++ v ∧
      u.map (·.1) = ks.map (.notify · o e) := by
  induction ks generalizing ms t with
  | nil => exact ⟨[], [], t, by simpa using hc, hy, rfl, rfl⟩
  | cons k ks ih =>
    obtain ⟨hk, hks⟩ := List.forall_mem_cons.1 hk
    rw [List.map_cons, List.cons_append] at hc hy
    rw [settle_cons] at hy
    obtain ⟨_, r, v, hp, hr, rfl⟩ := yields_bind.1 hy
    have hc' := hc.task hp
    obtain ⟨_, w, rfl, hw⟩ := yields_perform_bind.1 hp
    obtain ⟨rfl, rfl⟩ := yields_pure.1 hw
    simp only [hk, List.map_nil, List.nil_append] at hc' hr
    obtain ⟨ns, u, v, hn, hv, rfl, hu⟩ := ih hc' hks hr
    exact ⟨_ :: ns, ⟨_, _⟩ :: u, v, by simpa using hn, hv, rfl, congrArg _ hu⟩

lemma Course.expires (hc : Course (ofConfig c) ms [.expire now] e) (hs : e.Silent)
    (hy : Yields (e.settle [.expire now]) t e') : ∃ ids, Expires e now ids t e' := by
  -- the agenda does not get shorter by a query that expires, but the schedule gets smaller
  generalize hn : e.schedule.size = n
  induction n using Nat.strongRecOn generalizing ms e t with
  | ind n ih =>
    rw [settle_cons] at hy
    obtain ⟨u, ⟨new, e₁⟩, v, hp, hr, rfl⟩ := yields_bind.1 hy
    have hc' := hc.task hp
    obtain ⟨hf, rfl, rfl, rfl⟩ | ⟨id, s, hf, -, hsl, hs', ha, rfl, rfl⟩ :=
      yields_expire hc.tracks.unfinished hc.tracks.scheduled hp
    · obtain ⟨rfl, rfl⟩ := yields_pure.1 (settle_nil _ ▸ hr)
      exact ⟨[], expires_nil hc.consistent hf⟩
    · -- the continuations of this query come next, and then what is overdue after it
      rw [List.append_nil] at hc' hr
      obtain ⟨ns, w, v, hn', hv, rfl, hw⟩ := hc'.notifies (hs id s hsl) hr
      have hlt := Schedule.size_popExpired hf
      have hs₁ : (e.overdue now id).Silent := hs
      obtain ⟨ids, h⟩ := ih _ (hn ▸ hlt) hn' hs₁.setSlot_ended hv rfl
      have hu := Query.calls_of_abandon (hc.registered hsl hs') ha
      have hl : s.Leaves (.failed .timeout) (u ++ w) :=
        ⟨_, List.map_append.trans (congrArg₂ _ hu hw)⟩
      refine ⟨id :: ids, ?_⟩
      rw [← List.append_assoc]
      exact Expires.cons hc.consistent hf hsl hs' hl h

/-! ### On time -/

lemma Expires.handles (h : Expires e now ids t e') : e'.handles = e.handles := by rw [h.rest]

lemma Expires.leaves (h : Expires e now ids t e') (hi : id ∈ ids) :
    ∃ u, e.Leaves id (.failed .timeout) u e' := by
  obtain ⟨us, hus, -⟩ := h.leave
  have hm : List.Forall₂ (fun i u => (∃ u, e.Leaves i (.failed .timeout) u e') ∧
      e.Leaves i (.failed .timeout) u e') ids us := hus.imp fun _ u hu => ⟨⟨u, hu⟩, hu⟩
  exact ((List.forall₂_and_left _ _).1 hm).1 id hi

lemma Expires.outcome (h : Expires e now ids t e') {k : Nat} (hk : e.handles[k]? = some id) :
    e'.outcome? k = if id ∈ ids then some (.failed .timeout) else e.outcome? k := by
  have hk' : e'.handles[k]? = some id := by rw [h.handles, hk]
  split
  · next hi =>
    obtain ⟨u, s, -, -, -, hs⟩ := h.leaves hi
    rw [outcome?_of_handle hk' hs]
    rfl
  · next hi => simp only [outcome?, hk, hk', Option.bind_some, h.others id hi]

/-- What failing the queries that are overdue at a time comes to, given the moments before. -/
structure OnTime (ms : List Moment) (e : Engine) (now : Instant) (t : List Event) (e' : Engine) :
    Prop where
  /-- The deadlines in the schedule are those that the tracked queries were submitted with. -/
  deadline : ∀ id d, e.deadline? id = some d ↔ id ∈ e.tracked ∧ DueAt ms e id d
  expires : ∃ ids, Expires e now ids t e'
  outcome : ∀ (h : Nat) (x : Submission), (submissions ms)[h]? = some x →
    e'.outcome? h = if e.outcome? h = none ∧ x.deadline ≤ now then some (.failed .timeout)
      else e.outcome? h
  /-- A wait after it ends with the first deadline that is left. -/
  waits : ∀ now', e'.Waits ms now'

/-- **Deadlines**: at any time, in any state that an engine comes to, the unfinished queries fail
whose deadline has passed, the first one first, and only those; what is left is waited for no longer
than up to the first deadline. -/
theorem fails_overdue (hc : Course (ofConfig c) ms [] e) (hs : e.Silent)
    (hy : Yields (e.settle [.expire now]) t e') : OnTime ms e now t e' := by
  have hc' : Course (ofConfig c) (ms ++ [⟨e, .cue (.expire now), [], e⟩]) [.expire now] e :=
    hc.cue (.pure _)
  obtain ⟨ids, hx⟩ := hc'.expires hs hy
  obtain ⟨ns, hn, -⟩ := hc'.settle hy
  refine ⟨fun id d => hc.deadline?_eq_some, ⟨ids, hx⟩, fun k x hk => ?_, fun now' => ?_⟩
  · obtain ⟨hl, -⟩ := List.getElem?_eq_some_iff.1 hk
    rw [← hc.files.length] at hl
    have hi := List.getElem?_eq_getElem hl
    have hd : e.handles[k] ∈ ids ↔ e.outcome? k = none ∧ x.deadline ≤ now := by
      simp only [hx.due, hc.deadline?_eq_some, hc.dueAt_iff hi hk, hc.tracks.mem_tracked_iff hi]
      constructor
      · rintro ⟨_, ⟨hn, rfl⟩, hle⟩
        exact ⟨hn, hle⟩
      · rintro ⟨hn, hle⟩
        exact ⟨_, ⟨hn, rfl⟩, hle⟩
    rw [hx.outcome hi]
    simp only [hd]
  · have hw := hn.waits now'
    have hl := hn.files.length
    rw [hx.handles, hc'.files.length, submissions_append _ ns, List.length_append] at hl
    have hs : submissions ns = [] := List.length_eq_zero_iff.1 (by omega)
    unfold Waits DueAt at hw ⊢
    rw [submissions_append _ ns, hs, List.append_nil] at hw
    rwa [submissions_snoc_none rfl] at hw

/-- Two queries with timeouts of 1 ms, less than which cannot be set, and of 50 ms. The first one is
started, and is overdue 1 ms after its submission. -/
theorem fails_overdue_first : ∃ (c : Config) (ms : List Moment) (e : Engine) (now : Instant)
    (t : List Event) (e' : Engine), Course (ofConfig c) ms [] e ∧ e.Silent ∧
      Yields (e.settle [.expire now]) t e' ∧
      (submissions ms).map (·.deadline) = [1000005, 50000006] ∧
      e'.outcome? 0 = some (.failed .timeout) ∧ e'.tracked = [1] ∧
      t.map (·.1) = [.wake, .deregister ⟨.udp, 1⟩, .close ⟨.udp, 1⟩] ∧ OnTime ms e now t e' := by
  let p : QueryParams := { server := ⟨.localhost, 53⟩ }
  let bind : List Event := [⟨.bindUdp .ipv4, .ok 1⟩, ⟨.connectUdp 1 p.server, .ok ()⟩,
    ⟨.wake, ()⟩, ⟨.register ⟨.udp, 1⟩ 0 .writable, .ok ()⟩]
  let leave : List Event := [⟨.wake, ()⟩, ⟨.deregister ⟨.udp, 1⟩, .ok ()⟩, ⟨.close ⟨.udp, 1⟩, ()⟩]
  have h : Course (ofConfig {}) [] [] _ := .nil
  have h := h.cue (c := .submit .blank (p.withTimeout 0))
    (t := [⟨.now, 5⟩, ⟨.wake, ()⟩]) (.call _ (.call _ (.pure _)))
  have h := h.cue (c := .submit .blank (p.withTimeout (.ofMillis 50)))
    (t := [⟨.now, 6⟩, ⟨.wake, ()⟩]) (.call _ (.call _ (.pure _)))
  have h := h.cue (c := .start 0) (.pure _)
  have h := h.task (t := bind) (.call _ (.call _ (.call _ (.call _ (.pure _)))))
  have overdue {ms e e'} (h : Course (ofConfig {}) ms [] e) (hs : e.Silent)
      (hy : Yields (e.settle [.expire 1000005]) leave e') :
      e.Silent ∧ Yields (e.settle [.expire 1000005]) leave e' ∧ OnTime ms e 1000005 leave e' :=
    ⟨hs, hy, fails_overdue h hs hy⟩
  obtain ⟨hs, hy, ht⟩ := overdue h
    (silent_of_slots (List.forall_mem_cons.2 ⟨rfl, List.forall_mem_singleton.2 rfl⟩))
    (.call _ (.call _ (.call _ (.pure _))))
  exact ⟨_, _, _, _, _, _, h, hs, hy, by decide, rfl, rfl, rfl, ht⟩

end Engine

end DnsClient
