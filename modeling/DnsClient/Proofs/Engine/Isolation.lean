import DnsClient.Proofs.Engine.Expiry

/-!
Queries of one engine do not get in each other's way.

They share a table, a schedule and the space of tokens. Whatever is done on one of them changes its
own entries there and nothing else (`Spares`). A token stands for one query for good: IDs only
grow, and one whose query has come to its end is never looked up again.
-/

namespace DnsClient

open Program

/-- The task does no more than to tell something. -/
def Task.onlyTells : Task → Bool
  | .notify k _ => k.requests = []
  | .reply _ => true
  | _ => false

namespace Engine

variable {c : Config} {e e' e₁ : Engine} {a id : QueryId} {s s' : Slot} {ts new : List Task}
  {t : List Event} {ms : List Moment} {k : Task} {o : Outcome} {q : Query}

/-- Nothing of any other query changes, and nothing of the engine besides: its queues are as they
were. The schedule still comes to each deadline in time. -/
structure Spares (e : Engine) (a : QueryId) (e' : Engine) : Prop where
  /-- Cells and queries. -/
  slot : ∀ b ≠ a, e'.slot? b = e.slot? b
  tracked : e'.tracked.filter (· ≠ a) = e.tracked.filter (· ≠ a)
  deadline : ∀ b ≠ a, e'.deadline? b = e.deadline? b
  consistent : e'.schedule.Consistent
  rest : e' = { e with slots := e'.slots, tracked := e'.tracked, schedule := e'.schedule }

namespace Spares

lemma refl (h : e.schedule.Consistent) : Spares e a e :=
  ⟨fun _ _ => rfl, rfl, fun _ _ => rfl, h, rfl⟩

lemma forget (h : e.schedule.Consistent) : Spares e a (e.forget a) where
  slot _ _ := rfl
  tracked := by
    rw [Engine.forget, List.filter_filter]
    simp
  deadline b hb := by rw [deadline?, live_forget, Table.get?_erase, if_neg hb, deadline?]
  consistent := h.remove a
  rest := rfl

lemma setSlot (h : Spares e a e') (s : Slot) : Spares e a (e'.setSlot a s) where
  slot b hb := by rw [slot?_setSlot, if_neg hb, h.slot b hb]
  tracked := h.tracked
  deadline := h.deadline
  consistent := h.consistent
  rest := by
    rw [Engine.setSlot, h.rest]

lemma conclude {r : Step × Query} (h : e.schedule.Consistent) (hn : s.cell.outcome? = none)
    (hr : (new, e') = e.conclude a s r) : Spares e a e' := by
  obtain ⟨_ | x, q⟩ := r
  · cases hr
    exact (refl h).setSlot _
  · rw [conclude_done hn] at hr
    cases hr
    exact (forget h).setSlot _

end Spares

/-! ### Tasks that concern a query -/

/-- The task starts the query, lets it go on, or cancels it. -/
inductive Concerns (e : Engine) (a : QueryId) : Task → Prop where
  | start : Concerns e a (.start a)
  | dispatch : Concerns e a (.dispatch a)
  | cancel {h : Nat} (hh : e.handles[h]? = some a) : Concerns e a (.request (.cancel h))

lemma Silent.onlyTells (h : e.Silent) (hs : e.slot? id = some s) (o : Outcome) :
    ∀ j ∈ s.cell.continuations.map (Task.notify · o), j.onlyTells := by
  intro j hj
  obtain ⟨k, hk, rfl⟩ := List.mem_map.1 hj
  simpa [Task.onlyTells] using h id s hs k hk

lemma onlyTells_conclude {r : Step × Query} (h : e.Silent) (hs : e.slot? id = some s)
    (hn : s.cell.outcome? = none) (hr : (new, e') = e.conclude id s r) :
    ∀ j ∈ new, j.onlyTells := by
  obtain ⟨_ | x, q⟩ := r
  · cases hr
    simp
  · rw [conclude_done hn] at hr
    cases hr
    exact h.onlyTells hs _

lemma Concerns.perform (hk : e.Concerns a k) (ht : Tracks ts e) (hs : e.Silent)
    (hc : e.schedule.Consistent) (hy : Yields (e.perform k) t (new, e')) :
    Spares e a e' ∧ ∀ j ∈ new, j.onlyTells := by
  cases hk with
  | start =>
    obtain ⟨-, rfl, rfl, -⟩ | ⟨s, r, hsl, hn, -, hr⟩ := yields_start hy
    · exact ⟨.refl hc, by simp⟩
    · exact ⟨.conclude hc hn hr, onlyTells_conclude hs hsl hn hr⟩
  | dispatch =>
    obtain ⟨-, rfl, rfl⟩ | ⟨s, r, -, hsl, hn, -, hr⟩ := yields_dispatch ht.unfinished hy
    · exact ⟨.refl hc, by simp⟩
    · exact ⟨.conclude hc hn hr, onlyTells_conclude hs hsl hn hr⟩
  | cancel hh =>
    obtain ⟨-, rfl, rfl, -⟩ | ⟨id, s, hh', hsl, -, -, -, rfl, rfl⟩ := yields_cancel ht.hook hy
    · exact ⟨.refl hc, by simp [Task.onlyTells]⟩
    · obtain rfl : id = a := Option.some_inj.1 (hh'.symm.trans hh)
      refine ⟨(Spares.forget hc).setSlot _, List.forall_mem_append.2 ⟨hs.onlyTells hsl _, ?_⟩⟩
      simp [Task.onlyTells]

lemma settle_onlyTells (hm : ∀ j ∈ ts, j.onlyTells) (hy : Yields (e.settle ts) t e') : e' = e := by
  induction ts generalizing t with
  | nil => exact (yields_pure.1 (settle_nil e ▸ hy)).2
  | cons k ts ih =>
    obtain ⟨hk, hts⟩ := List.forall_mem_cons.1 hm
    rw [settle_cons] at hy
    obtain ⟨_, r, v, hp, hr, rfl⟩ := yields_bind.1 hy
    cases k with
    | notify c o =>
      have hc : c.requests = [] := by simpa [Task.onlyTells] using hk
      obtain ⟨_, _, -, hu⟩ := yields_perform_bind.1 hp
      obtain ⟨-, rfl⟩ := yields_pure.1 hu
      rw [hc] at hr
      exact ih hts hr
    | reply x =>
      obtain ⟨_, _, -, hu⟩ := yields_perform_bind.1 hp
      obtain ⟨-, rfl⟩ := yields_pure.1 hu
      exact ih hts hr
    | _ => cases hk

lemma Concerns.spares (hk : e.Concerns a k) (ht : Tracks ts e) (hs : e.Silent)
    (hc : e.schedule.Consistent) (hy : Yields (e.settle [k]) t e') : Spares e a e' := by
  rw [settle_cons] at hy
  obtain ⟨u, ⟨new, e₁⟩, v, hp, hr, rfl⟩ := yields_bind.1 hy
  obtain ⟨h, hm⟩ := hk.perform ht hs hc hp
  rw [List.append_nil] at hr
  rwa [settle_onlyTells hm hr]

/-! ### Tokens -/

lemma dispatch_of_notMem (h : id ∉ e.tracked) : e.dispatch id = return ([], e) := by
  rw [dispatch, if_neg (by simpa [isTracked] using h)]

/-- All IDs that are given out are new ones. -/
def Grows (e e' : Engine) : Prop :=
  e.nextId ≤ e'.nextId ∧ ∃ ids, e'.handles = e.handles ++ ids ∧ ∀ id ∈ ids, e.nextId ≤ id

lemma grows_of_handles (hh : e'.handles = e.handles) (hn : e.nextId ≤ e'.nextId) : Grows e e' :=
  ⟨hn, [], by simp [hh], by simp⟩

lemma Grows.trans (h : Grows e e₁) (h' : Grows e₁ e') : Grows e e' := by
  obtain ⟨hn, is, hi, hle⟩ := h
  obtain ⟨hn', js, hj, hle'⟩ := h'
  refine ⟨hn.trans hn', is ++ js, by rw [hj, hi, List.append_assoc], ?_⟩
  exact List.forall_mem_append.2 ⟨hle, fun id hid => hn.trans (hle' id hid)⟩

lemma Does.grows {d : Deed} (hd : Does e d t new e') : Grows e e' := by
  cases hd with
  | rests hr _ _ _ _ _ => exact grows_of_handles hr.handles hr.nextId
  | takes _ _ | condemns => exact grows_of_handles rfl (Nat.le_refl _)
  | accepts _ _ => exact ⟨Nat.le_succ _, [e.nextId], rfl, by simp⟩
  | changes hc _ => exact grows_of_handles hc.handles hc.nextId.ge

lemma Course.grows (hc : Course (ofConfig c) ms ts e) : ∀ m ∈ ms, Grows m.before e := by
  induction hc using Course.deeds with
  | nil => simp
  | step _ _ ih _ hd =>
    refine List.forall_mem_append.2 ⟨fun m hm => (ih m hm).trans hd.grows, ?_⟩
    exact List.forall_mem_singleton.2 hd.grows

/-- A query that has its outcome is never looked up again. -/
lemma Course.late (hc : Course (ofConfig c) ms ts e) {m : Moment} (hm : m ∈ ms)
    (hs : m.before.slot? id = some s) (hn : s.cell.outcome? ≠ none) :
    e.dispatch id = return ([], e) := by
  obtain ⟨ms₁, ms₂, rfl⟩ := List.append_of_mem hm
  obtain ⟨us, hb⟩ := hc.before
  obtain ⟨h, hh⟩ := List.mem_iff_getElem?.1 ((hb.tracks.slot id).2 ⟨s, hs⟩)
  obtain ⟨o, ho⟩ := Option.ne_none_iff_exists'.1 hn
  have ho' := hc.lasts m hm o (.inl ((outcome?_of_handle hh hs).trans ho))
  refine dispatch_of_notMem fun hi => ?_
  obtain ⟨s', hs', hn'⟩ := hc.tracks.unfinished id hi
  obtain ⟨-, is, his, -⟩ := hc.grows m hm
  obtain ⟨hlt, -⟩ := List.getElem?_eq_some_iff.1 hh
  have hh' : e.handles[h]? = some id := by rw [his, List.getElem?_append_left hlt, hh]
  rw [outcome?_of_handle hh' hs', hn'] at ho'
  cases ho'

/-! ### All queries -/

/-- What is done on a query, or comes in for it, reaches no other one. -/
structure Isolated (ms : List Moment) (e : Engine) : Prop where
  spares : ∀ {a k t e'}, e.Concerns a k → Yields (e.settle [k]) t e' → Spares e a e'
  stale : ∀ token, token ∉ e.tracked → e.dispatch token = return ([], e)
  distinct : e.handles.Nodup
  /-- No query has the token of wake-ups. -/
  ids : ∀ id ∈ e.handles, id < e.nextId ∧ id < wakeToken
  /-- IDs that were given out since are none that there were. -/
  fresh : ∀ m ∈ ms, ∃ ids, e.handles = m.before.handles ++ ids ∧ ∀ id ∈ ids, m.before.nextId ≤ id
  late : ∀ m ∈ ms, ∀ id s, m.before.slot? id = some s → s.cell.outcome? ≠ none →
    e.dispatch id = return ([], e)

/-- **Isolation**: at any time, whatever the calls answer, starting a query, letting it go on and
cancelling it leave all other queries alone, and tokens of queries that are not tracked mean
nothing, as do those of queries that ended long ago. -/
theorem queries_isolated (hc : Course (ofConfig c) ms ts e) (hs : e.Silent)
    (hn : e.nextId < wakeToken) : Isolated ms e where
  spares hk hy := hk.spares hc.tracks hs hc.consistent hy
  stale _ h := dispatch_of_notMem h
  distinct := hc.tracks.handles_nodup
  ids id hi := by
    have hlt := hc.tracks.handles_lt id hi
    exact ⟨hlt, hlt.trans hn⟩
  fresh m hm := (hc.grows m hm).2
  late m hm id s hs hn := hc.late hm hs hn

/-- Two queries, of which the first one is cancelled while its stream connects. Both are in the
queue of incoming ones before and after, and the second one is as it was. -/
theorem queries_isolated_cancel : ∃ (c : Config) (ms : List Moment) (e : Engine) (t : List Event)
    (e' : Engine), Course (ofConfig c) ms [] e ∧ e.Silent ∧ e.nextId < wakeToken ∧
      e.tracked = [0, 1] ∧ e.incoming = [0, 1] ∧
      Yields (e.settle [.request (.cancel 0)]) t e' ∧ e'.tracked = [1] ∧ e'.incoming = [0, 1] ∧
      e'.slot? 1 = e.slot? 1 ∧ Isolated ms e := by
  let p : QueryParams := { server := ⟨.localhost, 53⟩, mode := .tcpOnly }
  let connect : List Event := [⟨.connectTcp p.server, .ok 1⟩, ⟨.wake, ()⟩,
    ⟨.register ⟨.tcp, 1⟩ 0 .writable, .ok ()⟩]
  let cancel : List Event := [⟨.wake, ()⟩, ⟨.deregister ⟨.tcp, 1⟩, .ok ()⟩, ⟨.close ⟨.tcp, 1⟩, ()⟩,
    ⟨.wake, ()⟩, ⟨.reply (.cancelled 0 true), ()⟩]
  have h : Course (ofConfig {}) [] [] _ := .nil
  have h := h.cue (c := .submit .blank p) (t := [⟨.now, 5⟩, ⟨.wake, ()⟩])
    (.call _ (.call _ (.pure _)))
  have h := h.cue (c := .submit .blank p) (t := [⟨.now, 6⟩, ⟨.wake, ()⟩])
    (.call _ (.call _ (.pure _)))
  have h := h.cue (c := .start 0) (.pure _)
  have h := h.task (t := connect) (.call _ (.call _ (.call _ (.pure _))))
  have spared {ms e e'} (h : Course (ofConfig {}) ms [] e) (hs : e.Silent)
      (hn : e.nextId < wakeToken) (hh : e.handles[0]? = some 0)
      (hy : Yields (e.settle [.request (.cancel 0)]) cancel e') :
      e.Silent ∧ e.nextId < wakeToken ∧ Yields (e.settle [.request (.cancel 0)]) cancel e' ∧
        e'.slot? 1 = e.slot? 1 ∧ Isolated ms e :=
    have hi := queries_isolated h hs hn
    ⟨hs, hn, hy, (hi.spares (.cancel hh) hy).slot 1 (by decide), hi⟩
  obtain ⟨hs, hn, hy, hb, hi⟩ := spared h
    (silent_of_slots (List.forall_mem_cons.2 ⟨rfl, List.forall_mem_singleton.2 rfl⟩))
    (by decide) rfl (.call _ (.call _ (.call _ (.call _ (.call _ (.pure _))))))
  exact ⟨_, _, _, _, _, h, hs, hn, rfl, rfl, hy, rfl, rfl, hb, hi⟩

end Engine

end DnsClient
