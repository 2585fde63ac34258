import DnsClient.Proofs.Engine.Deadlines

/-!
Engines that are shut down.

When what is left of an engine is failed, its queues are empty before the first query fails, and
nothing gets into them any more, whatever continuations ask. A state is `Quenched` if it is so; each
task keeps it, and so does all that is asked of the engine later. In such a state a query without
outcome is one that is still to fail, and only its own failure or a cancellation ends it.
-/

namespace DnsClient

open Program

/-- Whether a call goes to the network. -/
def Call.isNetwork : Call → Bool
  | .wake | .now | .setup _ | .notify .. | .reply _ => false
  | _ => true

/-- The calls to the network, in order. -/
def networkCalls (t : List Event) : List Call := (t.map (·.1)).filter Call.isNetwork

@[simp] lemma networkCalls_nil : networkCalls [] = [] := rfl

@[simp] lemma networkCalls_append (t u : List Event) :
    networkCalls (t ++ u) = networkCalls t ++ networkCalls u := by
  rw [networkCalls, List.map_append, List.filter_append]
  rfl

namespace Engine

variable {c : Config} {e e' e₁ : Engine} {id : QueryId} {s : Slot} {ts new : List Task}
  {t u : List Event} {ms : List Moment} {ids ids' : List QueryId} {k : Task}

def query? (e : Engine) (id : QueryId) : Option Query := (e.slot? id).map (·.query)

lemma query?_of_slot (hs : e.slot? id = some s) : e.query? id = some s.query := by
  rw [query?, hs]
  rfl

/-- The calls that give up the socket of a query of the engine. -/
def closings (e : Engine) (id : QueryId) : List Call := (e.query? id).elim [] Query.closings

/-- The engine is shut down, and nothing is left in its queues. -/
structure Quenched (e : Engine) : Prop where
  isShutdown : e.isShutdown = true
  tracked : e.tracked = []
  schedule : e.schedule = {}
  incoming : e.incoming = []

/-- Nothing happens to the engine but that these queries end, and cancellations. -/
structure Unwinds (e : Engine) (ids : List QueryId) (t : List Event) (e' : Engine) : Prop where
  quenched : e'.Quenched
  handles : e'.handles = e.handles
  query : ∀ id, id ∉ ids → e'.query? id = e.query? id
  calls : networkCalls t = (ids.flatMap e.closings).filter Call.isNetwork
  outcome : ∀ h, e'.outcome? h = e.outcome? h ∨ e.outcome? h = none ∧
    (e'.outcome? h = some (.failed .shutdown) ∨ e'.outcome? h = some .cancelled)

lemma Quenched.unwinds (hq : e'.Quenched) (hh : e'.handles = e.handles)
    (hs : ∀ id, e'.slot? id = e.slot? id) (ht : networkCalls t = []) : Unwinds e [] t e' where
  quenched := hq
  handles := hh
  query id _ := by rw [query?, hs, query?]
  calls := ht
  outcome h := by
    have hs' : e'.slot? = e.slot? := funext hs
    left
    rw [outcome?, outcome?, hh, hs']

lemma Unwinds.trans (h : Unwinds e ids t e₁) (h' : Unwinds e₁ ids' u e')
    (hd : ∀ id ∈ ids', id ∉ ids) : Unwinds e (ids ++ ids') (t ++ u) e' where
  quenched := h'.quenched
  handles := h'.handles.trans h.handles
  query id hi := by
    rw [List.mem_append, not_or] at hi
    rw [h'.query id hi.2, h.query id hi.1]
  calls := by
    have hc : ids'.flatMap e₁.closings = ids'.flatMap e.closings :=
      List.flatMap_congr fun id hi => by rw [closings, h.query id (hd id hi), closings]
    rw [networkCalls_append, h.calls, h'.calls, hc, List.flatMap_append, List.filter_append]
  outcome k := by
    rcases h.outcome k with he | ⟨hn, hs⟩
    · rw [← he]
      exact h'.outcome k
    · right
      refine ⟨hn, ?_⟩
      rcases h'.outcome k with he' | ⟨hn', -⟩
      · rwa [he']
      · rcases hs with hs | hs <;> cases hn'.symm.trans hs

/-! ### Tasks -/

lemma outcome?_setSlot (s' : Slot) (hs : e.slot? id = some s) (h : Nat) :
    (e.setSlot id s').outcome? h = e.outcome? h ∨
      e.outcome? h = s.cell.outcome? ∧ (e.setSlot id s').outcome? h = s'.cell.outcome? := by
  by_cases hh : e.handles[h]? = some id
  · have hs' : (e.setSlot id s').slot? id = some s' := by rw [slot?_setSlot, if_pos rfl]
    exact .inr ⟨outcome?_of_handle hh hs, outcome?_of_handle hh hs'⟩
  · left
    change Option.bind (Option.bind e.handles[h]? _) _ = _
    unfold outcome?
    cases hi : e.handles[h]? with
    | none => rfl
    | some i =>
      have hne : i ≠ id := fun he => hh (by rw [hi, he])
      simp [slot?_setSlot, hne]

/-- A query that is forgotten, or was before, ends because of a shutdown or is cancelled. -/
lemma Quenched.ended {o : Outcome} {q : Query} (hq : e.Quenched) (hs : e.slot? id = some s)
    (hn : s.cell.outcome? = none) (ho : o = .failed .shutdown ∨ o = .cancelled)
    (hids : q = s.query ∨ id ∈ ids)
    (ht : networkCalls t = (ids.flatMap e.closings).filter Call.isNetwork) :
    Unwinds e ids t (e.setSlot id (.ended o q)) where
  quenched := ⟨hq.isShutdown, hq.tracked, hq.schedule, hq.incoming⟩
  handles := rfl
  query i hi := by
    rw [query?, slot?_setSlot]
    split
    · next he =>
      subst he
      rw [query?_of_slot hs, hids.resolve_right hi]
      rfl
    · rfl
  calls := ht
  outcome h := by
    rcases outcome?_setSlot (.ended o q) hs h with he | ⟨he, he'⟩
    · exact .inl he
    · rw [he, he']
      exact .inr ⟨hn, ho.imp (congrArg some) (congrArg some)⟩

/-- The agenda fails each query at most once and starts none of those, and their sockets are
registered. -/
structure Sweeps (ts : List Task) (e : Engine) : Prop where
  nodup : (condemned ts).Nodup
  apart : ∀ id ∈ starting ts, id ∉ condemned ts
  registered : ∀ id ∈ condemned ts, ∀ q, e.query? id = some q →
    q.registered = q.phase.socket?.isSome

namespace Sweeps

lemma head (h : Sweeps (k :: ts) e) :
    (∀ id ∈ condemned ts, id ∉ condemned [k]) ∧
      (∀ id, k = .start id → id ∉ condemned ts) ∧
      ∀ id ∈ condemned [k], ∀ q, e.query? id = some q →
        q.registered = q.phase.socket?.isSome := by
  obtain ⟨hn, ha, hr⟩ := h
  rw [← List.singleton_append, condemned_append] at hn ha hr
  rw [starting_append] at ha
  obtain ⟨-, -, hd⟩ := List.nodup_append.1 hn
  refine ⟨fun id hi hk => hd id hk id hi rfl, ?_, fun id hi => hr id (List.mem_append_left _ hi)⟩
  rintro id rfl hi
  exact ha id (List.mem_append_left _ (List.mem_singleton_self id)) (List.mem_append_right _ hi)

lemma tail (h : Sweeps (k :: ts) e) (hc : condemned new = []) (hs : starting new = [])
    (hq : ∀ id ∈ condemned ts, e'.query? id = e.query? id) :
    Sweeps (new ++ ts) e' := by
  obtain ⟨hn, ha, hr⟩ := h
  rw [← List.singleton_append, condemned_append] at hn ha hr
  rw [starting_append] at ha
  have hc' : condemned (new ++ ts) = condemned ts := by rw [condemned_append, hc, List.nil_append]
  have hs' : starting (new ++ ts) = starting ts := by rw [starting_append, hs, List.nil_append]
  refine ⟨?_, ?_, ?_⟩
  · rw [hc']
    exact (List.nodup_append.1 hn).2.1
  · rw [hc', hs']
    exact fun id hi hi' => ha id (List.mem_append_right _ hi) (List.mem_append_right _ hi')
  · intro id hi
    rw [hc'] at hi
    rw [hq id hi]
    exact hr id (List.mem_append_right _ hi)

end Sweeps

lemma beginShutdown_of_isShutdown (h : e.isShutdown = true) :
    e.beginShutdown = return (false, e) := by rw [beginShutdown, if_pos h]

namespace Quenched

lemma submit_eq (hq : e.Quenched) (m : Message) (p : QueryParams) :
    e.submit m p = return (.error .shutdown, { e with nextId := e.nextId + 1 }) := by
  rw [submit, if_pos hq.isShutdown]

lemma forget_eq (hq : e.Quenched) (id : QueryId) : e.forget id = e := by
  have ht : e.tracked.filter (· ≠ id) = e.tracked := by simp [hq.tracked]
  have hs : (e.schedule.remove id).2 = e.schedule := by
    rw [hq.schedule]
    rfl
  rw [forget, ht, hs]

/-- Nothing happens, in particular to the slots. -/
lemma rests (hq : e.Quenched) (ht : networkCalls t = []) : Unwinds e [] t e :=
  hq.unwinds rfl (fun _ => rfl) ht

lemma request (hq : e.Quenched) {r : EngineRequest} (ht : Tracks (.request r :: ts) e)
    (hy : Yields (e.serveRequest r) t (new, e')) :
    Unwinds e [] t e' ∧ e'.overflow = e.overflow ∧ condemned new = [] ∧ starting new = [] := by
  cases r with
  | submit m p rs =>
    rw [serveRequest, hq.submit_eq] at hy
    obtain ⟨rfl, hr⟩ := yields_pure.1 hy
    cases hr
    refine ⟨unwinds ?_ rfl (fun _ => rfl) rfl, rfl, rfl, rfl⟩
    exact ⟨hq.isShutdown, hq.tracked, hq.schedule, hq.incoming⟩
  | cancel handle =>
    obtain ⟨rfl, rfl, rfl, -⟩ | ⟨id, s, -, hs, hn, -, hu, rfl, rfl⟩ := yields_cancel ht.hook hy
    · exact ⟨hq.rests rfl, rfl, rfl, rfl⟩
    · have hi : id ∉ e.tracked := by simp [hq.tracked]
      rw [hu hi, if_neg hi, hq.forget_eq]
      refine ⟨hq.ended hs hn (.inr rfl) (.inl rfl) rfl, rfl, ?_, ?_⟩
      · rw [condemned_append, condemned_map fun _ => rfl]
        rfl
      · rw [starting_append, starting_map fun _ => rfl]
        rfl
  | pending =>
    obtain ⟨rfl, hr⟩ := yields_pure.1 hy
    cases hr
    exact ⟨hq.rests rfl, rfl, rfl, rfl⟩
  | shutdown =>
    rw [serveRequest, beginShutdown_of_isShutdown hq.isShutdown] at hy
    obtain ⟨rfl, hr⟩ := yields_pure.1 hy
    cases hr
    exact ⟨hq.rests rfl, rfl, rfl, rfl⟩

/-- A task ends the query that it is to fail, if it is to fail one. -/
lemma perform (hq : e.Quenched) (ht : Tracks (k :: ts) e)
    (hk : ∀ id, k = .start id → id ∉ condemned ts)
    (hr : ∀ id ∈ condemned [k], ∀ q, e.query? id = some q →
      q.registered = q.phase.socket?.isSome)
    (hy : Yields (e.perform k) t (new, e')) :
    Unwinds e (condemned [k]) t e' ∧ e'.overflow = e.overflow ∧ condemned new = [] ∧
      starting new = [] := by
  have ht₀ (i) : i ∉ e.tracked := by simp [hq.tracked]
  cases k with
  | request r => exact hq.request ht hy
  | reply r =>
    obtain ⟨_, u, rfl, hu⟩ := yields_perform_bind.1 hy
    obtain ⟨rfl, hr⟩ := yields_pure.1 hu
    cases hr
    exact ⟨hq.rests rfl, rfl, rfl, rfl⟩
  | notify k o =>
    obtain ⟨_, u, rfl, hu⟩ := yields_perform_bind.1 hy
    obtain ⟨rfl, hr⟩ := yields_pure.1 hu
    cases hr
    exact ⟨hq.rests rfl, rfl, condemned_map fun _ => rfl, starting_map fun _ => rfl⟩
  | start id =>
    obtain ⟨rfl, rfl, rfl, -⟩ | ⟨s, r, hs, hn, -, -⟩ := yields_start hy
    · exact ⟨hq.rests rfl, rfl, rfl, rfl⟩
    · exact absurd ((ht.tracked id).2 ⟨hk id rfl, s, hs, hn⟩) (ht₀ id)
  | dispatch token =>
    obtain ⟨rfl, rfl, rfl⟩ | ⟨-, -, hi, -⟩ := yields_dispatch ht.unfinished hy
    · exact ⟨hq.rests rfl, rfl, rfl, rfl⟩
    · exact absurd hi (ht₀ token)
  | expire now =>
    obtain ⟨-, rfl, rfl, rfl⟩ | ⟨id, -, -, hi, -⟩ := yields_expire ht.unfinished ht.scheduled hy
    · refine ⟨unwinds ⟨hq.isShutdown, hq.tracked, ?_, hq.incoming⟩ rfl (fun _ => rfl) rfl, rfl, rfl,
        rfl⟩
      rw [hq.schedule]
      rfl
    · exact absurd hi (ht₀ id)
  | shutDown id =>
    obtain ⟨s, hs⟩ := (ht.slot id).1 (ht.doomed id (List.mem_cons_self ..))
    obtain ⟨ha, hr'⟩ := yields_shutDown hs hy
    have hcalls : networkCalls t = (List.flatMap e.closings [id]).filter Call.isNetwork := by
      have hs' := query?_of_slot hs
      have hc := Query.calls_of_abandon (hr id (List.mem_singleton_self id) _ hs') ha
      rw [networkCalls, hc, List.flatMap_singleton, closings, hs']
      rfl
    obtain ⟨hn, rfl, rfl⟩ | ⟨hn, rfl, rfl⟩ := hr'
    · refine ⟨hq.ended hs hn (.inl rfl) (.inr (List.mem_singleton_self id)) hcalls, rfl, ?_, ?_⟩
      · exact condemned_map fun _ => rfl
      · exact starting_map fun _ => rfl
    · refine ⟨⟨⟨hq.isShutdown, hq.tracked, hq.schedule, hq.incoming⟩, rfl, fun i hi => ?_, hcalls,
        fun h => .inl ?_⟩, rfl, rfl, rfl⟩
      · rw [query?, slot?_setSlot, if_neg fun he => hi (List.mem_singleton.2 he), query?]
      · rcases outcome?_setSlot _ hs h with he | ⟨he, he'⟩
        · exact he
        · rw [he, he']

/-- All that is left to do ends the queries that are to fail, one after the other. -/
lemma settle (hq : e.Quenched) (ht : Tracks ts e) (hs : Sweeps ts e)
    (hy : Yields (e.settle ts) t e') :
    Unwinds e (condemned ts) t e' ∧ e'.overflow = e.overflow := by
  refine settle_induction (P := fun ts e t => e.Quenched → Tracks ts e → Sweeps ts e →
    Unwinds e (condemned ts) t e' ∧ e'.overflow = e.overflow) ?_ ?_ hy hq ht hs
  · exact fun hq _ _ => ⟨hq.rests rfl, rfl⟩
  · intro k ts e u new e₁ v hp ih hq ht hs
    obtain ⟨hd, hk, hr⟩ := hs.head
    -- what this task ends is not on the agenda behind it, so the sockets there are as they were
    obtain ⟨h, ho, hnc, hns⟩ := hq.perform ht hk hr hp
    have hs' := hs.tail hnc hns fun id hi => h.query id (hd id hi)
    obtain ⟨h', ho'⟩ := ih h.quenched (ht.perform hp) hs'
    rw [condemned_append, hnc] at h'
    have hc : condemned (k :: ts) = condemned [k] ++ condemned ts := condemned_append [k] ts
    rw [hc]
    exact ⟨h.trans h' hd, ho'.trans ho⟩

/-! ### Later on -/

lemma networkCalls_wakeFor {rest : List QueryId} {x : Unit} (h : Yields (wakeFor rest) t x) :
    networkCalls t = [] := by
  unfold wakeFor at h
  split at h
  · obtain ⟨rfl, -⟩ := yields_pure.1 h
    rfl
  · obtain rfl := yields_perform.1 h
    rfl

lemma finished (hq : e.Quenched) (ht : Tracks [] e) (hs : e.slot? id = some s) :
    ∃ o, s.cell.outcome? = some o := by
  refine Option.ne_none_iff_exists'.1 fun hn => ?_
  have hi := (ht.tracked id).2 ⟨fun h => (by cases h), s, hs, hn⟩
  rw [hq.tracked] at hi
  cases hi

lemma outcome?_isSome (hq : e.Quenched) (ht : Tracks [] e) {h : Nat} (hh : h < e.handles.length) :
    (e.outcome? h).isSome := by
  have hi := List.getElem?_eq_getElem hh
  obtain ⟨s, hs⟩ := (ht.slot _).1 (List.mem_of_getElem? hi)
  obtain ⟨o, ho⟩ := hq.finished ht hs
  rw [outcome?_of_handle hi hs, ho]
  rfl

lemma cue (hq : e.Quenched) (ht : Tracks [] e) {k : Cue} (hy : Yields (e.cue k) t (ts, e')) :
    Unwinds e [] t e' ∧ condemned ts = [] := by
  -- all but the queue of ready sockets and the next ID are as they were
  have same {u : List Event} {e₁ : Engine} (hu : networkCalls u = [])
      (h : e₁ = { e with overflow := e₁.overflow, nextId := e₁.nextId }) : Unwinds e [] u e₁ := by
    rw [h]
    refine unwinds ?_ rfl (fun _ => rfl) hu
    exact ⟨hq.isShutdown, hq.tracked, hq.schedule, hq.incoming⟩
  cases k with
  | submit m p =>
    obtain ⟨u, ⟨x, e₁⟩, v, hu, hv, rfl⟩ := yields_bind.1 hy
    rw [hq.submit_eq] at hu
    obtain ⟨rfl, hr⟩ := yields_pure.1 hu
    cases hr
    obtain ⟨rfl, hr⟩ := yields_pure.1 hv
    cases hr
    exact ⟨same rfl rfl, rfl⟩
  | request r | start id | dispatch token | expire now =>
    obtain ⟨rfl, hr⟩ := yields_pure.1 hy
    cases hr
    exact ⟨same rfl rfl, rfl⟩
  | onComplete k =>
    obtain ⟨rfl, hr⟩ := yields_pure.1 hy
    unfold onComplete at hr
    split at hr
    · cases hr
      exact ⟨same rfl rfl, rfl⟩
    · split at hr
      · cases hr
        exact ⟨same rfl rfl, rfl⟩
      · next id _ s hs =>
        obtain ⟨o, ho⟩ := hq.finished ht hs
        simp only [Cell.onComplete, ho] at hr
        cases hr
        refine ⟨unwinds ?_ rfl (Rests.setSlot hs).slot? rfl, rfl⟩
        exact ⟨hq.isShutdown, hq.tracked, hq.schedule, hq.incoming⟩
  | overdue | leave =>
    obtain ⟨_, u, rfl, hu⟩ := yields_perform_bind.1 hy
    obtain ⟨rfl, hr⟩ := yields_pure.1 hu
    cases hr
    exact ⟨same rfl rfl, rfl⟩
  | wait =>
    obtain ⟨_, u, rfl, hu⟩ := yields_perform_bind.1 hy
    obtain ⟨rfl, hr⟩ := yields_pure.1 hu
    cases hr
    refine ⟨unwinds ⟨hq.isShutdown, hq.tracked, ?_, hq.incoming⟩ rfl (fun _ => rfl) rfl, rfl⟩
    change e.schedule.clean = {}
    rw [hq.schedule]
    rfl
  | ready | overflow =>
    obtain ⟨u, _, _, hu, hv, rfl⟩ := yields_bind.1 hy
    obtain ⟨rfl, hr⟩ := yields_pure.1 hv
    cases hr
    rw [List.append_nil]
    exact ⟨same (networkCalls_wakeFor hu) rfl, condemned_map fun _ => rfl⟩
  | incoming =>
    obtain ⟨u, _, _, hu, hv, rfl⟩ := yields_bind.1 hy
    obtain ⟨rfl, hr⟩ := yields_pure.1 hv
    cases hr
    rw [List.append_nil]
    refine ⟨unwinds ⟨hq.isShutdown, hq.tracked, hq.schedule, ?_⟩ rfl (fun _ => rfl)
      (networkCalls_wakeFor hu), condemned_map fun _ => rfl⟩
    change (e.takeShare e.incoming).2 = []
    rw [hq.incoming, takeShare, List.splitAt_eq, List.drop_nil]
  | beginShutdown =>
    obtain ⟨u, ⟨b, e₁⟩, v, hu, hv, rfl⟩ := yields_bind.1 hy
    rw [beginShutdown_of_isShutdown hq.isShutdown] at hu
    obtain ⟨rfl, hr⟩ := yields_pure.1 hu
    cases hr
    obtain ⟨rfl, hr⟩ := yields_pure.1 hv
    cases hr
    exact ⟨same rfl rfl, rfl⟩
  | failRemaining o =>
    obtain ⟨rfl, hr⟩ := yields_pure.1 hy
    cases hr
    rw [hq.tracked, (o.perm []).eq_nil]
    exact ⟨unwinds ⟨hq.isShutdown, rfl, rfl, rfl⟩ rfl (fun _ => rfl) rfl, rfl⟩

/-- Whatever is asked of the engine later on. -/
lemma follows {cs : List Cue} (hq : e.Quenched) (ht : Tracks [] e)
    (hy : Yields (e.follows cs) t e') : Unwinds e [] t e' ∧ Tracks [] e' := by
  induction cs generalizing e t with
  | nil =>
    obtain ⟨rfl, rfl⟩ := yields_pure.1 hy
    exact ⟨hq.rests rfl, ht⟩
  | cons k cs ih =>
    obtain ⟨_, e₁, v, hf, hr, rfl⟩ := yields_bind.1 hy
    obtain ⟨u, ⟨ts, e₂⟩, w, hk, hw, rfl⟩ := yields_bind.1 hf
    obtain ⟨h, hts⟩ := hq.cue ht hk
    have ht₂ := ht.cue hk
    have hs : Sweeps ts e₂ := by
      constructor <;> simp [hts]
    obtain ⟨h', -⟩ := h.quenched.settle ht₂ hs hw
    rw [hts] at h'
    obtain ⟨h'', ht'⟩ := ih h'.quenched (ht₂.settle hw).1 hr
    exact ⟨(h.trans h' (by simp)).trans h'' (by simp), ht'⟩

end Quenched

/-! ### Shutdowns -/

/-- An engine once it is shut down, after whatever is asked of it later on. -/
structure Stopped (e : Engine) (t : List Event) (e' : Engine) : Prop where
  queues : e'.tracked = [] ∧ e'.schedule = {} ∧ e'.incoming = []
  handles : e'.handles = e.handles
  outcome : ∀ h, e'.outcome? h = e.outcome? h
  finished : ∀ h < e'.handles.length, (e'.outcome? h).isSome
  calls : networkCalls t = []
  again : ∀ o, e'.shutdown o = return e'
  refuses : ∀ m p, e'.submit m p = return (.error .shutdown, { e' with nextId := e'.nextId + 1 })

/-- What a shutdown leaves of an engine that fails what is left in this order. -/
structure ShutsDown (e : Engine) (ids : List QueryId) (t : List Event) (e' : Engine) : Prop where
  queues : e'.tracked = [] ∧ e'.schedule = {} ∧ e'.incoming = [] ∧ e'.overflow = []
  handles : e'.handles = e.handles
  /-- The queries without outcome are left, each once. -/
  nodup : ids.Nodup
  left : ∀ (h : Nat) id, e.handles[h]? = some id → (id ∈ ids ↔ e.outcome? h = none)
  unfinished : ∀ h < e.handles.length, e.outcome? h = none →
    e'.outcome? h = some (.failed .shutdown) ∨
      e'.outcome? h = some .cancelled ∧ (cancellations t).count h = 1
  lasts : ∀ h o, e.outcome? h = some o → e'.outcome? h = some o
  /-- Nothing is done on the network but that their sockets are given up, one after the other. -/
  calls : networkCalls t = (ids.flatMap e.closings).filter Call.isNetwork
  released : ∀ id s, e'.slot? id = some s → s.query.phase = .closed ∧ s.query.registered = false
  later : ∀ cs u e'', Yields (e'.follows cs) u e'' → Stopped e' u e''

lemma shutdown_of_isShutdown (h : e.isShutdown = true) (o : DrainOrder) :
    e.shutdown o = return e := by
  rw [shutdown, beginShutdown_of_isShutdown h]
  rfl

lemma Quenched.stopped {cs : List Cue} (hq : e.Quenched) (ht : Tracks [] e)
    (hy : Yields (e.follows cs) t e') : Stopped e t e' := by
  obtain ⟨h, ht'⟩ := hq.follows ht hy
  have hq' := h.quenched
  refine ⟨⟨hq'.tracked, hq'.schedule, hq'.incoming⟩, h.handles, fun k => ?_,
    fun k hk => hq'.outcome?_isSome ht' hk, h.calls, shutdown_of_isShutdown hq'.isShutdown,
    hq'.submit_eq⟩
  refine (h.outcome k).resolve_right fun ⟨hn, hs⟩ => ?_
  by_cases hk : k < e.handles.length
  · have hsome := hq.outcome?_isSome ht hk
    rw [hn] at hsome
    cases hsome
  · have hnone : e'.outcome? k = none := by
      rw [outcome?, h.handles, List.getElem?_eq_none (Nat.le_of_not_lt hk)]
      rfl
    rw [hnone] at hs
    rcases hs with hs | hs <;> cases hs

/-- What is tracked is failed one by one, and has its sockets registered until its turn comes. -/
lemma Course.sweeps (hc : Course (ofConfig c) ms [] e) (hids : ids.Perm e.tracked) :
    Sweeps (ids.map .shutDown)
      { e with tracked := [], schedule := {}, incoming := [], overflow := [] } := by
  refine ⟨?_, ?_, ?_⟩
  · rw [condemned_shutDown]
    exact hids.nodup_iff.2 hc.tracks.tracked_nodup
  · rw [starting_map fun _ => rfl]
    exact fun id hi => by cases hi
  · rw [condemned_shutDown]
    intro id hi q hq
    obtain ⟨s, hs, hn⟩ := hc.tracks.unfinished id (hids.mem_iff.1 hi)
    obtain rfl : s.query = q := Option.some_inj.1 ((query?_of_slot hs).symm.trans hq)
    exact hc.registered hs hn

lemma Course.shutsDown (hc : Course (ofConfig c) ms [] e) (hs : e.isShutdown = true)
    (hids : ids.Perm e.tracked) (hy : Yields (e.failAll ids) t e') : ShutsDown e ids t e' := by
  have hq : Quenched { e with tracked := [], schedule := {}, incoming := [], overflow := [] } :=
    ⟨hs, rfl, rfl, rfl⟩
  obtain ⟨o, rfl⟩ := DrainOrder.exists_arrange hids
  have ht := hc.tracks.cue (k := .failRemaining o) (.pure _)
  obtain ⟨h, ho⟩ := hq.settle ht (hc.sweeps hids) hy
  obtain ⟨ht', hcancel⟩ := ht.settle hy
  rw [condemned_shutDown] at h
  exact {
    queues := ⟨h.quenched.tracked, h.quenched.schedule, h.quenched.incoming, ho⟩
    handles := h.handles
    nodup := hids.nodup_iff.2 hc.tracks.tracked_nodup
    left := fun k id hk => hids.mem_iff.trans (hc.tracks.mem_tracked_iff hk)
    unfinished := by
      intro k hk hn
      have hfin := h.quenched.outcome?_isSome ht' (h.handles ▸ hk)
      rcases h.outcome k with he | ⟨-, hf | hx⟩
      · have hn' : e'.outcome? k = none := he.trans hn
        rw [hn'] at hfin
        cases hfin
      · exact .inl hf
      · have hn₁ : cancelled
            { e with tracked := [], schedule := {}, incoming := [], overflow := [] } k = 0 :=
          congrArg (fun o => if Option.any Outcome.isCancelled o then 1 else 0) hn
        have hx₁ : e'.cancelled k = 1 := by
          rw [cancelled, hx]
          rfl
        have hk := hcancel k
        rw [hn₁, hx₁, owed_map fun _ => rfl, List.count_nil] at hk
        exact .inr ⟨hx, by omega⟩
    lasts := by
      intro k o hk
      rcases h.outcome k with he | ⟨hn, -⟩
      · rw [he]
        exact hk
      · cases hn.symm.trans hk
    calls := h.calls
    released := by
      intro id s hs
      refine ht'.closed id s hs ?_ fun hi => by cases hi
      rw [h.quenched.tracked]
      exact fun hi => by cases hi
    later := fun cs u e'' hu => h.quenched.stopped ht' hu }

/-- **Shutdown**: a shutdown leaves nothing in the queues of an engine and no query without an
outcome, and nothing that is asked of the engine later changes that. A query that was left fails
with the shutdown, unless a continuation cancels it before its turn comes. This is so in whatever
order the queries fail. Once a shutdown has begun it is left to itself. -/
theorem shutdown_complete (hr : Reached c u e) :
    (∀ o, e.isShutdown = false → Yields (e.shutdown o) t e' →
        ShutsDown e (o.arrange e.tracked) t e') ∧
      (∀ o, e.isShutdown = true → e.shutdown o = return e) ∧
      ∀ ids, ids.Perm e.tracked → e.isShutdown = true → Yields (e.failAll ids) t e' →
        ShutsDown e ids t e' := by
  obtain ⟨cs, hf⟩ := hr.follows
  obtain ⟨ms, hc, -⟩ := course_iff.2 ⟨cs, hf⟩
  refine ⟨fun o hs hy => ?_, fun o hs => shutdown_of_isShutdown hs o,
    fun ids hi hs hy => hc.shutsDown hs hi hy⟩
  obtain ⟨v, ⟨b, e₁⟩, w, hb, hw, rfl⟩ := yields_bind.1 hy
  have hc₁ := hc.cue (c := .beginShutdown) (yields_bind.2 ⟨v, (b, e₁), [], hb, .pure _, rfl⟩)
  obtain ⟨-, hs', -⟩ | ⟨rfl, -, rfl, rfl⟩ := yields_beginShutdown hb
  · cases hs.symm.trans hs'
  · have h := hc₁.shutsDown rfl (o.perm e.tracked) hw
    exact ⟨h.queues, h.handles, h.nodup, h.left, h.unfinished, h.lasts, h.calls, h.released,
      h.later⟩

/-- A query that connects and one that is not started yet are left. The continuation of the first
one cancels the second. -/
lemma exists_cancelled_by_shutdown : ∃ (u : List Event) (e : Engine) (t : List Event) (e' : Engine),
    Reached {} u e ∧ e.isShutdown = false ∧ e.handles = [0, 1] ∧ e.outcome? 0 = none ∧
      e.outcome? 1 = none ∧ Yields (e.shutdown .submitted) t e' ∧
      e'.outcome? 0 = some (.failed .shutdown) ∧ e'.outcome? 1 = some .cancelled ∧
      networkCalls t = [.deregister ⟨.tcp, 1⟩, .close ⟨.tcp, 1⟩] := by
  let p : QueryParams := { server := ⟨.localhost, 53⟩, mode := .tcpOnly }
  have h₁ := (Reached.new (c := {})).cue (k := .request (.submit .blank p [.cancel 1]))
    (u := [⟨.now, 5⟩, ⟨.wake, ()⟩, ⟨.reply (.submitted 0), ()⟩])
    (.call _ (.call _ (.call _ (.pure _))))
  have h₂ := h₁.cue (k := .request (.submit .blank p []))
    (u := [⟨.now, 6⟩, ⟨.wake, ()⟩, ⟨.reply (.submitted 1), ()⟩])
    (.call _ (.call _ (.call _ (.pure _))))
  have h₃ := h₂.cue (k := .start 0) (u := [⟨.connectTcp p.server, .ok 1⟩, ⟨.wake, ()⟩,
    ⟨.register ⟨.tcp, 1⟩ 0 .writable, .ok ()⟩]) (.call _ (.call _ (.call _ (.pure _))))
  exact ⟨_, _, _, _, h₃, rfl, rfl, rfl, rfl, .call () (.call () (.call
    (c := .deregister ⟨.tcp, 1⟩) (.ok ()) (.call () (.call () (.call () (.call () (.call ()
    (.pure _)))))))), rfl, rfl, rfl⟩

/-- The socket of the first query is given up, and then the second one is cancelled. -/
theorem shutdown_complete_cancelling : ∃ (c : Config) (u : List Event) (e : Engine)
    (t : List Event) (e' : Engine), Reached c u e ∧ e.isShutdown = false ∧
      Yields (e.shutdown .submitted) t e' ∧ e'.outcome? 1 = some .cancelled ∧
      networkCalls t = [.deregister ⟨.tcp, 1⟩, .close ⟨.tcp, 1⟩] ∧
      ShutsDown e e.tracked t e' := by
  obtain ⟨u, e, t, e', hr, hs, -, -, -, hy, -, ho, ht⟩ := exists_cancelled_by_shutdown
  exact ⟨{}, u, e, t, e', hr, hs, hy, ho, ht, (shutdown_complete hr).1 .submitted hs hy⟩

/-- A query that is left when the engine shuts down need not fail with the shutdown, not even if the
queries fail in the order of their submission. -/
theorem not_all_left_fail : ¬ ∀ (c : Config) (u : List Event) (e : Engine) (t : List Event)
    (e' : Engine), Reached c u e → e.isShutdown = false → Yields (e.shutdown .submitted) t e' →
      ∀ h < e.handles.length, e.outcome? h = none → e'.outcome? h = some (.failed .shutdown) := by
  intro hall
  obtain ⟨u, e, t, e', hr, hs, hh, -, hn, hy, -, ho, -⟩ := exists_cancelled_by_shutdown
  have hf := hall {} u e t e' hr hs hy 1 (by rw [hh]; decide) hn
  cases ho.symm.trans hf

end Engine

end DnsClient
