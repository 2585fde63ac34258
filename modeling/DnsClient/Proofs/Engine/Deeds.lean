import DnsClient.Proofs.Engine.Course

/-!
What one deed of an engine can do, given that its books are in order.

`Tracks` says how the queues and slots of an engine fit together while tasks are left to do. With
that, a deed either changes one slot (`Effect` lists the ways), or takes in a query, or moves
queries between queues, or leaves all of this alone. All that is said about courses is said about
these.
-/

namespace DnsClient

open Program

/-! ### Agendas -/

def Task.shutDown? : Task → Option QueryId
  | .shutDown id => some id
  | _ => none

def Task.start? : Task → Option QueryId
  | .start id => some id
  | _ => none

/-- The handle whose cancellation the task tells of as a success. -/
def Task.cancelled? : Task → Option Nat
  | .reply (.cancelled h true) => some h
  | _ => none

def Program.Event.cancelled? : Event → Option Nat
  | ⟨.reply (.cancelled h true), _⟩ => some h
  | _ => none

/-- The queries that are still to fail because of a shutdown. -/
def condemned (ts : List Task) : List QueryId := ts.filterMap Task.shutDown?

/-- The queries that are still to be started. -/
def starting (ts : List Task) : List QueryId := ts.filterMap Task.start?

/-- The handles for which a cancel call is going to return true. -/
def owed (ts : List Task) : List Nat := ts.filterMap Task.cancelled?

/-- The handles for which a cancel call returned true. -/
def cancellations (t : List Event) : List Nat := t.filterMap Event.cancelled?

section
variable (ts us : List Task) (t u : List Event)

@[simp] lemma condemned_append : condemned (ts ++ us) = condemned ts ++ condemned us :=
  List.filterMap_append

@[simp] lemma starting_append : starting (ts ++ us) = starting ts ++ starting us :=
  List.filterMap_append

@[simp] lemma owed_append : owed (ts ++ us) = owed ts ++ owed us := List.filterMap_append

@[simp] lemma cancellations_append :
    cancellations (t ++ u) = cancellations t ++ cancellations u := List.filterMap_append

end

lemma cancellations_eq_nil {t : List Event} (h : ∀ w ∈ t, w.1.purpose ≠ .other) :
    cancellations t = [] :=
  filterMap_of_purpose (p := (· ≠ .other)) h fun c _ hc => by
    cases c <;> simp [Call.purpose] at hc <;> rfl

lemma Quiet.cancellations_eq {t : List Event} (h : Quiet t) : cancellations t = [] :=
  cancellations_eq_nil fun w hw => by simp [h w hw]

section
variable {α : Type} {f : α → Task} {as : List α}

lemma condemned_map (h : ∀ a, (f a).shutDown? = none) : condemned (as.map f) = [] := by
  simp [condemned, h]

lemma condemned_shutDown (ids : List QueryId) : condemned (ids.map .shutDown) = ids :=
  List.filterMap_map.trans List.filterMap_some

lemma starting_map (h : ∀ a, (f a).start? = none) : starting (as.map f) = [] := by
  simp [starting, h]

lemma owed_map (h : ∀ a, (f a).cancelled? = none) : owed (as.map f) = [] := by
  simp [owed, h]

end

/-- The tasks on the agenda that a deed deals with. -/
def Deed.tasks : Deed → List Task
  | .cue _ => []
  | .task k => [k]

/-- The deed lets the query with the ID act. -/
def Deed.lets (id : QueryId) : Deed → Query.Action → Prop
  | .task (.start i), .start => i = id
  | .task (.dispatch i), .ready => i = id
  | _, _ => False

lemma Deed.lets_cases {d : Deed} {id : QueryId} {a : Query.Action} (h : d.lets id a) :
    d = .task (.start id) ∨ d = .task (.dispatch id) := by
  unfold lets at h
  split at h
  · exact .inl (by rw [h])
  · exact .inr (by rw [h])
  · exact h.elim

/-- The request that the deed submits. -/
def Deed.submission? : Deed → Option (Message × QueryParams)
  | .cue (.submit m p) | .task (.request (.submit m p _)) => some (m, p)
  | _ => none

lemma Deed.tasks_of_submission {d : Deed} {r : Message × QueryParams}
    (h : d.submission? = some r) :
    condemned d.tasks = [] ∧ starting d.tasks = [] ∧ owed d.tasks = [] := by
  unfold submission? at h
  split at h
  · exact ⟨rfl, rfl, rfl⟩
  · exact ⟨rfl, rfl, rfl⟩
  · cases h

/-- A request that was taken in, with its parameters and the time. -/
structure Submission where
  request : Message
  params : QueryParams
  time : Instant

/-- The time that is asked for before anything else. -/
def clock? : List Event → Option Instant
  | ⟨.now, x⟩ :: _ => some x
  | _ => none

/-- The request that the deed submits, if it is taken in. -/
def Deed.accepted? (d : Deed) (t : List Event) : Option Submission :=
  d.submission?.bind fun r => (clock? t).map fun x => ⟨r.1, r.2, x⟩

namespace Engine

/-! ### Books -/

/-- The books of an engine are in order, with these tasks left to do. -/
structure Tracks (ts : List Task) (e : Engine) : Prop where
  handles_nodup : e.handles.Nodup
  handles_lt : ∀ id ∈ e.handles, id < e.nextId
  slot : ∀ id, id ∈ e.handles ↔ ∃ s, e.slot? id = some s
  query : ∀ id s, e.slot? id = some s → s.query.id = id
  hook : ∀ id s, e.slot? id = some s → s.cell.outcome? = none → s.cell.hook? = some id
  tracked_nodup : e.tracked.Nodup
  /-- The tracked queries are those without outcome, but for those that are about to fail. -/
  tracked : ∀ id, id ∈ e.tracked ↔
    id ∉ condemned ts ∧ ∃ s, e.slot? id = some s ∧ s.cell.outcome? = none
  doomed : ∀ id ∈ condemned ts, id ∈ e.handles
  live : ∀ id, (∃ d, e.schedule.live.get? id = some d) ↔ id ∈ e.tracked
  incoming_nodup : e.incoming.Nodup
  incoming : ∀ id ∈ e.incoming, id ∈ e.handles
  idle : ∀ id ∈ e.tracked, ∀ s, e.slot? id = some s → s.query.phase = .idle →
    id ∈ e.incoming ∨ id ∈ starting ts
  closed : ∀ id s, e.slot? id = some s → id ∉ e.tracked → id ∉ condemned ts →
    s.query.phase = .closed ∧ s.query.registered = false

/-- Nothing changes in the books. -/
structure Rests (e e' : Engine) : Prop where
  slot? : ∀ id, e'.slot? id = e.slot? id
  handles : e'.handles = e.handles
  tracked : e'.tracked = e.tracked
  live : e'.schedule.live = e.schedule.live
  incoming : e'.incoming = e.incoming
  nextId : e.nextId ≤ e'.nextId

/-- One slot changes, and its query is forgotten if it has its outcome now. -/
structure Changes (e : Engine) (id : QueryId) (s s' : Slot) (e' : Engine) : Prop where
  slot : e.slot? id = some s
  slot? : ∀ i, e'.slot? i = if i = id then some s' else e.slot? i
  handles : e'.handles = e.handles
  tracked : e'.tracked =
    if s'.cell.outcome? = none then e.tracked else e.tracked.filter (· ≠ id)
  live : ∀ i, e'.schedule.live.get? i =
    if s'.cell.outcome? ≠ none ∧ i = id then none else e.schedule.live.get? i
  incoming : e'.incoming = e.incoming
  nextId : e'.nextId = e.nextId

namespace Changes

variable {e e' : Engine} {id : QueryId} {s s' : Slot}

lemma self (h : Changes e id s s' e') : e'.slot? id = some s' := by rw [h.slot?, if_pos rfl]

lemma other (h : Changes e id s s' e') {i : QueryId} (hi : i ≠ id) :
    e'.slot? i = e.slot? i := by rw [h.slot?, if_neg hi]

lemma cases (h : Changes e id s s' e') {i : QueryId} {u : Slot} (hu : e'.slot? i = some u) :
    (i = id ∧ u = s') ∨ (i ≠ id ∧ e.slot? i = some u) := by
  by_cases hi : i = id
  · subst hi
    exact .inl ⟨rfl, (Option.some_inj.1 (h.self.symm.trans hu)).symm⟩
  · exact .inr ⟨hi, (h.other hi).symm.trans hu⟩

lemma live_of (h : Changes e id s s' e') {i : QueryId} {d : Instant}
    (hd : e'.schedule.live.get? i = some d) : e.schedule.live.get? i = some d := by
  rw [h.live] at hd
  split at hd
  · cases hd
  · exact hd

end Changes

/-- The engine with a query taken in, for which these continuations wait. -/
def enroll (e : Engine) (m : Message) (p : QueryParams) (ks : List Continuation) (now : Instant) :
    Engine :=
  (e.accept m p now).setSlot e.nextId (.fresh e.nextId m p ks)

section
variable (e : Engine) (m : Message) (p : QueryParams) (ks : List Continuation) (now : Instant)

lemma slot?_enroll (i : QueryId) : (e.enroll m p ks now).slot? i =
    if i = e.nextId then some (.fresh e.nextId m p ks) else e.slot? i := by
  rw [enroll, slot?_setSlot]
  split
  · rfl
  · next hi => exact (Table.get?_insert ..).trans (if_neg hi)

lemma slot?_enroll_self : (e.enroll m p ks now).slot? e.nextId = some (.fresh e.nextId m p ks) := by
  rw [slot?_enroll, if_pos rfl]

lemma slot?_enroll_other {i : QueryId} (hi : i ≠ e.nextId) :
    (e.enroll m p ks now).slot? i = e.slot? i := by rw [slot?_enroll, if_neg hi]

lemma live_enroll (i : QueryId) : (e.enroll m p ks now).schedule.live.get? i =
    if i = e.nextId then some (now + p.timeout) else e.schedule.live.get? i := Table.get?_insert ..

@[simp] lemma handles_enroll : (e.enroll m p ks now).handles = e.handles ++ [e.nextId] := rfl

end

/-! ### Effects -/

/-- What a deed does to the slot of a query, with its calls and the tasks it sets off. -/
inductive Effect (e : Engine) (d : Deed) (id : QueryId) (s : Slot) :
    List Event → List Task → Slot → Prop where
  | waits {k : Continuation} (hd : d = .cue (.onComplete k)) (hn : s.cell.outcome? = none) :
      Effect e d id s [] []
        { s with cell := { s.cell with continuations := s.cell.continuations ++ [k] } }
  | goesOn {a : Query.Action} {t : List Event} {q : Query} (hd : d.lets id a)
      (hn : s.cell.outcome? = none) (h : Yields (s.query.act a) t (.pending, q)) :
      Effect e d id s t [] { s with query := q }
  | ends {a : Query.Action} {t : List Event} {x : Except QueryError Message} {q : Query}
      (hd : d.lets id a) (hn : s.cell.outcome? = none)
      (h : Yields (s.query.act a) t (.done x, q)) :
      Effect e d id s t (s.cell.continuations.map (.notify · (.ofResult x)))
        (.ended (.ofResult x) q)
  | cancels {h : Nat} {t : List Event} (hd : d = .task (.request (.cancel h)))
      (hh : e.handles[h]? = some id) (hn : s.cell.outcome? = none) (ht : Quiet t) :
      Effect e d id s t
        (s.cell.continuations.map (.notify · .cancelled) ++ [.reply (.cancelled h true)])
        (.ended .cancelled (if id ∈ e.tracked then s.query.close else s.query))
  | expires {now : Instant} {t : List Event} (hd : d = .task (.expire now))
      (hp : (e.schedule.popExpired now).1 = some id) (hn : s.cell.outcome? = none) (ht : Quiet t) :
      Effect e d id s t
        (s.cell.continuations.map (.notify · (.failed .timeout)) ++ [.expire now])
        (.ended (.failed .timeout) s.query.close)
  | shutsDown {t : List Event} (hd : d = .task (.shutDown id)) (hn : s.cell.outcome? = none)
      (ht : Quiet t) :
      Effect e d id s t (s.cell.continuations.map (.notify · (.failed .shutdown)))
        (.ended (.failed .shutdown) s.query.close)
  | closes {t : List Event} (hd : d = .task (.shutDown id)) (hn : s.cell.outcome? ≠ none)
      (ht : Quiet t) : Effect e d id s t [] { s with query := s.query.close }

/-- What a deed does, with its calls, the tasks it sets off and the engine after it. -/
inductive Does (e : Engine) : Deed → List Event → List Task → Engine → Prop where
  | rests {d : Deed} {t : List Event} {new : List Task} {e' : Engine} (h : Rests e e')
      (hc : condemned new = []) (ho : cancellations t ++ owed new = owed d.tasks)
      (ha : d.accepted? t = none) (hd : condemned d.tasks = [])
      (hs : ∀ id ∈ starting d.tasks, id ∉ e.tracked) : Does e d t new e'
  | takes {t : List Event} {mine rest : List QueryId} (h : e.incoming = mine ++ rest)
      (ht : cancellations t = []) :
      Does e (.cue .incoming) t (mine.map .start) { e with incoming := rest }
  | accepts {d : Deed} {m : Message} {p : QueryParams} {ks : List Continuation} {now : Instant}
      {new : List Task} (hd : d.submission? = some (m, p))
      (hn : new = [] ∨ new = [.reply (.submitted e.handles.length)]) :
      Does e d [⟨.now, now⟩, ⟨.wake, ()⟩] new (e.enroll m p ks now)
  | condemns {o : DrainOrder} :
      Does e (.cue (.failRemaining o)) [] ((o.arrange e.tracked).map .shutDown)
      { e with tracked := [], schedule := {}, incoming := [], overflow := [] }
  | changes {d : Deed} {t : List Event} {new : List Task} {e' : Engine} {id : QueryId}
      {s s' : Slot} (h : Changes e id s s' e') (hx : Effect e d id s t new s') : Does e d t new e'

variable {e e' : Engine} {id : QueryId} {s s' : Slot} {ts new : List Task} {t : List Event}

lemma Rests.refl (e : Engine) : Rests e e :=
  ⟨fun _ => rfl, rfl, rfl, rfl, rfl, Nat.le_refl _⟩

namespace Tracks

lemma unfinished (h : Tracks ts e) :
    ∀ i ∈ e.tracked, ∃ s, e.slot? i = some s ∧ s.cell.outcome? = none :=
  fun i hi => ((h.tracked i).1 hi).2

lemma scheduled (h : Tracks ts e) : ∀ i d, e.schedule.live.get? i = some d → i ∈ e.tracked :=
  fun i d hd => (h.live i).1 ⟨d, hd⟩

lemma live_eq_none (h : Tracks ts e) (hi : id ∉ e.tracked) : e.schedule.live.get? id = none :=
  Option.eq_none_iff_forall_ne_some.2 fun d hd => hi (h.scheduled id d hd)

end Tracks

lemma changes_setSlot (hs : e.slot? id = some s) (h : s'.cell.outcome? = none) :
    Changes e id s s' (e.setSlot id s') where
  slot := hs
  slot? _ := slot?_setSlot ..
  handles := rfl
  tracked := (if_pos h).symm
  live _ := (if_neg fun hi => hi.1 h).symm
  incoming := rfl
  nextId := rfl

/-- A slot that gets or has an outcome while its query is not tracked any more. -/
lemma Tracks.changes_setSlot (h : Tracks ts e) (hs : e.slot? id = some s) (hi : id ∉ e.tracked)
    (hn : s'.cell.outcome? ≠ none) : Changes e id s s' (e.setSlot id s') where
  slot := hs
  slot? _ := slot?_setSlot ..
  handles := rfl
  tracked := by
    rw [if_neg hn, tracked_setSlot]
    refine (List.filter_eq_self.2 fun i hm => ?_).symm
    simpa using ne_of_mem_of_not_mem hm hi
  live i := by
    rw [schedule_setSlot]
    split
    · next hi' => rw [hi'.2, h.live_eq_none hi]
    · rfl
  incoming := rfl
  nextId := rfl

lemma changes_forget (hs : e.slot? id = some s) (hn : s'.cell.outcome? ≠ none) :
    Changes e id s s' ((e.forget id).setSlot id s') where
  slot := hs
  slot? _ := slot?_setSlot ..
  handles := rfl
  tracked := (if_neg hn).symm
  live i := by
    rw [schedule_setSlot, live_forget, Table.get?_erase]
    simp [hn]
  incoming := rfl
  nextId := rfl

lemma changes_overdue {now : Instant} (hs : e.slot? id = some s) (hn : s'.cell.outcome? ≠ none)
    (hp : (e.schedule.popExpired now).1 = some id) :
    Changes e id s s' ((e.overdue now id).setSlot id s') where
  slot := hs
  slot? _ := slot?_setSlot ..
  handles := rfl
  tracked := (if_neg hn).symm
  live i := by
    have hl : (e.overdue now id).schedule.live = e.schedule.live.erase id :=
      (Schedule.popExpired_some hp).2
    rw [schedule_setSlot, hl, Table.get?_erase]
    simp [hn]
  incoming := rfl
  nextId := rfl

/-! ### Inversion -/

lemma yields_submit {m : Message} {p : QueryParams} {x : Except QueryError Nat}
    (h : Yields (e.submit m p) t (x, e')) :
    (t = [] ∧ x = .error .shutdown ∧ e' = { e with nextId := e.nextId + 1 }) ∨
    ∃ now, t = [⟨.now, now⟩, ⟨.wake, ()⟩] ∧ x = .ok e.handles.length ∧ e' = e.accept m p now := by
  unfold submit at h
  split at h
  · obtain ⟨rfl, hr⟩ := yields_pure.1 h
    cases hr
    exact .inl ⟨rfl, rfl, rfl⟩
  · obtain ⟨now, u, rfl, hu⟩ := yields_perform_bind.1 h
    obtain ⟨_, v, rfl, hv⟩ := yields_perform_bind.1 hu
    obtain ⟨rfl, hr⟩ := yields_pure.1 hv
    cases hr
    exact .inr ⟨now, rfl, rfl, rfl⟩

lemma accept_eq (e : Engine) (m : Message) (p : QueryParams) (now : Instant) :
    e.accept m p now = e.enroll m p [] now := by
  unfold enroll accept setSlot
  rw [Table.insert_insert]
  rfl

/-- The continuation of a query that is submitted just now waits. -/
lemma onComplete_accept (e : Engine) (m : Message) (p : QueryParams) (now : Instant)
    (rs : List EngineRequest) :
    (e.accept m p now).onComplete ⟨e.handles.length, rs⟩ =
      ([], e.enroll m p [⟨e.handles.length, rs⟩] now) := by
  have hh : (e.accept m p now).handles[e.handles.length]? = some e.nextId :=
    List.getElem?_concat_length
  have hs : (e.accept m p now).slot? e.nextId = some (.fresh e.nextId m p []) := by
    rw [accept_eq, slot?_enroll, if_pos rfl]
  simp only [onComplete, hh, hs]
  rfl

lemma Rests.setSlot (hs : e.slot? id = some s) : Rests e (e.setSlot id s) where
  slot? i := by
    rw [slot?_setSlot]
    split
    · next hi => rw [hi, hs]
    · rfl
  handles := rfl
  tracked := rfl
  live := rfl
  incoming := rfl
  nextId := Nat.le_refl _

lemma rests_beginShutdown {b : Bool} (h : Yields e.beginShutdown t (b, e')) :
    Quiet t ∧ Rests e e' := by
  obtain ⟨-, -, rfl, rfl⟩ | ⟨-, -, rfl, rfl⟩ := yields_beginShutdown h
  · exact ⟨quiet_nil, .refl _⟩
  · exact ⟨by simp [quiet_cons, Call.purpose], ⟨fun _ => rfl, rfl, rfl, rfl, rfl, Nat.le_refl _⟩⟩

/-- A query that was let act goes on, or it gets the outcome that it told. -/
lemma does_of_conclude {d : Deed} {a : Query.Action} {r : Step × Query} (hd : d.lets id a)
    (hs : e.slot? id = some s) (hn : s.cell.outcome? = none) (h : Yields (s.query.act a) t r)
    (hr : (new, e') = e.conclude id s r) : Does e d t new e' := by
  obtain ⟨_ | x, q⟩ := r
  · cases hr
    exact .changes (changes_setSlot hs hn) (.goesOn hd hn h)
  · rw [conclude_done hn] at hr
    cases hr
    exact .changes (changes_forget hs (by simp [Slot.ended])) (.ends hd hn h)

lemma does_of_request {r : EngineRequest} (h : Tracks (.request r :: ts) e)
    (hy : Yields (e.serveRequest r) t (new, e')) : Does e (.task (.request r)) t new e' := by
  cases r with
  | submit m p rs =>
    obtain ⟨u, ⟨x, e₁⟩, v, hu, hv, rfl⟩ := yields_bind.1 hy
    obtain ⟨rfl, rfl, rfl⟩ | ⟨now, rfl, rfl, rfl⟩ := yields_submit hu
    · obtain ⟨rfl, hr⟩ := yields_pure.1 hv
      cases hr
      exact .rests ⟨fun _ => rfl, rfl, rfl, rfl, rfl, Nat.le_succ _⟩ rfl rfl rfl rfl
        (fun _ h => by cases h)
    · obtain ⟨rfl, hr⟩ := yields_pure.1 hv
      rw [onComplete_accept] at hr
      cases hr
      exact .accepts rfl (.inr rfl)
  | cancel handle =>
    obtain ⟨rfl, rfl, rfl, -⟩ | ⟨id, s, hh, hs, hn, ht, -, rfl, rfl⟩ := yields_cancel h.hook hy
    · exact .rests (.refl _) rfl rfl rfl rfl (fun _ h => by cases h)
    · exact .changes (changes_forget hs (by simp [Slot.ended])) (.cancels rfl hh hn ht)
  | pending =>
    obtain ⟨rfl, hr⟩ := yields_pure.1 hy
    cases hr
    exact .rests (.refl _) rfl rfl rfl rfl (fun _ h => by cases h)
  | shutdown =>
    obtain ⟨u, ⟨b, e₁⟩, v, hu, hv, rfl⟩ := yields_bind.1 hy
    obtain ⟨rfl, hr⟩ := yields_pure.1 hv
    obtain ⟨hq, hb⟩ := rests_beginShutdown hu
    cases hr
    refine .rests hb rfl ?_ rfl rfl (fun _ h => by cases h)
    rw [List.append_nil, hq.cancellations_eq]
    rfl

theorem does_of_perform {k : Task} (h : Tracks (k :: ts) e)
    (hy : Yields (e.perform k) t (new, e')) : Does e (.task k) t new e' := by
  cases k with
  | request r => exact does_of_request h hy
  | reply r =>
    obtain ⟨_, u, rfl, hu⟩ := yields_perform_bind.1 hy
    obtain ⟨rfl, hr⟩ := yields_pure.1 hu
    cases hr
    refine .rests (.refl _) rfl ?_ rfl rfl (fun _ h => by cases h)
    rcases r with _ | _ | ⟨_, _ | _⟩ | _ | _ <;> rfl
  | notify k o =>
    obtain ⟨_, u, rfl, hu⟩ := yields_perform_bind.1 hy
    obtain ⟨rfl, hr⟩ := yields_pure.1 hu
    cases hr
    refine .rests (.refl _) (condemned_map fun _ => rfl) ?_ rfl rfl (fun _ h => by cases h)
    rw [owed_map fun _ => rfl]
    rfl
  | start id =>
    obtain ⟨rfl, rfl, rfl, hf⟩ | ⟨s, r, hs, hn, hr, he⟩ := yields_start hy
    · refine .rests (.refl _) rfl rfl rfl rfl fun i hi ht => ?_
      obtain rfl : i = id := List.mem_singleton.1 hi
      obtain ⟨s, hs, hn⟩ := h.unfinished i ht
      exact hf s hs hn
    · exact does_of_conclude (a := .start) rfl hs hn hr he
  | dispatch token =>
    obtain ⟨rfl, rfl, rfl⟩ | ⟨s, r, -, hs, hn, hr, he⟩ := yields_dispatch h.unfinished hy
    · exact .rests (.refl _) rfl rfl rfl rfl (fun _ h => by cases h)
    · exact does_of_conclude (a := .ready) rfl hs hn hr he
  | expire now =>
    obtain ⟨hp, rfl, rfl, rfl⟩ | ⟨id, s, hp, -, hs, hn, ha, rfl, rfl⟩ :=
      yields_expire h.unfinished h.scheduled hy
    · refine .rests ⟨fun _ => rfl, rfl, rfl, ?_, rfl, Nat.le_refl _⟩ rfl rfl rfl rfl
        (fun _ h => by cases h)
      exact Schedule.popExpired_none hp
    · refine .changes (changes_overdue hs (by simp [Slot.ended]) hp) ?_
      exact .expires rfl hp hn (Query.yields_abandon ha).1
  | shutDown id =>
    have hc : id ∈ condemned (.shutDown id :: ts) := List.mem_cons_self ..
    obtain ⟨s, hs⟩ := (h.slot id).1 (h.doomed id hc)
    have hi : id ∉ e.tracked := fun hi => ((h.tracked id).1 hi).1 hc
    obtain ⟨ha, hr⟩ := yields_shutDown hs hy
    have ht := (Query.yields_abandon ha).1
    obtain ⟨hn, rfl, rfl⟩ | ⟨hn, rfl, rfl⟩ := hr
    · exact .changes (h.changes_setSlot hs hi (by simp [Slot.ended])) (.shutsDown rfl hn ht)
    · exact .changes (h.changes_setSlot hs hi hn) (.closes rfl hn ht)

lemma quiet_wakeFor {rest : List QueryId} {x : Unit} (h : Yields (wakeFor rest) t x) : Quiet t := by
  unfold wakeFor at h
  split at h
  · obtain ⟨rfl, -⟩ := yields_pure.1 h
    exact quiet_nil
  · obtain rfl := yields_perform.1 h
    simp [quiet_cons, Call.purpose]

/-- Taking tokens off the overflow queue, or leaving some there. -/
lemma does_of_share {c : Cue} {mine rest queue : List QueryId}
    (hc : (Deed.cue c).submission? = none)
    (hy : Yields (do wakeFor rest; return (mine.map Task.dispatch, { e with overflow := queue })) t
      (new, e')) : Does e (.cue c) t new e' := by
  obtain ⟨u, _, v, hu, hv, rfl⟩ := yields_bind.1 hy
  obtain ⟨rfl, hr⟩ := yields_pure.1 hv
  cases hr
  refine .rests ⟨fun _ => rfl, rfl, rfl, rfl, rfl, Nat.le_refl _⟩ (condemned_map fun _ => rfl) ?_
    (by rw [Deed.accepted?, hc]; rfl) rfl (fun _ h => by cases h)
  rw [List.append_nil, (quiet_wakeFor hu).cancellations_eq, owed_map fun _ => rfl]
  rfl

theorem does_of_cue {c : Cue} (hy : Yields (e.cue c) t (new, e')) :
    Does e (.cue c) t new e' := by
  cases c with
  | submit m p =>
    obtain ⟨u, ⟨x, e₁⟩, v, hu, hv, rfl⟩ := yields_bind.1 hy
    obtain ⟨rfl, hr⟩ := yields_pure.1 hv
    cases hr
    obtain ⟨rfl, rfl, rfl⟩ | ⟨now, rfl, rfl, rfl⟩ := yields_submit hu
    · exact .rests ⟨fun _ => rfl, rfl, rfl, rfl, rfl, Nat.le_succ _⟩ rfl rfl rfl rfl
        (fun _ h => by cases h)
    · rw [accept_eq]
      exact .accepts rfl (.inl rfl)
  | request r | start id | dispatch token | expire now =>
    obtain ⟨rfl, hr⟩ := yields_pure.1 hy
    cases hr
    exact .rests (.refl _) rfl rfl rfl rfl (fun _ h => by cases h)
  | onComplete k =>
    obtain ⟨rfl, hr⟩ := yields_pure.1 hy
    unfold onComplete at hr
    split at hr
    · cases hr
      exact .rests (.refl _) rfl rfl rfl rfl (fun _ h => by cases h)
    · next id hi =>
      split at hr
      · cases hr
        exact .rests (.refl _) rfl rfl rfl rfl (fun _ h => by cases h)
      · next s hs =>
        cases hn : s.cell.outcome? with
        | none =>
          have hc : s.cell.onComplete k =
              (none, { s.cell with continuations := s.cell.continuations ++ [k] }) := by
            simp only [Cell.onComplete, hn]
          rw [hc] at hr
          cases hr
          exact .changes (changes_setSlot hs hn) (.waits rfl hn)
        | some o =>
          simp only [Cell.onComplete, hn] at hr
          cases hr
          exact .rests (.setSlot hs) rfl rfl rfl rfl (fun _ h => by cases h)
  | overdue =>
    obtain ⟨now, u, rfl, hu⟩ := yields_perform_bind.1 hy
    obtain ⟨rfl, hr⟩ := yields_pure.1 hu
    cases hr
    exact .rests (.refl _) rfl rfl rfl rfl (fun _ h => by cases h)
  | wait =>
    obtain ⟨now, u, rfl, hu⟩ := yields_perform_bind.1 hy
    obtain ⟨rfl, hr⟩ := yields_pure.1 hu
    cases hr
    exact .rests ⟨fun _ => rfl, rfl, rfl, rfl, rfl, Nat.le_refl _⟩ rfl rfl rfl rfl
      (fun _ h => by cases h)
  | ready tokens => exact does_of_share rfl hy
  | overflow => exact does_of_share rfl hy
  | incoming =>
    obtain ⟨u, _, v, hu, hv, rfl⟩ := yields_bind.1 hy
    obtain ⟨rfl, hr⟩ := yields_pure.1 hv
    cases hr
    have hi : e.incoming = (e.takeShare e.incoming).1 ++ (e.takeShare e.incoming).2 := by
      rw [takeShare, List.splitAt_eq]
      exact (List.take_append_drop ..).symm
    refine .takes hi ?_
    rw [List.append_nil, (quiet_wakeFor hu).cancellations_eq]
  | beginShutdown =>
    obtain ⟨u, ⟨b, e₁⟩, v, hu, hv, rfl⟩ := yields_bind.1 hy
    obtain ⟨rfl, hr⟩ := yields_pure.1 hv
    obtain ⟨hq, hb⟩ := rests_beginShutdown hu
    cases hr
    refine .rests hb rfl ?_ rfl rfl (fun _ h => by cases h)
    rw [List.append_nil, hq.cancellations_eq]
    rfl
  | failRemaining o =>
    obtain ⟨rfl, hr⟩ := yields_pure.1 hy
    cases hr
    exact .condemns
  | leave =>
    obtain ⟨_, u, rfl, hu⟩ := yields_perform_bind.1 hy
    obtain ⟨rfl, hr⟩ := yields_pure.1 hu
    cases hr
    exact .rests (.refl _) rfl rfl rfl rfl (fun _ h => by cases h)

end Engine

end DnsClient
