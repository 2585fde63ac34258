import DnsClient.Proofs.Engine.Isolation
import DnsClient.Proofs.Engine.Wakefulness
import Mathlib.Data.List.Perm.Basic

/-!
How loops share the work.

A turn of a loop deals with three sources: the sockets that its wait reported, the overflow queue,
and the queue of incoming queries. It takes its share off the front of each and performs a task for
every item of it, one after the other (`Turn`). As long as continuations ask for nothing, the tasks
leave the queues alone (`Performs.keeps`), so whatever is there before a turn is either attended to
in it or still there behind it (`Shared`).
-/

namespace DnsClient

open Program

def Task.dispatch? : Task → Option QueryId
  | .dispatch id => some id
  | _ => none

/-- The tokens that are dispatched by tasks, in order. -/
def dispatching (ts : List Task) : List QueryId := ts.filterMap Task.dispatch?

/-- The task asks nothing of the engine but to attend to one query. -/
def Task.attends (k : Task) : Bool := k.dispatch?.isSome || k.start?.isSome || k.onlyTells

@[simp] lemma dispatching_append (ts us : List Task) :
    dispatching (ts ++ us) = dispatching ts ++ dispatching us := List.filterMap_append

@[simp] lemma dispatching_dispatch (ids : List QueryId) :
    dispatching (ids.map .dispatch) = ids := by
  simp [dispatching, Task.dispatch?, Function.comp_def]

@[simp] lemma dispatching_start (ids : List QueryId) : dispatching (ids.map .start) = [] := by
  simp [dispatching, Task.dispatch?]

@[simp] lemma starting_start (ids : List QueryId) : starting (ids.map .start) = ids := by
  simp [starting, Task.start?, Function.comp_def]

@[simp] lemma starting_dispatch (ids : List QueryId) : starting (ids.map .dispatch) = [] :=
  starting_map fun _ => rfl

lemma attends_dispatch (ids : List QueryId) : ∀ k ∈ ids.map Task.dispatch, k.attends := by
  simp [Task.attends, Task.dispatch?]

lemma attends_start (ids : List QueryId) : ∀ k ∈ ids.map Task.start, k.attends := by
  simp [Task.attends, Task.start?]

lemma dispatch?_of_onlyTells {k : Task} (h : k.onlyTells) : k.dispatch? = none := by
  cases k <;> simp_all [Task.onlyTells, Task.dispatch?]

lemma start?_of_onlyTells {k : Task} (h : k.onlyTells) : k.start? = none := by
  cases k <;> simp_all [Task.onlyTells, Task.start?]

namespace Engine

variable {c : Config} {e e' e₁ e₂ : Engine} {id : QueryId} {s : Slot} {k : Task}
  {ts new ks : List Task} {t u : List Event} {queue tokens : List QueryId} {n : Nat}

/-! ### Tasks that leave the queues alone -/

/-- The engine differs in its slots, in what is tracked and in the schedule only, and continuations
still ask for nothing. -/
structure Keeps (e e' : Engine) : Prop where
  silent : e'.Silent
  rest : e' = { e with slots := e'.slots, tracked := e'.tracked, schedule := e'.schedule }

namespace Keeps

lemma refl (h : e.Silent) : Keeps e e := ⟨h, rfl⟩

lemma trans (h : Keeps e e₁) (h' : Keeps e₁ e') : Keeps e e' :=
  ⟨h'.silent, by rw [h'.rest, h.rest]⟩

lemma workers (h : Keeps e e') : e'.workers = e.workers := by rw [h.rest]
lemma incoming (h : Keeps e e') : e'.incoming = e.incoming := by rw [h.rest]
lemma overflow (h : Keeps e e') : e'.overflow = e.overflow := by rw [h.rest]

lemma forget (h : Keeps e e') (id : QueryId) : Keeps e (e'.forget id) :=
  ⟨h.silent, by rw [Engine.forget, h.rest]⟩

/-- A query may change as long as its continuations stay the same. -/
lemma setSlot (h : Keeps e e') (hs : e'.slot? id = some s) (q : Query) :
    Keeps e (e'.setSlot id { s with query := q }) where
  silent i r hr := by
    rw [slot?_setSlot] at hr
    split at hr
    · cases hr
      exact h.silent id s hs
    · exact h.silent i r hr
  rest := by rw [Engine.setSlot, h.rest]

lemma setSlot_ended (h : Keeps e e') (o : Outcome) (q : Query) :
    Keeps e (e'.setSlot id (.ended o q)) :=
  ⟨h.silent.setSlot_ended, by rw [Engine.setSlot, h.rest]⟩

lemma conclude {r : Step × Query} (h : e.Silent) (hs : e.slot? id = some s)
    (hn : s.cell.outcome? = none) (hr : (new, e') = e.conclude id s r) : Keeps e e' := by
  obtain ⟨_ | x, q⟩ := r
  · cases hr
    exact (refl h).setSlot hs q
  · rw [conclude_done hn] at hr
    cases hr
    exact ((refl h).forget id).setSlot_ended _ _

lemma abandon (h : e.Silent) (hy : Yields (e.abandon id) t e') : Keeps e e' := by
  cases hs : e.slot? id with
  | none =>
    rw [Engine.abandon, hs] at hy
    obtain ⟨-, rfl⟩ := yields_pure.1 hy
    exact refl h
  | some s =>
    obtain ⟨-, rfl⟩ := yields_abandon hs hy
    exact (refl h).setSlot hs _

end Keeps

lemma keeps_dispatch (h : e.Silent) (hy : Yields (e.dispatch id) t (new, e')) :
    Keeps e e' ∧ ∀ j ∈ new, j.onlyTells := by
  unfold dispatch at hy
  split at hy
  · split at hy
    · cases (yields_pure.1 hy).2
      exact ⟨.refl h, by simp⟩
    · next s hs =>
      split at hy
      · obtain ⟨u, e₁, v, ha, hr, rfl⟩ := yields_bind.1 hy
        cases (yields_pure.1 hr).2
        exact ⟨(Keeps.abandon h ha).forget id, by simp⟩
      · next hf =>
        obtain ⟨u, r, v, -, hr, rfl⟩ := yields_bind.1 hy
        have hn : s.cell.outcome? = none := by simpa [Cell.isFinished] using hf
        have he := (yields_pure.1 hr).2
        exact ⟨.conclude h hs hn he, onlyTells_conclude h hs hn he⟩
  · cases (yields_pure.1 hy).2
    exact ⟨.refl h, by simp⟩

lemma keeps_start (h : e.Silent) (hy : Yields (e.start id) t (new, e')) :
    Keeps e e' ∧ ∀ j ∈ new, j.onlyTells := by
  obtain ⟨-, rfl, rfl, -⟩ | ⟨s, r, hs, hn, -, hr⟩ := yields_start hy
  · exact ⟨.refl h, by simp⟩
  · exact ⟨.conclude h hs hn hr, onlyTells_conclude h hs hn hr⟩

lemma keeps_perform (hk : k.attends) (h : e.Silent) (hy : Yields (e.perform k) t (new, e')) :
    Keeps e e' ∧ ∀ j ∈ new, j.onlyTells := by
  cases k with
  | dispatch id => exact keeps_dispatch h hy
  | start id => exact keeps_start h hy
  | notify c o =>
    have hc : c.requests = [] := by
      simpa [Task.attends, Task.onlyTells, Task.dispatch?, Task.start?] using hk
    obtain ⟨_, _, -, hu⟩ := yields_perform_bind.1 hy
    cases (yields_pure.1 hu).2
    exact ⟨.refl h, by simp [hc]⟩
  | reply x =>
    obtain ⟨_, _, -, hu⟩ := yields_perform_bind.1 hy
    cases (yields_pure.1 hu).2
    exact ⟨.refl h, by simp⟩
  | _ => cases hk

/-! ### Agendas -/

/-- An agenda is performed with these calls: `ks` are all the tasks in the order they came up. -/
inductive Performs : List Task → Engine → List Event → List Task → Engine → Prop where
  | nil (e : Engine) : Performs [] e [] [] e
  | cons {k : Task} {ts new ks : List Task} {e e₁ e' : Engine} {t u : List Event}
      (hk : Yields (e.perform k) t (new, e₁)) (h : Performs (new ++ ts) e₁ u ks e') :
      Performs (k :: ts) e (t ++ u) (k :: ks) e'

theorem yields_settle_iff : Yields (e.settle ts) t e' ↔ ∃ ks, Performs ts e t ks e' := by
  constructor
  · refine settle_induction (P := fun ts e t => ∃ ks, Performs ts e t ks e') ⟨[], .nil e'⟩ ?_
    rintro k ts e t new e₁ u hk ⟨ks, h⟩
    exact ⟨k :: ks, .cons hk h⟩
  · rintro ⟨ks, h⟩
    induction h with
    | nil e =>
      rw [settle_nil]
      exact .pure e
    | @cons k ts new ks e e₁ e' t u hk _ ih =>
      rw [settle_cons]
      exact yields_bind.2 ⟨t, (new, e₁), u, hk, ih, rfl⟩

/-- The queues stay as they are, and nothing comes up besides the agenda but to tell something. -/
lemma Performs.keeps (h : Performs ts e t ks e') (hs : e.Silent) (ha : ∀ k ∈ ts, k.attends) :
    Keeps e e' ∧ ∀ f : Task → Option QueryId, (∀ k, k.onlyTells → f k = none) →
      ks.filterMap f = ts.filterMap f := by
  induction h with
  | nil e => exact ⟨.refl hs, fun _ _ => rfl⟩
  | @cons k ts new ks e e₁ e' t u hk _ ih =>
    obtain ⟨hk', hts⟩ := List.forall_mem_cons.1 ha
    obtain ⟨hq, hn⟩ := keeps_perform hk' hs hk
    have hnew : ∀ j ∈ new, j.attends := fun j hj => by simp [Task.attends, hn j hj]
    obtain ⟨hq', hks⟩ := ih hq.silent (List.forall_mem_append.2 ⟨hnew, hts⟩)
    refine ⟨hq.trans hq', fun f hf => ?_⟩
    have hnil : new.filterMap f = [] := List.filterMap_eq_nil_iff.2 fun j hj => hf j (hn j hj)
    have hrest : ks.filterMap f = ts.filterMap f := by
      rw [hks f hf, List.filterMap_append, hnil, List.nil_append]
    rw [List.filterMap_cons, List.filterMap_cons, hrest]

lemma Performs.dispatching_eq (h : Performs ts e t ks e') (hs : e.Silent)
    (ha : ∀ k ∈ ts, k.attends) : dispatching ks = dispatching ts :=
  (h.keeps hs ha).2 Task.dispatch? fun _ => dispatch?_of_onlyTells

lemma Performs.starting_eq (h : Performs ts e t ks e') (hs : e.Silent)
    (ha : ∀ k ∈ ts, k.attends) : starting ks = starting ts :=
  (h.keeps hs ha).2 Task.start? fun _ => start?_of_onlyTells

/-- The cue is followed with these calls: `ks` are all the tasks that are performed for it. -/
inductive Heeds (q : Cue) (e : Engine) : List Event → List Task → Engine → Prop where
  | mk {ts ks : List Task} {e₁ e' : Engine} {t u : List Event} (hq : Yields (e.cue q) t (ts, e₁))
      (h : Performs ts e₁ u ks e') : Heeds q e (t ++ u) ks e'

lemma yields_follow_iff {q : Cue} : Yields (e.follow q) t e' ↔ ∃ ks, Heeds q e t ks e' := by
  constructor
  · intro hy
    obtain ⟨u, ⟨ts, e₁⟩, v, hq, hs, rfl⟩ := yields_bind.1 hy
    obtain ⟨ks, h⟩ := yields_settle_iff.1 hs
    exact ⟨ks, hq, h⟩
  · rintro ⟨ks, hq, h⟩
    exact yields_bind.2 ⟨_, _, _, hq, yields_settle_iff.2 ⟨ks, h⟩, rfl⟩

/-! ### Shares -/

lemma workers_pos (hw : e.workers = (c.setWorkers n).workers) : 0 < e.workers := by
  have h : workersLimit.least ≤ workersLimit.clamp n := Nat.le_max_left ..
  rw [hw]
  exact h

lemma share_le (hw : 0 < e.workers) (n : Nat) : e.share n ≤ n := by
  have h : n ≤ n * e.workers := Nat.le_mul_of_pos_right n hw
  have hs : (n + 1) * e.workers = n * e.workers + e.workers := Nat.succ_mul ..
  have hl : n + e.workers - 1 < (n + 1) * e.workers := by omega
  exact Nat.le_of_lt_succ ((Nat.div_lt_iff_lt_mul hw).2 hl)

lemma share_pos (hw : 0 < e.workers) (hn : 0 < n) : 0 < e.share n := by
  have h : e.workers ≤ n + e.workers - 1 := by omega
  exact Nat.div_pos h hw

lemma takeShare_append (e : Engine) (queue : List QueryId) :
    (e.takeShare queue).1 ++ (e.takeShare queue).2 = queue := by
  simp [takeShare]

lemma takeShare_ne_nil (hw : 0 < e.workers) (hq : queue ≠ []) : (e.takeShare queue).1 ≠ [] := by
  have hs : 0 < e.share queue.length := share_pos hw (List.length_pos_iff.2 hq)
  simp [takeShare, hq, Nat.ne_of_gt hs]

lemma length_takeShare_lt (hw : 0 < e.workers) (hq : queue ≠ []) :
    (e.takeShare queue).2.length < queue.length := by
  have h := congrArg List.length (takeShare_append e queue)
  have h' := List.length_pos_iff.2 (takeShare_ne_nil hw hq)
  rw [List.length_append] at h
  omega

/-- What loops take off a queue in some rounds, one after the other, and what is left of it. -/
def shares (e : Engine) : Nat → List QueryId → List (List QueryId) × List QueryId
  | 0, queue => ([], queue)
  | n + 1, queue =>
    let (mine, rest) := e.takeShare queue
    let (others, rest) := e.shares n rest
    (mine :: others, rest)

/-- Rounds of shares take a queue apart in its order, and there is nothing left in the end. -/
structure Drains (e : Engine) (queue : List QueryId) : Prop where
  once : ∀ n, (e.shares n queue).1.flatten ++ (e.shares n queue).2 = queue
  empties : ∀ n, queue.length ≤ n → (e.shares n queue).2 = []

lemma shares_append (e : Engine) (n : Nat) (queue : List QueryId) :
    (e.shares n queue).1.flatten ++ (e.shares n queue).2 = queue := by
  induction n generalizing queue with
  | zero => rfl
  | succ n ih =>
    calc (e.shares (n + 1) queue).1.flatten ++ (e.shares (n + 1) queue).2
        = (e.takeShare queue).1 ++ ((e.shares n (e.takeShare queue).2).1.flatten ++
            (e.shares n (e.takeShare queue).2).2) := by
          rw [← List.append_assoc, ← List.flatten_cons]
          rfl
      _ = (e.takeShare queue).1 ++ (e.takeShare queue).2 := by rw [ih]
      _ = queue := takeShare_append e queue

lemma shares_empties (hw : 0 < e.workers) (h : queue.length ≤ n) : (e.shares n queue).2 = [] := by
  induction n generalizing queue with
  | zero => exact List.length_eq_zero_iff.1 (Nat.le_zero.1 h)
  | succ n ih =>
    have hr : (e.takeShare queue).2.length ≤ n := by
      rcases eq_or_ne queue [] with rfl | hq
      · simp [takeShare]
      · have := length_takeShare_lt hw hq
        omega
    exact ih hr

/-! ### Turns -/

/-- A turn of a loop whose wait reported the tokens: `ks₁`, `ks₂` and `ks₃` are all the tasks that
are performed for the tokens themselves, for the overflow queue and for incoming queries. -/
inductive Turn (tokens : List QueryId) (e : Engine) :
    List Event → List Task → List Task → List Task → Engine → Prop where
  | mk (e₁ e₂ : Engine) {e' : Engine} {ks₁ ks₂ ks₃ : List Task} {t₁ t₂ t₃ : List Event}
      (h₁ : Heeds (.ready tokens) e t₁ ks₁ e₁) (h₂ : Heeds .overflow e₁ t₂ ks₂ e₂)
      (h₃ : Heeds .incoming e₂ t₃ ks₃ e') : Turn tokens e (t₁ ++ (t₂ ++ t₃)) ks₁ ks₂ ks₃ e'

lemma yields_serve_iff :
    Yields (e.serve tokens) t e' ↔ ∃ ks₁ ks₂ ks₃, Turn tokens e t ks₁ ks₂ ks₃ e' := by
  rw [serve_eq]
  constructor
  · intro hy
    obtain ⟨t₁, e₁, _, h₁, hy₁, rfl⟩ := yields_bind.1 hy
    obtain ⟨t₂, e₂, _, h₂, hy₂, rfl⟩ := yields_bind.1 hy₁
    rw [follows_singleton] at hy₂
    obtain ⟨ks₁, h₁⟩ := yields_follow_iff.1 h₁
    obtain ⟨ks₂, h₂⟩ := yields_follow_iff.1 h₂
    obtain ⟨ks₃, h₃⟩ := yields_follow_iff.1 hy₂
    exact ⟨ks₁, ks₂, ks₃, e₁, e₂, h₁, h₂, h₃⟩
  · rintro ⟨ks₁, ks₂, ks₃, e₁, e₂, h₁, h₂, h₃⟩
    refine yields_bind.2 ⟨_, _, _, yields_follow_iff.2 ⟨_, h₁⟩, ?_, rfl⟩
    refine yields_bind.2 ⟨_, _, _, yields_follow_iff.2 ⟨_, h₂⟩, ?_, rfl⟩
    rw [follows_singleton]
    exact yields_follow_iff.2 ⟨_, h₃⟩

lemma Heeds.ready (h : Heeds (.ready tokens) e t ks e') (hs : e.Silent) :
    Keeps { e with
      overflow := e.overflow ++ (e.takeShare (tokens.filter (· ≠ wakeToken))).2 } e' ∧
    dispatching ks = (e.takeShare (tokens.filter (· ≠ wakeToken))).1 ∧ starting ks = [] := by
  obtain ⟨hq, h⟩ := h
  obtain ⟨hr, -⟩ := yields_wakeFor hq
  cases hr
  have ha := attends_dispatch (e.takeShare (tokens.filter (· ≠ wakeToken))).1
  exact ⟨(h.keeps hs ha).1, (h.dispatching_eq hs ha).trans (dispatching_dispatch _),
    (h.starting_eq hs ha).trans (starting_dispatch _)⟩

lemma Heeds.overflow (h : Heeds .overflow e t ks e') (hs : e.Silent) :
    Keeps { e with overflow := (e.takeShare e.overflow).2 } e' ∧
    dispatching ks = (e.takeShare e.overflow).1 ∧ starting ks = [] := by
  obtain ⟨hq, h⟩ := h
  obtain ⟨hr, -⟩ := yields_wakeFor hq
  cases hr
  have ha := attends_dispatch (e.takeShare e.overflow).1
  exact ⟨(h.keeps hs ha).1, (h.dispatching_eq hs ha).trans (dispatching_dispatch _),
    (h.starting_eq hs ha).trans (starting_dispatch _)⟩

lemma Heeds.incoming (h : Heeds .incoming e t ks e') (hs : e.Silent) :
    Keeps { e with incoming := (e.takeShare e.incoming).2 } e' ∧
    dispatching ks = [] ∧ starting ks = (e.takeShare e.incoming).1 := by
  obtain ⟨hq, h⟩ := h
  obtain ⟨hr, -⟩ := yields_wakeFor hq
  cases hr
  have ha := attends_start (e.takeShare e.incoming).1
  exact ⟨(h.keeps hs ha).1, (h.dispatching_eq hs ha).trans (dispatching_start _),
    (h.starting_eq hs ha).trans (starting_start _)⟩

/-- What a turn makes of the tokens of ready sockets and of the queues. -/
structure Shared (ready : List QueryId) (e : Engine) (ks₁ ks₂ ks₃ : List Task) (e' : Engine) :
    Prop where
  /-- No token gets lost, and none is dispatched twice. -/
  complete : (dispatching (ks₁ ++ ks₂ ++ ks₃) ++ e'.overflow).Perm (ready ++ e.overflow)
  /-- The loop keeps the first tokens for itself. -/
  own : dispatching ks₁ <+: ready
  /-- The others come last in the overflow queue, which is served first in, first out. -/
  overflow : dispatching ks₂ ++ e'.overflow = e.overflow ++ ready.drop (dispatching ks₁).length
  /-- Queries are started in the order of submission. -/
  incoming : starting (ks₁ ++ ks₂ ++ ks₃) ++ e'.incoming = e.incoming
  apart : starting (ks₁ ++ ks₂) = [] ∧ dispatching ks₃ = []
  own_ne_nil : ready ≠ [] → dispatching ks₁ ≠ []
  overflow_ne_nil : e.overflow ++ ready.drop (dispatching ks₁).length ≠ [] → dispatching ks₂ ≠ []
  incoming_ne_nil : e.incoming ≠ [] → starting ks₃ ≠ []

lemma Turn.shared {ks₁ ks₂ ks₃ : List Task} (h : Turn tokens e t ks₁ ks₂ ks₃ e')
    (hw : 0 < e.workers) (hs : e.Silent) :
    Shared (tokens.filter (· ≠ wakeToken)) e ks₁ ks₂ ks₃ e' := by
  obtain ⟨e₁, e₂, h₁, h₂, h₃⟩ := h
  obtain ⟨hk₁, hd₁, hs₁⟩ := h₁.ready hs
  obtain ⟨hk₂, hd₂, hs₂⟩ := h₂.overflow hk₁.silent
  obtain ⟨hk₃, hd₃, hs₃⟩ := h₃.incoming hk₂.silent
  generalize tokens.filter (· ≠ wakeToken) = ready at *
  -- each source is what was taken off it and what is left, and the rest of the ready tokens is part
  -- of the overflow queue by the time that its share is taken
  have hq₁ : dispatching ks₁ ++ (e.takeShare ready).2 = ready := hd₁ ▸ takeShare_append e ready
  have hr : ready.drop (dispatching ks₁).length = (e.takeShare ready).2 := by
    conv_lhs => rw [← hq₁, List.drop_left]
  have ho₁ : e₁.overflow = e.overflow ++ (e.takeShare ready).2 := hk₁.overflow
  have ho : e'.overflow = (e₁.takeShare e₁.overflow).2 := hk₃.overflow.trans hk₂.overflow
  have hi₂ : e₂.incoming = e.incoming := hk₂.incoming.trans hk₁.incoming
  have hi : e'.incoming = (e₂.takeShare e.incoming).2 := hi₂ ▸ hk₃.incoming
  have hw₁ : 0 < e₁.workers := hk₁.workers ▸ hw
  have hw₂ : 0 < e₂.workers := hk₂.workers ▸ hw₁
  rw [hi₂] at hs₃
  have hq₂ : dispatching ks₂ ++ e'.overflow = e.overflow ++ (e.takeShare ready).2 := by
    rw [hd₂, ho, takeShare_append, ho₁]
  refine ⟨?_, ⟨_, hq₁⟩, by rw [hq₂, hr], ?_, by simp [hs₁, hs₂, hd₃], ?_, ?_, ?_⟩
  · calc dispatching (ks₁ ++ ks₂ ++ ks₃) ++ e'.overflow
        = dispatching ks₁ ++ (e.overflow ++ (e.takeShare ready).2) := by simp [hd₃, hq₂]
      List.Perm _ (dispatching ks₁ ++ ((e.takeShare ready).2 ++ e.overflow)) :=
        List.perm_append_comm.append_left _
      _ = ready ++ e.overflow := by rw [← List.append_assoc, hq₁]
  · calc starting (ks₁ ++ ks₂ ++ ks₃) ++ e'.incoming
        = (e₂.takeShare e.incoming).1 ++ (e₂.takeShare e.incoming).2 := by
          simp [hs₁, hs₂, hs₃, hi]
      _ = e.incoming := takeShare_append e₂ e.incoming
  · rw [hd₁]
    exact takeShare_ne_nil hw
  · rw [hr, ← ho₁, hd₂]
    exact takeShare_ne_nil hw₁
  · rw [hs₃]
    exact takeShare_ne_nil hw₂

/-- Loops share the work of an engine among them. -/
structure SharesWork (e : Engine) : Prop where
  workers : 0 < e.workers
  /-- A share is part of what there is, and there is something in it if there is anything. -/
  share : ∀ n, e.share n ≤ n ∧ (0 < n → 0 < e.share n)
  turn : ∀ tokens t e',
    Yields (e.serve tokens) t e' ↔ ∃ ks₁ ks₂ ks₃, Turn tokens e t ks₁ ks₂ ks₃ e'
  shared : ∀ {tokens t ks₁ ks₂ ks₃ e'}, Turn tokens e t ks₁ ks₂ ks₃ e' →
    Shared (tokens.filter (· ≠ wakeToken)) e ks₁ ks₂ ks₃ e'
  drains : ∀ queue, Drains e queue

/-- **Work sharing**: whatever number of loops is asked for, and whatever is in the queues, a turn
of a loop attends to a share of each source and leaves the rest there, so nothing gets lost or is
done twice. -/
theorem work_shared (hw : e.workers = (c.setWorkers n).workers) (hs : e.Silent) :
    e.SharesWork where
  workers := workers_pos hw
  share n := ⟨share_le (workers_pos hw) n, share_pos (workers_pos hw)⟩
  turn _ _ _ := yields_serve_iff
  shared h := h.shared (workers_pos hw) hs
  drains queue := ⟨fun n => shares_append e n queue, fun _ => shares_empties (workers_pos hw)⟩

/-- Two loops, of which one has come to its wait and is told of three sockets. It attends to the
first two of them, to two of the three tokens in the overflow queue then, and to one query of two,
which fails to connect. -/
theorem work_shared_two_loops : ∃ (c : Config) (e : Engine) (t : List Event) (e' : Engine),
    e.workers = (c.setWorkers 2).workers ∧ e.Silent ∧ e.overflow = [7, 8] ∧ e.incoming = [0, 1] ∧
    Yields (e.serve [9, wakeToken, 10, 11]) t e' ∧ e'.overflow = [11] ∧ e'.incoming = [1] ∧
    e.SharesWork := by
  have shared {e e' : Engine} {t : List Event}
      (hw : e.workers = (({} : Config).setWorkers 2).workers) (hs : e.Silent)
      (hy : Yields (e.serve [9, wakeToken, 10, 11]) t e') :
      e.workers = (({} : Config).setWorkers 2).workers ∧ e.Silent ∧
        Yields (e.serve [9, wakeToken, 10, 11]) t e' ∧ e.SharesWork :=
    ⟨hw, hs, hy, work_shared hw hs⟩
  obtain ⟨hw, hs, hy, h⟩ := shared
    (e := { ((ofConfig { workers := 2 }).accept .blank
        { server := ⟨.localhost, 53⟩, mode := .tcpOnly } 5).accept .blank
        { server := ⟨.localhost, 53⟩, mode := .tcpOnly } 6 with overflow := [7, 8] })
    (t := [⟨.wake, ()⟩, ⟨.wake, ()⟩, ⟨.wake, ()⟩,
      ⟨.connectTcp ⟨.localhost, 53⟩, .error ⟨.addrNotAvailable, ""⟩⟩])
    (by decide) (silent_of_slots (List.forall_mem_cons.2 ⟨rfl, List.forall_mem_singleton.2 rfl⟩))
    (.call _ (.call _ (.call _ (.call _ (.pure _)))))
  exact ⟨{}, _, _, _, hw, hs, rfl, rfl, hy, rfl, rfl, h⟩

end Engine

end DnsClient
