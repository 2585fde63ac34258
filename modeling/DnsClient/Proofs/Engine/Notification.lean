import DnsClient.Proofs.Engine.Deadlines
import DnsClient.Proofs.Engine.Lives

/-!
Continuations run when their query is gone.

A query with an outcome is untracked and closed, unless it is still to fail because of a shutdown.
While continuations ask nothing of the engine, none is told of such a query: what is left to do
after a shutdown is to fail queries and to tell their continuations (`Unhindered`). What the network
holds for a query is read off the calls made for it, from its submission up to its end
(`Course.held`).
-/

namespace DnsClient

open Program

/-- A task that is left to do after a shutdown while continuations ask nothing. -/
def Task.isSweep : Task → Bool
  | .shutDown _ | .notify .. => true
  | _ => false

/-- If the deed runs a continuation, this asks nothing of the engine. -/
def Deed.isMute : Deed → Bool
  | .task (.notify k _) => k.requests = []
  | _ => true

namespace Engine

variable {c : Config} {e e' : Engine} {id : QueryId} {s s' : Slot} {ts new : List Task}
  {t : List Event} {d : Deed} {ms : List Moment} {k : Task} {cont : Continuation} {o : Outcome}

/-! ### Whom continuations wait for -/

/-- A continuation waits for the query whose handle it was registered with. -/
def Addressed (e : Engine) : Prop :=
  ∀ id s, e.slot? id = some s → ∀ k ∈ s.cell.continuations, e.handles[k.handle]? = some id

lemma Addressed.enroll (h : Addressed e) (m : Message) (p : QueryParams) {ks : List Continuation}
    (hk : ∀ k ∈ ks, k.handle = e.handles.length) (now : Instant) :
    Addressed (e.enroll m p ks now) := by
  intro i s hs k hm
  rw [handles_enroll]
  rw [slot?_enroll] at hs
  split at hs
  · next hi =>
    cases hs
    rw [hk k hm, List.getElem?_concat_length, hi]
  · have hi := h i s hs k hm
    obtain ⟨hlt, -⟩ := List.getElem?_eq_some_iff.1 hi
    rw [List.getElem?_append_left hlt, hi]

lemma Addressed.setSlot (h : Addressed e) (hk : ∀ k ∈ s'.cell.continuations,
    e.handles[k.handle]? = some id) : Addressed (e.setSlot id s') := by
  intro i r hr k hm
  rw [slot?_setSlot] at hr
  split at hr
  · next hi =>
    cases hr
    rw [hi]
    exact hk k hm
  · exact h i r hr k hm

lemma Effect.continuations (hx : Effect e d id s t new s') (hd : ∀ k, d ≠ .cue (.onComplete k)) :
    ∀ k ∈ s'.cell.continuations, k ∈ s.cell.continuations := by
  cases hx with
  | waits hw _ => exact absurd hw (hd _)
  | goesOn | closes => exact fun k hk => hk
  | ends | cancels | expires | shutsDown => exact fun k hk => by cases hk

lemma Addressed.does (h : Addressed e) (hd : Does e d t new e') (hs : d.submission? = none)
    (hk : ∀ k, d ≠ .cue (.onComplete k)) : Addressed e' := by
  cases hd with
  | rests hr _ _ _ _ _ =>
    intro i s hs
    rw [hr.slot?] at hs
    rw [hr.handles]
    exact h i s hs
  | takes _ _ | condemns => exact h
  | accepts hd _ => cases hs.symm.trans hd
  | changes hc hx =>
    intro i r hr k hm
    rw [hc.handles]
    rcases hc.cases hr with ⟨rfl, rfl⟩ | ⟨-, hr⟩
    · exact h i _ hc.slot k (hx.continuations hk k hm)
    · exact h i r hr k hm

lemma Addressed.cue {q : Cue} (h : Addressed e) (hy : Yields (e.cue q) t (new, e')) :
    Addressed e' := by
  cases q with
  | submit m p =>
    obtain ⟨u, ⟨x, e₁⟩, v, hu, hv, rfl⟩ := yields_bind.1 hy
    obtain ⟨rfl, hr⟩ := yields_pure.1 hv
    cases hr
    obtain ⟨rfl, rfl, rfl⟩ | ⟨now, rfl, rfl, rfl⟩ := yields_submit hu
    · exact h
    · rw [accept_eq]
      exact h.enroll m p (fun k hk => by cases hk) now
  | onComplete k =>
    have hr := (yields_pure.1 hy).2
    unfold onComplete at hr
    split at hr
    · cases hr
      exact h
    · next id hi =>
      split at hr
      · cases hr
        exact h
      · next s hs =>
        cases hr
        refine h.setSlot fun k' hk' => ?_
        cases ho : s.cell.outcome? with
        | some o =>
          simp only [ho] at hk'
          exact h id s hs k' hk'
        | none =>
          simp only [ho, List.mem_append, List.mem_singleton] at hk'
          rcases hk' with hk' | rfl
          · exact h id s hs k' hk'
          · exact hi
  | _ => exact h.does (does_of_cue hy) rfl fun k hk => by cases hk

lemma Addressed.perform (h : Addressed e) (ht : Tracks (k :: ts) e)
    (hy : Yields (e.perform k) t (new, e')) : Addressed e' := by
  rcases k with ⟨⟨m, p, rs⟩ | _ | _ | _⟩ | _ | _ | _ | _ | _ | _
  case request.submit =>
    obtain ⟨u, ⟨x, e₁⟩, v, hu, hv, rfl⟩ := yields_bind.1 hy
    obtain ⟨rfl, rfl, rfl⟩ | ⟨now, rfl, rfl, rfl⟩ := yields_submit hu
    · cases (yields_pure.1 hv).2
      exact h
    · have hr := (yields_pure.1 hv).2
      rw [onComplete_accept] at hr
      cases hr
      exact h.enroll m p (fun k hk => by rw [List.mem_singleton.1 hk]) now
  all_goals exact h.does (does_of_perform ht hy) rfl fun k hk => by cases hk

/-! ### What continuations are told -/

/-- The continuation is told of an outcome that its query has, and the query is not to fail. -/
def Tells (ts : List Task) (e : Engine) (k : Continuation) (o : Outcome) : Prop :=
  ∃ id s, e.handles[k.handle]? = some id ∧ e.slot? id = some s ∧ s.cell.outcome? = some o ∧
    id ∉ condemned ts

/-- What is told stays so, as long as no other query is to fail. -/
lemma Tells.does {us : List Task} (h : Tells ts e cont o) (ht : Tracks (d.tasks ++ us) e)
    (hd : Does e d t new e') (hc : ∀ id ∈ condemned (new ++ us), id ∈ condemned ts) :
    Tells (new ++ us) e' cont o := by
  obtain ⟨id, s, hi, hs, ho, hn⟩ := h
  obtain ⟨is, his⟩ := hd.handles
  obtain ⟨hlt, -⟩ := List.getElem?_eq_some_iff.1 hi
  have hi' : e'.handles[cont.handle]? = some id := by rw [← his, List.getElem?_append_left hlt, hi]
  have ho' := hd.lasts ht ((outcome?_of_handle hi hs).trans ho)
  cases hs' : e'.slot? id with
  | none => simp [outcome?, hi', hs'] at ho'
  | some s' =>
    rw [outcome?_of_handle hi' hs'] at ho'
    exact ⟨id, s', hi', hs', ho', fun hm => hn (hc id hm)⟩

/-- When a cue has a continuation told, it is because it was registered with a query that has an
outcome. -/
lemma notify_mem_cue {q : Cue} (hy : Yields (e.cue q) t (new, e')) (hm : .notify cont o ∈ new) :
    condemned new = [] ∧ ∃ id s, e'.handles[cont.handle]? = some id ∧ e'.slot? id = some s ∧
      s.cell.outcome? = some o := by
  cases q with
  | onComplete k =>
    have hr := (yields_pure.1 hy).2
    unfold onComplete at hr
    split at hr
    · cases hr
      cases hm
    · next id hi =>
      split at hr
      · cases hr
        cases hm
      · next s hs =>
        cases ho : s.cell.outcome? with
        | none =>
          simp only [Cell.onComplete, ho] at hr
          cases hr
          cases hm
        | some o' =>
          simp only [Cell.onComplete, ho] at hr
          cases hr
          obtain ⟨rfl, rfl⟩ : cont = k ∧ o = o' := by simpa using hm
          exact ⟨rfl, id, s, hi, by rw [slot?_setSlot, if_pos rfl], ho⟩
  | submit | beginShutdown =>
    obtain ⟨_, _, _, -, hv, -⟩ := yields_bind.1 hy
    cases (yields_pure.1 hv).2
    cases hm
  | request | start | dispatch | expire | failRemaining =>
    cases (yields_pure.1 hy).2
    simp at hm
  | overdue | wait | leave =>
    obtain ⟨_, _, -, hu⟩ := yields_perform_bind.1 hy
    cases (yields_pure.1 hu).2
    simp at hm
  | ready | overflow | incoming =>
    obtain ⟨_, _, _, -, hv, -⟩ := yields_bind.1 hy
    cases (yields_pure.1 hv).2
    simp at hm

/-- The query ends with the outcome, and the continuation waited for it. -/
def Releases (e : Engine) (cont : Continuation) (o : Outcome) (e' : Engine) (id : QueryId) : Prop :=
  ∃ s q, e.slot? id = some s ∧ cont ∈ s.cell.continuations ∧ e'.slot? id = some (.ended o q)

lemma releases_setSlot {e₁ : Engine} {o' : Outcome} {q : Query} (hs : e.slot? id = some s)
    (hm : Task.notify cont o ∈ s.cell.continuations.map (.notify · o')) :
    Releases e cont o (e₁.setSlot id (.ended o' q)) id := by
  obtain ⟨k, hk, hko⟩ := List.mem_map.1 hm
  cases hko
  exact ⟨s, q, hs, hk, by rw [slot?_setSlot, if_pos rfl]⟩

lemma releases_conclude {r : Step × Query} (hs : e.slot? id = some s)
    (hn : s.cell.outcome? = none) (hr : (new, e') = e.conclude id s r)
    (hm : .notify cont o ∈ new) : Releases e cont o e' id := by
  obtain ⟨_ | x, q⟩ := r
  · cases hr
    cases hm
  · rw [conclude_done hn] at hr
    cases hr
    exact releases_setSlot hs hm

/-- When a task has a continuation told, it ends the query that this waited for. -/
lemma notify_mem_perform (ht : Tracks (k :: ts) e) (hy : Yields (e.perform k) t (new, e'))
    (hm : .notify cont o ∈ new) :
    ∃ id, Releases e cont o e' id ∧ (k.isSweep → k = .shutDown id) := by
  cases k with
  | request r =>
    cases r with
    | submit m p rs =>
      obtain ⟨u, ⟨x, e₁⟩, v, hu, hv, rfl⟩ := yields_bind.1 hy
      obtain ⟨rfl, rfl, rfl⟩ | ⟨now, rfl, rfl, rfl⟩ := yields_submit hu
      · cases (yields_pure.1 hv).2
        simp at hm
      · have hr := (yields_pure.1 hv).2
        rw [onComplete_accept] at hr
        cases hr
        simp at hm
    | cancel h =>
      obtain ⟨rfl, rfl, rfl, -⟩ | ⟨id, s, -, hs, -, -, -, rfl, rfl⟩ := yields_cancel ht.hook hy
      · simp at hm
      · have hm := (List.mem_append.1 hm).resolve_right (by simp)
        exact ⟨id, releases_setSlot hs hm, nofun⟩
    | pending =>
      cases (yields_pure.1 hy).2
      simp at hm
    | shutdown =>
      obtain ⟨_, _, _, -, hv, -⟩ := yields_bind.1 hy
      cases (yields_pure.1 hv).2
      simp at hm
  | reply | notify =>
    obtain ⟨_, _, -, hu⟩ := yields_perform_bind.1 hy
    cases (yields_pure.1 hu).2
    simp at hm
  | start id =>
    obtain ⟨-, rfl, -⟩ | ⟨s, r, hs, hn, -, hr⟩ := yields_start hy
    · cases hm
    · exact ⟨id, releases_conclude hs hn hr hm, nofun⟩
  | dispatch id =>
    obtain ⟨-, rfl, -⟩ | ⟨s, r, -, hs, hn, -, hr⟩ := yields_dispatch ht.unfinished hy
    · cases hm
    · exact ⟨id, releases_conclude hs hn hr hm, nofun⟩
  | expire now =>
    obtain ⟨-, -, rfl, -⟩ | ⟨id, s, -, -, hs, -, -, rfl, rfl⟩ :=
      yields_expire ht.unfinished ht.scheduled hy
    · cases hm
    · have hm := (List.mem_append.1 hm).resolve_right (by simp)
      exact ⟨id, releases_setSlot hs hm, nofun⟩
  | shutDown id =>
    obtain ⟨s, hs⟩ := (ht.slot id).1 (ht.doomed id (List.mem_cons_self ..))
    obtain ⟨-, ⟨-, rfl, rfl⟩ | ⟨-, rfl, -⟩⟩ := yields_shutDown hs hy
    · exact ⟨id, releases_setSlot hs hm, fun _ => rfl⟩
    · cases hm

lemma isSweep_perform (ht : Tracks (k :: ts) e) (hy : Yields (e.perform k) t (new, e'))
    (hk : k.isSweep) (hm : (Deed.task k).isMute) : ∀ j ∈ new, j.isSweep := by
  cases k with
  | notify c o =>
    obtain ⟨_, _, -, hu⟩ := yields_perform_bind.1 hy
    cases (yields_pure.1 hu).2
    have hm : c.requests = [] := by simpa [Deed.isMute] using hm
    simp [hm]
  | shutDown id =>
    obtain ⟨s, hs⟩ := (ht.slot id).1 (ht.doomed id (List.mem_cons_self ..))
    obtain ⟨-, ⟨-, rfl, -⟩ | ⟨-, rfl, -⟩⟩ := yields_shutDown hs hy
    · simp [Task.isSweep]
    · simp
  | _ => cases hk

/-- Nothing comes between the queries that are to fail, and what is told holds. -/
structure Unhindered (ts : List Task) (e : Engine) : Prop where
  addressed : Addressed e
  nodup : (condemned ts).Nodup
  sweeps : condemned ts ≠ [] → ∀ k ∈ ts, k.isSweep
  tells : ∀ k o, .notify k o ∈ ts → Tells ts e k o

lemma Unhindered.cue {q : Cue} (h : Unhindered [] e) (ht : Tracks [] e)
    (hy : Yields (e.cue q) t (new, e')) : Unhindered new e' := by
  have hd := does_of_cue hy
  refine ⟨h.addressed.cue hy, ?_, fun hc => ?_, fun k o hm => ?_⟩
  · rcases hd.condemned with hn | ⟨order, -, hn⟩
    · rw [hn]
      exact .nil
    · rw [hn]
      exact (order.perm e.tracked).nodup_iff.2 ht.tracked_nodup
  · obtain ⟨order, hq, -⟩ := hd.condemned.resolve_left hc
    obtain rfl : q = .failRemaining order := Deed.cue.inj hq
    cases (yields_pure.1 hy).2
    simp [Task.isSweep]
  · obtain ⟨hn, id, s, hi, hs, ho⟩ := notify_mem_cue hy hm
    exact ⟨id, s, hi, hs, ho, by simp [hn]⟩

lemma Unhindered.perform (h : Unhindered (k :: ts) e) (ht : Tracks (k :: ts) e)
    (hy : Yields (e.perform k) t (new, e')) (hm : (Deed.task k).isMute) :
    Unhindered (new ++ ts) e' := by
  have hd := does_of_perform ht hy
  have hn : condemned new = [] := hd.condemned.resolve_right fun ⟨_, hf, _⟩ => nomatch hf
  have hc : condemned (new ++ ts) = condemned ts := by rw [condemned_append, hn, List.nil_append]
  have hk : condemned (k :: ts) = condemned [k] ++ condemned ts := condemned_append [k] ts
  refine ⟨h.addressed.perform ht hy, ?_, fun hs => ?_, fun c o hco => ?_⟩
  · have := h.nodup
    rw [hk] at this
    rw [hc]
    exact (List.nodup_append.1 this).2.1
  · rw [hc] at hs
    obtain ⟨hk, hts⟩ := List.forall_mem_cons.1 (h.sweeps (by rw [hk]; simp [hs]))
    exact List.forall_mem_append.2 ⟨isSweep_perform ht hy hk hm, hts⟩
  · rcases List.mem_append.1 hco with hco | hco
    · obtain ⟨id, ⟨s, q, hs, hm, hs'⟩, hsw⟩ := notify_mem_perform ht hy hco
      have hi := h.addressed id s hs c hm
      obtain ⟨is, his⟩ := hd.handles
      obtain ⟨hlt, -⟩ := List.getElem?_eq_some_iff.1 hi
      refine ⟨id, _, by rw [← his, List.getElem?_append_left hlt, hi], hs', rfl, fun hid => ?_⟩
      -- only its own failure could end it while it is to fail, and it is to fail once
      rw [hc] at hid
      have hne : condemned (k :: ts) ≠ [] := by
        rw [hk]
        exact List.append_ne_nil_of_right_ne_nil _ (List.ne_nil_of_mem hid)
      have hnd := h.nodup
      obtain rfl := hsw (h.sweeps hne k List.mem_cons_self)
      exact (List.nodup_cons.1 hnd).1 hid
    · refine (h.tells c o (List.mem_cons_of_mem k hco)).does (d := .task k) ht hd fun i hi => ?_
      rw [hc] at hi
      rw [hk]
      exact List.mem_append_right _ hi

end Engine

end DnsClient
