import DnsClient.Proofs.Engine.Tracking

/-!
What an engine keeps of a submission.

The handle of a query is the number of the submissions before it. Until the query has an outcome,
its slot holds what its own calls have made of a fresh query for the request, and its deadline is
the one set at its submission.
-/

namespace DnsClient

open Program

/-- The query for a submission, under an ID, before it is started. -/
def Submission.query (x : Submission) (id : QueryId) : Query :=
  { id, request := x.request, params := x.params }

def Submission.deadline (x : Submission) : Instant := x.time + x.params.timeout

namespace Engine

def Moment.submission? (a : Moment) : Option Submission := a.deed.accepted? a.calls

/-- All that some moments submit. -/
def submissions (ms : List Moment) : List Submission := ms.filterMap Moment.submission?

/-- What is kept of a submission under an ID, after the given calls. -/
structure Filed (t : List Event) (e : Engine) (id : QueryId) (x : Submission) : Prop where
  slot : ∃ s, e.slot? id = some s ∧ (s.cell.outcome? = none →
    ∃ vs, Query.Visits (x.query id) vs s.query ∧ (Query.eventsOf vs).Sublist t)
  live : ∀ d, e.schedule.live.get? id = some d → d = x.deadline

/-- All submissions are kept, under the handles that count them. -/
structure Files (ms : List Moment) (e : Engine) : Prop where
  length : e.handles.length = (submissions ms).length
  filed : ∀ (h : Nat) id x, e.handles[h]? = some id → (submissions ms)[h]? = some x →
    Filed (callsOf ms) e id x

variable {c : Config} {e e' : Engine} {id : QueryId} {s s' : Slot} {ts new : List Task}
  {t u : List Event} {d : Deed} {ms : List Moment} {h : Nat} {x : Submission}

@[simp] lemma submissions_append (ms ns : List Moment) :
    submissions (ms ++ ns) = submissions ms ++ submissions ns := List.filterMap_append

lemma submissions_snoc_none (ha : d.accepted? t = none) :
    submissions (ms ++ [⟨e, d, t, e'⟩]) = submissions ms := by
  have hn : submissions [⟨e, d, t, e'⟩] = [] := List.filterMap_cons_none ha
  rw [submissions_append, hn, List.append_nil]

lemma submissions_snoc_some (ha : d.accepted? t = some x) :
    submissions (ms ++ [⟨e, d, t, e'⟩]) = submissions ms ++ [x] := by
  have hs : submissions [⟨e, d, t, e'⟩] = [x] := List.filterMap_cons_some ha
  rw [submissions_append, hs]

/-- What is kept stays so while the slot does, and the deadline at most goes away. -/
lemma Filed.keep (hf : Filed t e id x) (hs : e'.slot? id = e.slot? id)
    (hl : ∀ d, e'.schedule.live.get? id = some d → e.schedule.live.get? id = some d) :
    Filed (t ++ u) e' id x := by
  obtain ⟨s, hsl, hv⟩ := hf.slot
  refine ⟨⟨s, hs.trans hsl, fun hn => ?_⟩, fun d hd => hf.live d (hl d hd)⟩
  obtain ⟨vs, hvs, ht⟩ := hv hn
  exact ⟨vs, hvs, ht.trans (List.sublist_append_left ..)⟩

lemma filed_enroll (e : Engine) (m : Message) (p : QueryParams) (ks : List Continuation)
    (now : Instant) : Filed t (e.enroll m p ks now) e.nextId ⟨m, p, now⟩ := by
  refine ⟨⟨_, slot?_enroll_self .., fun _ => ?_⟩, fun d hd => ?_⟩
  · exact ⟨[], .nil _, List.nil_sublist _⟩
  · rw [live_enroll, if_pos rfl] at hd
    exact (Option.some_inj.1 hd).symm

lemma Effect.accepted?_eq_none (hx : Effect e d id s t new s') : d.accepted? u = none := by
  have hl {a} (hd : d.lets id a) : d.accepted? u = none := by
    rcases Deed.lets_cases hd with rfl | rfl <;> rfl
  cases hx with
  | goesOn hd _ _ => exact hl hd
  | ends hd _ _ => exact hl hd
  | waits hd _ | cancels hd _ _ _ | expires hd _ _ _ | shutsDown hd _ _ | closes hd _ _ =>
    rw [hd]
    rfl

/-- A query that has no outcome yet was left alone, or it acted. -/
lemma Effect.filed (hx : Effect e d id s t new s') (hc : Changes e id s s' e')
    (hf : Filed u e id x) : Filed (u ++ t) e' id x := by
  obtain ⟨s₀, hs₀, hv⟩ := hf.slot
  obtain rfl : s₀ = s := Option.some_inj.1 (hs₀.symm.trans hc.slot)
  refine ⟨⟨s', hc.self, fun hn => ?_⟩, fun d hd => hf.live d (hc.live_of hd)⟩
  cases hx with
  | waits _ hn' =>
    obtain ⟨vs, hvs, ht⟩ := hv hn'
    exact ⟨vs, hvs, ht.trans (List.sublist_append_left ..)⟩
  | goesOn _ hn' hy =>
    obtain ⟨vs, hvs, ht⟩ := hv hn'
    refine ⟨_, hvs.snoc hy, ?_⟩
    rw [Query.eventsOf_append]
    simpa using ht
  | ends | cancels | expires | shutsDown => cases hn
  | closes _ hn' _ => exact absurd hn hn'

lemma Files.does (hf : Files ms e) (ht : Tracks (d.tasks ++ ts) e) (hd : Does e d t new e') :
    Files (ms ++ [⟨e, d, t, e'⟩]) e' := by
  -- a deed that takes no submission in keeps each, given that it keeps what is under each handle
  have hkeep (ha : d.accepted? t = none) (hh : e'.handles = e.handles)
      (hk : ∀ i x, Filed (callsOf ms) e i x → Filed (callsOf ms ++ t) e' i x) :
      Files (ms ++ [⟨e, d, t, e'⟩]) e' := by
    refine ⟨by rw [hh, submissions_snoc_none ha, hf.length], fun h i x hi hx => ?_⟩
    rw [callsOf_append, callsOf_singleton]
    rw [hh] at hi
    rw [submissions_snoc_none ha] at hx
    exact hk i x (hf.filed h i x hi hx)
  cases hd with
  | rests hr _ _ ha _ _ =>
    exact hkeep ha hr.handles fun i x hx => hx.keep (hr.slot? i) fun d hd => hr.live ▸ hd
  | takes _ _ => exact hkeep rfl rfl fun i x hx => hx.keep rfl fun d hd => hd
  | condemns => exact hkeep rfl rfl fun i x hx => hx.keep rfl fun d hd => by cases hd
  | @accepts _ m p ks now _ hs hn =>
    have ha : d.accepted? [⟨.now, now⟩, ⟨.wake, ()⟩] = some ⟨m, p, now⟩ := by
      rw [Deed.accepted?, hs]
      rfl
    refine ⟨?_, fun h i x hi hx => ?_⟩
    · rw [submissions_snoc_some ha, handles_enroll, List.length_append, List.length_append,
        hf.length]
      rfl
    rw [callsOf_append, callsOf_singleton]
    rw [submissions_snoc_some ha] at hx
    rw [handles_enroll] at hi
    by_cases hl : h < e.handles.length
    · rw [List.getElem?_append_left hl] at hi
      rw [List.getElem?_append_left (hf.length ▸ hl)] at hx
      have hne : i ≠ e.nextId :=
        Nat.ne_of_lt (ht.handles_lt i (List.mem_of_getElem? hi))
      refine (hf.filed h i x hi hx).keep (slot?_enroll_other e m p ks now hne) fun d hd => ?_
      rwa [live_enroll, if_neg hne] at hd
    · rw [List.getElem?_append_right (Nat.le_of_not_lt hl)] at hi
      rw [List.getElem?_append_right (hf.length ▸ Nat.le_of_not_lt hl), ← hf.length] at hx
      cases hk : h - e.handles.length with
      | zero =>
        rw [hk] at hi hx
        cases hi
        cases hx
        exact filed_enroll ..
      | succ n =>
        rw [hk] at hi
        cases hi
  | @changes _ _ _ _ id s s' hc hx =>
    refine hkeep hx.accepted?_eq_none hc.handles fun i x hi => ?_
    by_cases he : i = id
    · subst he
      exact hx.filed hc hi
    · exact hi.keep (hc.other he) fun d hd => hc.live_of hd

lemma Course.files (hc : Course (ofConfig c) ms ts e) : Files ms e := by
  induction hc using Course.deeds with
  | nil => exact ⟨rfl, fun h i x hi => by cases hi⟩
  | step _ _ ih ht hd => exact ih.does ht hd

/-- A query with a handle is kept as the submission with that number says, among later ones too. -/
lemma Course.filed_of_append {ns : List Moment} (hc : Course (ofConfig c) ms ts e)
    (hi : e.handles[h]? = some id) (hx : (submissions (ms ++ ns))[h]? = some x) :
    Filed (callsOf ms) e id x := by
  have hf := hc.files
  obtain ⟨hl, -⟩ := List.getElem?_eq_some_iff.1 hi
  rw [submissions_append, List.getElem?_append_left (hf.length ▸ hl)] at hx
  exact hf.filed h id x hi hx

end Engine

end DnsClient
