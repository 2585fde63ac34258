import DnsClient.Engine.Settle
import DnsClient.Proofs.Engine.Views

/-!
Courses of an engine, deed by deed.

A deed is either a cue, which comes while the agenda is empty and may put tasks on it, or the first
task of the agenda. Cues are what users ask of an engine and what its loops do around a wait; they
come in any order. The functions of the loops are lists of cues (`serve_eq`, `prepare_eq`), so all
that operations reach is reached by such lists (`Reached.follows`), and the courses are their runs
(`course_iff`).
-/

namespace DnsClient

open Program

/-- What makes an engine act while no task is left to do. -/
inductive Cue where
  | submit (m : Message) (p : QueryParams)
  | request (r : EngineRequest)
  | onComplete (k : Continuation)
  | start (id : QueryId)
  | dispatch (token : QueryId)
  | expire (now : Instant)
  /-- A loop looks at the clock and fails what is overdue. -/
  | overdue
  /-- A loop looks how long it may wait. -/
  | wait
  | ready (tokens : List QueryId)
  | overflow
  | incoming
  | beginShutdown
  | failRemaining (o : DrainOrder)
  | leave

/-- One thing that an engine does. -/
inductive Deed where
  | cue (c : Cue)
  | task (k : Task)

namespace Engine

/-- The tasks that a cue leads to, and the engine before they are performed. -/
def cue (e : Engine) : Cue → Program (List Task × Engine)
  | .submit m p => do return ([], (← e.submit m p).2)
  | .request r => return ([.request r], e)
  | .onComplete k => return e.onComplete k
  | .start id => return ([.start id], e)
  | .dispatch token => return ([.dispatch token], e)
  | .expire now => return ([.expire now], e)
  | .overdue => do return ([.expire (← Program.now)], e)
  | .wait => do return ([], (e.waitTime (← Program.now)).2)
  | .ready tokens => do
    let (mine, rest) := e.takeShare (tokens.filter (· ≠ wakeToken))
    wakeFor rest
    return (mine.map .dispatch, { e with overflow := e.overflow ++ rest })
  | .overflow => do
    let (mine, rest) := e.takeShare e.overflow
    wakeFor rest
    return (mine.map .dispatch, { e with overflow := rest })
  | .incoming => do
    let (mine, rest) := e.takeShare e.incoming
    wakeFor rest
    return (mine.map .start, { e with incoming := rest })
  | .beginShutdown => do return ([], (← e.beginShutdown).2)
  | .failRemaining o =>
    return ((o.arrange e.tracked).map .shutDown,
      { e with tracked := [], schedule := {}, incoming := [], overflow := [] })
  | .leave => do
    leave
    return ([], e)

/-- Follows a cue, with all tasks that it leads to. -/
def follow (e : Engine) (c : Cue) : Program Engine := do
  let r ← e.cue c
  r.2.settle r.1

def follows (e : Engine) : List Cue → Program Engine
  | [] => return e
  | c :: cs => do
    let e ← e.follow c
    e.follows cs

variable {e e' : Engine}

lemma follows_append (e : Engine) (cs ds : List Cue) :
    e.follows (cs ++ ds) = e.follows cs >>= fun e => e.follows ds := by
  induction cs generalizing e with
  | nil => rfl
  | cons c cs ih =>
    rw [List.cons_append, follows, follows, bind_assoc]
    congr 1
    funext e
    exact ih e

lemma follows_singleton (e : Engine) (c : Cue) : e.follows [c] = e.follow c := bind_pure _

/-! ### Loops as cues -/

theorem serve_eq (e : Engine) (tokens : List QueryId) :
    e.serve tokens = e.follows [.ready tokens, .overflow, .incoming] := by
  simp only [serve, serveReady, serveOverflow, serveIncoming, follows, follow, cue, bind_assoc,
    pure_bind, bind_pure]

theorem prepare_eq (e : Engine) : (·.2) <$> e.prepare = e.follows [.overdue, .wait] := by
  have hn (e : Engine) : e.settle [] = pure e := settle_nil e
  simp only [prepare, follows, follow, cue, bind_assoc, pure_bind, bind_pure, map_bind, map_pure,
    hn]
  rfl

lemma yields_prepare {d : Option Duration} {t : List Event} (h : Yields e.prepare t (d, e')) :
    Yields (e.follows [.overdue, .wait]) t e' := by
  rw [← prepare_eq, ← bind_pure_comp]
  exact yields_bind.2 ⟨t, (d, e'), [], h, .pure _, (List.append_nil t).symm⟩

theorem failRemaining_eq (e : Engine) (o : DrainOrder) :
    e.failRemaining o = e.follows [.failRemaining o] :=
  (follows_singleton e (.failRemaining o)).symm

/-- Shutting down is one cue or two. -/
theorem yields_shutdown {o : DrainOrder} {t : List Event} (h : Yields (e.shutdown o) t e') :
    Yields (e.follows [.beginShutdown]) t e' ∨
      Yields (e.follows [.beginShutdown, .failRemaining o]) t e' := by
  obtain ⟨u, ⟨b, e₁⟩, v, hb, hr, rfl⟩ := yields_bind.1 h
  have hc : Yields (e.follow .beginShutdown) u e₁ := by
    refine yields_bind.2 ⟨u, ([], e₁), [], ?_, by simp, by simp⟩
    exact yields_bind.2 ⟨u, (b, e₁), [], hb, .pure _, by simp⟩
  cases b with
  | false =>
    obtain ⟨rfl, rfl⟩ := yields_pure.1 hr
    exact .inl (yields_bind.2 ⟨u, _, [], hc, .pure _, rfl⟩)
  | true =>
    have hr : Yields (e₁.failRemaining o) v e' := hr
    rw [failRemaining_eq] at hr
    exact .inr (yields_bind.2 ⟨u, e₁, v, hc, hr, rfl⟩)

/-- What operations make of a new engine, one after the other, with their calls: cues, and whole
turns of a loop. -/
inductive Reached (c : Config) : List Event → Engine → Prop where
  | new : Reached c [] (ofConfig c)
  | cue {e e' : Engine} {k : Cue} {t u : List Event} (hr : Reached c t e)
      (h : Yields (e.follow k) u e') : Reached c (t ++ u) e'
  | prepare {e e' : Engine} {d : Option Duration} {t u : List Event} (hr : Reached c t e)
      (h : Yields e.prepare u (d, e')) : Reached c (t ++ u) e'
  | serve {e e' : Engine} {tokens : List QueryId} {t u : List Event} (hr : Reached c t e)
      (h : Yields (e.serve tokens) u e') : Reached c (t ++ u) e'
  | shutdown {e e' : Engine} {o : DrainOrder} {t u : List Event} (hr : Reached c t e)
      (h : Yields (e.shutdown o) u e') : Reached c (t ++ u) e'

lemma Reached.follows {c : Config} {t : List Event} (h : Reached c t e) :
    ∃ cs, Yields ((ofConfig c).follows cs) t e := by
  have append {e e' : Engine} {ds : List Cue} {t u : List Event}
      (he : ∃ cs, Yields ((ofConfig c).follows cs) t e) (hd : Yields (e.follows ds) u e') :
      ∃ cs, Yields ((ofConfig c).follows cs) (t ++ u) e' := by
    obtain ⟨cs, hc⟩ := he
    refine ⟨cs ++ ds, ?_⟩
    rw [follows_append]
    exact yields_bind.2 ⟨t, e, u, hc, hd, rfl⟩
  induction h with
  | new => exact ⟨[], .pure _⟩
  | cue _ h ih =>
    rw [← follows_singleton] at h
    exact append ih h
  | prepare _ h ih => exact append ih (yields_prepare h)
  | serve _ h ih =>
    rw [serve_eq] at h
    exact append ih h
  | shutdown _ h ih =>
    rcases yields_shutdown h with h | h
    · exact append ih h
    · exact append ih h

/-! ### Courses -/

/-- A deed in a course: its calls, and the engine before it and after it. -/
structure Moment where
  before : Engine
  deed : Deed
  calls : List Event
  after : Engine

/-- All calls of some moments. -/
def callsOf (ms : List Moment) : List Event := ms.flatMap (·.calls)

/-- The moments lead from an engine and an empty agenda to the given agenda and engine. -/
inductive Course (e₀ : Engine) : List Moment → List Task → Engine → Prop where
  | nil : Course e₀ [] [] e₀
  | cue {ms : List Moment} {e e' : Engine} {c : Cue} {t : List Event} {ts : List Task}
      (hs : Course e₀ ms [] e) (h : Yields (e.cue c) t (ts, e')) :
      Course e₀ (ms ++ [⟨e, .cue c, t, e'⟩]) ts e'
  | task {ms : List Moment} {e e' : Engine} {k : Task} {t : List Event} {ts new : List Task}
      (hs : Course e₀ ms (k :: ts) e) (h : Yields (e.perform k) t (new, e')) :
      Course e₀ (ms ++ [⟨e, .task k, t, e'⟩]) (new ++ ts) e'

variable {e₀ : Engine} {ms : List Moment} {ts : List Task} {t : List Event}

@[simp] lemma callsOf_append (ms ns : List Moment) :
    callsOf (ms ++ ns) = callsOf ms ++ callsOf ns := List.flatMap_append

@[simp] lemma callsOf_singleton (m : Moment) : callsOf [m] = m.calls := List.flatMap_singleton ..

/-- The tasks that are left to do can be done. -/
lemma Course.settle (hs : Course e₀ ms ts e) (h : Yields (e.settle ts) t e') :
    ∃ ns, Course e₀ (ms ++ ns) [] e' ∧ callsOf ns = t := by
  refine settle_induction (P := fun ts e t => ∀ ms, Course e₀ ms ts e →
    ∃ ns, Course e₀ (ms ++ ns) [] e' ∧ callsOf ns = t) ?_ ?_ h ms hs
  · exact fun ms hs => ⟨[], by simpa using hs, rfl⟩
  · intro k ts e u new e₁ v hk ih ms hs
    obtain ⟨ns, hc, rfl⟩ := ih _ (hs.task hk)
    exact ⟨⟨e, .task k, u, e₁⟩ :: ns, by simpa using hc, rfl⟩

lemma Course.follows {cs : List Cue} (hs : Course e₀ ms [] e) (h : Yields (e.follows cs) t e') :
    ∃ ns, Course e₀ (ms ++ ns) [] e' ∧ callsOf ns = t := by
  induction cs generalizing ms e t with
  | nil =>
    obtain ⟨rfl, rfl⟩ := yields_pure.1 h
    exact ⟨[], by simpa using hs, rfl⟩
  | cons c cs ih =>
    obtain ⟨_, e₁, v, hc, hr, rfl⟩ := yields_bind.1 h
    obtain ⟨u, ⟨ts, e₂⟩, w, hq, hw, rfl⟩ := yields_bind.1 hc
    obtain ⟨ns, hn, rfl⟩ := (hs.cue hq).settle hw
    obtain ⟨ns', hn', rfl⟩ := ih hn hr
    refine ⟨⟨e, .cue c, u, e₂⟩ :: (ns ++ ns'), by simpa using hn', ?_⟩
    rw [← List.singleton_append, callsOf_append, callsOf_append, callsOf_singleton]
    simp

/-- A course, with the tasks that are left to do, is a run of cues. -/
lemma Course.exists_follows (hs : Course e₀ ms ts e) :
    ∀ t e', Yields (e.settle ts) t e' → ∃ cs, Yields (e₀.follows cs) (callsOf ms ++ t) e' := by
  induction hs with
  | nil =>
    intro t e' h
    rw [settle_nil] at h
    exact ⟨[], h⟩
  | @cue ms e e₁ c u ts _ h ih =>
    intro t e' hr
    obtain ⟨cs, hc⟩ := ih [] e (by rw [settle_nil]; exact .pure _)
    rw [List.append_nil] at hc
    refine ⟨cs ++ [c], ?_⟩
    have hf : Yields (e.follows [c]) (u ++ t) e' := by
      rw [follows_singleton]
      exact yields_bind.2 ⟨u, (ts, e₁), t, h, hr, rfl⟩
    rw [follows_append]
    exact yields_bind.2 ⟨callsOf ms, e, u ++ t, hc, hf, by simp⟩
  | @task ms e e₁ k u ts new _ h ih =>
    intro t e' hr
    obtain ⟨cs, hc⟩ := ih (u ++ t) e' (by
      rw [settle_cons]
      exact yields_bind.2 ⟨u, (new, e₁), t, h, hr, rfl⟩)
    exact ⟨cs, by simpa using hc⟩

/-- The courses with nothing left to do are the runs of cues. -/
theorem course_iff :
    (∃ ms, Course e₀ ms [] e ∧ callsOf ms = t) ↔ ∃ cs, Yields (e₀.follows cs) t e := by
  constructor
  · rintro ⟨ms, h, rfl⟩
    obtain ⟨cs, hc⟩ := h.exists_follows [] e (by rw [settle_nil]; exact .pure _)
    exact ⟨cs, by simpa using hc⟩
  · rintro ⟨cs, h⟩
    obtain ⟨ms, hc, ht⟩ := Course.nil.follows h
    exact ⟨ms, hc, ht⟩

end Engine

end DnsClient
