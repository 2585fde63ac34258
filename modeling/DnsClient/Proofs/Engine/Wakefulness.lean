import DnsClient.Proofs.Engine.Outcome

/-!
No loop waits while there is work to do.

A loop takes no more than its share of the queues, and it may not come to them at all when its wait
fails. So what is left is looked at from the side of the calls: whatever leaves something in a queue
or begins to shut down wakes a loop (`Rouses`), and a loop that uses a wake-up up attends to both
queues after that (`wakes_serve`). Loops that run side by side are a `Crew`, with what one of them
does from one wait to the next as a single step.
-/

namespace DnsClient

open Program

/-- Whether the events wake a loop. -/
def wakes (t : List Event) : Bool :=
  t.any fun w =>
    match w.1 with
    | .wake => true
    | _ => false

@[simp] lemma wakes_nil : wakes [] = false := rfl

@[simp] lemma wakes_append (t u : List Event) : wakes (t ++ u) = (wakes t || wakes u) :=
  List.any_append

namespace Engine

variable {e e' e₁ : Engine} {ts new : List Task} {t u : List Event} {k : Task}

/-! ### Deeds -/

/-- A loop is woken for all that gets into a queue, and when a shutdown begins. -/
structure Rouses (e : Engine) (t : List Event) (e' : Engine) : Prop where
  incoming : e'.incoming ≠ [] → e.incoming ≠ [] ∨ wakes t
  overflow : e'.overflow ≠ [] → e.overflow ≠ [] ∨ wakes t
  shutdown : e'.isShutdown → e.isShutdown ∨ wakes t

namespace Rouses

lemma refl (e : Engine) (t : List Event) : Rouses e t e := ⟨.inl, .inl, .inl⟩

lemma of_eq (hi : e'.incoming = e.incoming) (ho : e'.overflow = e.overflow)
    (hs : e'.isShutdown = e.isShutdown) : Rouses e t e' :=
  ⟨fun h => .inl (hi ▸ h), fun h => .inl (ho ▸ h), fun h => .inl (hs ▸ h)⟩

lemma of_wakes (h : wakes t) : Rouses e t e' := ⟨fun _ => .inr h, fun _ => .inr h, fun _ => .inr h⟩

lemma trans (h : Rouses e t e₁) (h' : Rouses e₁ u e') : Rouses e (t ++ u) e' := by
  have step {a b : Prop} (hab : a → b ∨ wakes t) (hw : a ∨ wakes u) : b ∨ wakes (t ++ u) := by
    rw [wakes_append, Bool.or_eq_true]
    tauto
  exact ⟨fun hi => step h.incoming (h'.incoming hi), fun ho => step h.overflow (h'.overflow ho),
    fun hs => step h.shutdown (h'.shutdown hs)⟩

end Rouses

/-- A loop is woken for what is left of a queue, if there is any. -/
lemma yields_wakeFor {α : Type} {rest : List QueryId} {a b : α}
    (h : Yields (do wakeFor rest; return a) t b) : b = a ∧ (rest ≠ [] → wakes t) := by
  obtain ⟨u, x, v, hu, hv, rfl⟩ := yields_bind.1 h
  refine ⟨(yields_pure.1 hv).2, fun hr => ?_⟩
  rw [wakeFor, if_neg hr] at hu
  rw [yields_perform.1 hu]
  rfl

lemma rouses_submit {m : Message} {p : QueryParams} {x : Except QueryError Nat}
    (h : Yields (e.submit m p) t (x, e')) : Rouses e t e' := by
  obtain ⟨-, -, rfl⟩ | ⟨now, rfl, -, rfl⟩ := yields_submit h
  · exact .of_eq rfl rfl rfl
  · exact .of_wakes rfl

lemma rouses_beginShutdown {b : Bool} (h : Yields e.beginShutdown t (b, e')) : Rouses e t e' := by
  obtain ⟨-, -, -, rfl⟩ | ⟨-, -, rfl, -⟩ := yields_beginShutdown h
  · exact .refl _ _
  · exact .of_wakes rfl

lemma rouses_conclude {id : QueryId} {s : Slot} {r : Step × Query} (hn : s.cell.outcome? = none)
    (hr : (new, e') = e.conclude id s r) : Rouses e t e' := by
  obtain ⟨_ | x, q⟩ := r
  · cases hr
    exact .of_eq rfl rfl rfl
  · rw [conclude_done hn] at hr
    cases hr
    exact .of_eq rfl rfl rfl

lemma rouses_perform (ht : Tracks (k :: ts) e) (hy : Yields (e.perform k) t (new, e')) :
    Rouses e t e' := by
  cases k with
  | request r =>
    cases r with
    | submit m p rs =>
      obtain ⟨u, ⟨x, e₁⟩, v, hu, hv, rfl⟩ := yields_bind.1 hy
      obtain ⟨rfl, rfl, rfl⟩ | ⟨now, rfl, rfl, rfl⟩ := yields_submit hu
      · cases (yields_pure.1 hv).2
        exact .of_eq rfl rfl rfl
      · exact .of_wakes rfl
    | cancel h =>
      obtain ⟨-, -, rfl, -⟩ | ⟨id, s, -, -, -, -, -, -, rfl⟩ := yields_cancel ht.hook hy
      · exact .refl _ _
      · exact .of_eq rfl rfl rfl
    | pending =>
      cases (yields_pure.1 hy).2
      exact .refl _ _
    | shutdown =>
      obtain ⟨u, ⟨b, e₁⟩, v, hu, hv, rfl⟩ := yields_bind.1 hy
      cases (yields_pure.1 hv).2
      exact (rouses_beginShutdown hu).trans (.refl _ _)
  | reply | notify =>
    obtain ⟨_, _, -, hu⟩ := yields_perform_bind.1 hy
    cases (yields_pure.1 hu).2
    exact .refl _ _
  | start id =>
    obtain ⟨-, -, rfl, -⟩ | ⟨s, r, -, hn, -, hr⟩ := yields_start hy
    · exact .refl _ _
    · exact rouses_conclude hn hr
  | dispatch id =>
    obtain ⟨-, -, rfl⟩ | ⟨s, r, -, -, hn, -, hr⟩ := yields_dispatch ht.unfinished hy
    · exact .refl _ _
    · exact rouses_conclude hn hr
  | expire now =>
    obtain ⟨-, -, -, rfl⟩ | ⟨id, s, -, -, -, -, -, -, rfl⟩ :=
      yields_expire ht.unfinished ht.scheduled hy
    · exact .of_eq rfl rfl rfl
    · exact .of_eq rfl rfl rfl
  | shutDown id =>
    obtain ⟨s, hs⟩ := (ht.slot id).1 (ht.doomed id (List.mem_cons_self ..))
    obtain ⟨-, ⟨-, -, rfl⟩ | ⟨-, -, rfl⟩⟩ := yields_shutDown hs hy
    · exact .of_eq rfl rfl rfl
    · exact .of_eq rfl rfl rfl

lemma rouses_cue {q : Cue} (hy : Yields (e.cue q) t (new, e')) : Rouses e t e' := by
  cases q with
  | submit m p =>
    obtain ⟨u, ⟨x, e₁⟩, v, hu, hv, rfl⟩ := yields_bind.1 hy
    cases (yields_pure.1 hv).2
    exact (rouses_submit hu).trans (.refl _ _)
  | request | start | dispatch | expire =>
    cases (yields_pure.1 hy).2
    exact .refl _ _
  | onComplete k =>
    have hr := (yields_pure.1 hy).2
    unfold onComplete at hr
    split at hr
    · cases hr
      exact .refl _ _
    · split at hr <;> cases hr
      · exact .refl _ _
      · exact .of_eq rfl rfl rfl
  | overdue | wait | leave =>
    obtain ⟨_, _, -, hu⟩ := yields_perform_bind.1 hy
    cases (yields_pure.1 hu).2
    exact .of_eq rfl rfl rfl
  | ready tokens =>
    obtain ⟨hr, hw⟩ := yields_wakeFor hy
    cases hr
    refine ⟨.inl, fun ho => ?_, .inl⟩
    by_cases he : e.overflow = []
    · exact .inr (hw fun hn => ho (List.append_eq_nil_iff.2 ⟨he, hn⟩))
    · exact .inl he
  | overflow =>
    obtain ⟨hr, hw⟩ := yields_wakeFor hy
    cases hr
    exact ⟨.inl, fun ho => .inr (hw ho), .inl⟩
  | incoming =>
    obtain ⟨hr, hw⟩ := yields_wakeFor hy
    cases hr
    exact ⟨fun hi => .inr (hw hi), .inl, .inl⟩
  | beginShutdown =>
    obtain ⟨u, ⟨b, e₁⟩, v, hu, hv, rfl⟩ := yields_bind.1 hy
    cases (yields_pure.1 hv).2
    exact (rouses_beginShutdown hu).trans (.refl _ _)
  | failRemaining =>
    cases (yields_pure.1 hy).2
    exact ⟨fun h => absurd rfl h, fun h => absurd rfl h, .inl⟩

lemma rouses_settle (ht : Tracks ts e) (hy : Yields (e.settle ts) t e') : Rouses e t e' := by
  refine settle_induction (P := fun ts e t => Tracks ts e → Rouses e t e') ?_ ?_ hy ht
  · exact fun _ => .refl _ _
  · intro k ts e u new e₁ v hp ih ht
    exact (rouses_perform ht hp).trans (ih (ht.perform hp))

lemma rouses_follow {q : Cue} (ht : Tracks [] e) (hy : Yields (e.follow q) t e') :
    Rouses e t e' ∧ Tracks [] e' := by
  obtain ⟨u, ⟨ts, e₁⟩, v, hq, hs, rfl⟩ := yields_bind.1 hy
  have ht₁ := ht.cue hq
  exact ⟨(rouses_cue hq).trans (rouses_settle ht₁ hs), (ht₁.settle hs).1⟩

lemma rouses_follows {qs : List Cue} (ht : Tracks [] e) (hy : Yields (e.follows qs) t e') :
    Rouses e t e' ∧ Tracks [] e' := by
  induction qs generalizing e t with
  | nil =>
    obtain ⟨rfl, rfl⟩ := yields_pure.1 hy
    exact ⟨.refl _ _, ht⟩
  | cons q qs ih =>
    obtain ⟨u, e₁, v, hq, hs, rfl⟩ := yields_bind.1 hy
    obtain ⟨h, ht₁⟩ := rouses_follow ht hq
    obtain ⟨h', ht'⟩ := ih ht₁ hs
    exact ⟨h.trans h', ht'⟩

/-! ### Turns of a loop -/

/-- Once a loop has attended to a queue, it has woken another one for what is left there. -/
lemma wakes_follow_overflow (ht : Tracks [] e) (hy : Yields (e.follow .overflow) t e')
    (ho : e'.overflow ≠ []) : wakes t := by
  obtain ⟨u, ⟨ts, e₁⟩, v, hq, hs, rfl⟩ := yields_bind.1 hy
  have h := (rouses_settle (ht.cue hq) hs).overflow ho
  obtain ⟨hr, hw⟩ := yields_wakeFor hq
  cases hr
  rw [wakes_append, Bool.or_eq_true]
  exact h.imp_left hw

lemma wakes_follow_incoming (ht : Tracks [] e) (hy : Yields (e.follow .incoming) t e')
    (hi : e'.incoming ≠ []) : wakes t := by
  obtain ⟨u, ⟨ts, e₁⟩, v, hq, hs, rfl⟩ := yields_bind.1 hy
  have h := (rouses_settle (ht.cue hq) hs).incoming hi
  obtain ⟨hr, hw⟩ := yields_wakeFor hq
  cases hr
  rw [wakes_append, Bool.or_eq_true]
  exact h.imp_left hw

/-- After a wait a loop attends to both queues, so it wakes another one for all that is left. -/
lemma wakes_serve {tokens : List QueryId} (ht : Tracks [] e) (hy : Yields (e.serve tokens) t e') :
    (e'.incoming ≠ [] ∨ e'.overflow ≠ [] → wakes t) ∧ Tracks [] e' := by
  rw [serve_eq] at hy
  obtain ⟨t₁, e₁, _, h₁, hy₁, rfl⟩ := yields_bind.1 hy
  obtain ⟨t₂, e₂, _, h₂, hy₂, rfl⟩ := yields_bind.1 hy₁
  obtain ⟨t₃, e₃, _, h₃, hy₃, rfl⟩ := yields_bind.1 hy₂
  obtain ⟨rfl, rfl⟩ := yields_pure.1 hy₃
  obtain ⟨-, ht₁⟩ := rouses_follow ht h₁
  obtain ⟨-, ht₂⟩ := rouses_follow ht₁ h₂
  obtain ⟨hr, ht₃⟩ := rouses_follow ht₂ h₃
  refine ⟨?_, ht₃⟩
  simp only [wakes_append, wakes_nil, Bool.or_eq_true]
  rintro (hi | ho)
  · exact .inr (.inr (.inl (wakes_follow_incoming ht₂ h₃ hi)))
  · exact (hr.overflow ho).elim (fun ho => .inr (.inl (wakes_follow_overflow ht₁ h₂ ho)))
      fun hw => .inr (.inr (.inl hw))

/-- What a loop does up to its next wait, and whether it comes to one: it leaves if the engine shuts
down. -/
def comeRound (e : Engine) : Program (Bool × Engine) :=
  if e.isShutdown then do
    leave
    return (false, e)
  else do
    let r ← e.prepare
    return (true, r.2)

lemma rouses_comeRound {b : Bool} (ht : Tracks [] e) (hy : Yields e.comeRound t (b, e')) :
    Rouses e t e' ∧ Tracks [] e' ∧ (e'.isShutdown → wakes t) := by
  unfold comeRound at hy
  split at hy
  · obtain ⟨_, _, rfl, hu⟩ := yields_perform_bind.1 hy
    cases (yields_pure.1 hu).2
    exact ⟨.refl _ _, ht, fun _ => rfl⟩
  · next hs =>
    obtain ⟨u, ⟨d, e₁⟩, v, hp, hv, rfl⟩ := yields_bind.1 hy
    obtain ⟨rfl, hv⟩ := yields_pure.1 hv
    cases hv
    rw [List.append_nil]
    obtain ⟨hr, ht'⟩ := rouses_follows ht (yields_prepare hp)
    exact ⟨hr, ht', fun h => (hr.shutdown h).resolve_left hs⟩

end Engine

open Engine

/-! ### Loops side by side -/

/-- An engine and its loops. -/
structure Crew where
  engine : Engine
  /-- A wake-up is pending. -/
  woken : Bool
  /-- How many loops have not come to a wait yet. -/
  fresh : Nat
  /-- How many loops are in a wait. -/
  waiting : Nat

namespace Crew

variable {c : Config} {w w' : Crew}

/-- A new engine whose loops are about to run. -/
def ofConfig (c : Config) : Crew := ⟨.ofConfig c, false, c.workers, 0⟩

/-- One thing that happens. What a loop does from one wait to the next is one step. -/
inductive Step : Crew → Crew → Prop where
  /-- Something is asked of the engine. -/
  | asks {e e' : Engine} {woken : Bool} {fresh waiting : Nat} {q : Cue} {t : List Event}
      (h : Yields (e.follow q) t e') :
      Step ⟨e, woken, fresh, waiting⟩ ⟨e', woken || wakes t, fresh, waiting⟩
  /-- A loop comes to its first wait. -/
  | begins {e e' : Engine} {woken b : Bool} {fresh waiting : Nat} {t : List Event}
      (h : Yields e.comeRound t (b, e')) :
      Step ⟨e, woken, fresh + 1, waiting⟩ ⟨e', woken || wakes t, fresh, waiting + b.toNat⟩
  /-- A wait ends with some tokens, and the loop attends to its share. The wake-up that was pending
  may be used up. -/
  | returns {e e₁ e' : Engine} {woken b : Bool} {fresh waiting : Nat} {t u : List Event}
      (left : Bool) (tokens : List QueryId) (hl : left → woken)
      (hs : Yields (e.serve tokens) t e₁) (h : Yields e₁.comeRound u (b, e')) :
      Step ⟨e, woken, fresh, waiting + 1⟩ ⟨e', left || wakes (t ++ u), fresh, waiting + b.toNat⟩
  /-- A wait fails. A wake-up that was pending still is. -/
  | fails {e e' : Engine} {woken b : Bool} {fresh waiting : Nat} {t : List Event}
      (h : Yields e.comeRound t (b, e')) :
      Step ⟨e, woken, fresh, waiting + 1⟩ ⟨e', woken || wakes t, fresh, waiting + b.toNat⟩

/-- What comes of a new engine, in any number of steps. -/
inductive Reached (c : Config) : Crew → Prop where
  | new : Reached c (ofConfig c)
  | step {w w' : Crew} (hr : Reached c w) (h : Step w w') : Reached c w'

/-- There is something to do for a loop: in a queue, or because the engine shuts down and not all
loops have left. -/
def HasWork (w : Crew) : Prop :=
  w.engine.incoming ≠ [] ∨ w.engine.overflow ≠ [] ∨ w.engine.isShutdown ∧ 0 < w.fresh + w.waiting

lemma HasWork.before {t : List Event} (h : w'.HasWork) (hr : Rouses w.engine t w'.engine)
    (hn : w'.fresh + w'.waiting ≤ w.fresh + w.waiting) : w.HasWork ∨ wakes t := by
  rcases h with h | h | ⟨h, hp⟩
  · exact (hr.incoming h).imp_left .inl
  · exact (hr.overflow h).imp_left fun h => .inr (.inl h)
  · exact (hr.shutdown h).imp_left fun h => .inr (.inr ⟨h, Nat.lt_of_lt_of_le hp hn⟩)

/-- The books of the engine are in order, and a wake-up is pending if there is work. -/
structure Alert (w : Crew) : Prop where
  tracks : Tracks [] w.engine
  woken : w.HasWork → w.woken

lemma alert_ofConfig (c : Config) : (ofConfig c).Alert where
  tracks := tracks_ofConfig c
  woken h := by
    rcases h with h | h | ⟨h, -⟩
    · exact absurd rfl h
    · exact absurd rfl h
    · cases h

/-- A wake-up stays pending as long as none is used up. -/
lemma Alert.rouse {t : List Event} (hw : w.Alert) (hr : Rouses w.engine t w'.engine)
    (ht : Tracks [] w'.engine) (hn : w'.fresh + w'.waiting ≤ w.fresh + w.waiting)
    (hk : w'.woken = (w.woken || wakes t)) : w'.Alert where
  tracks := ht
  woken h := by
    rw [hk, Bool.or_eq_true]
    exact (h.before hr hn).imp_left hw.woken

lemma Alert.step (hw : w.Alert) (h : Step w w') : w'.Alert := by
  cases h with
  | asks h =>
    obtain ⟨hr, ht⟩ := rouses_follow hw.tracks h
    exact hw.rouse hr ht (Nat.le_refl _) rfl
  | @begins e e' woken b fresh waiting t h =>
    obtain ⟨hr, ht, -⟩ := rouses_comeRound hw.tracks h
    refine hw.rouse hr ht ?_ rfl
    have := b.toNat_le
    change fresh + (waiting + b.toNat) ≤ fresh + 1 + waiting
    omega
  | @fails e e' woken b fresh waiting t h =>
    obtain ⟨hr, ht, -⟩ := rouses_comeRound hw.tracks h
    exact hw.rouse hr ht (Nat.add_le_add_left (Nat.add_le_add_left b.toNat_le _) _) rfl
  | @returns e e₁ e' woken b fresh waiting t u left tokens hl hs h =>
    -- the wake-up may be gone, so the calls of this turn have to make up for it
    obtain ⟨hq, ht₁⟩ := wakes_serve hw.tracks hs
    obtain ⟨hr, ht, hd⟩ := rouses_comeRound ht₁ h
    refine ⟨ht, fun h => ?_⟩
    change (left || wakes (t ++ u)) = true
    rw [wakes_append, Bool.or_eq_true, Bool.or_eq_true]
    right
    rcases h with h | h | ⟨h, -⟩
    · exact (hr.incoming h).imp_left fun h => hq (.inl h)
    · exact (hr.overflow h).imp_left fun h => hq (.inr h)
    · exact .inr (hd h)

lemma Reached.alert (h : Reached c w) : w.Alert := by
  induction h with
  | new => exact alert_ofConfig c
  | step _ h ih => exact ih.step h

end Crew

/-- **Wake-ups**: whenever there is something to do for a loop, a wake-up is pending, so no loop
that comes to its wait stays in it. -/
theorem woken_of_hasWork {c : Config} {w : Crew} (h : Crew.Reached c w) (hw : w.HasWork) :
    w.woken :=
  h.alert.woken hw

/-- Two loops and two queries. One loop uses the wake-up of both submissions up, but takes only the
first query, which fails to connect. It has woken the other loop for the second one. -/
theorem woken_of_hasWork_share : ∃ w : Crew, Crew.Reached { workers := 2 } w ∧ w.waiting = 2 ∧
    w.engine.incoming = [1] ∧ w.engine.tracked = [1] ∧ w.HasWork ∧ w.woken := by
  have h := Crew.Reached.new (c := { workers := 2 })
  have h := h.step (.begins (b := true) (t := [⟨.now, 1⟩, ⟨.now, 2⟩])
    (.call _ (.call _ (.pure _))))
  have h := h.step (.begins (b := true) (t := [⟨.now, 3⟩, ⟨.now, 4⟩])
    (.call _ (.call _ (.pure _))))
  have h := h.step (.asks (q := .submit .blank { server := ⟨.localhost, 53⟩, mode := .tcpOnly })
    (t := [⟨.now, 5⟩, ⟨.wake, ()⟩]) (.call _ (.call _ (.pure _))))
  have h := h.step (.asks (q := .submit .blank { server := ⟨.localhost, 53⟩, mode := .tcpOnly })
    (t := [⟨.now, 6⟩, ⟨.wake, ()⟩]) (.call _ (.call _ (.pure _))))
  have h := h.step (.returns false [wakeToken] (b := true)
    (t := [⟨.wake, ()⟩, ⟨.connectTcp ⟨.localhost, 53⟩, .error ⟨.addrNotAvailable, ""⟩⟩])
    (u := [⟨.now, 7⟩, ⟨.now, 8⟩])
    nofun (.call _ (.call _ (.pure _))) (.call _ (.call _ (.pure _))))
  have hw {w : Crew} (hi : w.engine.incoming = [1]) : w.HasWork := .inl fun hn => by
    rw [hn] at hi
    cases hi
  exact ⟨_, h, rfl, rfl, rfl, hw rfl, woken_of_hasWork h (hw rfl)⟩

end DnsClient
