import DnsClient.Engine.Tasks

/-!
Why an agenda comes to its end: every task leads to less load than it had.

So `Engine.settle` performs the first task, whatever it sets off, and then the rest
(`settle_cons`), and its limit never cuts a run short.
-/

namespace DnsClient

open Program

/-! ### Loads -/

@[simp] theorem load_comp_notify (o : Outcome) :
    (Task.load ∘ fun k => Task.notify k o) = Continuation.load := rfl

@[simp] theorem load_comp_request : Task.load ∘ Task.request = EngineRequest.load := rfl

@[simp] theorem total_load_requests (rs : List EngineRequest) :
    total EngineRequest.load rs = EngineRequest.loads rs := by
  induction rs with
  | nil => rfl
  | cons r rs ih => simp [EngineRequest.loads, ih]

theorem EngineRequest.two_le_load (r : EngineRequest) : 2 ≤ r.load := by
  cases r <;> simp [load]

theorem Task.load_pos (t : Task) : 0 < t.load := by
  cases t with
  | request r => have := r.two_le_load; simp [load]; omega
  | notify k o => simp [load, Continuation.load]
  | _ => simp [load]

namespace Engine

theorem load_setSlot {e : Engine} {id : QueryId} {s : Slot} (h : e.slot? id = some s) (s' : Slot) :
    (e.setSlot id s').load + s.load ≤ e.load + s'.load := by
  have := Table.total_erase_add_le h fun p => p.2.load
  simp [load, setSlot, Table.insert] at *
  omega

theorem load_forget (e : Engine) (id : QueryId) : (e.forget id).load ≤ e.load := by
  have := Schedule.size_remove_le e.schedule id
  simp [load, forget]
  omega

theorem load_complete (e : Engine) (id : QueryId) (o : Outcome) :
    totalLoad (e.complete id o).1 (e.complete id o).2 ≤ e.load := by
  unfold complete
  split
  · simp [totalLoad]
  · next s hs =>
    split
    · simp [totalLoad]
    · next ks cell hc =>
      have := load_setSlot hs { s with cell }
      simp only [Cell.complete?] at hc
      split at hc
      · cases hc
      · cases hc
        simp [totalLoad, Slot.load] at *
        omega

theorem load_abandon {e e' : Engine} {id : QueryId} {t : List Event}
    (h : Yields (e.abandon id) t e') : e'.load ≤ e.load := by
  unfold abandon at h
  split at h
  · obtain ⟨-, rfl⟩ := yields_pure.1 h
    exact Nat.le_refl _
  · next s hs =>
    obtain ⟨_, q, _, -, hq, -⟩ := yields_bind.1 h
    obtain ⟨-, rfl⟩ := yields_pure.1 hq
    have := load_setSlot hs { s with query := q }
    simp [Slot.load] at this
    omega

theorem load_conclude {e : Engine} {id : QueryId} {s : Slot} (h : e.slot? id = some s)
    (r : Step × Query) :
    totalLoad (e.conclude id s r).1 (e.conclude id s r).2 ≤ e.load := by
  have hs := load_setSlot h { s with query := r.2 }
  simp only [Slot.load] at hs
  obtain ⟨_ | _ | _, q⟩ := r <;> simp only [conclude] at hs ⊢
  · simp [totalLoad]; omega
  all_goals
    refine Nat.le_trans (load_complete _ _ _) (Nat.le_trans (load_forget _ _) ?_)
    omega

theorem load_start {e : Engine} {id : QueryId} {t : List Event} {r : List Task × Engine}
    (h : Yields (e.start id) t r) : totalLoad r.1 r.2 ≤ e.load := by
  unfold start at h
  split at h
  · obtain ⟨-, rfl⟩ := yields_pure.1 h
    simp [totalLoad]
  · next hs =>
    split at h
    · obtain ⟨-, rfl⟩ := yields_pure.1 h
      simp [totalLoad]
    · obtain ⟨_, x, _, -, hx, -⟩ := yields_bind.1 h
      obtain ⟨-, rfl⟩ := yields_pure.1 hx
      exact load_conclude hs x

theorem load_dispatch {e : Engine} {token : QueryId} {t : List Event} {r : List Task × Engine}
    (h : Yields (e.dispatch token) t r) : totalLoad r.1 r.2 ≤ e.load := by
  unfold dispatch at h
  split at h
  · split at h
    · obtain ⟨-, rfl⟩ := yields_pure.1 h
      simp [totalLoad]
    · next hs =>
      split at h
      · obtain ⟨_, x, _, hx, hr, -⟩ := yields_bind.1 h
        obtain ⟨-, rfl⟩ := yields_pure.1 hr
        have := load_abandon hx
        have := load_forget x token
        simp [totalLoad]; omega
      · obtain ⟨_, x, _, -, hx, -⟩ := yields_bind.1 h
        obtain ⟨-, rfl⟩ := yields_pure.1 hx
        exact load_conclude hs x
  · obtain ⟨-, rfl⟩ := yields_pure.1 h
    simp [totalLoad]

theorem load_shutDown {e : Engine} {id : QueryId} {t : List Event} {r : List Task × Engine}
    (h : Yields (e.shutDown id) t r) : totalLoad r.1 r.2 ≤ e.load := by
  obtain ⟨_, x, _, hx, hr, -⟩ := yields_bind.1 h
  obtain ⟨-, rfl⟩ := yields_pure.1 hr
  have := load_abandon hx
  have := load_complete x id (.failed .shutdown)
  omega

theorem load_expire {e : Engine} {now : Instant} {t : List Event} {r : List Task × Engine}
    (h : Yields (e.expire now) t r) : totalLoad r.1 r.2 ≤ e.load := by
  have hle := Schedule.size_popExpired_le e.schedule now
  have hlt := @Schedule.size_popExpired e.schedule now
  unfold expire at h
  dsimp only at h
  split at h
  · obtain ⟨-, rfl⟩ := yields_pure.1 h
    simp [totalLoad, load]; omega
  · next id hid =>
    have := hlt hid
    split at h
    · obtain ⟨_, x, _, hx, hr, -⟩ := yields_bind.1 h
      obtain ⟨-, rfl⟩ := yields_pure.1 hr
      have h1 := load_abandon hx
      have h2 := load_complete x id (.failed .timeout)
      simp [totalLoad, load, Task.load] at h1 h2 ⊢
      omega
    · obtain ⟨-, rfl⟩ := yields_pure.1 h
      simp [totalLoad, load, Task.load]
      omega

/-! ### Requests -/

theorem load_accept (e : Engine) (m : Message) (p : QueryParams) (now : Instant) :
    (e.accept m p now).load ≤ e.load + 1 := by
  have h1 := Table.total_erase_le e.slots e.nextId fun p => p.2.load
  have h2 := Schedule.size_insert_le e.schedule e.nextId (now + p.timeout)
  simp [load, accept, Table.insert, Slot.load] at *
  omega

theorem load_onComplete (e : Engine) (k : Continuation) :
    totalLoad (e.onComplete k).1 (e.onComplete k).2 ≤ k.load + e.load := by
  unfold onComplete
  split
  · simp [totalLoad]
  · next id _ =>
    split
    · simp [totalLoad]
    · next s hs =>
      have := load_setSlot hs { s with cell := (s.cell.onComplete k).2 }
      cases hc : s.cell.outcome? <;>
        simp [Cell.onComplete, hc, totalLoad, Slot.load, Task.load] at this ⊢ <;> omega

theorem load_withdraw {e e' : Engine} {id : QueryId} {t : List Event}
    (h : Yields (e.withdraw id) t e') : e'.load ≤ e.load := by
  obtain ⟨_, x, _, hx, hr, -⟩ := yields_bind.1 h
  obtain ⟨_, _, _, -, hr, -⟩ := yields_bind.1 hr
  obtain ⟨-, rfl⟩ := yields_pure.1 hr
  refine Nat.le_trans ?_ (load_forget e id)
  split at hx
  · exact load_abandon hx
  · obtain ⟨-, rfl⟩ := yields_pure.1 hx
    exact Nat.le_refl _

theorem load_cleanUp {e e' : Engine} {hook : Option QueryId} {t : List Event}
    (h : Yields (e.cleanUp hook) t e') : e'.load ≤ e.load := by
  cases hook with
  | none => obtain ⟨-, rfl⟩ := yields_pure.1 h; exact Nat.le_refl _
  | some id => exact load_withdraw h

theorem load_cancelQuery {e : Engine} {id : QueryId} {t : List Event}
    {r : Bool × List Task × Engine} (h : Yields (e.cancelQuery id) t r) :
    totalLoad r.2.1 r.2.2 ≤ e.load := by
  unfold cancelQuery at h
  split at h
  · obtain ⟨-, rfl⟩ := yields_pure.1 h
    simp [totalLoad]
  · next s hs =>
    split at h
    · obtain ⟨-, rfl⟩ := yields_pure.1 h
      simp [totalLoad]
    · next hook ks cell hc =>
      have hl := load_setSlot hs { s with cell }
      obtain ⟨_, x, _, hx, hr, -⟩ := yields_bind.1 h
      obtain ⟨-, rfl⟩ := yields_pure.1 hr
      have := load_cleanUp hx
      simp only [Cell.cancel?] at hc
      split at hc
      · cases hc
      · cases hc
        simp [totalLoad, Slot.load] at hl ⊢
        omega

theorem load_serveRequest {e : Engine} {q : EngineRequest} {t : List Event}
    {r : List Task × Engine} (h : Yields (e.serveRequest q) t r) :
    totalLoad r.1 r.2 < q.load + e.load := by
  cases q with
  | submit m p requests =>
    obtain ⟨_, ⟨x, e'⟩, _, hx, hr, -⟩ := yields_bind.1 h
    unfold submit at hx
    split at hx
    · cases (yields_pure.1 hx).2
      obtain ⟨-, rfl⟩ := yields_pure.1 hr
      simp [totalLoad, load, Task.load, EngineRequest.load]
    · obtain ⟨_, now, _, -, hx, -⟩ := yields_bind.1 hx
      obtain ⟨_, _, _, -, hx, -⟩ := yields_bind.1 hx
      cases (yields_pure.1 hx).2
      obtain ⟨-, rfl⟩ := yields_pure.1 hr
      have h1 := load_accept e m p now
      have h2 := load_onComplete (e.accept m p now) ⟨e.handles.length, requests⟩
      simp only [totalLoad, total_cons, Task.load, EngineRequest.load,
        Continuation.load] at h2 ⊢
      omega
  | cancel handle =>
    simp only [serveRequest, cancel] at h
    split at h
    · obtain ⟨-, rfl⟩ := yields_pure.1 h
      simp [totalLoad, Task.load, EngineRequest.load]
    · obtain ⟨_, ⟨b, ts, e'⟩, _, hx, hr, -⟩ := yields_bind.1 h
      obtain ⟨-, rfl⟩ := yields_pure.1 hr
      have := load_cancelQuery hx
      simp [totalLoad, Task.load, EngineRequest.load] at this ⊢
      omega
  | pending =>
    obtain ⟨-, rfl⟩ := yields_pure.1 h
    simp [totalLoad, Task.load, EngineRequest.load]
  | shutdown =>
    obtain ⟨_, ⟨b, e'⟩, _, hx, hr, -⟩ := yields_bind.1 h
    obtain ⟨-, rfl⟩ := yields_pure.1 hr
    have : e'.load = e.load := by
      unfold beginShutdown at hx
      split at hx
      · cases (yields_pure.1 hx).2
        rfl
      · obtain ⟨_, _, _, -, hx, -⟩ := yields_bind.1 hx
        cases (yields_pure.1 hx).2
        rfl
    simp [totalLoad, Task.load, EngineRequest.load, this]

/-! ### Settling -/

/-- A task leads to less load than there was with it. -/
theorem load_perform {e : Engine} {task : Task} {t : List Event} {r : List Task × Engine}
    (h : Yields (e.perform task) t r) : totalLoad r.1 r.2 < task.load + e.load := by
  cases task with
  | request q => exact load_serveRequest h
  | reply x =>
    obtain ⟨_, _, _, -, hr, -⟩ := yields_bind.1 h
    obtain ⟨-, rfl⟩ := yields_pure.1 hr
    simp [totalLoad, Task.load]
  | notify k o =>
    obtain ⟨_, _, _, -, hr, -⟩ := yields_bind.1 h
    obtain ⟨-, rfl⟩ := yields_pure.1 hr
    simp [totalLoad, Task.load, Continuation.load]
  | start id => have := load_start h; simp only [Task.load]; omega
  | dispatch token => have := load_dispatch h; simp only [Task.load]; omega
  | expire now => have := load_expire h; simp only [Task.load]; omega
  | shutDown id => have := load_shutDown h; simp only [Task.load]; omega

theorem settleWithin_of_le {n m : Nat} {ts : List Task} {e : Engine} (hn : totalLoad ts e ≤ n)
    (hm : totalLoad ts e ≤ m) : settleWithin n ts e = settleWithin m ts e := by
  induction n generalizing m ts e with
  | zero =>
    cases ts with
    | nil => cases m <;> rfl
    | cons t ts => have := t.load_pos; simp [totalLoad] at hn; omega
  | succ n ih =>
    cases ts with
    | nil => cases m <;> rfl
    | cons t ts =>
      cases m with
      | zero => have := t.load_pos; simp [totalLoad] at hm; omega
      | succ m =>
        refine bind_congr fun tr r hr => ?_
        have := load_perform hr
        exact ih (by simp [totalLoad] at *; omega) (by simp [totalLoad] at *; omega)

@[simp] theorem settle_nil (e : Engine) : e.settle [] = .pure e := by
  rw [settle]
  cases totalLoad [] e <;> rfl

/-- The first task and all that it sets off come before the other tasks. -/
theorem settle_cons (e : Engine) (t : Task) (ts : List Task) :
    e.settle (t :: ts) = e.perform t >>= fun r => r.2.settle (r.1 ++ ts) := by
  have := t.load_pos
  obtain ⟨n, hn⟩ : ∃ n, totalLoad (t :: ts) e = n + 1 :=
    ⟨totalLoad (t :: ts) e - 1, by simp [totalLoad]; omega⟩
  rw [settle, hn]
  refine bind_congr fun tr r hr => ?_
  have := load_perform hr
  exact settleWithin_of_le (by simp [totalLoad] at *; omega) (Nat.le_refl _)

/-- What holds of an empty agenda, and of an agenda if it does once its first task is performed,
holds of every agenda that settles. -/
theorem settle_induction {e' : Engine} {P : List Task → Engine → List Event → Prop}
    (nil : P [] e' [])
    (cons : ∀ {k ts e t new e₁ u}, Yields (e.perform k) t (new, e₁) → P (new ++ ts) e₁ u →
      P (k :: ts) e (t ++ u))
    {ts : List Task} {e : Engine} {t : List Event} (h : Yields (e.settle ts) t e') : P ts e t := by
  generalize hn : totalLoad ts e = n
  induction n using Nat.strongRecOn generalizing ts e t with
  | ind n ih =>
    cases ts with
    | nil =>
      rw [settle_nil] at h
      obtain ⟨rfl, rfl⟩ := yields_pure.1 h
      exact nil
    | cons k ts =>
      rw [settle_cons] at h
      obtain ⟨u, r, v, hk, hr, rfl⟩ := yields_bind.1 h
      have := load_perform hk
      exact cons hk (ih _ (by simp [totalLoad] at *; omega) hr rfl)

end Engine

end DnsClient
