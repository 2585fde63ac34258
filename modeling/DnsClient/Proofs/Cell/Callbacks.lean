import DnsClient.Cell.Calls
import Mathlib.Data.List.Perm.Basic
import Mathlib.Tactic.Common

/-!
What a cell runs, and when.

As long as there is no outcome nothing runs, so calls come one after the other. The one that sets
the outcome runs all that waits, and the cell is by then as it stays ever after. What is registered
later runs within its own call. `CellCourse` says so of the events of a run, in their order, and
`CellTally` counts them.
-/

namespace DnsClient

namespace CellCall

/-- The outcome that the call sets if the cell has none. -/
def sets? : CellCall → Option Outcome
  | .complete o => some o
  | .cancel => some .cancelled
  | _ => none

def continuation? : CellCall → Option Callback
  | .onComplete tag cs => some ⟨tag, cs⟩
  | _ => none

def hook? : CellCall → Option Callback
  | .setHook tag cs => some ⟨tag, cs⟩
  | _ => none

/-- What the call answers when it finds the cell with an outcome, or without one. -/
def reply (o? : Option Outcome) : CellCall → CellAnswer
  | .complete _ | .cancel => .truth o?.isNone
  | .isFinished => .truth o?.isSome
  | .outcome | .waitTimeout _ => .outcome o?
  | .wait => if o?.isSome then .outcome o? else .blocks
  | .describe => .described o?.isSome
  | .setHook .. | .onComplete .. => .done

def returns (o? : Option Outcome) (c : CellCall) : CellEvent := .returned c (c.reply o?)

/-- The continuations that the calls register. -/
def waiting (cs : List CellCall) : List Callback := cs.filterMap continuation?

/-- The hook that the calls set last. -/
def lastHook? (cs : List CellCall) : Option Callback := (cs.filterMap hook?).getLast?

mutual

/-- The events of a call before it returns, on a cell that has the outcome. -/
def within (o : Outcome) : CellCall → List CellEvent
  | .onComplete tag cs => .completed tag o :: late o cs
  | _ => []

/-- The events of calls on a cell that has the outcome. -/
def late (o : Outcome) : List CellCall → List CellEvent
  | [] => []
  | c :: cs => c.within o ++ c.returns (some o) :: late o cs

end

/-- The calls that a continuation makes which the call hands over. -/
def nested (c : CellCall) : List CellCall := (c.continuation?.map Callback.calls).getD []

lemma weight_pos (c : CellCall) : 0 < c.weight := by cases c <;> simp [weight]

lemma weights_nested_lt (c : CellCall) : weights c.nested < c.weight := by
  cases c with
  | onComplete tag cs => simp [nested, continuation?, weight]
  | _ => exact weight_pos _

/-- Induction over calls and over what the continuations among them call. -/
theorem nested_induction {P : List CellCall → Prop} (nil : P [])
    (cons : ∀ c cs, P c.nested → P cs → P (c :: cs)) : (cs : List CellCall) → P cs
  | [] => nil
  | c :: cs => cons c cs (nested_induction nil cons c.nested) (nested_induction nil cons cs)
termination_by cs => weights cs
decreasing_by
  · have := c.weights_nested_lt
    simp only [weights]
    omega
  · have := c.weight_pos
    simp only [weights]
    omega

end CellCall

open CellCall

namespace Callback

/-- The events of a continuation that gets the outcome. -/
def told (o : Outcome) (k : Callback) : List CellEvent := .completed k.tag o :: late o k.calls

/-- The events of a hook, which runs when the cell is cancelled. -/
def fired (k : Callback) : List CellEvent := .hookRan k.tag :: late .cancelled k.calls

end Callback

lemma CellCall.within_eq (o : Outcome) (c : CellCall) :
    c.within o = c.continuation?.toList.flatMap (Callback.told o) := by
  cases c <;> simp [within, continuation?, Callback.told]

/-- The cell without outcome that calls have left to a fresh one. -/
def CallCell.early (cs : List CellCall) : CallCell :=
  { continuations := waiting cs, hook? := lastHook? cs }

/-- The events of calls on a fresh cell, and what becomes of it. -/
inductive CellCourse : List CellCall → List CellEvent → CallCell → Prop
  | waits {cs : List CellCall} (h : ∀ c ∈ cs, c.sets? = none) :
    CellCourse cs (cs.map (returns none)) (.early cs)
  | completes {pre post : List CellCall} {o : Outcome} (h : ∀ c ∈ pre, c.sets? = none) :
    CellCourse (pre ++ .complete o :: post)
      (pre.map (returns none) ++ ((waiting pre).flatMap (Callback.told o) ++
        .returned (.complete o) (.truth true) :: late o post))
      { outcome? := some o }
  | cancels {pre post : List CellCall} (h : ∀ c ∈ pre, c.sets? = none) :
    CellCourse (pre ++ .cancel :: post)
      (pre.map (returns none) ++ ((lastHook? pre).toList.flatMap Callback.fired ++
        (waiting pre).flatMap (Callback.told .cancelled) ++
        .returned .cancel (.truth true) :: late .cancelled post))
      { outcome? := some .cancelled }

/-! ### Counts -/

namespace CellEvent

/-- A call that would set an outcome has returned. -/
def tries : CellEvent → Bool
  | .returned c _ => c.sets?.isSome
  | _ => false

/-- A call that would set an outcome has returned, and it has set it. -/
def takesEffect : CellEvent → Bool
  | .returned c (.truth b) => c.sets?.isSome && b
  | _ => false

def completion? : CellEvent → Option (String × Outcome)
  | .completed tag o => some (tag, o)
  | _ => none

def registration? : CellEvent → Option String
  | .returned (.onComplete tag _) _ => some tag
  | _ => none

def hookRan? : CellEvent → Option String
  | .hookRan tag => some tag
  | _ => none

/-- The continuations that have run, with the outcome each got. -/
def completions (evs : List CellEvent) : List (String × Outcome) := evs.filterMap completion?

/-- The continuations that have been registered, in calls at any depth. -/
def registrations (evs : List CellEvent) : List String := evs.filterMap registration?

def hooksRun (evs : List CellEvent) : List String := evs.filterMap hookRan?

variable (evs evs' : List CellEvent) (c : CellCall) (a : CellAnswer)

@[simp] lemma completions_nil : completions [] = [] := rfl

@[simp] lemma hooksRun_nil : hooksRun [] = [] := rfl

@[simp] lemma completions_append :
    completions (evs ++ evs') = completions evs ++ completions evs' :=
  List.filterMap_append

@[simp] lemma registrations_append :
    registrations (evs ++ evs') = registrations evs ++ registrations evs' :=
  List.filterMap_append

@[simp] lemma hooksRun_append : hooksRun (evs ++ evs') = hooksRun evs ++ hooksRun evs' :=
  List.filterMap_append

@[simp] lemma completions_returned : completions (.returned c a :: evs) = completions evs := rfl

@[simp] lemma hooksRun_returned : hooksRun (.returned c a :: evs) = hooksRun evs := rfl

lemma registrations_of_sets {c : CellCall} {o : Outcome} (h : c.sets? = some o) :
    registrations (.returned c a :: evs) = registrations evs := by
  cases c with
  | onComplete => cases h
  | _ => rfl

end CellEvent

open CellEvent

/-- What has happened how often when calls on a fresh cell are through. -/
structure CellTally (cs : List CellCall) (evs : List CellEvent) (c : CallCell) : Prop where
  /-- The first call that would set an outcome sets it. -/
  outcome : c.outcome? = cs.findSome? sets?
  /-- No other call does, at any depth. -/
  once : evs.countP takesEffect = if evs.any tries then 1 else 0
  /-- Each continuation runs once when there is an outcome, and with that outcome. -/
  completions : (completions evs).Perm
    ((registrations evs).flatMap fun tag => c.outcome?.toList.map (tag, ·))
  /-- The hook runs that was set last before a `cancel` which set the outcome. -/
  hooks : hooksRun evs = match cs.find? (·.sets?.isSome) with
    | some .cancel => (lastHook? (cs.takeWhile (·.sets?.isNone))).toList.map Callback.tag
    | _ => []

/-! ### Runs -/

namespace CellTask

@[simp] lemma run_nil (c : CallCell) : run c [] = ([], c) := by rw [run]

lemma run_append {c c₁ c₂ : CallCell} {ts us : List CellTask} {evs evs' : List CellEvent}
    (h : run c ts = (evs, c₁)) (h' : run c₁ us = (evs', c₂)) :
    run c (ts ++ us) = (evs ++ evs', c₂) := by
  induction c, ts using run.induct generalizing evs with
  | case1 c =>
    rw [run_nil] at h
    cases h
    exact h'
  | case2 c t ts s =>
    rename_i ih
    rw [run] at h
    cases h
    rw [List.cons_append, run]
    simp only [← List.append_assoc, ih rfl, s]

/-- A task runs to its end what it puts in front of the agenda, and then the others run. -/
lemma run_cons {c c₁ c₂ c₃ : CallCell} {t : CellTask} {ts us : List CellTask}
    {e? : Option CellEvent} {evs evs' : List CellEvent} (h : t.step c = (ts, c₁, e?))
    (ht : run c₁ ts = (evs, c₂)) (hu : run c₂ us = (evs', c₃)) :
    run c (t :: us) = (e?.toList ++ evs ++ evs', c₃) := by
  rw [run]
  simp [h, run_append ht hu]

lemma run_answer (c : CallCell) (q : CellCall) (a : CellAnswer) :
    run c [.answer q a] = ([.returned q a], c) :=
  run_cons (t := .answer q a) rfl (run_nil c) (run_nil c)

end CellTask

namespace CallCell

/-- A cell with an outcome has no callbacks left, and takes none. -/
abbrev finished (o : Outcome) : CallCell := { outcome? := some o }

open CellTask

lemma step_finished (o : Outcome) (c : CellCall) :
    (CellTask.call c).step (finished o) =
      (c.continuation?.toList.map (.continuation · o) ++ [.answer c (c.reply (some o))],
        finished o, none) := by
  cases c <;> simp [step, continuation?, reply, Cell.complete?, Cell.cancel?, Cell.onComplete,
    Cell.setHook, Cell.isFinished]

/-- Continuations one after the other, on a cell with the outcome. -/
lemma run_continuations {o : Outcome} (ks : List Callback)
    (h : ∀ k ∈ ks, run (finished o) k.calls = (late o k.calls, finished o)) :
    CellTask.run (finished o) (ks.map (.continuation · o)) =
      (ks.flatMap (Callback.told o), finished o) := by
  induction ks with
  | nil => exact run_nil _
  | cons k ks ih =>
    have hk := h k List.mem_cons_self
    have hks := ih fun k' hk' => h k' (List.mem_cons_of_mem k hk')
    exact run_cons rfl hk hks

/-- On a cell with an outcome all calls do what `late` says, and the cell stays as it is. -/
lemma run_finished (o : Outcome) (cs : List CellCall) :
    run (finished o) cs = (late o cs, finished o) := by
  induction cs using nested_induction with
  | nil => exact run_nil _
  | cons c cs ihc ih =>
    have hk : ∀ k ∈ c.continuation?.toList,
        run (finished o) k.calls = (late o k.calls, finished o) := by
      intro k hk
      have hc : c.nested = k.calls := by
        rw [nested, Option.mem_toList.1 hk]
        rfl
      exact hc ▸ ihc
    have := run_cons (step_finished o c)
      (run_append (run_continuations _ hk) (run_answer _ c (c.reply (some o)))) ih
    simpa [run, late, within_eq, returns] using this

lemma step_early (pre : List CellCall) {c : CellCall} (h : c.sets? = none) :
    (CellTask.call c).step (early pre) =
      ([.answer c (c.reply none)], early (pre ++ [c]), none) := by
  cases c <;> simp_all [step, sets?, reply, early, waiting, lastHook?, continuation?, hook?,
    Cell.onComplete, Cell.setHook, Cell.isFinished]

/-- While there is no outcome, calls return one after the other and nothing runs. -/
lemma run_early {cs : List CellCall} (pre : List CellCall) (h : ∀ c ∈ cs, c.sets? = none) :
    run (early pre) cs = (cs.map (returns none), early (pre ++ cs)) := by
  induction cs generalizing pre with
  | nil => simp [run]
  | cons c cs ih =>
    have hc := step_early pre (h c List.mem_cons_self)
    have hcs := ih (pre ++ [c]) fun c' hc' => h c' (List.mem_cons_of_mem c hc')
    have := run_cons hc (run_answer _ c _) hcs
    simpa [run, returns] using this

/-- The call that sets the outcome runs what waits, with the cell as it stays. -/
lemma run_complete (pre : List CellCall) (o : Outcome) (post : List CellCall) :
    run (early pre) (.complete o :: post) = ((waiting pre).flatMap (Callback.told o) ++
      .returned (.complete o) (.truth true) :: late o post, finished o) := by
  have hc : (CellTask.call (.complete o)).step (early pre) =
      ((waiting pre).map (.continuation · o) ++ [.answer (.complete o) (.truth true)],
        finished o, none) := rfl
  have hk := run_continuations (waiting pre) fun k _ => run_finished o k.calls
  have := run_cons hc (run_append hk (run_answer _ _ _)) (run_finished o post)
  simpa [run] using this

/-- Cancelling runs the hook first. -/
lemma run_cancel (pre post : List CellCall) :
    run (early pre) (.cancel :: post) = ((lastHook? pre).toList.flatMap Callback.fired ++
      (waiting pre).flatMap (Callback.told .cancelled) ++
      .returned .cancel (.truth true) :: late .cancelled post, finished .cancelled) := by
  have hc : (CellTask.call .cancel).step (early pre) =
      ((lastHook? pre).toList.map .hook ++ (waiting pre).map (.continuation · .cancelled) ++
        [.answer .cancel (.truth true)], finished .cancelled, none) := rfl
  have hh : CellTask.run (finished .cancelled) ((lastHook? pre).toList.map .hook) =
      ((lastHook? pre).toList.flatMap Callback.fired, finished .cancelled) := by
    cases lastHook? pre with
    | none => exact run_nil _
    | some k =>
      have := run_cons (t := .hook k) rfl (run_finished .cancelled k.calls) (run_nil _)
      simpa [Callback.fired] using this
  have hk := run_continuations (waiting pre) fun k _ => run_finished .cancelled k.calls
  have := run_cons hc (run_append (run_append hh hk) (run_answer _ _ _))
    (run_finished .cancelled post)
  simpa [run] using this

lemma course_run (cs : List CellCall) : CellCourse cs (run {} cs).1 (run {} cs).2 := by
  cases hf : cs.find? (·.sets?.isSome) with
  | none =>
    have h : ∀ c ∈ cs, c.sets? = none := by simpa using hf
    rw [show ({} : CallCell) = early [] from rfl, run_early [] h]
    exact .waits h
  | some c =>
    obtain ⟨hc, pre, post, rfl, hpre⟩ := List.find?_eq_some_iff_append.1 hf
    have h : ∀ c ∈ pre, c.sets? = none := by simpa using hpre
    have he := run_early [] h
    cases c with
    | complete o =>
      have := run_append he (run_complete pre o post)
      rw [← List.map_append] at this
      rw [run, show ({} : CallCell) = early [] from rfl, this]
      exact .completes h
    | cancel =>
      have := run_append he (run_cancel pre post)
      rw [← List.map_append] at this
      rw [run, show ({} : CallCell) = early [] from rfl, this]
      exact .cancels h
    | _ => simp [sets?] at hc

end CallCell

/-! ### Counting -/

/-- The events serve the continuations that are due and those they register themselves, and run
the hooks. No call among them sets an outcome. -/
structure Serves (o : Outcome) (due hooks : List String) (evs : List CellEvent) : Prop where
  completions : (completions evs).Perm ((due ++ registrations evs).map (·, o))
  takesEffect : evs.countP takesEffect = 0
  hooks : hooksRun evs = hooks

namespace Serves

variable {o : Outcome} {due due' hooks hooks' : List String} {evs evs' : List CellEvent}

lemma nil (o : Outcome) : Serves o [] [] [] := ⟨.nil, rfl, rfl⟩

lemma completed (tag : String) (o : Outcome) : Serves o [tag] [] [.completed tag o] :=
  ⟨.rfl, rfl, rfl⟩

lemma hookRan (tag : String) (o : Outcome) : Serves o [] [tag] [.hookRan tag] :=
  ⟨.nil, rfl, rfl⟩

lemma append (h : Serves o due hooks evs) (h' : Serves o due' hooks' evs') :
    Serves o (due ++ due') (hooks ++ hooks') (evs ++ evs') where
  completions := by
    have := h.completions.append h'.completions
    rw [← List.map_append] at this
    rw [completions_append, registrations_append]
    refine this.trans (List.Perm.map _ ?_)
    simp only [List.append_assoc]
    refine List.Perm.append_left _ ?_
    simp only [← List.append_assoc]
    exact List.perm_append_comm.append_right _
  takesEffect := by rw [List.countP_append, h.takesEffect, h'.takesEffect]
  hooks := by rw [hooksRun_append, h.hooks, h'.hooks]

/-- A continuation that has run counts as registered when the call that hands it over returns. -/
lemma registered {tag : String} (h : Serves o (tag :: due) hooks evs) (cs : List CellCall) :
    Serves o due hooks (evs ++ [.returned (.onComplete tag cs) .done]) where
  completions := by
    have : (tag :: due ++ registrations evs).Perm
        (due ++ registrations (evs ++ [.returned (.onComplete tag cs) .done])) := by
      rw [registrations_append, ← List.append_assoc]
      exact (List.perm_append_singleton ..).symm
    simpa using h.completions.trans (this.map _)
  takesEffect := by simp [List.countP_append, h.takesEffect, CellEvent.takesEffect]
  hooks := by simp [h.hooks]

/-- What is registered late is served within its call. -/
lemma late (o : Outcome) (cs : List CellCall) : Serves o [] [] (late o cs) := by
  induction cs using nested_induction with
  | nil => exact .nil o
  | cons c cs ihc ih =>
    have hc : Serves o [] [] (c.within o ++ [c.returns (some o)]) := by
      cases c with
      | onComplete tag cs =>
        have := (completed tag o).append ihc
        exact this.registered cs
      | _ => exact ⟨.nil, rfl, rfl⟩
    have := hc.append ih
    simpa [CellCall.late] using this

lemma told (o : Outcome) (ks : List Callback) :
    Serves o (ks.map Callback.tag) [] (ks.flatMap (Callback.told o)) := by
  induction ks with
  | nil => exact .nil o
  | cons k ks ih => exact ((completed k.tag o).append (late o k.calls)).append ih

lemma fired (k? : Option Callback) :
    Serves .cancelled [] (k?.toList.map Callback.tag) (k?.toList.flatMap Callback.fired) := by
  cases k? with
  | none => exact .nil _
  | some k =>
    have := (hookRan k.tag _).append (late .cancelled k.calls)
    simpa [Callback.fired] using this

end Serves

/-! ### Before there is an outcome -/

lemma completions_early (cs : List CellCall) : completions (cs.map (returns none)) = [] := by
  simp [completions, returns, completion?, Function.comp_def]

lemma hooksRun_early (cs : List CellCall) : hooksRun (cs.map (returns none)) = [] := by
  simp [hooksRun, returns, hookRan?, Function.comp_def]

lemma registrations_early (cs : List CellCall) :
    registrations (cs.map (returns none)) = (waiting cs).map Callback.tag := by
  rw [registrations, waiting, List.filterMap_map, List.map_filterMap]
  refine List.filterMap_congr fun c _ => ?_
  cases c <;> rfl

lemma any_tries_early {cs : List CellCall} (h : ∀ c ∈ cs, c.sets? = none) :
    (cs.map (returns none)).any tries = false := by
  simp only [List.any_eq_false, List.mem_map]
  rintro _ ⟨c, hc, rfl⟩
  simp [returns, tries, h c hc]

lemma tries_of_takesEffect {ev : CellEvent} (h : ev.takesEffect) : ev.tries := by
  match ev with
  | .returned c (.truth b) => exact (Bool.and_eq_true_iff.1 h).1

lemma countP_takesEffect_of_any_tries {evs : List CellEvent} (h : evs.any tries = false) :
    evs.countP takesEffect = 0 :=
  List.countP_eq_zero.2 fun ev hev he => List.any_eq_false.1 h ev hev (tries_of_takesEffect he)

namespace CellCourse

/-- The counts of a run in which `c` sets the outcome and runs `ran`. -/
lemma tally_of_serves {pre post : List CellCall} {c : CellCall} {o : Outcome}
    {ran after : List CellEvent} (h : ∀ c ∈ pre, c.sets? = none)
    (hr : Serves o ((waiting pre).map Callback.tag)
      (match c with | .cancel => (lastHook? pre).toList.map Callback.tag | _ => []) ran)
    (hc : c.sets? = some o) (ha : Serves o [] [] after) :
    CellTally (pre ++ c :: post)
      (pre.map (returns none) ++ (ran ++ .returned c (.truth true) :: after)) (.finished o) where
  outcome := by
    have : pre.findSome? sets? = none := List.findSome?_eq_none_iff.2 h
    simp [List.findSome?_append, this, hc]
  once := by
    have := countP_takesEffect_of_any_tries (any_tries_early h)
    simp [List.countP_append, this, hr.takesEffect, ha.takesEffect, takesEffect, tries, hc]
  completions := by
    have := (hr.append ha).completions
    simpa [completions_early, registrations_early, registrations_of_sets _ _ hc,
      ← List.map_eq_flatMap] using this
  hooks := by
    have hf : (pre ++ c :: post).find? (·.sets?.isSome) = some c := by
      have : pre.find? (·.sets?.isSome) = none := by simpa using h
      simp [this, hc]
    have ht : (pre ++ c :: post).takeWhile (·.sets?.isNone) = pre := by
      rw [List.takeWhile_append_of_pos (by simpa using h)]
      simp [hc]
    rw [hf, ht, hooksRun_append, hooksRun_append, hooksRun_returned, hooksRun_early, hr.hooks,
      ha.hooks]
    cases c <;> simp

/-- The counts of a run can be read off its course. -/
theorem tally {cs : List CellCall} {evs : List CellEvent} {c : CallCell}
    (h : CellCourse cs evs c) : CellTally cs evs c := by
  cases h with
  | waits h =>
    have ht := any_tries_early h
    have hf : cs.find? (·.sets?.isSome) = none := by simpa using h
    refine ⟨?_, ?_, ?_, ?_⟩
    · exact (List.findSome?_eq_none_iff.2 h).symm
    · rw [ht, countP_takesEffect_of_any_tries ht]
      rfl
    · rw [completions_early, CallCell.early]
      simp
    · rw [hooksRun_early, hf]
  | completes h => exact tally_of_serves h (.told _ _) rfl (.late _ _)
  | cancels h =>
    refine tally_of_serves h ?_ rfl (.late _ _)
    simpa using (Serves.fired _).append (.told _ _)

end CellCourse

/-- **Cell callbacks**: whatever calls are made on a fresh cell, also by its callbacks, its run has
a course with the outcome set once, before anything that waits for it runs, and the counts tell that
each continuation runs once, and no hook but the one that was set last before a `cancel`. -/
theorem callbacks_once (cs : List CellCall) :
    let r := CallCell.run {} cs
    CellCourse cs r.1 r.2 ∧ CellTally cs r.1 r.2 :=
  have h := CallCell.course_run cs
  ⟨h, h.tally⟩

end DnsClient
