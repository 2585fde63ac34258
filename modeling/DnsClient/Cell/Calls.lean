import DnsClient.Cell
import DnsClient.Duration
import DnsClient.Total

/-!
Runs of calls on one cell, where hooks and continuations make calls themselves.

A callback is given by a tag and the calls it makes. The calls still to make are kept on an agenda
with those of a callback in front, so a call returns after all that it sets off. Every step takes
weight off the agenda and the cell together, so a run ends.
-/

namespace DnsClient

inductive CellCall where
  | complete (o : Outcome)
  | cancel
  | isFinished
  | outcome
  | wait
  | waitTimeout (d : Duration)
  | describe
  | setHook (tag : String) (andThen : List CellCall)
  | onComplete (tag : String) (andThen : List CellCall)

/-- A hook or a continuation: it runs its calls in order. -/
structure Callback where
  tag : String
  calls : List CellCall

inductive CellAnswer where
  | done
  | truth (b : Bool)
  | outcome (o : Option Outcome)
  /-- The call does not return before there is an outcome. -/
  | blocks
  | described (isFinished : Bool)

inductive CellEvent where
  | returned (call : CellCall) (answer : CellAnswer)
  | hookRan (tag : String)
  | completed (tag : String) (o : Outcome)

inductive CellTask where
  | call (c : CellCall)
  | answer (c : CellCall) (a : CellAnswer)
  | hook (cb : Callback)
  | continuation (cb : Callback) (o : Outcome)

abbrev CallCell := Cell Callback Callback

namespace CellTask

/-- What one task puts in front of the agenda, the cell after it, and the event it causes. -/
def step (c : CallCell) : CellTask → List CellTask × CallCell × Option CellEvent
  | .call (.complete o) =>
    match c.complete? o with
    | none => ([.answer (.complete o) (.truth false)], c, none)
    | some (ks, c) =>
      (ks.map (.continuation · o) ++ [.answer (.complete o) (.truth true)], c, none)
  | .call .cancel =>
    match c.cancel? with
    | none => ([.answer .cancel (.truth false)], c, none)
    | some (h, ks, c) =>
      (h.toList.map .hook ++ ks.map (.continuation · .cancelled) ++
        [.answer .cancel (.truth true)], c, none)
  | .call .isFinished => ([.answer .isFinished (.truth c.isFinished)], c, none)
  | .call .outcome => ([.answer .outcome (.outcome c.outcome?)], c, none)
  | .call .wait =>
    ([.answer .wait (if c.isFinished then .outcome c.outcome? else .blocks)], c, none)
  | .call (.waitTimeout d) => ([.answer (.waitTimeout d) (.outcome c.outcome?)], c, none)
  | .call .describe => ([.answer .describe (.described c.isFinished)], c, none)
  | .call (.setHook tag cs) => ([.answer (.setHook tag cs) .done], c.setHook ⟨tag, cs⟩, none)
  | .call (.onComplete tag cs) =>
    match c.onComplete ⟨tag, cs⟩ with
    | (none, c) => ([.answer (.onComplete tag cs) .done], c, none)
    | (some o, c) =>
      ([.continuation ⟨tag, cs⟩ o, .answer (.onComplete tag cs) .done], c, none)
  | .answer q a => ([], c, some (.returned q a))
  | .hook cb => (cb.calls.map .call, c, some (.hookRan cb.tag))
  | .continuation cb o => (cb.calls.map .call, c, some (.completed cb.tag o))

end CellTask

/-! ### Weights -/

mutual

def CellCall.weight : CellCall → Nat
  | .setHook _ cs => weights cs + 3
  | .onComplete _ cs => weights cs + 3
  | _ => 2

def CellCall.weights : List CellCall → Nat
  | [] => 0
  | c :: cs => c.weight + weights cs

end

def Callback.weight (cb : Callback) : Nat := CellCall.weights cb.calls + 1

def CellTask.weight : CellTask → Nat
  | .call c => c.weight
  | .answer .. => 1
  | .hook cb => cb.weight
  | .continuation cb _ => cb.weight

namespace CallCell

/-- The most steps that the callbacks kept in a cell can cause. -/
def weight (c : CallCell) : Nat :=
  total Callback.weight c.continuations + (c.hook?.map Callback.weight).getD 0

end CallCell

namespace CellTask

@[simp] theorem total_weight_calls (cs : List CellCall) :
    total CellCall.weight cs = CellCall.weights cs := by
  induction cs with
  | nil => rfl
  | cons c cs ih => simp [CellCall.weights, ih]

@[simp] theorem weight_comp_call : weight ∘ call = CellCall.weight := rfl

@[simp] theorem weight_comp_continuation (o : Outcome) :
    (weight ∘ fun cb => continuation cb o) = Callback.weight := rfl

theorem weight_setHook (c : CallCell) (cb : Callback) :
    CallCell.weight (c.setHook cb) ≤ c.weight + cb.weight := by
  unfold Cell.setHook
  split <;> simp [CallCell.weight]

theorem weight_step (c : CallCell) (t : CellTask) :
    total weight (t.step c).1 + (t.step c).2.1.weight < t.weight + c.weight := by
  match t with
  | .call (.complete o) =>
    by_cases h : c.isFinished
    · simp [step, Cell.complete?, h, weight, CellCall.weight]
    · simp [step, Cell.complete?, h, weight, CellCall.weight, CallCell.weight]
      omega
  | .call .cancel =>
    by_cases h : c.isFinished
    · simp [step, Cell.cancel?, h, weight, CellCall.weight]
    · cases hh : c.hook? <;>
        simp [step, Cell.cancel?, h, hh, weight, CellCall.weight, CallCell.weight] <;> omega
  | .call .isFinished | .call .outcome | .call .wait | .call (.waitTimeout _) | .call .describe =>
    simp [step, weight, CellCall.weight]
  | .call (.setHook tag cs) =>
    have := weight_setHook c ⟨tag, cs⟩
    simp [step, weight, CellCall.weight, Callback.weight] at *
    omega
  | .call (.onComplete tag cs) =>
    cases h : c.outcome? with
    | none =>
      simp [step, Cell.onComplete, h, weight, CellCall.weight, Callback.weight, CallCell.weight]
      omega
    | some o =>
      simp [step, Cell.onComplete, h, weight, CellCall.weight, Callback.weight]
  | .answer q a => simp [step, weight]
  | .hook cb => simp [step, weight, Callback.weight]
  | .continuation cb o => simp [step, weight, Callback.weight]

/-- The events of all the tasks on an agenda, and the cell at the end. -/
def run (c : CallCell) : List CellTask → List CellEvent × CallCell
  | [] => ([], c)
  | t :: ts =>
    let s := t.step c
    let r := run s.2.1 (s.1 ++ ts)
    (s.2.2.toList ++ r.1, r.2)
termination_by ts => total weight ts + c.weight
decreasing_by
  have := weight_step c t
  simp only [total_append, total_cons]
  omega

end CellTask

namespace CallCell

/-- The events of calls made in order on a cell, and the cell at the end. -/
def run (c : CallCell) (calls : List CellCall) : List CellEvent × CallCell :=
  CellTask.run c (calls.map .call)

end CallCell

end DnsClient
