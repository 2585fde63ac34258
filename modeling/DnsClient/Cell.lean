import DnsClient.Error
import DnsClient.Message

/-!
Cells that queries end in: an outcome that is set once, and what runs when it is.

Setting the outcome hands back what has to run now, and the cell forgets it. So nothing runs twice,
and a cell is up to date before anything that waited for it runs.
-/

namespace DnsClient

inductive Outcome where
  | response (m : Message)
  | failed (e : QueryError)
  | cancelled

/-- A cell, with continuations `κ` that wait for the outcome and a hook `η` for cancelling. -/
structure Cell (κ η : Type) where
  outcome? : Option Outcome := none
  /-- What waits for the outcome, the first one registered in front. -/
  continuations : List κ := []
  /-- What cleans up when the cell is cancelled. -/
  hook? : Option η := none

namespace Cell

variable {κ η : Type}

def isFinished (c : Cell κ η) : Bool := c.outcome?.isSome

def setHook (c : Cell κ η) (h : η) : Cell κ η :=
  if c.isFinished then c else { c with hook? := some h }

/-- Sets the outcome if there is none, and hands back the continuations to run. -/
def complete? (c : Cell κ η) (o : Outcome) : Option (List κ × Cell κ η) :=
  if c.isFinished then none else some (c.continuations, { outcome? := some o })

/-- Cancels a cell without outcome, and hands back the hook and then the continuations to run. -/
def cancel? (c : Cell κ η) : Option (Option η × List κ × Cell κ η) :=
  if c.isFinished then none
  else some (c.hook?, c.continuations, { outcome? := some .cancelled })

/-- Registers a continuation. If there is an outcome, the continuation is to run with it now. -/
def onComplete (c : Cell κ η) (k : κ) : Option Outcome × Cell κ η :=
  match c.outcome? with
  | some o => (some o, c)
  | none => (none, { c with continuations := c.continuations ++ [k] })

end Cell

end DnsClient
