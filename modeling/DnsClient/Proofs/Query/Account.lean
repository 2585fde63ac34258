import DnsClient.Program

/-!
Accounts of what goes on on the network, and programs that keep to them.

An account is carried from event to event, and may rule out calls. A program ensures something if
each of its calls is allowed when it is made, whatever the answers, and if it ends as said.
`Ensures.yields` brings this to single runs.
-/

namespace DnsClient

open Program

structure Account (σ : Type) where
  allows : σ → Call → Prop
  after : σ → Event → σ

variable {σ α β : Type} {A : Account σ} {s : σ} {t u : List Event}

namespace Account

def afterAll (A : Account σ) (s : σ) (t : List Event) : σ := t.foldl A.after s

/-- Each call is allowed by the account up to it. -/
def Proper (A : Account σ) : σ → List Event → Prop
  | _, [] => True
  | s, v :: t => A.allows s v.1 ∧ A.Proper (A.after s v) t

theorem afterAll_append : A.afterAll s (t ++ u) = A.afterAll (A.afterAll s t) u :=
  List.foldl_append

theorem proper_append :
    A.Proper s (t ++ u) ↔ A.Proper s t ∧ A.Proper (A.afterAll s t) u := by
  induction t generalizing s with
  | nil => exact (iff_of_eq (true_and _)).symm
  | cons v t ih => exact (and_congr_right fun _ => ih).trans and_assoc.symm

end Account

namespace Program

/-- Every call of the program is allowed when it is made, and the program ends in a value and an
account with the property. -/
def Ensures (A : Account σ) : Program α → σ → (α → σ → Prop) → Prop
  | .pure a, s, Q => Q a s
  | .call c k, s, Q => A.allows s c ∧ ∀ x, Ensures A (k x) (A.after s ⟨c, x⟩) Q

variable {p : Program α} {a : α} {Q R : α → σ → Prop}

theorem ensures_bind {f : α → Program β} {Q : β → σ → Prop} :
    Ensures A (p >>= f) s Q ↔ Ensures A p s fun a s' => Ensures A (f a) s' Q := by
  induction p generalizing s with
  | pure a => rfl
  | call c k ih => exact and_congr_right fun _ => forall_congr' fun x => ih x

theorem ensures_perform {c : Call} {Q : c.Answer → σ → Prop} :
    Ensures A (perform c) s Q ↔ A.allows s c ∧ ∀ x, Q x (A.after s ⟨c, x⟩) := Iff.rfl

theorem ensures_perform_bind {c : Call} {f : c.Answer → Program β} {Q : β → σ → Prop} :
    Ensures A (perform c >>= f) s Q ↔
      A.allows s c ∧ ∀ x, Ensures A (f x) (A.after s ⟨c, x⟩) Q := Iff.rfl

theorem Ensures.mono (hp : Ensures A p s Q) (h : ∀ a s', Q a s' → R a s') : Ensures A p s R := by
  induction p generalizing s with
  | pure a => exact h a s hp
  | call c k ih => exact ⟨hp.1, fun x => ih x (hp.2 x)⟩

/-- What a program ensures holds of each of its runs. -/
theorem Ensures.yields (hp : Ensures A p s Q) (hy : Yields p t a) :
    A.Proper s t ∧ Q a (A.afterAll s t) := by
  induction hy generalizing s with
  | pure a => exact ⟨trivial, hp⟩
  | call x _ ih =>
    obtain ⟨ht, ha⟩ := ih (hp.2 x)
    exact ⟨⟨hp.1, ht⟩, ha⟩

end Program

end DnsClient
