import DnsClient.Program
import Mathlib.Data.List.Forall2

/-!
Two programs side by side.

Programs are alike if they make the same calls, go on alike for as long as these are answered in
the same way, and end in values that belong together. The answer to a deregistration is none that a
query looks at, so there the answers may differ. Alike programs have the same runs
(`Alike.yields`), and runs with the same answers are the same all along (`Alike.lockstep`).
-/

namespace DnsClient

open Program

/-- Answers to a call that a query is to take in the same way. -/
def Call.Agree : (c : Call) → c.Answer → c.Answer → Prop
  | .deregister _, _, _ => True
  | _, x, y => x = y

lemma Call.Agree.refl (c : Call) (x : c.Answer) : c.Agree x x := by cases c <;> trivial

/-- The same call, with answers that agree. -/
inductive Program.Event.Alike : Event → Event → Prop
  | intro {c : Call} {x y : c.Answer} (h : c.Agree x y) : Alike ⟨c, x⟩ ⟨c, y⟩

lemma Program.Event.Alike.refl (v : Event) : v.Alike v := ⟨Call.Agree.refl _ _⟩

/-- Where two traces make the same call at the same place, the answers agree. -/
def SameAnswers (t t' : List Event) : Prop :=
  ∀ (i : Nat) (c : Call) (x y : c.Answer), t[i]? = some ⟨c, x⟩ → t'[i]? = some ⟨c, y⟩ → c.Agree x y

lemma SameAnswers.tail {v w : Event} {t t' : List Event} (h : SameAnswers (v :: t) (w :: t')) :
    SameAnswers t t' := fun i c x y hx hy => h (i + 1) c x y hx hy

namespace Program

variable {α β γ δ : Type} {R : α → β → Prop} {S : γ → δ → Prop} {p : Program α} {p' : Program β}
  {f : α → Program γ} {g : β → Program δ} {t t' u u' : List Event} {a : α} {b : β} {c : Call}

/-- The programs make the same calls as long as the answers agree, and end in values that are
related. -/
inductive Alike (R : α → β → Prop) : Program α → Program β → Prop where
  | pure {a : α} {b : β} (h : R a b) : Alike R (.pure a) (.pure b)
  | call {c : Call} {k : c.Answer → Program α} {k' : c.Answer → Program β}
      (h : ∀ x y, c.Agree x y → Alike R (k x) (k' y)) : Alike R (.call c k) (.call c k')

namespace Alike

lemma bind (h : Alike R p p') (hf : ∀ a b, R a b → Alike S (f a) (g b)) :
    Alike S (p >>= f) (p' >>= g) := by
  induction h with
  | pure h => exact hf _ _ h
  | call _ ih => exact .call fun x y hxy => ih x y hxy

lemma perform_bind {f : c.Answer → Program γ} {g : c.Answer → Program δ}
    (h : ∀ x y, c.Agree x y → Alike S (f x) (g y)) :
    Alike S (perform c >>= f) (perform c >>= g) := .call h

lemma ite {P : Prop} [Decidable P] {p₁ p₂ : Program α} {p₁' p₂' : Program β}
    (h : P → Alike R p₁ p₁') (h' : ¬ P → Alike R p₂ p₂') :
    Alike R (if P then p₁ else p₂) (if P then p₁' else p₂') := by
  split
  · exact h ‹_›
  · exact h' ‹_›

/-- What one of two alike programs can do, the other can do as well. -/
theorem yields (h : Alike R p p') (hp : Yields p t a) : ∃ b, Yields p' t b ∧ R a b := by
  induction hp generalizing p' with
  | pure a =>
    cases h with
    | pure h => exact ⟨_, .pure _, h⟩
  | @call c k x t a _ ih =>
    cases h with
    | call h =>
      obtain ⟨b, hb, hr⟩ := ih (h x x (Call.Agree.refl c x))
      exact ⟨b, .call x hb, hr⟩

/-- Runs of alike programs with the same answers are the same, and what comes behind them has the
same answers too. -/
theorem lockstep (h : Alike R p p') (hp : Yields p t a) (hp' : Yields p' t' b)
    (hs : SameAnswers (t ++ u) (t' ++ u')) :
    List.Forall₂ Event.Alike t t' ∧ R a b ∧ SameAnswers u u' := by
  induction hp generalizing p' t' with
  | pure a =>
    cases h with
    | pure h =>
      obtain ⟨rfl, rfl⟩ := yields_pure.1 hp'
      exact ⟨.nil, h, hs⟩
  | @call c k x t a _ ih =>
    cases h with
    | call h =>
      -- both traces begin with this call, so its answers are among those that agree
      obtain _ | ⟨y, hp'⟩ := hp'
      have hxy : c.Agree x y := hs 0 c x y rfl rfl
      obtain ⟨ht, hr, hu⟩ := ih (h x y hxy) hp' hs.tail
      exact ⟨.cons ⟨hxy⟩ ht, hr, hu⟩

end Alike

end Program

end DnsClient
