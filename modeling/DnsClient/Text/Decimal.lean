/-!
Numbers in decimal digits, up to a limit.

Reading stops at the first digit that takes the number beyond the limit, so however many digits
there are, no number grows large. `readDecimal?_eq_some` says what is read.
-/

namespace DnsClient

/-- Reads on from the number that the digits before write. -/
def decimalFrom? (limit : Nat) (n : Nat) : List Char → Option Nat
  | [] => some n
  | c :: s =>
    let m := 10 * n + (c.toNat - '0'.toNat)
    if c.isDigit ∧ m ≤ limit then decimalFrom? limit m s else none

/-- The number that one or more decimal digits write, if it is at most `limit`. -/
def readDecimal? (limit : Nat) (s : List Char) : Option Nat :=
  if s = [] then none else decimalFrom? limit 0 s

theorem le_ofDigitChars (n : Nat) (s : List Char) : n ≤ Nat.ofDigitChars 10 s n := by
  induction s generalizing n with
  | nil => exact Nat.le_refl _
  | cons c s ih =>
    rw [Nat.ofDigitChars_cons]
    have := ih (10 * n + (c.toNat - '0'.toNat))
    omega

theorem decimalFrom?_eq_some {limit n m : Nat} {s : List Char} (hn : n ≤ limit) :
    decimalFrom? limit n s = some m ↔
      (∀ c ∈ s, c.isDigit) ∧ Nat.ofDigitChars 10 s n = m ∧ m ≤ limit := by
  induction s generalizing n with
  | nil =>
    constructor
    · rintro ⟨⟩
      exact ⟨by simp, rfl, hn⟩
    · rintro ⟨-, rfl, -⟩
      rfl
  | cons c s ih =>
    rw [decimalFrom?, Nat.ofDigitChars_cons, List.forall_mem_cons]
    split
    · next h => rw [ih h.2, and_iff_right h.1]
    · next h =>
      constructor
      · intro h; cases h
      · rintro ⟨⟨hc, -⟩, rfl, hm⟩
        exact absurd ⟨hc, Nat.le_trans (le_ofDigitChars _ _) hm⟩ h

/-- What is read: digits only, at least one, and the number they write is within the limit. -/
theorem readDecimal?_eq_some {limit m : Nat} {s : List Char} :
    readDecimal? limit s = some m ↔
      s ≠ [] ∧ (∀ c ∈ s, c.isDigit) ∧ Nat.ofDigitChars 10 s 0 = m ∧ m ≤ limit := by
  rw [readDecimal?]
  split
  · next h => simp [h]
  · next h => rw [decimalFrom?_eq_some (Nat.zero_le _), and_iff_right h]

theorem readDecimal?_toDigits {limit n : Nat} (h : n ≤ limit) :
    readDecimal? limit (Nat.toDigits 10 n) = some n :=
  readDecimal?_eq_some.2 ⟨Nat.toDigits_ne_nil,
    fun _ hc => Nat.isDigit_of_mem_toDigits (by decide) (by decide) hc,
    Nat.ofDigitChars_toDigits (by decide) (by decide), h⟩

end DnsClient
