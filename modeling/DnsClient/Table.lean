import DnsClient.Total

/-!
Finite tables from numbers to values, kept as a list of entries with different keys.
-/

namespace DnsClient

abbrev Table (α : Type) := List (Nat × α)

namespace Table

variable {α : Type}

def get? (t : Table α) (k : Nat) : Option α := (t.find? fun p => p.1 == k).map (·.2)

def erase (t : Table α) (k : Nat) : Table α := t.filter fun p => p.1 != k

/-- Enters a value, in place of the one that the key had. -/
def insert (t : Table α) (k : Nat) (a : α) : Table α := (k, a) :: t.erase k

def contains (t : Table α) (k : Nat) : Bool := (t.get? k).isSome

@[simp] theorem get?_nil (k : Nat) : get? ([] : Table α) k = none := rfl

theorem get?_cons (p : Nat × α) (t : Table α) (k : Nat) :
    get? (p :: t) k = if p.1 = k then some p.2 else get? t k := by
  by_cases h : p.1 = k <;> simp [get?, h]

theorem erase_cons (p : Nat × α) (t : Table α) (k : Nat) :
    erase (p :: t) k = if p.1 = k then erase t k else p :: erase t k := by
  by_cases h : p.1 = k <;> simp [erase, h]

theorem get?_erase (t : Table α) (k l : Nat) :
    (t.erase k).get? l = if l = k then none else t.get? l := by
  induction t with
  | nil => simp [erase]
  | cons p t ih =>
    by_cases h : p.1 = k
    · rw [erase_cons, if_pos h, ih, get?_cons]
      by_cases hl : l = k
      · simp [hl]
      · simp [hl, h, Ne.symm hl]
    · rw [erase_cons, if_neg h, get?_cons, ih, get?_cons]
      by_cases hl : l = k
      · simp [hl, h]
      · simp [hl]

theorem get?_insert (t : Table α) (k l : Nat) (a : α) :
    (t.insert k a).get? l = if l = k then some a else t.get? l := by
  rw [insert, get?_cons, get?_erase]
  by_cases hl : l = k
  · simp [hl]
  · simp [hl, Ne.symm hl]

theorem total_erase_le (t : Table α) (k : Nat) (w : Nat × α → Nat) :
    total w (t.erase k) ≤ total w t := by
  induction t with
  | nil => simp [erase]
  | cons p t ih =>
    rw [erase_cons]
    split <;> simp <;> omega

theorem total_erase_add_le {t : Table α} {k : Nat} {a : α} (h : t.get? k = some a)
    (w : Nat × α → Nat) : total w (t.erase k) + w (k, a) ≤ total w t := by
  induction t with
  | nil => simp at h
  | cons p t ih =>
    rw [get?_cons] at h
    rw [erase_cons]
    by_cases hp : p.1 = k
    · rw [if_pos hp] at h
      have := total_erase_le t k w
      obtain ⟨i, b⟩ := p
      simp only [Option.some.injEq] at h hp
      subst h hp
      simp; omega
    · rw [if_neg hp] at h
      have := ih h
      simp [hp]; omega

end Table

end DnsClient
