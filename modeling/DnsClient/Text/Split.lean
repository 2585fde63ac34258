/-!
Cutting a list at a separator, and joining lists with one.
-/

namespace DnsClient

variable {α : Type} [DecidableEq α]

/-- The pieces of a list between the occurrences of `sep`. There is always at least one. -/
def splitOn (sep : α) : List α → List (List α)
  | [] => [[]]
  | a :: s =>
    if a = sep then [] :: splitOn sep s
    else
      match splitOn sep s with
      | [] => [[a]]
      | p :: ps => (a :: p) :: ps

/-- What stands before and behind the first `sep`, if there is one. -/
def splitFirst (sep : α) : List α → Option (List α × List α)
  | [] => none
  | a :: s =>
    if a = sep then some ([], s)
    else (splitFirst sep s).map fun (p, q) => (a :: p, q)

def joinWith (sep : α) : List (List α) → List α
  | [] => []
  | [p] => p
  | p :: ps => p ++ sep :: joinWith sep ps

omit [DecidableEq α] in
theorem mem_joinWith {sep a : α} {ps : List (List α)} (h : a ∈ joinWith sep ps) :
    a = sep ∨ ∃ p ∈ ps, a ∈ p := by
  induction ps with
  | nil => cases h
  | cons p ps ih =>
    cases ps with
    | nil => exact .inr ⟨p, List.mem_cons_self, h⟩
    | cons q ps =>
      have h : a ∈ p ++ sep :: joinWith sep (q :: ps) := h
      rw [List.mem_append, List.mem_cons] at h
      obtain h | h | h := h
      · exact .inr ⟨p, List.mem_cons_self, h⟩
      · exact .inl h
      · exact (ih h).imp id fun ⟨r, hr, ha⟩ => ⟨r, List.mem_cons_of_mem _ hr, ha⟩

omit [DecidableEq α] in
theorem head?_joinWith {p : List α} (h : p ≠ []) (sep : α) (ps : List (List α)) :
    (joinWith sep (p :: ps)).head? = p.head? := by
  cases p with
  | nil => exact absurd rfl h
  | cons a p => cases ps <;> rfl

theorem splitOn_of_notMem {sep : α} {s : List α} (h : sep ∉ s) : splitOn sep s = [s] := by
  induction s with
  | nil => rfl
  | cons a s ih =>
    obtain ⟨h1, h2⟩ := List.ne_and_not_mem_of_not_mem_cons h
    simp [splitOn, ih h2, Ne.symm h1]

/-- A piece without separators is cut off in front of the separator behind it. -/
theorem splitOn_append_cons {sep : α} {s t : List α} (h : sep ∉ s) :
    splitOn sep (s ++ sep :: t) = s :: splitOn sep t := by
  induction s with
  | nil => simp [splitOn]
  | cons a s ih =>
    obtain ⟨h1, h2⟩ := List.ne_and_not_mem_of_not_mem_cons h
    simp [splitOn, ih h2, Ne.symm h1]

/-- Cutting undoes joining if no piece holds the separator. -/
theorem splitOn_joinWith {sep : α} {ps : List (List α)} (hne : ps ≠ [])
    (h : ∀ p ∈ ps, sep ∉ p) : splitOn sep (joinWith sep ps) = ps := by
  induction ps with
  | nil => exact absurd rfl hne
  | cons p ps ih =>
    cases ps with
    | nil => exact splitOn_of_notMem (h p (by simp))
    | cons q ps =>
      rw [joinWith, splitOn_append_cons (h p (by simp)), ih (by simp) fun r hr => h r (by simp [hr])]
      simp

theorem splitFirst_of_notMem {sep : α} {s : List α} (h : sep ∉ s) : splitFirst sep s = none := by
  induction s with
  | nil => rfl
  | cons a s ih =>
    obtain ⟨h1, h2⟩ := List.ne_and_not_mem_of_not_mem_cons h
    simp [splitFirst, ih h2, Ne.symm h1]

theorem splitFirst_append_cons {sep : α} {s t : List α} (h : sep ∉ s) :
    splitFirst sep (s ++ sep :: t) = some (s, t) := by
  induction s with
  | nil => simp [splitFirst]
  | cons a s ih =>
    obtain ⟨h1, h2⟩ := List.ne_and_not_mem_of_not_mem_cons h
    simp [splitFirst, ih h2, Ne.symm h1]

end DnsClient
