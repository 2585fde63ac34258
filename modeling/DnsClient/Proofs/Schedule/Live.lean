import DnsClient.Schedule
import Mathlib.Tactic.Common

/-!
What the operations of a schedule do to its table.

Only the table tells which query has a deadline; operations on the entries leave it alone.
-/

namespace DnsClient

namespace Table

variable {α : Type}

lemma erase_erase (t : Table α) (k : Nat) : (t.erase k).erase k = t.erase k := by
  unfold erase
  rw [List.filter_filter]
  simp

lemma insert_insert (t : Table α) (k : Nat) (a b : α) :
    (t.insert k a).insert k b = t.insert k b := by
  unfold insert
  rw [erase_cons, if_pos rfl, erase_erase]

lemma erase_of_get? {t : Table α} {k : Nat} (h : t.get? k = none) : t.erase k = t := by
  refine List.filter_eq_self.2 fun p hp => ?_
  simp only [get?, Option.map_eq_none_iff, List.find?_eq_none] at h
  simpa using h p hp

end Table

namespace Schedule

variable {s : Schedule} {id : QueryId} {now : Instant}

lemma live_remove (s : Schedule) (id : QueryId) : (s.remove id).2.live = s.live.erase id := by
  unfold remove
  split
  · rfl
  · next h =>
    rw [Table.erase_of_get?]
    simpa [Table.contains] using h

/-- The query that is taken out had a deadline, and that is not after `now`. -/
lemma popExpired_some (h : (s.popExpired now).1 = some id) :
    (∃ d, s.live.get? id = some d ∧ d ≤ now) ∧
      (s.popExpired now).2.live = s.live.erase id := by
  rw [popExpired] at h ⊢
  cases hc : s.clean.entries with
  | nil => simp [hc] at h
  | cons d es =>
    simp only [hc] at h ⊢
    split at h
    · cases h
    · next hd =>
      cases h
      rw [if_neg hd]
      have hl := isLive_of_clean hc
      exact ⟨⟨d.time, by simpa [isLive] using hl, Nat.le_of_not_lt hd⟩, rfl⟩

lemma popExpired_none (h : (s.popExpired now).1 = none) : (s.popExpired now).2.live = s.live := by
  rw [popExpired] at h ⊢
  cases hc : s.clean.entries with
  | nil => rfl
  | cons d es =>
    simp only [hc] at h ⊢
    split at h
    · next hd =>
      rw [if_pos hd]
      rfl
    · cases h

end Schedule

end DnsClient
