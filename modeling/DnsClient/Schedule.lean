import DnsClient.Duration
import DnsClient.Table

/-!
The deadlines of queries.

Entries are kept in the order of deadlines, equal deadlines in the order of query IDs. Taking a
query out only forgets its deadline in a table; its entries stay until they come to the front,
where an entry that the table does not confirm is dropped.
-/

namespace DnsClient

/-- The number of a query, which is also the token its sockets are registered under. Numbers go up
with every submission and never come round: no engine gets so many that they would leave 64 bits. -/
abbrev QueryId := Nat

structure Deadline where
  time : Instant
  id : QueryId
deriving DecidableEq, Repr

/-- Whether a deadline comes before another or is the same. -/
def Deadline.le (d e : Deadline) : Bool := d.time < e.time ∨ (d.time = e.time ∧ d.id ≤ e.id)

structure Schedule where
  /-- Entries with the first deadline in front, some of which may be stale. -/
  entries : List Deadline := []
  /-- The deadline that each query has now. -/
  live : Table Instant := []

namespace Schedule

def size (s : Schedule) : Nat := s.live.length

def isEmpty (s : Schedule) : Bool := s.live.isEmpty

def place (d : Deadline) : List Deadline → List Deadline
  | [] => [d]
  | e :: es => if d.le e then d :: e :: es else e :: place d es

/-- Gives a query a deadline, in place of any that it had. -/
def insert (s : Schedule) (id : QueryId) (time : Instant) : Schedule :=
  ⟨place ⟨time, id⟩ s.entries, s.live.insert id time⟩

/-- Whether the table confirms an entry. -/
def isLive (live : Table Instant) (d : Deadline) : Bool := live.get? d.id == some d.time

/-- Drops stale entries at the front. -/
def clean (s : Schedule) : Schedule :=
  { s with entries := s.entries.dropWhile fun d => !isLive s.live d }

/-- Takes a query out, and tells whether it had a deadline. -/
def remove (s : Schedule) (id : QueryId) : Bool × Schedule :=
  if s.live.contains id then (true, clean { s with live := s.live.erase id }) else (false, s)

/-- Takes out the query with the first deadline if that is not after `now`. -/
def popExpired (s : Schedule) (now : Instant) : Option QueryId × Schedule :=
  let s := s.clean
  match s.entries with
  | [] => (none, s)
  | d :: es =>
    if now < d.time then (none, s) else (some d.id, ⟨es, s.live.erase d.id⟩)

def nextDeadline (s : Schedule) : Option Instant × Schedule :=
  let s := s.clean
  (s.entries.head?.map (·.time), s)

/-! ### Sizes -/

theorem size_insert_le (s : Schedule) (id : QueryId) (time : Instant) :
    (s.insert id time).size ≤ s.size + 1 := by
  have := List.length_filter_le (fun p : Nat × Instant => p.1 != id) s.live
  simp [insert, size, Table.insert, Table.erase] at *
  omega

theorem size_remove_le (s : Schedule) (id : QueryId) : (s.remove id).2.size ≤ s.size := by
  unfold remove
  split
  · exact List.length_filter_le _ _
  · exact Nat.le_refl _

theorem isLive_of_clean {s : Schedule} {d : Deadline} {es : List Deadline}
    (h : s.clean.entries = d :: es) : isLive s.live d = true := by
  have hd := List.head?_dropWhile_not (fun d => !isLive s.live d) s.entries
  simp only [clean] at h
  rw [h] at hd
  simpa using hd

theorem size_popExpired {s : Schedule} {now : Instant} {id : QueryId}
    (h : (s.popExpired now).1 = some id) : (s.popExpired now).2.size < s.size := by
  have hlive : s.clean.live = s.live := rfl
  rw [popExpired] at h ⊢
  cases hc : s.clean.entries with
  | nil => simp [hc] at h
  | cons d es =>
    simp only [hc] at h ⊢
    split at h
    · cases h
    · next hd =>
      have hl := isLive_of_clean hc
      obtain ⟨a, ha⟩ : ∃ a, s.live.get? d.id = some a := ⟨d.time, by simpa [isLive] using hl⟩
      have := Table.total_erase_add_le ha fun _ => 1
      simp only [total_one] at this
      rw [if_neg hd]
      change (Table.erase s.live d.id).length < s.live.length
      omega

theorem size_popExpired_le (s : Schedule) (now : Instant) :
    (s.popExpired now).2.size ≤ s.size := by
  cases h : (s.popExpired now).1 with
  | some id => exact Nat.le_of_lt (size_popExpired h)
  | none =>
    rw [popExpired] at h ⊢
    split at h
    · exact Nat.le_refl _
    · split at h
      · rename_i hd
        rw [if_pos hd]
        exact Nat.le_refl _
      · cases h

/-! ### Operations as data -/

inductive Op where
  | insert (id : QueryId) (time : Instant)
  | remove (id : QueryId)
  | popExpired (now : Instant)
  | nextDeadline
  | clear

inductive Answer where
  | done
  | removed (b : Bool)
  | expired (id : Option QueryId)
  | next (time : Option Instant)
deriving DecidableEq

def apply (s : Schedule) : Op → Answer × Schedule
  | .insert id time => (.done, s.insert id time)
  | .remove id =>
    let (b, s) := s.remove id
    (.removed b, s)
  | .popExpired now =>
    let (id, s) := s.popExpired now
    (.expired id, s)
  | .nextDeadline =>
    let (time, s) := s.nextDeadline
    (.next time, s)
  | .clear => (.done, {})

end Schedule

end DnsClient
