import DnsClient.Proofs.Schedule.Live
import Mathlib.Data.Finmap
import Mathlib.Data.Finset.Max
import Mathlib.Data.Prod.Lex

/-!
A schedule is a finite map from queries to deadlines.

The map is read off the table alone. The entries only serve to find its first pair: they are in
order, and each pair of the table is among them (`Consistent`), so what is left in front after
cleaning is the least pair. Stale entries need not be told apart: an entry that the table confirms
is a pair of the map, whenever it was made.
-/

namespace DnsClient

/-- The deadlines that queries have. -/
abbrev DeadlineMap := Finmap fun _ : QueryId => Instant

/-- The least member of a finite set, if there is one. -/
def least? {α : Type} [LinearOrder α] (s : Finset α) : Option α :=
  if h : s.Nonempty then some (s.min' h) else none

lemma least?_eq_some {α : Type} [LinearOrder α] {s : Finset α} {a : α} (h : IsLeast (s : Set α) a) :
    least? s = some a := by
  have hs : s.Nonempty := ⟨a, h.1⟩
  rw [least?, dif_pos hs, (s.isLeast_min' hs).unique h]

@[simp] lemma least?_empty {α : Type} [LinearOrder α] : least? (∅ : Finset α) = none := rfl

namespace DeadlineMap

/-- The pairs of the map in the order in which they expire: by deadlines, then by queries. -/
def pairs (m : DeadlineMap) : Finset (Instant ×ₗ QueryId) :=
  m.entries.toFinset.image fun p => toLex (p.2, p.1)

def times (m : DeadlineMap) : Finset Instant := m.entries.toFinset.image fun p => p.2

/-- What the operations of a schedule come to on the map. -/
def apply (m : DeadlineMap) : Schedule.Op → Schedule.Answer × DeadlineMap
  | .insert id time => (.done, m.insert id time)
  | .remove id => (.removed (decide (id ∈ m)), m.erase id)
  | .popExpired now =>
    match least? m.pairs with
    | none => (.expired none, m)
    | some p =>
      if (ofLex p).1 ≤ now then (.expired (some (ofLex p).2), m.erase (ofLex p).2)
      else (.expired none, m)
  | .nextDeadline => (.next (least? m.times), m)
  | .clear => (.done, ∅)

lemma mem_pairs {m : DeadlineMap} {time : Instant} {id : QueryId} :
    toLex (time, id) ∈ m.pairs ↔ m.lookup id = some time := by
  rw [Finmap.lookup_eq_some_iff, pairs, Finset.mem_image]
  constructor
  · rintro ⟨⟨i, t⟩, hp, he⟩
    obtain ⟨rfl, rfl⟩ := Prod.mk.inj (toLex.injective he)
    simpa using hp
  · intro h
    exact ⟨⟨id, time⟩, by simpa using h, rfl⟩

lemma mem_times {m : DeadlineMap} {time : Instant} :
    time ∈ m.times ↔ ∃ id, m.lookup id = some time := by
  simp only [Finmap.lookup_eq_some_iff, times, Finset.mem_image, Multiset.mem_toFinset]
  constructor
  · rintro ⟨⟨i, t⟩, hp, rfl⟩
    exact ⟨i, hp⟩
  · rintro ⟨id, h⟩
    exact ⟨⟨id, time⟩, h, rfl⟩

end DeadlineMap

namespace Table

variable {α : Type} {t : Table α} {k : Nat} {a : α}

lemma mem_of_mem_erase {p : Nat × α} (h : p ∈ t.erase k) : p ∈ t ∧ p.1 ≠ k := by
  simpa [erase] using h

lemma nodup_erase (h : (t.map (·.1)).Nodup) : ((t.erase k).map (·.1)).Nodup :=
  h.sublist (List.filter_sublist.map _)

lemma nodup_insert (h : (t.map (·.1)).Nodup) : ((t.insert k a).map (·.1)).Nodup := by
  refine List.nodup_cons.2 ⟨fun hk => ?_, nodup_erase h⟩
  obtain ⟨p, hp, rfl⟩ := List.mem_map.1 hk
  exact (mem_of_mem_erase hp).2 rfl

lemma mem_keys_iff : k ∈ t.map (·.1) ↔ ∃ a, t.get? k = some a := by
  induction t with
  | nil => simp
  | cons p t ih =>
    rw [List.map_cons, List.mem_cons, ih, get?_cons]
    by_cases hp : p.1 = k
    · simp [hp]
    · simp [hp, Ne.symm hp]

/-- The table as a finite map. -/
def toFinmap (t : Table α) : Finmap fun _ : Nat => α :=
  (t.map fun p => (⟨p.1, p.2⟩ : Σ _ : Nat, α)).toFinmap

@[simp] lemma lookup_toFinmap (t : Table α) (k : Nat) : t.toFinmap.lookup k = t.get? k := by
  rw [toFinmap, Finmap.dlookup_list_toFinmap]
  induction t with
  | nil => rfl
  | cons p t ih =>
    rw [List.map_cons, get?_cons]
    by_cases hp : p.1 = k
    · subst hp
      rw [List.dlookup_cons_eq, if_pos rfl]
    · rw [List.dlookup_cons_ne _ _ (Ne.symm hp), if_neg hp, ih]

lemma toFinmap_erase (t : Table α) (k : Nat) : (t.erase k).toFinmap = t.toFinmap.erase k := by
  refine Finmap.ext_lookup fun l => ?_
  rw [lookup_toFinmap, get?_erase]
  by_cases hl : l = k
  · rw [if_pos hl, hl, Finmap.lookup_erase]
  · rw [if_neg hl, Finmap.lookup_erase_ne hl, lookup_toFinmap]

lemma toFinmap_insert (t : Table α) (k : Nat) (a : α) :
    (t.insert k a).toFinmap = t.toFinmap.insert k a := by
  refine Finmap.ext_lookup fun l => ?_
  rw [lookup_toFinmap, get?_insert]
  by_cases hl : l = k
  · rw [if_pos hl, hl, Finmap.lookup_insert]
  · rw [if_neg hl, Finmap.lookup_insert_of_ne _ hl, lookup_toFinmap]

lemma mem_toFinmap : k ∈ t.toFinmap ↔ t.contains k = true := by
  rw [← Finmap.lookup_isSome, lookup_toFinmap, contains]

lemma card_keys_toFinmap (h : (t.map (·.1)).Nodup) : t.toFinmap.keys.card = t.length := by
  have hk : t.toFinmap.keys = (t.map (·.1)).toFinset := by
    ext k
    rw [Finmap.mem_keys, List.mem_toFinset, mem_keys_iff, Finmap.mem_iff]
    simp
  rw [hk, List.toFinset_card_of_nodup h, List.length_map]

end Table

namespace Deadline

variable {d e f : Deadline}

lemma le_iff : d.le e = true ↔ toLex (d.time, d.id) ≤ toLex (e.time, e.id) := by
  rw [Prod.Lex.toLex_le_toLex]
  simp [le]

lemma le_trans (h : d.le e = true) (h' : e.le f = true) : d.le f = true :=
  le_iff.2 ((le_iff.1 h).trans (le_iff.1 h'))

lemma le_of_not_le (h : ¬ d.le e = true) : e.le d = true :=
  le_iff.2 (le_of_not_ge fun h' => h (le_iff.2 h'))

end Deadline

namespace Schedule

/-- The deadlines that the schedule stands for. -/
def deadlines (s : Schedule) : DeadlineMap := s.live.toFinmap

/-- The entries are in order and hold all pairs of the table, which has each query once. -/
structure Consistent (s : Schedule) : Prop where
  ordered : s.entries.Pairwise fun d e => d.le e = true
  entered : ∀ d, isLive s.live d = true → d ∈ s.entries
  nodup : (s.live.map (·.1)).Nodup

variable {s : Schedule} {d e : Deadline} {es : List Deadline} {live : Table Instant}
  {id : QueryId} {now time : Instant}

/-! ### Entries in order -/

lemma mem_place : e ∈ place d es ↔ e = d ∨ e ∈ es := by
  induction es with
  | nil => simp [place]
  | cons f es ih =>
    rw [place]
    split
    · simp
    · simp [ih, or_left_comm]

lemma ordered_place (h : es.Pairwise fun d e => d.le e = true) :
    (place d es).Pairwise fun d e => d.le e = true := by
  induction es with
  | nil => exact List.pairwise_singleton _ _
  | cons f es ih =>
    obtain ⟨hf, hes⟩ := List.pairwise_cons.1 h
    rw [place]
    split
    · next hd =>
      refine List.pairwise_cons.2 ⟨List.forall_mem_cons.2 ⟨hd, fun e he => ?_⟩, h⟩
      exact Deadline.le_trans hd (hf e he)
    · next hd =>
      refine List.pairwise_cons.2 ⟨fun e he => ?_, ih hes⟩
      rcases mem_place.1 he with rfl | he
      · exact Deadline.le_of_not_le hd
      · exact hf e he

/-! ### Cleaning -/

lemma isLive_iff : isLive live d = true ↔ live.get? d.id = some d.time := by simp [isLive]

lemma isLive_erase (h : isLive (live.erase id) d = true) : isLive live d = true ∧ d.id ≠ id := by
  rw [isLive_iff, Table.get?_erase] at h
  split_ifs at h with hd
  exact ⟨isLive_iff.2 h, hd⟩

/-- Cleaning drops no entry that the table confirms. -/
lemma mem_clean (hl : isLive s.live d = true) (h : d ∈ s.entries) : d ∈ s.clean.entries := by
  rw [← List.takeWhile_append_dropWhile (p := fun d => !isLive s.live d) (l := s.entries)] at h
  rcases List.mem_append.1 h with h | h
  · have := List.all_takeWhile (p := fun d => !isLive s.live d) (l := s.entries)
    have := List.all_eq_true.1 this d h
    simp [hl] at this
  · exact h

lemma Consistent.clean (h : s.Consistent) : s.clean.Consistent where
  ordered := h.ordered.sublist (List.dropWhile_sublist _)
  entered d hd := mem_clean hd (h.entered d hd)
  nodup := h.nodup

lemma mem_pairs_deadlines : toLex (d.time, d.id) ∈ s.deadlines.pairs ↔ isLive s.live d = true := by
  rw [DeadlineMap.mem_pairs, deadlines, Table.lookup_toFinmap, isLive_iff]

/-- What is in front after cleaning is the first pair of the map. -/
lemma Consistent.isLeast (h : s.Consistent) (hc : s.clean.entries = d :: es) :
    IsLeast (s.deadlines.pairs : Set (Instant ×ₗ QueryId)) (toLex (d.time, d.id)) := by
  refine ⟨mem_pairs_deadlines.2 (isLive_of_clean hc), fun p hp => ?_⟩
  obtain ⟨time, id⟩ := p
  have hl : isLive s.live ⟨time, id⟩ = true := mem_pairs_deadlines.1 hp
  have hm := h.clean.entered _ hl
  have ho := h.clean.ordered
  rw [hc] at hm ho
  rcases List.mem_cons.1 hm with rfl | hm
  · exact le_refl _
  · exact Deadline.le_iff.1 (List.rel_of_pairwise_cons ho hm)

/-- If nothing is left after cleaning, the map is empty. -/
lemma Consistent.eq_empty (h : s.Consistent) (hc : s.clean.entries = []) : s.deadlines = ∅ := by
  refine Finmap.ext_lookup fun id => ?_
  rw [Finmap.lookup_empty, deadlines, Table.lookup_toFinmap]
  by_contra hn
  obtain ⟨time, ht⟩ := Option.ne_none_iff_exists'.1 hn
  have hm := h.clean.entered ⟨time, id⟩ (isLive_iff.2 ht)
  rw [hc] at hm
  cases hm

/-! ### Operations -/

lemma consistent_empty : ({} : Schedule).Consistent := ⟨.nil, fun _ hd => (nomatch hd), .nil⟩

lemma Consistent.insert (h : s.Consistent) (id : QueryId) (time : Instant) :
    (s.insert id time).Consistent where
  ordered := ordered_place h.ordered
  entered d hd := by
    rw [isLive_iff, Schedule.insert, Table.get?_insert] at hd
    refine mem_place.2 ?_
    split_ifs at hd with hi
    · obtain ⟨t, i⟩ := d
      obtain rfl : i = id := hi
      obtain rfl : time = t := Option.some.inj hd
      exact .inl rfl
    · exact .inr (h.entered d (isLive_iff.2 hd))
  nodup := Table.nodup_insert h.nodup

/-- Whatever entries of a query stay behind when its deadline is forgotten are stale. -/
lemma Consistent.forget (h : s.Consistent) (id : QueryId) :
    ({ s with live := s.live.erase id } : Schedule).Consistent where
  ordered := h.ordered
  entered d hd := h.entered d (isLive_erase hd).1
  nodup := Table.nodup_erase h.nodup

lemma Consistent.remove (h : s.Consistent) (id : QueryId) : (s.remove id).2.Consistent := by
  unfold Schedule.remove
  split
  · exact (h.forget id).clean
  · exact h

/-- The front may be taken off together with the deadline of its query. -/
lemma Consistent.pop (h : s.Consistent) (hc : s.entries = d :: es) :
    (⟨es, s.live.erase d.id⟩ : Schedule).Consistent where
  ordered := by
    have ho := h.ordered
    rw [hc] at ho
    exact ho.of_cons
  entered e he := by
    obtain ⟨hl, hi⟩ := isLive_erase he
    have hm := h.entered e hl
    rw [hc] at hm
    exact (List.mem_cons.1 hm).resolve_left fun hd => hi (hd ▸ rfl)
  nodup := Table.nodup_erase h.nodup

lemma deadlines_remove (s : Schedule) (id : QueryId) :
    (s.remove id).2.deadlines = s.deadlines.erase id := by
  rw [deadlines, live_remove, Table.toFinmap_erase, deadlines]

lemma removed_eq (s : Schedule) (id : QueryId) :
    (s.remove id).1 = decide (id ∈ s.deadlines) := by
  rw [Bool.eq_iff_iff, decide_eq_true_iff, deadlines, Table.mem_toFinmap, Schedule.remove]
  split <;> simp [*]

/-- The front after cleaning has the least deadline of the map. -/
lemma Consistent.isLeast_time (h : s.Consistent) (hc : s.clean.entries = d :: es) :
    IsLeast (s.deadlines.times : Set Instant) d.time := by
  obtain ⟨hd, hle⟩ := h.isLeast hc
  refine ⟨DeadlineMap.mem_times.2 ⟨d.id, DeadlineMap.mem_pairs.1 hd⟩, fun time ht => ?_⟩
  obtain ⟨id, hi⟩ := DeadlineMap.mem_times.1 ht
  rcases Prod.Lex.toLex_le_toLex.1 (hle (DeadlineMap.mem_pairs.2 hi)) with hlt | ⟨heq, -⟩
  · exact Nat.le_of_lt hlt
  · exact Nat.le_of_eq heq

lemma Consistent.nextDeadline (h : s.Consistent) :
    s.nextDeadline = (least? s.deadlines.times, s.clean) := by
  rw [Schedule.nextDeadline]
  cases hc : s.clean.entries with
  | nil =>
    rw [h.eq_empty hc]
    rfl
  | cons d es =>
    rw [least?_eq_some (h.isLeast_time hc)]
    rfl

/-- One operation on the schedule is that operation on the map it stands for. -/
lemma Consistent.apply (h : s.Consistent) (op : Op) :
    (s.apply op).2.Consistent ∧
      ((s.apply op).1, (s.apply op).2.deadlines) = s.deadlines.apply op := by
  cases op with
  | insert id time => exact ⟨h.insert id time, Prod.ext rfl (Table.toFinmap_insert ..)⟩
  | remove id =>
    have hb := congrArg Answer.removed (removed_eq s id)
    exact ⟨h.remove id, Prod.ext hb (deadlines_remove s id)⟩
  | popExpired now =>
    rw [Schedule.apply, Schedule.popExpired, DeadlineMap.apply]
    cases hc : s.clean.entries with
    | nil =>
      have he : least? s.deadlines.pairs = none := by
        rw [h.eq_empty hc]
        rfl
      rw [he]
      exact ⟨h.clean, rfl⟩
    | cons d es =>
      rw [least?_eq_some (h.isLeast hc)]
      change _ ∧ _ = if d.time ≤ now then _ else _
      by_cases hd : now < d.time
      · simp only [if_pos hd]
        rw [if_neg (Nat.not_le.2 hd)]
        exact ⟨h.clean, rfl⟩
      · simp only [if_neg hd]
        rw [if_pos (Nat.le_of_not_lt hd)]
        exact ⟨h.clean.pop hc, Prod.ext rfl (Table.toFinmap_erase ..)⟩
  | nextDeadline =>
    rw [Schedule.apply, h.nextDeadline, DeadlineMap.apply]
    exact ⟨h.clean, rfl⟩
  | clear => exact ⟨consistent_empty, rfl⟩

/-! ### Runs -/

/-- The answers to operations made one after the other, and what is left after them. -/
def run {σ : Type} (apply : σ → Op → Answer × σ) (x : σ) : List Op → List Answer × σ
  | [] => ([], x)
  | op :: ops =>
    let r := apply x op
    let rs := run apply r.2 ops
    (r.1 :: rs.1, rs.2)

lemma Consistent.run (h : s.Consistent) (ops : List Op) :
    (Schedule.run Schedule.apply s ops).2.Consistent ∧
      ((Schedule.run Schedule.apply s ops).1, (Schedule.run Schedule.apply s ops).2.deadlines) =
        Schedule.run DeadlineMap.apply s.deadlines ops := by
  induction ops generalizing s with
  | nil => exact ⟨h, rfl⟩
  | cons op ops ih =>
    obtain ⟨hs, he⟩ := h.apply op
    obtain ⟨hr, hrs⟩ := ih hs
    refine ⟨hr, ?_⟩
    simp only [Schedule.run, ← he, ← hrs]

lemma Consistent.size_eq (h : s.Consistent) : s.size = s.deadlines.keys.card :=
  (Table.card_keys_toFinmap h.nodup).symm

lemma Consistent.isEmpty_eq (h : s.Consistent) : s.isEmpty = decide (s.deadlines = ∅) := by
  rw [Bool.eq_iff_iff, decide_eq_true_iff, isEmpty, List.isEmpty_iff_length_eq_zero]
  change s.size = 0 ↔ _
  rw [h.size_eq, Finset.card_eq_zero]
  refine ⟨fun hk => Finmap.ext_lookup fun id => ?_, fun he => he ▸ Finmap.keys_empty⟩
  have hi : id ∉ s.deadlines.keys := hk ▸ Finset.notMem_empty id
  rw [Finmap.lookup_empty, Finmap.lookup_eq_none, ← Finmap.mem_keys]
  exact hi

/-- **A schedule is a finite map**: operations in any order, on any queries and at any times, answer
as they do on the map from queries to deadlines, and leave as many queries. -/
theorem run_eq_deadlineMap (ops : List Op) :
    (run apply {} ops).1 = (run DeadlineMap.apply ∅ ops).1 ∧
      (run apply {} ops).2.size = (run DeadlineMap.apply ∅ ops).2.keys.card ∧
      (run apply {} ops).2.isEmpty = decide ((run DeadlineMap.apply ∅ ops).2 = ∅) := by
  obtain ⟨hr, he⟩ := consistent_empty.run ops
  rw [hr.size_eq, hr.isEmpty_eq]
  have hm : ({} : Schedule).deadlines = ∅ := rfl
  rw [hm] at he
  rw [← he]
  exact ⟨rfl, rfl, rfl⟩

/-- A deadline given anew brings a stale entry back, and the query still expires once. -/
example : (run apply {} [.insert 1 5, .insert 2 9, .remove 2, .insert 2 9, .popExpired 9,
    .nextDeadline, .popExpired 9, .popExpired 9, .nextDeadline]).1 =
      [.done, .done, .removed true, .done, .expired (some 1), .next (some 9), .expired (some 2),
        .expired none, .next none] := by decide

end Schedule

end DnsClient
