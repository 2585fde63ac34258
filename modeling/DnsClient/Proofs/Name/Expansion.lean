import DnsClient.Name.Compressed
import Mathlib.Tactic.Common

/-!
What the reading of a compressed name comes to.

A place in a message stands for the labels that are met from there on, through pointers to places
further in front (`Name.Expands`). Reading is bounded in its pointers and in its octets, and finds
exactly the names that keep to both bounds. Pointers backwards are no bound of their own, as labels
may lead forward to the same pointer again.
-/

namespace DnsClient

variable {c d : Cursor} {n : Nat}

lemma Octets.toNat_singleton (a : UInt8) : toNat [a] = a.toNat := by simp [toNat]

lemma Octets.take_succ_drop {o : Octets} {pos : Nat} {a : UInt8} (h : o[pos]? = some a) (n : Nat) :
    (o.drop pos).take (n + 1) = a :: (o.drop (pos + 1)).take n := by
  obtain ⟨hp, rfl⟩ := List.getElem?_eq_some_iff.1 h
  rw [List.drop_eq_getElem_cons hp, List.take_succ_cons]

namespace Cursor

lemma take?_one {a : { o : Octets // o.length = 1 }} (h : c.take? 1 = some (a, d)) :
    ∃ b, a.1 = [b] ∧ c.octets[c.pos]? = some b := by
  obtain ⟨b, hb⟩ := List.length_eq_one_iff.1 a.2
  have ho := take?_octets h
  refine ⟨b, hb, ?_⟩
  rw [hb, rest, List.take_one, List.head?_drop] at ho
  cases hc : c.octets[c.pos]? with
  | none => simp [hc] at ho
  | some x => simpa [hc, eq_comm] using ho

/-- There is an octet to take where the octets have one. -/
lemma exists_take?_one {b : UInt8} (h : c.octets[c.pos]? = some b) :
    ∃ a d, c.take? 1 = some (a, d) ∧ a.1 = [b] := by
  have hp := (List.getElem?_eq_some_iff.1 h).1
  cases ht : c.take? 1 with
  | none =>
    have hr := take?_eq_none.1 ht
    have := c.pos_add_remaining
    omega
  | some p =>
    obtain ⟨b', hb, hc⟩ := take?_one ht
    rw [h, Option.some.injEq] at hc
    exact ⟨p.1, p.2, rfl, by rw [hb, hc]⟩

lemma exists_take? (h : c.pos + n ≤ c.octets.length) : ∃ o d, c.take? n = some (o, d) := by
  cases ht : c.take? n with
  | none =>
    have hr := take?_eq_none.1 ht
    have := c.pos_add_remaining
    omega
  | some p => exact ⟨p.1, p.2, rfl⟩

lemma seek?_eq_ok {pos : Nat} (h : c.seek? pos = .ok d) : d.octets = c.octets ∧ d.pos = pos := by
  unfold seek? at h
  split at h
  · cases h
    exact ⟨rfl, rfl⟩
  · cases h

lemma exists_seek? {pos : Nat} (h : pos ≤ c.pos) : ∃ d, c.seek? pos = .ok d :=
  ⟨_, dif_pos (Nat.le_trans h c.pos_le)⟩

end Cursor

namespace Name

variable {o : Octets} {pos pointers room stop : Nat} {ls : List Label}

/-! ### What is read -/

/-- Labels are read only where they stand, and through no more pointers than allowed. -/
lemma expands_of_readLabels {ls : { ls : List Label // wireLength ls ≤ room }}
    (h : readLabels pointers room c = .ok (ls, d)) :
    d.octets = c.octets ∧ ∃ k ≤ pointers, Expands c.octets c.pos ls.1 k d.pos := by
  fun_induction readLabels pointers room c generalizing d
  case case4 pointers room c a c₁ ha size _ x c₂ hx _ h0 =>
    cases h
    obtain ⟨b, hb, hc⟩ := Cursor.take?_one ha
    obtain ⟨ho₁, hp₁⟩ := Cursor.take?_pos ha
    obtain ⟨ho₂, hp₂⟩ := Cursor.take?_pos hx
    have hsize : size = b.toNat := (congrArg _ hb).trans (Octets.toNat_singleton b)
    obtain rfl : b = 0 := UInt8.toNat_inj.1 (hsize.symm.trans h0)
    refine ⟨ho₂.trans ho₁, 0, Nat.zero_le _, ?_⟩
    rw [hp₂, hp₁, h0]
    exact .root hc
  case case6 pointers room c a c₁ ha size _ x c₂ hx _ h0 ls' c₃ hl ih =>
    cases h
    obtain ⟨b, hb, hc⟩ := Cursor.take?_one ha
    obtain ⟨ho₁, hp₁⟩ := Cursor.take?_pos ha
    obtain ⟨ho₂, hp₂⟩ := Cursor.take?_pos hx
    have hsize : size = b.toNat := (congrArg _ hb).trans (Octets.toNat_singleton b)
    obtain ⟨ho, k, hk, he⟩ := ih hl
    rw [ho₂, ho₁, hp₂, hp₁, Nat.add_right_comm] at he
    refine ⟨ho.trans (ho₂.trans ho₁), k, hk, .label _ ?_ (x.2.symm ▸ he)⟩
    have hx' := Cursor.take?_octets hx
    rw [Cursor.rest, ho₁, hp₁] at hx'
    have hb' : UInt8.ofNat size = b := by rw [hsize, UInt8.ofNat_toNat]
    rw [Octets.take_succ_drop hc, Label.wire, x.2, ← hx', hb']
  case case12 room c a c₁ ha size _ hs b c₂ hb pointers target ht d' hd ls' c₃ hl ih =>
    cases h
    obtain ⟨a', ha', hca⟩ := Cursor.take?_one ha
    obtain ⟨b', hb', hcb⟩ := Cursor.take?_one hb
    obtain ⟨ho₁, hp₁⟩ := Cursor.take?_pos ha
    obtain ⟨ho₂, hp₂⟩ := Cursor.take?_pos hb
    obtain ⟨hod, hpd⟩ := Cursor.seek?_eq_ok hd
    have hsize : size = a'.toNat := (congrArg _ ha').trans (Octets.toNat_singleton a')
    have htarget : target = pointerTarget a'.toNat b'.toNat := by
      rw [← hsize, ← Octets.toNat_singleton, ← hb']
    obtain ⟨-, k, hk, he⟩ := ih hl
    rw [hod, ho₂, ho₁, hpd, htarget] at he
    rw [ho₁, hp₁] at hcb
    refine ⟨ho₂.trans ho₁, k + 1, Nat.succ_le_succ hk, ?_⟩
    rw [hp₂, hp₁]
    exact .pointer hca (hsize ▸ hs) hcb (by omega) he
  all_goals cases h

/-! ### What is found -/

/-- The next octets of a cursor, taken by a number that itself was read. -/
lemma take?_size {a : { o : Octets // o.length = 1 }} {b : UInt8} {c₁ : Cursor}
    (ha : c.take? 1 = some (a, c₁)) (hb : a.1 = [b])
    (hl : c.pos + b.toNat + 1 ≤ c.octets.length) :
    ∃ x d, c₁.take? (Octets.toNat a.1) = some (x, d) ∧
      x.1 = (c.octets.drop (c.pos + 1)).take b.toNat ∧
      d.octets = c.octets ∧ d.pos = c.pos + b.toNat + 1 := by
  obtain ⟨ho₁, hp₁⟩ := Cursor.take?_pos ha
  have hsize : Octets.toNat a.1 = b.toNat := (congrArg _ hb).trans (Octets.toNat_singleton b)
  obtain ⟨x, d, hx⟩ : ∃ x d, c₁.take? (Octets.toNat a.1) = some (x, d) :=
    Cursor.exists_take? (by rw [ho₁, hp₁, hsize]; omega)
  obtain ⟨ho₂, hp₂⟩ := Cursor.take?_pos hx
  have hx' := Cursor.take?_octets hx
  rw [Cursor.rest, ho₁, hp₁] at hx'
  exact ⟨x, d, hx, hx'.trans (by rw [hsize]), ho₂.trans ho₁, by rw [hp₂, hp₁, hsize]; omega⟩

lemma readLabels_root (h : c.octets[c.pos]? = some 0) (hr : 0 < room) :
    ∃ ls d, readLabels pointers room c = .ok (ls, d) ∧ ls.1 = [] ∧ d.pos = c.pos + 1 := by
  obtain ⟨a, c₁, ha, hb⟩ := Cursor.exists_take?_one h
  have hp := (List.getElem?_eq_some_iff.1 h).1
  obtain ⟨x, d, hx, -, -, hd⟩ := take?_size ha hb hp
  have h0 : Octets.toNat a.1 = 0 := (congrArg _ hb).trans (Octets.toNat_singleton 0)
  rw [readLabels]
  simp only [ha]
  rw [dif_pos (by omega)]
  simp only [hx]
  rw [dif_neg (by omega), dif_pos h0]
  exact ⟨_, _, rfl, rfl, hd⟩

lemma readLabels_label {l : Label}
    (h : (c.octets.drop c.pos).take (l.octets.length + 1) = l.wire)
    (hr : room = n + (l.octets.length + 1)) :
    ∃ d, d.octets = c.octets ∧ d.pos = c.pos + l.octets.length + 1 ∧
      ∀ ls e, readLabels pointers n d = .ok (ls, e) →
        ∃ ls', readLabels pointers room c = .ok (ls', e) ∧ ls'.1 = l :: ls.1 := by
  obtain ⟨b, hb⟩ : ∃ b, b = UInt8.ofNat l.octets.length := ⟨_, rfl⟩
  have hlen := l.length_le
  have hpos := l.length_pos
  have hbl : b.toNat = l.octets.length := by rw [hb, l.toNat_ofNat_length]
  have hw : l.wire = b :: l.octets := by rw [Label.wire, hb]
  have hc : c.octets[c.pos]? = some b := by
    have hh := congrArg List.head? h
    rwa [List.head?_take, if_neg (Nat.succ_ne_zero _), List.head?_drop, hw] at hh
  rw [Octets.take_succ_drop hc, hw, List.cons.injEq, ← hbl] at h
  obtain ⟨a, c₁, ha, hab⟩ := Cursor.exists_take?_one hc
  have hsize : Octets.toNat a.1 = b.toNat := (congrArg _ hab).trans (Octets.toNat_singleton b)
  have hend : c.pos + b.toNat + 1 ≤ c.octets.length := by
    have := congrArg List.length h.2
    rw [List.length_take, List.length_drop] at this
    omega
  obtain ⟨x, d, hx, hxl, hod, hpd⟩ := take?_size ha hab hend
  refine ⟨d, hod, by rw [hpd, hbl], fun ls e hl => ?_⟩
  obtain rfl : n = room - (Octets.toNat a.1 + 1) := by omega
  have hxo : x.1 = l.octets := hxl.trans h.2
  rw [readLabels]
  simp only [ha]
  rw [dif_pos (by omega)]
  simp only [hx, hl]
  rw [dif_neg (by omega), dif_neg (by omega)]
  refine ⟨_, rfl, ?_⟩
  obtain ⟨_, _, _⟩ := l
  cases hxo
  rfl

lemma readLabels_pointer {a b : UInt8} (ha : c.octets[c.pos]? = some a) (hp : 192 ≤ a.toNat)
    (hb : c.octets[c.pos + 1]? = some b) (hlt : pointerTarget a.toNat b.toNat < c.pos) :
    ∃ d, d.octets = c.octets ∧ d.pos = pointerTarget a.toNat b.toNat ∧
      ∀ ls e, readLabels pointers room d = .ok (ls, e) →
        ∃ c₂, readLabels (pointers + 1) room c = .ok (ls, c₂) ∧ c₂.pos = c.pos + 2 := by
  obtain ⟨x, c₁, hx, hxa⟩ := Cursor.exists_take?_one ha
  obtain ⟨ho₁, hp₁⟩ := Cursor.take?_pos hx
  rw [← ho₁, ← hp₁] at hb
  obtain ⟨y, c₂, hy, hyb⟩ := Cursor.exists_take?_one hb
  obtain ⟨ho₂, hp₂⟩ := Cursor.take?_pos hy
  have hsize : Octets.toNat x.1 = a.toNat := (congrArg _ hxa).trans (Octets.toNat_singleton a)
  have hlow : Octets.toNat y.1 = b.toNat := (congrArg _ hyb).trans (Octets.toNat_singleton b)
  obtain ⟨d, hd⟩ : ∃ d, c₂.seek? (pointerTarget a.toNat b.toNat) = .ok d :=
    Cursor.exists_seek? (by omega)
  obtain ⟨hod, hpd⟩ := Cursor.seek?_eq_ok hd
  refine ⟨d, hod.trans (ho₂.trans ho₁), hpd, fun ls e hl => ⟨c₂, ?_, by omega⟩⟩
  rw [readLabels]
  simp only [hx, hy, hsize, hlow, hd, hl]
  rw [dif_neg (by omega), if_pos hp, if_neg (by omega)]

/-- Labels that stand at the cursor are read, if both bounds allow it. -/
lemma Expands.readLabels (h : Expands o pos ls n stop) (ho : c.octets = o) (hp : c.pos = pos)
    (hn : n ≤ pointers) (hl : wireLength ls ≤ room) :
    ∃ ls' d, Name.readLabels pointers room c = .ok (ls', d) ∧ ls'.1 = ls ∧ d.pos = stop := by
  induction h generalizing c pointers room with
  | root h =>
    subst ho hp
    exact readLabels_root h hl
  | @label pos l ls k stop h t ih =>
    subst ho hp
    rw [wireLength_cons] at hl
    obtain ⟨r, hr⟩ := Nat.exists_eq_add_of_le' (Nat.le_of_add_right_le hl)
    have hlr : wireLength ls ≤ r := by omega
    obtain ⟨d, hod, hpd, hd⟩ := readLabels_label h hr
    obtain ⟨ls', e, he, rfl, hs⟩ := ih hod hpd hn hlr
    obtain ⟨ls'', hc, hls⟩ := hd ls' e he
    exact ⟨ls'', e, hc, hls, hs⟩
  | pointer ha hp' hb hlt t ih =>
    subst ho hp
    obtain ⟨k, rfl⟩ := Nat.exists_eq_add_of_le' hn
    rw [← Nat.add_assoc]
    obtain ⟨d, hod, hpd, hd⟩ := readLabels_pointer ha hp' hb hlt
    obtain ⟨ls', e, he, hls, -⟩ := ih hod hpd (Nat.le_add_left _ k) hl
    obtain ⟨c₂, hc, hs⟩ := hd ls' e he
    exact ⟨ls', c₂, hc, hls, hs⟩

/-- The name stands at the first cursor and ends at the second, and no more pointers lead through
it than a reading may follow. -/
def Stands (n : Name) (c d : Cursor) : Prop :=
  d.octets = c.octets ∧ ∃ k ≤ 64, Expands c.octets c.pos n.labels k d.pos

lemma stands_of_read {n : Name} (h : Read.name c = (.ok n, d)) : n.Stands c d := by
  unfold Read.name at h
  split at h
  · cases h
  · next ls c' hl =>
    cases h
    exact expands_of_readLabels hl

lemma Stands.read {n : Name} (h : n.Stands c d) : Read.name c = (.ok n, d) := by
  obtain ⟨ho, k, hk, he⟩ := h
  have hn : wireLength n.labels ≤ maxNameLength := n.wireLength_le
  obtain ⟨ls, d', hl, hls, hp⟩ := he.readLabels rfl rfl (show k ≤ maxPointers from hk) hn
  have hd := (expands_of_readLabels hl).1
  obtain rfl : d' = d := Cursor.ext (hd.trans ho.symm) hp
  rw [Read.name, hl]
  exact Prod.ext (congrArg Except.ok (Name.ext hls)) rfl

lemma read_error {e : ParseError} (h : Read.name c = (.error e, d)) : d = c := by
  unfold Read.name at h
  split at h
  · cases h
    rfl
  · cases h

end Name

/-- **Reading a compressed name** ends on all octets and from all places: it finds a name if and
only if one stands there, and stops where that name ends; else it fails and leaves the cursor. -/
theorem read_name_iff (c : Cursor) :
    (∀ (n : Name) (d : Cursor), Read.name c = (.ok n, d) ↔ n.Stands c d) ∧
      ((∃ e, Read.name c = (.error e, c)) ↔ ∀ (n : Name) (d : Cursor), ¬ n.Stands c d) := by
  refine ⟨fun n d => ⟨Name.stands_of_read, Name.Stands.read⟩, ?_, ?_⟩
  · rintro ⟨e, he⟩ n d hn
    rw [hn.read] at he
    cases he
  · intro hn
    rcases hr : Read.name c with ⟨_ | n, d⟩
    · next e =>
      obtain rfl := Name.read_error hr
      exact ⟨e, rfl⟩
    · exact absurd (Name.stands_of_read hr) (hn n d)

end DnsClient
