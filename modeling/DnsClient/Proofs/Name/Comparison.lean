import DnsClient.Proofs.Name.Representation
import Mathlib.Data.List.Forall2

/-!
Names compared but for the case of letters.

Names are compared over their whole wire forms, the length octets included. A length octet lies
below the letters, so making letters small commutes with writing labels: what is compared, and what
is hashed, is the wire form of the name with its letters made small (`Name.fold`). So names are
equal if their labels are, one by one, and their labels lie at the same places.
-/

namespace DnsClient

/-- The octets are equal, or they are the capital and the small form of one ASCII letter. -/
def SameLetter (a b : UInt8) : Prop :=
  a = b ∨ ∃ k < 26, (a.toNat = 65 + k ∧ b.toNat = 97 + k) ∨ (a.toNat = 97 + k ∧ b.toNat = 65 + k)

namespace Octets

variable {a b : UInt8} {o p : Octets}

lemma toNat_foldCase (a : UInt8) :
    (foldCase a).toNat = if 65 ≤ a.toNat ∧ a.toNat ≤ 90 then a.toNat + 32 else a.toNat := by
  have h : (0x41 ≤ a ∧ a ≤ 0x5A) ↔ 65 ≤ a.toNat ∧ a.toNat ≤ 90 := by
    rw [UInt8.le_iff_toNat_le, UInt8.le_iff_toNat_le]
    rfl
  rw [foldCase, apply_ite UInt8.toNat, UInt8.toNat_add]
  split_ifs <;> simp_all; omega

lemma foldCase_of_lt (h : a.toNat < 65) : foldCase a = a := by
  rw [← UInt8.toNat_inj, toNat_foldCase, if_neg (by omega)]

lemma foldCase_eq_iff : foldCase a = foldCase b ↔ SameLetter a b := by
  rw [← UInt8.toNat_inj, toNat_foldCase, toNat_foldCase, SameLetter, ← UInt8.toNat_inj]
  constructor
  · intro h
    by_cases hab : a.toNat = b.toNat
    · exact .inl hab
    · refine .inr ⟨min a.toNat b.toNat - 65, ?_⟩
      split_ifs at h <;> omega
  · rintro (h | ⟨k, hk, ⟨ha, hb⟩ | ⟨ha, hb⟩⟩)
    · rw [h]
    · rw [if_pos (by omega), if_neg (by omega)]
      omega
    · rw [if_neg (by omega), if_pos (by omega)]
      omega

/-- A length is equal to no letter, nor to any other octet but itself. -/
lemma eq_of_foldCase_eq (ha : a.toNat ≤ 63) (h : foldCase a = foldCase b) : a = b := by
  obtain h | ⟨k, -, h | h⟩ := foldCase_eq_iff.1 h
  · exact h
  · omega
  · omega

lemma map_foldCase_eq_iff : o.map foldCase = p.map foldCase ↔ List.Forall₂ SameLetter o p := by
  rw [← List.forall₂_eq_eq_eq, List.forall₂_map_left_iff, List.forall₂_map_right_iff]
  simp only [foldCase_eq_iff]

end Octets

/-- The label with its letters made small. -/
def Label.fold (l : Label) : Label where
  octets := l.octets.map Octets.foldCase
  length_pos := by rw [List.length_map]; exact l.length_pos
  length_le := by rw [List.length_map]; exact l.length_le

namespace Name

variable {m n : Name} {ls ms : List Label} {pos p : Nat}

lemma wireLength_fold (ls : List Label) : wireLength (ls.map Label.fold) = wireLength ls := by
  induction ls with
  | nil => rfl
  | cons l ls ih => simp [ih, Label.fold]

/-- The name with its letters made small. -/
def fold (n : Name) : Name where
  labels := n.labels.map Label.fold
  wireLength_le := by rw [wireLength_fold]; exact n.wireLength_le

/-- Letters made small on the wire are those of the labels: a length is no letter. -/
lemma encodeLabels_fold (ls : List Label) :
    encodeLabels (ls.map Label.fold) = (encodeLabels ls).map Octets.foldCase := by
  induction ls with
  | nil => rfl
  | cons l ls ih =>
    have hlen : Octets.foldCase (UInt8.ofNat l.octets.length) = UInt8.ofNat l.octets.length := by
      have := l.length_le
      exact Octets.foldCase_of_lt (by rw [l.toNat_ofNat_length]; omega)
    simp [ih, Label.wire, Label.fold, hlen]

lemma hashed_eq (n : Name) : n.hashed = n.fold.wire := (encodeLabels_fold n.labels).symm

lemma eq_iff_hashed : (m == n) = true ↔ m.hashed = n.hashed :=
  Octets.eqIgnoreCase_iff m.wire n.wire

lemma eq_iff_fold : (m == n) = true ↔ m.fold.labels = n.fold.labels := by
  rw [eq_iff_hashed, hashed_eq, hashed_eq]
  exact ⟨encodeLabels_injective, congrArg encodeLabels⟩

/-! ### Labels -/

/-- The names have the same number of labels, and corresponding ones are equal but for the case of
letters. -/
def SameLabels (m n : Name) : Prop :=
  List.Forall₂ (List.Forall₂ SameLetter) (walk m.wire) (walk n.wire)

lemma octets_injective : Function.Injective Label.octets := by
  rintro ⟨o, _, _⟩ ⟨p, _, _⟩ h
  cases h
  rfl

lemma sameLabels_iff : SameLabels m n ↔ (m == n) = true := by
  have hw (k : Name) : (walk k.wire).map (List.map Octets.foldCase) =
      (k.fold.labels.map Label.octets) ++ [[]] := by
    rw [wire, (walks_encodeLabels k.labels).walk_eq]
    simp [fold, Label.fold]
  rw [SameLabels, eq_iff_fold, ← octets_injective.list_map.eq_iff,
    ← List.append_left_inj [[]], ← hw, ← hw, ← List.forall₂_eq_eq_eq,
    List.forall₂_map_left_iff, List.forall₂_map_right_iff]
  simp only [Octets.map_foldCase_eq_iff]

/-! ### Places of the lengths -/

/-- Where the length octets of labels lie that are written from a place on. -/
def placesFrom (pos : Nat) : List Label → List Nat
  | [] => [pos]
  | l :: ls => pos :: placesFrom (pos + l.octets.length + 1) ls

/-- The places in the wire form where a label begins, that of the root included. -/
def lengthPlaces (n : Name) : List Nat := placesFrom 0 n.labels

lemma placesFrom_fold (pos : Nat) (ls : List Label) :
    placesFrom pos (ls.map Label.fold) = placesFrom pos ls := by
  induction ls generalizing pos with
  | nil => rfl
  | cons l ls ih => simp [placesFrom, ih, Label.fold]

/-- At each place there is a length. -/
lemma exists_length_of_mem (h : p ∈ placesFrom pos ls) :
    ∃ i a, p = pos + i ∧ (encodeLabels ls)[i]? = some a ∧ a.toNat ≤ 63 := by
  induction ls generalizing pos with
  | nil => exact ⟨0, 0, List.mem_singleton.1 h, rfl, by decide⟩
  | cons l ls ih =>
    obtain rfl | h := List.mem_cons.1 h
    · refine ⟨0, UInt8.ofNat l.octets.length, rfl, by simp [Label.wire], ?_⟩
      rw [l.toNat_ofNat_length]
      exact l.length_le
    · obtain ⟨i, a, hp, ha, hle⟩ := ih h
      refine ⟨l.octets.length + 1 + i, a, by omega, ?_, hle⟩
      rw [encodeLabels_cons, ← Label.length_wire, List.getElem?_append_right (by omega)]
      simpa using ha

/-- **Comparison of names is comparison of their labels.** Two names are equal if they have the same
number of labels and these are equal but for the case of letters, and just then the same octets are
hashed for both. Although lengths are compared like letters, equal names have their labels at the
same places, and the length there is equal to no octet but itself. -/
theorem eq_iff_sameLabels (m n : Name) :
    ((m == n) = true ↔ SameLabels m n) ∧
    ((m == n) = true ↔ m.hashed = n.hashed) ∧
    ((m == n) = true → m.lengthPlaces = n.lengthPlaces) ∧
    ∀ p ∈ m.lengthPlaces, ∃ a, m.wire[p]? = some a ∧
      ∀ b, Octets.foldCase a = Octets.foldCase b ↔ a = b := by
  refine ⟨sameLabels_iff.symm, eq_iff_hashed, fun h => ?_, fun p hp => ?_⟩
  · rw [lengthPlaces, lengthPlaces, ← placesFrom_fold, ← placesFrom_fold 0 n.labels]
    exact congrArg (placesFrom 0) (eq_iff_fold.1 h)
  · obtain ⟨i, a, hi, ha, hle⟩ := exists_length_of_mem hp
    obtain rfl : p = i := by omega
    exact ⟨a, ha, fun b => ⟨Octets.eq_of_foldCase_eq hle, congrArg _⟩⟩

end Name

end DnsClient
