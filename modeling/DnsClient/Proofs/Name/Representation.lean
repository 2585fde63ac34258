import DnsClient.Name.Text
import DnsClient.Name.Compressed
import Mathlib.Tactic.Common

/-!
Names as lists of octet strings.

Octet strings fit as the labels of a name if each has 1 to 63 octets, and all of them no more than
255 on the wire (`Fit`). In whatever way a name is made, its wire form is that of octet strings that
fit (`wireOf`), and each such wire form is taken for a name. The walk over a wire form by the
lengths in it never leads out of it (`Walks`), and meets the octet strings again.
-/

namespace DnsClient.Name

variable {o : Octets} {os : List Octets}

/-! ### Octet strings as labels -/

/-- The octet strings on the wire, each behind its length, with a zero octet in the end. -/
def wireOf (os : List Octets) : Octets := os.flatMap (fun o => UInt8.ofNat o.length :: o) ++ [0]

/-- The octet strings can be the labels of a name. -/
structure Fit (os : List Octets) : Prop where
  each : ∀ o ∈ os, 1 ≤ o.length ∧ o.length ≤ 63
  total : (wireOf os).length ≤ 255

lemma wireOf_octets (ls : List Label) : wireOf (ls.map Label.octets) = encodeLabels ls := by
  rw [wireOf, encodeLabels, List.flatMap_map]
  rfl

lemma fit_labels (n : Name) : Fit (n.labels.map Label.octets) where
  each := List.forall_mem_map.2 fun l _ => ⟨l.length_pos, l.length_le⟩
  total := by
    rw [wireOf_octets, length_encodeLabels]
    exact n.wireLength_le

lemma exists_labels (h : ∀ o ∈ os, 1 ≤ o.length ∧ o.length ≤ 63) :
    ∃ ls : List Label, ls.map Label.octets = os :=
  ⟨os.pmap (fun o h => ⟨o, h.1, h.2⟩) h, by simp [List.map_pmap]⟩

lemma Fit.exists_name (h : Fit os) : ∃ n : Name, n.labels.map Label.octets = os := by
  obtain ⟨ls, rfl⟩ := exists_labels h.each
  have hle := h.total
  rw [wireOf_octets, length_encodeLabels] at hle
  exact ⟨⟨ls, hle⟩, rfl⟩

/-- The wire forms of names are those of octet strings that fit. -/
lemma exists_wire_iff : (∃ n : Name, n.wire = o) ↔ ∃ os, Fit os ∧ wireOf os = o := by
  constructor
  · rintro ⟨n, rfl⟩
    exact ⟨_, fit_labels n, wireOf_octets n.labels⟩
  · rintro ⟨os, h, rfl⟩
    obtain ⟨n, rfl⟩ := h.exists_name
    exact ⟨n, (wireOf_octets n.labels).symm⟩

/-! ### Walking over the wire form -/

/-- The walk over the octets meets these labels, and finds each as long as the length before it. -/
inductive Walks : Octets → List Octets → Prop
  | nil : Walks [] []
  | root (rest : Octets) : Walks (0 :: rest) [[]]
  | label {a : UInt8} {o rest : Octets} {os : List Octets} (h0 : a ≠ 0) (h : o.length = a.toNat)
      (t : Walks rest os) : Walks (a :: (o ++ rest)) (o :: os)

lemma Walks.walk_eq (h : Walks o os) : walk o = os := by
  induction h with
  | nil => rw [walk]
  | root => rw [walk, if_pos rfl]
  | label h0 h _ ih => rw [walk, if_neg h0, ← h, List.take_left, List.drop_left, ih]

lemma walks_encodeLabels (ls : List Label) :
    Walks (encodeLabels ls) (ls.map Label.octets ++ [[]]) := by
  induction ls with
  | nil => exact .root []
  | cons l ls ih =>
    have hl := l.toNat_ofNat_length
    have h0 : UInt8.ofNat l.octets.length ≠ 0 := by
      intro h
      rw [h] at hl
      exact Nat.ne_of_lt l.length_pos hl
    rw [encodeLabels_cons]
    exact .label h0 hl.symm ih

/-! ### Ways to make a name -/

/-- The name comes about as the root, from its wire form, from a text, or out of a message. -/
inductive Made : Name → Prop
  | root : Made root
  | wire {o : Octets} {n : Name} (h : ofWire o = .ok n) : Made n
  | text {s : Octets} {n : Name} (h : ofText s = .ok n) : Made n
  | message {c d : Cursor} {n : Name} (h : Read.name c = (.ok n, d)) : Made n

/-- **Names and lists of octet strings that fit correspond one to one.** In whatever way a name is
made, its wire form is that of such a list, and just these octets are taken for a wire form. The
walk over it stays within it, and meets the octet strings of the list and the root's empty one. -/
theorem representation :
    (∀ o, (∃ n, Made n ∧ n.wire = o) ↔ ∃ os, Fit os ∧ wireOf os = o) ∧
    (∀ o n, ofWire o = .ok n ↔ n.wire = o) ∧
    (∀ o, (∃ n, ofWire o = .ok n) ↔ ∃ os, Fit os ∧ wireOf os = o) ∧
    (∀ n : Name, ∃! os, Fit os ∧ wireOf os = n.wire ∧ Walks n.wire (os ++ [[]]) ∧
      walk n.wire = os ++ [[]]) ∧
    ∀ os, Fit os → ∃! n : Name, ofWire (wireOf os) = .ok n ∧ walk n.wire = os ++ [[]] := by
  have hwire (o : Octets) (n : Name) : ofWire o = .ok n ↔ n.wire = o :=
    ⟨wire_ofWire, fun h => h ▸ ofWire_wire n⟩
  refine ⟨fun o => ?_, hwire, fun o => ?_, fun n => ?_, fun os h => ?_⟩
  · rw [← exists_wire_iff]
    exact ⟨fun ⟨n, _, h⟩ => ⟨n, h⟩, fun ⟨n, h⟩ => ⟨n, .wire ((hwire o n).2 h), h⟩⟩
  · rw [← exists_wire_iff]
    exact exists_congr (hwire o)
  · have hw : Walks n.wire (n.labels.map Label.octets ++ [[]]) := walks_encodeLabels n.labels
    refine ⟨_, ⟨fit_labels n, wireOf_octets n.labels, hw, hw.walk_eq⟩, ?_⟩
    rintro os ⟨-, -, -, h⟩
    rw [hw.walk_eq] at h
    exact (List.append_cancel_right h).symm
  · obtain ⟨n, rfl⟩ := h.exists_name
    rw [wireOf_octets]
    refine ⟨n, ⟨ofWire_wire n, (walks_encodeLabels n.labels).walk_eq⟩, ?_⟩
    rintro m ⟨hm, -⟩
    exact Except.ok.inj (hm.symm.trans (ofWire_wire n))

/-- Labels as many and as long as fit into a name. -/
theorem representation_longest : ∃ os : List Octets, os.map List.length = [63, 63, 63, 61] ∧
    (wireOf os).length = 255 ∧ Fit os ∧
    ∃! n : Name, ofWire (wireOf os) = .ok n ∧ walk n.wire = os ++ [[]] := by
  have hlen : (wireOf [List.replicate 63 97, List.replicate 63 65, List.replicate 63 0,
      List.replicate 61 46]).length = 255 := by
    simp [wireOf, -List.reduceReplicate]
  have h : Fit [List.replicate 63 97, List.replicate 63 65, List.replicate 63 0,
      List.replicate 61 46] := ⟨by simp [-List.reduceReplicate], Nat.le_of_eq hlen⟩
  exact ⟨_, rfl, hlen, h, representation.2.2.2.2 _ h⟩

end DnsClient.Name
