import DnsClient.Proofs.Name.Grammar
import DnsClient.Proofs.Text.Words

/-!
The printed form of a name is read as that name.

What is printed for an octet is an item that stands for it (`item_escape`). So the labels of a name
are spelled by its text, with a dot behind each, and this text is read as the name. It consists of
printable ASCII characters, which take one octet each.
-/

namespace DnsClient.Name

variable {a : UInt8} {s t o : Octets} {ls : List Label} {n : Name}

/-! ### Octets -/

lemma digit_mod (n : Nat) : digit (n % 10) = digit n := by
  rw [digit, Nat.mod_mod, digit]

/-- What is printed for an octet stands for it. -/
lemma item_escape (a : UInt8) : Item (escape a) a := by
  unfold escape
  split_ifs with h h'
  · obtain rfl | rfl := h
    · exact .escaped (by decide)
    · exact .escaped (by decide)
  · obtain ⟨hd, hb⟩ := not_or.1 h
    exact .literal ⟨UInt8.le_trans (by decide) h'.1, h'.2⟩ hd hb
  · have hlt := a.toNat_lt
    have hx : a.toNat / 100 ≤ 9 := by omega
    have hy : a.toNat / 10 % 10 ≤ 9 := by omega
    have hz : a.toNat % 10 ≤ 9 := by omega
    have hv : 100 * (a.toNat / 100) + 10 * (a.toNat / 10 % 10) + a.toNat % 10 = a.toNat := by omega
    have hi := Item.decimal hx hy hz (by omega)
    rwa [digit_mod, digit_mod, hv, UInt8.ofNat_toNat] at hi

lemma items_escape (o : Octets) : Items (o.flatMap escape) o := by
  induction o with
  | nil => exact .nil
  | cons a o ih => exact .cons (item_escape a) ih

/-! ### Labels -/

/-- How a label is printed, with the dot behind it. -/
def labelText (l : Label) : Octets := l.octets.flatMap escape ++ [dot]

lemma text_of_ne_nil (h : n.labels ≠ []) : n.text = n.labels.flatMap labelText := if_neg h

lemma spells_labelText (h : ls ≠ []) : Spells (ls.flatMap labelText) (ls.map Label.octets) := by
  induction ls with
  | nil => exact absurd rfl h
  | cons l ls ih =>
    have hl := items_escape l.octets
    rw [List.flatMap_cons, labelText]
    cases ls with
    | nil =>
      rw [List.flatMap_nil, List.append_nil]
      exact .dotted hl
    | cons m ls =>
      rw [List.append_assoc, List.singleton_append]
      exact .cons hl (ih (List.cons_ne_nil _ _))

/-- The dot in the end is the one behind the last label. -/
lemma endsIn_labelText (h : ls ≠ []) : EndsIn dot (ls.flatMap labelText) := by
  induction ls with
  | nil => exact absurd rfl h
  | cons l ls ih =>
    have hl := items_escape l.octets
    rw [List.flatMap_cons, labelText, List.append_assoc, List.singleton_append]
    cases ls with
    | nil => exact EndsIn.items ⟨[], .nil, rfl⟩ hl
    | cons m ls => exact (ih (List.cons_ne_nil _ _)).dot.items hl

/-! ### Names -/

theorem ofText_text (n : Name) : ofText n.text = .ok n := by
  by_cases h : n.labels = []
  · have ht : n.text = [dot] := if_pos h
    rw [ht, ofText, if_pos rfl]
    exact congrArg Except.ok (ext h.symm)
  · refine ofText_of_spells ?_
    rw [text_of_ne_nil h]
    exact spells_labelText h

lemma endsIn_text (n : Name) : EndsIn dot n.text := by
  by_cases h : n.labels = []
  · exact ⟨[], .nil, if_pos h⟩
  · rw [text_of_ne_nil h]
    exact endsIn_labelText h

lemma text_ne_nil (n : Name) : n.text ≠ [] := by
  intro ht
  have h := ofText_text n
  rw [ht] at h
  cases h

/-! ### What is printed -/

lemma graphic_escape (a : UInt8) : ∀ b ∈ escape a, 0x21 ≤ b ∧ b ≤ 0x7E := by
  have hd (n : Nat) : 0x21 ≤ digit n ∧ digit n ≤ 0x7E := by
    simp only [UInt8.le_iff_toNat_le, toNat_digit]
    exact ⟨by simp; omega, by simp; omega⟩
  unfold escape
  split_ifs with h h'
  · refine List.forall_mem_cons.2 ⟨by decide, List.forall_mem_singleton.2 ?_⟩
    obtain rfl | rfl := h <;> decide
  · simpa using h'
  · simp only [List.forall_mem_cons]
    exact ⟨by decide, hd _, hd _, hd _, by simp⟩

lemma graphic_text (n : Name) : ∀ b ∈ n.text, 0x21 ≤ b ∧ b ≤ 0x7E := by
  by_cases h : n.labels = []
  · have ht : n.text = [dot] := if_pos h
    rw [ht]
    exact List.forall_mem_singleton.2 (by decide)
  · rw [text_of_ne_nil h]
    simp only [List.forall_mem_flatMap, labelText, List.forall_mem_append]
    exact fun l _ => ⟨fun a _ => graphic_escape a, List.forall_mem_singleton.2 (by decide)⟩

lemma toList_display (n : Name) : n.display.toList = n.text.map fun a => Char.ofNat a.toNat :=
  String.toList_ofList

/-- A name is printed in printable ASCII without spaces. -/
lemma isGraphic_display (n : Name) : ∀ c ∈ n.display.toList, IsGraphic c := by
  rw [toList_display]
  refine List.forall_mem_map.2 fun a ha => ?_
  rw [IsGraphic, toNat_charOfNat]
  exact n.graphic_text a ha

lemma encode_display (n : Name) : Utf8.encode n.display.toList = n.text := by
  rw [Utf8.encode_eq_map fun c hc => Nat.lt_of_le_of_lt (n.isGraphic_display c hc).2 (by decide),
    toList_display, List.map_map]
  conv_rhs => rw [← List.map_id n.text]
  refine List.map_congr_left fun a _ => ?_
  rw [Function.comp, toNat_charOfNat, UInt8.ofNat_toNat]
  rfl

/-- **The round trip of names**: what is printed for a name is read as that name, octet for octet.
It is printed in ASCII characters that are no spaces, and ends in a dot that closes a label, or is
the root. So to print and read again what was read of a text changes nothing. -/
theorem display_reads_back :
    (∀ n : Name, ofText (Utf8.encode n.display.toList) = .ok n ∧
      (∀ c ∈ n.display.toList, 0x21 ≤ c.toNat ∧ c.toNat ≤ 0x7E) ∧
      EndsIn dot (Utf8.encode n.display.toList)) ∧
    ∀ s, (ofText s >>= fun n => ofText (Utf8.encode n.display.toList)) = ofText s := by
  refine ⟨fun n => ⟨?_, n.isGraphic_display, ?_⟩, fun s => ?_⟩
  · rw [encode_display, ofText_text]
  · rw [encode_display]
    exact n.endsIn_text
  · cases ofText s with
    | error e => rfl
    | ok n =>
      have h := n.ofText_text
      rw [← encode_display] at h
      exact h

end DnsClient.Name
