import DnsClient.Proofs.Name.Representation

/-!
The texts that name a domain.

The text of a label is a sequence of items, each of which stands for one octet (`Item`, `Items`).
Labels are separated by dots, and the last may have one behind it (`Spells`). Scanning a text takes
just these: an item is taken for its octet, whatever was read before it (`scan_item`), so a label is
scanned up to its dot, and the labels of a text one after the other.
-/

namespace DnsClient.Name

variable {a : UInt8} {t s acc o : Octets} {os : List Octets} {ls : List Label} {n : Name}

/-! ### The grammar -/

/-- A part of a label's text, and the octet that it stands for. -/
inductive Item : Octets → UInt8 → Prop
  | literal {a : UInt8} (h : 0x20 ≤ a ∧ a ≤ 0x7E) (hd : a ≠ dot) (hb : a ≠ backslash) : Item [a] a
  | escaped {a : UInt8} (h : a < 0x30 ∨ 0x39 < a) : Item [backslash, a] a
  | decimal {x y z : Nat} (hx : x ≤ 9) (hy : y ≤ 9) (hz : z ≤ 9)
      (h : 100 * x + 10 * y + z ≤ 255) :
      Item [backslash, digit x, digit y, digit z] (UInt8.ofNat (100 * x + 10 * y + z))

/-- The text of a label, and the octets that its items stand for. -/
inductive Items : Octets → Octets → Prop
  | nil : Items [] []
  | cons {t s o : Octets} {a : UInt8} (h : Item t a) (hs : Items s o) : Items (t ++ s) (a :: o)

/-- The text of one or more labels with dots between them, and maybe one in the end. -/
inductive Spells : Octets → List Octets → Prop
  | last {t o : Octets} (h : Items t o) : Spells t [o]
  | dotted {t o : Octets} (h : Items t o) : Spells (t ++ [dot]) [o]
  | cons {t o s : Octets} {os : List Octets} (h : Items t o) (hs : Spells s os) :
      Spells (t ++ dot :: s) (o :: os)

/-! ### Digits -/

@[simp] lemma toNat_digit (n : Nat) : (digit n).toNat = 48 + n % 10 := by
  rw [digit, UInt8.toNat_ofNat']
  exact Nat.mod_eq_of_lt (by omega)

lemma isDigit_iff : isDigit a = true ↔ 48 ≤ a.toNat ∧ a.toNat ≤ 57 := by
  simp only [isDigit, UInt8.le_iff_toNat_le, decide_eq_true_eq]
  rfl

@[simp] lemma isDigit_digit (n : Nat) : isDigit (digit n) = true := by
  rw [isDigit_iff, toNat_digit]
  omega

lemma exists_digit (h : isDigit a = true) : ∃ x ≤ 9, a = digit x := by
  obtain ⟨hle, hge⟩ := isDigit_iff.1 h
  refine ⟨a.toNat - 48, by omega, UInt8.toNat_inj.1 ?_⟩
  rw [toNat_digit]
  omega

lemma isDigit_eq_false : isDigit a = false ↔ a < 0x30 ∨ 0x39 < a := by
  simp only [isDigit, decide_eq_false_iff_not, not_and_or, UInt8.not_le]

lemma ofDigits_digit {x y z : Nat} (hx : x ≤ 9) (hy : y ≤ 9) (hz : z ≤ 9) :
    ofDigits (digit x) (digit y) (digit z) = 100 * x + 10 * y + z := by
  simp only [ofDigits, toNat_digit]
  omega

lemma item_decimal {b c d : UInt8} (h : isDigit b = true)
    (h' : isDigit c = true ∧ isDigit d = true ∧ ofDigits b c d ≤ 255) :
    Item [backslash, b, c, d] (UInt8.ofNat (ofDigits b c d)) := by
  obtain ⟨hc, hd, hle⟩ := h'
  obtain ⟨x, hx, rfl⟩ := exists_digit h
  obtain ⟨y, hy, rfl⟩ := exists_digit hc
  obtain ⟨z, hz, rfl⟩ := exists_digit hd
  rw [ofDigits_digit hx hy hz] at hle ⊢
  exact .decimal hx hy hz hle

lemma item_escaped (h : ¬ isDigit a = true) : Item [backslash, a] a :=
  .escaped (isDigit_eq_false.1 (Bool.not_eq_true _ ▸ h))

/-! ### Items and labels -/

/-- An item is scanned for its octet. -/
lemma scan_item (h : Item t a) (acc s : Octets) : scan acc (t ++ s) = scan (a :: acc) s := by
  have hd : backslash ≠ dot := by decide
  cases h with
  | literal h hd hb =>
    rw [List.singleton_append, scan.eq_def]
    simp [hd, hb, isLiteral, h]
  | escaped h =>
    rw [List.cons_append, List.singleton_append, scan.eq_def]
    simp [hd, isDigit_eq_false.2 h]
  | decimal hx hy hz h =>
    simp only [List.cons_append, List.nil_append]
    rw [scan.eq_def]
    simp only [hd, isDigit_digit, ofDigits_digit hx hy hz, h, if_false, if_true, and_self]

lemma scan_items (h : Items t o) (acc s : Octets) :
    scan acc (t ++ s) = scan (o.reverse ++ acc) s := by
  induction h generalizing acc with
  | nil => rfl
  | cons h _ ih =>
    rw [List.append_assoc, scan_item h, ih, List.reverse_cons, List.append_assoc,
      List.singleton_append]

lemma ofOctets_octets (l : Label) : Label.ofOctets l.octets = .ok l := by
  rw [Label.ofOctets, dif_pos l.length_pos, dif_pos l.length_le]

lemma octets_of_ofOctets {l : Label} (h : Label.ofOctets o = .ok l) : l.octets = o := by
  unfold Label.ofOctets at h
  split_ifs at h
  cases h
  rfl

/-- An item in front of the text belongs to the first label. -/
lemma Spells.item (h : Spells s (o :: os)) (ht : Item t a) : Spells (t ++ s) ((a :: o) :: os) := by
  cases h with
  | last h => exact .last (.cons ht h)
  | dotted h =>
    rw [← List.append_assoc]
    exact .dotted (.cons ht h)
  | cons h hs =>
    rw [← List.append_assoc]
    exact .cons (.cons ht h) hs

/-! ### Texts -/

/-- What is scanned behind octets of a label is spelled by the text, with these in front. -/
lemma spells_of_scan (h : scan acc s = .ok ls) :
    ∃ o os, Spells s (o :: os) ∧ ls.map Label.octets = (acc.reverse ++ o) :: os := by
  have item {acc t s : Octets} {ls : List Label} {a : UInt8} (ht : Item t a)
      (ih : ∃ o os, Spells s (o :: os) ∧ ls.map Label.octets = ((a :: acc).reverse ++ o) :: os) :
      ∃ o os, Spells (t ++ s) (o :: os) ∧ ls.map Label.octets = (acc.reverse ++ o) :: os := by
    obtain ⟨o, os, hs, hl⟩ := ih
    refine ⟨_, os, hs.item ht, ?_⟩
    rw [hl, List.reverse_cons, List.append_assoc, List.singleton_append]
  fun_induction scan acc s generalizing ls
  case case1 acc =>
    cases hl : Label.ofOctets acc.reverse with
    | error => rw [hl] at h; cases h
    | ok l =>
      rw [hl] at h
      cases h
      refine ⟨[], [], .last .nil, ?_⟩
      rw [List.map_singleton, octets_of_ofOctets hl, List.append_nil]
  case case3 acc l hl =>
    cases h
    refine ⟨[], [], .dotted .nil, ?_⟩
    rw [List.map_singleton, octets_of_ofOctets hl, List.append_nil]
  case case4 acc s l hl hs ih =>
    cases hms : scan [] s with
    | error => rw [hms] at h; cases h
    | ok ms =>
      rw [hms] at h
      cases h
      obtain ⟨o, os, hsp, hm⟩ := ih hms
      refine ⟨[], o :: os, .cons .nil hsp, ?_⟩
      rw [List.map_cons, octets_of_ofOctets hl, hm, List.append_nil]
      rfl
  case case6 acc b hb c d s hcd hd ih =>
    exact item (item_decimal hb hcd) (ih h)
  case case9 acc b s hb hd ih =>
    exact item (item_escaped hb) (ih h)
  case case10 acc a s hd hb hl ih =>
    exact item (.literal (of_decide_eq_true hl) hd hb) (ih h)
  all_goals cases h

/-- What the text spells is scanned. -/
lemma scan_of_spells (h : Spells s (ls.map Label.octets)) : scan [] s = .ok ls := by
  generalize hos : ls.map Label.octets = os at h
  induction h generalizing ls with
  | last h =>
    obtain ⟨l, rfl, rfl⟩ := List.map_eq_singleton_iff.1 hos
    have hs := scan_items h [] []
    rw [List.append_nil, List.append_nil] at hs
    rw [hs, scan, List.reverse_reverse, ofOctets_octets]
    rfl
  | dotted h =>
    obtain ⟨l, rfl, rfl⟩ := List.map_eq_singleton_iff.1 hos
    rw [scan_items h, List.append_nil, scan.eq_def]
    simp only [if_true, List.reverse_reverse, ofOctets_octets]
  | @cons t o s os h hs ih =>
    obtain ⟨l, ms, rfl, rfl, hms⟩ := List.map_eq_cons_iff.1 hos
    have hne : s ≠ [] := by
      rintro rfl
      cases ih hms
    rw [scan_items h, List.append_nil, scan.eq_def]
    simp only [if_true, List.reverse_reverse, ofOctets_octets, if_neg hne, ih hms]
    rfl

lemma ofText_of_spells (h : Spells s (n.labels.map Label.octets)) : ofText s = .ok n := by
  have hs := scan_of_spells h
  have hne : s ≠ [dot] := by
    rintro rfl
    cases hs
  rw [ofText, if_neg hne, hs]
  exact dif_pos n.wireLength_le

lemma spells_of_ofText (hs : s ≠ [dot]) (h : ofText s = .ok n) :
    Spells s (n.labels.map Label.octets) := by
  rw [ofText, if_neg hs] at h
  cases hl : scan [] s with
  | error => rw [hl] at h; cases h
  | ok ls =>
    obtain ⟨o, os, hsp, hm⟩ := spells_of_scan hl
    rw [hl] at h
    dsimp only [ofLabels] at h
    split_ifs at h
    cases h
    rwa [hm]

/-! ### A dot in the end -/

/-- Octets that are made up of items, and dots between them. -/
inductive Whole : Octets → Prop
  | nil : Whole []
  | dot {s : Octets} (hs : Whole s) : Whole (dot :: s)
  | item {t s : Octets} {a : UInt8} (h : Item t a) (hs : Whole s) : Whole (t ++ s)

/-- The text ends in the octet, and no escape sequence before it takes it. -/
def EndsIn (a : UInt8) (s : Octets) : Prop := ∃ t, Whole t ∧ s = t ++ [a]

lemma EndsIn.dot (h : EndsIn a s) : EndsIn a (dot :: s) := by
  obtain ⟨t, ht, rfl⟩ := h
  exact ⟨_, ht.dot, rfl⟩

lemma EndsIn.item (h : EndsIn a s) {b : UInt8} (ht : Item t b) : EndsIn a (t ++ s) := by
  obtain ⟨u, hu, rfl⟩ := h
  exact ⟨_, hu.item ht, (List.append_assoc _ _ _).symm⟩

lemma EndsIn.items (h : EndsIn a s) (ht : Items t o) : EndsIn a (t ++ s) := by
  induction ht with
  | nil => exact h
  | cons ht _ ih =>
    rw [List.append_assoc]
    exact ih.item ht

/-- A dot behind the text closes the last label, unless there is such a dot already, or a backslash
that takes it. -/
lemma scan_append_dot (hd : ¬ EndsIn dot s) (hb : ¬ EndsIn backslash s) (acc : Octets) :
    scan acc (s ++ [dot]) = scan acc s := by
  have item {acc t s : Octets} {a : UInt8} (ht : Item t a) (hd : ¬ EndsIn dot (t ++ s))
      (hb : ¬ EndsIn backslash (t ++ s))
      (ih : ¬ EndsIn dot s → ¬ EndsIn backslash s →
        scan (a :: acc) (s ++ [dot]) = scan (a :: acc) s) :
      scan acc (t ++ s ++ [dot]) = scan (a :: acc) s := by
    rw [List.append_assoc, scan_item ht]
    exact ih (fun h => hd (h.item ht)) fun h => hb (h.item ht)
  fun_induction scan acc s
  case case1 acc =>
    rw [List.nil_append, scan.eq_def]
    cases Label.ofOctets acc.reverse <;> simp only [if_true] <;> rfl
  case case2 acc s e he =>
    rw [List.cons_append, scan.eq_def]
    simp only [if_true, he]
  case case3 => exact absurd ⟨[], .nil, rfl⟩ hd
  case case4 acc s l hl hs ih =>
    have hne : s ++ [dot] ≠ [] := List.concat_ne_nil _ _
    rw [List.cons_append, scan.eq_def]
    simp only [if_true, hl, if_neg hne, ih (fun h => hd h.dot) fun h => hb h.dot]
  case case5 => exact absurd ⟨[], .nil, rfl⟩ hb
  case case6 acc b hb' c d s hcd hd' ih => exact item (item_decimal hb' hcd) hd hb ih
  case case7 acc b hb' c d s hcd hd' =>
    simp only [List.cons_append]
    rw [scan.eq_def]
    simp only [hd', if_false, if_true, hb', if_neg hcd]
  case case8 acc b s hb' hs hd' =>
    -- A dot is no digit, so it does not complete the escape sequence either.
    have hdot : isDigit dot = false := by decide
    match s with
    | [] =>
      simp only [List.cons_append, List.nil_append]
      rw [scan.eq_def]
      simp only [hd', if_false, if_true, hb']
    | [c] =>
      simp only [List.cons_append, List.nil_append]
      rw [scan.eq_def]
      simp [hd', hb', hdot]
    | c :: d :: s => exact (hs c d s rfl).elim
  case case9 acc b s hb' hd' ih => exact item (item_escaped hb') hd hb ih
  case case10 acc a s hd' hb' hl ih => exact item (.literal (of_decide_eq_true hl) hd' hb') hd hb ih
  case case11 acc a s hd' hb' hl =>
    rw [List.cons_append, scan.eq_def]
    simp only [if_neg hd', if_neg hb', if_neg hl]

lemma ofText_append_dot (hs : s ≠ []) (hd : ¬ EndsIn dot s) (hb : ¬ EndsIn backslash s) :
    ofText (s ++ [dot]) = ofText s := by
  have hne : s ≠ [dot] := by
    rintro rfl
    exact hd ⟨[], .nil, rfl⟩
  have hne' : s ++ [dot] ≠ [dot] := fun h => hs (List.append_left_eq_self.1 h)
  rw [ofText, ofText, if_neg hne, if_neg hne', scan_append_dot hd hb]

/-- **The texts that are read as names** are a dot, for the root, and those that spell octet strings
that fit, for the name with these labels. A dot behind a text makes no difference, unless the text
ends in a dot or in a backslash that are not escaped. (One that ends between the digits of an escape
sequence is no name either way.) -/
theorem ofText_grammar :
    (∀ s n, ofText s = .ok n ↔
      s = [dot] ∧ n.wire = [0] ∨ ∃ os, Spells s os ∧ Fit os ∧ n.wire = wireOf os) ∧
    ∀ s, s ≠ [] → ¬ EndsIn dot s → ¬ EndsIn backslash s → ofText (s ++ [dot]) = ofText s := by
  refine ⟨fun s n => ⟨fun h => ?_, ?_⟩, fun _ => ofText_append_dot⟩
  · by_cases hs : s = [dot]
    · rw [ofText, if_pos hs] at h
      cases h
      exact .inl ⟨hs, rfl⟩
    · exact .inr ⟨_, spells_of_ofText hs h, fit_labels n, (wireOf_octets n.labels).symm⟩
  · rintro (⟨rfl, h⟩ | ⟨os, hs, hf, h⟩)
    · have hn : n = root := ext (encodeLabels_injective h)
      rw [hn]
      rfl
    · obtain ⟨m, rfl⟩ := hf.exists_name
      have hn : n = m := ext (encodeLabels_injective (h.trans (wireOf_octets m.labels)))
      rw [hn]
      exact ofText_of_spells hs

lemma not_whole_backslash : ¬ Whole [backslash] := by
  generalize hs : [backslash] = s
  intro h
  cases h with
  | nil => cases hs
  | dot => cases hs
  | item h =>
    cases h with
    | literal _ _ hb => exact hb (List.cons.inj hs).1.symm
    | escaped => cases hs
    | decimal => cases hs

/-- A dot behind a backslash is a label, and may have a dot behind it as other labels. -/
theorem ofText_grammar_dot : ∃ n : Name, n.wire = [1, dot, 0] ∧
    Spells [backslash, dot] [[dot]] ∧ ofText [backslash, dot] = .ok n ∧
    ¬ EndsIn dot [backslash, dot] ∧ ¬ EndsIn backslash [backslash, dot] ∧
    ofText [backslash, dot, dot] = ofText [backslash, dot] := by
  let n : Name := ⟨[⟨[dot], by decide, by decide⟩], by decide⟩
  have hs : Spells [backslash, dot] [[dot]] := .last (.cons (.escaped (by decide)) .nil)
  have hd : ¬ EndsIn dot [backslash, dot] := by
    rintro ⟨t, ht, h⟩
    have htd : [backslash] ++ [dot] = t ++ [dot] := h
    rw [← List.append_cancel_right htd] at ht
    exact not_whole_backslash ht
  have hb : ¬ EndsIn backslash [backslash, dot] := by
    rintro ⟨t, -, h⟩
    have htd : [backslash] ++ [dot] = t ++ [backslash] := h
    cases List.append_inj_right' htd rfl
  refine ⟨n, rfl, hs, (ofText_grammar.1 _ n).2 (.inr ⟨_, hs, ⟨by decide, by decide⟩, rfl⟩), hd, hb,
    ofText_grammar.2 _ (List.cons_ne_nil _ _) hd hb⟩

end DnsClient.Name
