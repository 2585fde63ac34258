import DnsClient.Text.Blank
import DnsClient.Text.Split
import DnsClient.Text.Utf8
import Mathlib.Tactic.Common

/-!
Words in printable ASCII.

A printable ASCII character other than the space takes one octet and is no white space
(`IsGraphic`). So words of such characters, joined by spaces, come out of the octets of their text
again (`Utf8.decode_encode`, `words_joinWith`).
-/

namespace DnsClient

def IsGraphic (c : Char) : Prop := 0x21 ≤ c.toNat ∧ c.toNat ≤ 0x7E

instance (c : Char) : Decidable (IsGraphic c) := inferInstanceAs (Decidable (_ ∧ _))

lemma IsGraphic.isBlank_eq {c : Char} (h : IsGraphic c) : isBlank c = false := by
  obtain ⟨h, h'⟩ := h
  simp only [isBlank, decide_eq_false_iff_not]
  omega

lemma toNat_charOfNat (a : UInt8) : (Char.ofNat a.toNat).toNat = a.toNat := by
  have := a.toNat_lt
  rw [Char.ofNat, dif_pos (.inl (by omega))]
  rfl

lemma isGraphic_of_isDigit {c : Char} (h : c.isDigit) : IsGraphic c := by
  obtain ⟨h, h'⟩ : 0x30 ≤ c.toNat ∧ c.toNat ≤ 0x39 := Char.isDigit_iff_toNat.1 h
  exact ⟨by omega, by omega⟩

structure IsWord (w : List Char) : Prop where
  ne_nil : w ≠ []
  graphic : ∀ c ∈ w, IsGraphic c

instance (w : List Char) : Decidable (IsWord w) :=
  decidable_of_iff (w ≠ [] ∧ w.all fun c => decide (IsGraphic c))
    ⟨fun ⟨h, h'⟩ => ⟨h, fun c hc => of_decide_eq_true (List.all_eq_true.1 h' c hc)⟩,
      fun h => ⟨h.ne_nil, List.all_eq_true.2 fun c hc => decide_eq_true (h.graphic c hc)⟩⟩

lemma IsWord.append {w v : List Char} (hw : IsWord w) (hv : ∀ c ∈ v, IsGraphic c) :
    IsWord (w ++ v) where
  ne_nil := List.append_ne_nil_of_left_ne_nil hw.ne_nil v
  graphic := List.forall_mem_append.2 ⟨hw.graphic, hv⟩

/-! ### Words -/

lemma wordsFrom_graphic {w : List Char} (h : ∀ c ∈ w, IsGraphic c) (acc s : List Char) :
    wordsFrom acc (w ++ s) = wordsFrom (w.reverse ++ acc) s := by
  induction w generalizing acc with
  | nil => rfl
  | cons c w ih =>
    obtain ⟨hc, hw⟩ := List.forall_mem_cons.1 h
    rw [List.cons_append, wordsFrom, hc.isBlank_eq, if_neg Bool.false_ne_true, ih hw]
    simp

/-- Words joined by spaces are the words of the text. -/
theorem words_joinWith {ws : List (List Char)} (h : ∀ w ∈ ws, IsWord w) :
    words (joinWith ' ' ws) = ws := by
  induction ws with
  | nil => rfl
  | cons w ws ih =>
    obtain ⟨hw, hws⟩ := List.forall_mem_cons.1 h
    have hne := hw.ne_nil
    cases ws with
    | nil =>
      have := wordsFrom_graphic hw.graphic [] []
      rw [List.append_nil] at this
      simp [words, joinWith, this, wordsFrom, hne]
    | cons v ws =>
      have ih := ih hws
      rw [words] at ih
      have hb : isBlank ' ' = true := by decide
      simp [words, joinWith, wordsFrom_graphic hw.graphic, wordsFrom, hb, hne, ih]

/-! ### Octets of ASCII text -/

namespace Utf8

variable {s : List Char}

lemma encode_eq_map (h : ∀ c ∈ s, c.toNat < 0x80) :
    encode s = s.map fun c => UInt8.ofNat c.toNat := by
  induction s with
  | nil => rfl
  | cons c s ih =>
    obtain ⟨hc, hs⟩ := List.forall_mem_cons.1 h
    have he : String.utf8EncodeChar c = [UInt8.ofNat c.toNat] := by
      have hv : c.val.toNat ≤ 127 := Nat.le_of_lt_succ hc
      rw [String.utf8EncodeChar, if_pos hv, Char.toNat_val]
    rw [encode, List.flatMap_cons, he, ← encode, ih hs, List.map_cons, List.singleton_append]

lemma decodeFrom_ascii {c : Char} (h : c.toNat < 0x80) (acc : List Char) (o : Octets) :
    decodeFrom acc (UInt8.ofNat c.toNat :: o) = decodeFrom (c :: acc) o := by
  have hc : (UInt8.ofNat c.toNat).toNat = c.toNat := by
    rw [UInt8.toNat_ofNat']
    exact Nat.mod_eq_of_lt (by omega)
  have hlt : UInt8.ofNat c.toNat < 0x80 := UInt8.lt_iff_toNat_lt.2 (by rwa [hc])
  have hchar : char? 0 c.toNat = some c := dif_pos ⟨Nat.zero_le _, c.valid⟩
  rw [decodeFrom.eq_def]
  simp only [hlt, if_true, hc, hchar, Option.bind_some]

lemma decodeFrom_map (h : ∀ c ∈ s, c.toNat < 0x80) (acc : List Char) :
    decodeFrom acc (s.map fun c => UInt8.ofNat c.toNat) = some (acc.reverse ++ s) := by
  induction s generalizing acc with
  | nil => rw [List.append_nil]; rfl
  | cons c s ih =>
    obtain ⟨hc, hs⟩ := List.forall_mem_cons.1 h
    rw [List.map_cons, decodeFrom_ascii hc, ih hs]
    simp

/-- ASCII text is read from its octets. -/
theorem decode_encode (h : ∀ c ∈ s, c.toNat < 0x80) : decode (encode s) = some s := by
  rw [encode_eq_map h, decode, decodeFrom_map h]
  rfl

end Utf8

end DnsClient
