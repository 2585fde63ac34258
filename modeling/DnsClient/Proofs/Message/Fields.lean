import DnsClient.Proofs.Message.Composition

/-!
The fields of a header.

The flags of a message share two octets, in which each field has its own bits (`Field.mask`). It is
read off these alone, and setting it changes no others. So a field is what it was last set to, or
what it was at first, whatever is done to the rest. The section counts are fields of two octets
each. On the wire a field is set by overwriting its own octets (`Header.wire_set`,
`Counts.wire_set`).
-/

namespace DnsClient

/-! ### Bits of an octet -/

/-- The octet with the bits under a mask replaced by those of another octet. -/
def overwrite (o mask a : UInt8) : UInt8 := (o &&& ~~~mask) ||| (a &&& mask)

section Bits

variable {o mask a k : UInt8}

@[simp] lemma overwrite_zero (o a : UInt8) : overwrite o 0 a = o := by simp [overwrite]

/-- Each bit comes from the one octet or the other, as the mask has it. -/
lemma overwrite_getElem {i : Nat} (hi : i < 8) : (overwrite o mask a).toBitVec[i] =
    if mask.toBitVec[i] then a.toBitVec[i] else o.toBitVec[i] := by
  simp only [overwrite, UInt8.toBitVec_and, UInt8.toBitVec_or, UInt8.toBitVec_not,
    BitVec.getElem_and, BitVec.getElem_or, BitVec.getElem_not]
  cases mask.toBitVec[i] <;> simp

lemma overwrite_and_mask : overwrite o mask a &&& mask = a &&& mask := by
  rw [← UInt8.toBitVec_inj]
  ext i hi
  rw [UInt8.toBitVec_and, UInt8.toBitVec_and, BitVec.getElem_and, BitVec.getElem_and,
    overwrite_getElem hi]
  cases mask.toBitVec[i] <;> simp

/-- Bits that the mask does not cover stay. -/
lemma overwrite_and_of_disjoint (h : mask &&& k = 0) : overwrite o mask a &&& k = o &&& k := by
  rw [← UInt8.toBitVec_inj]
  ext i hi
  have hk : (mask.toBitVec[i] && k.toBitVec[i]) = false := by
    simpa using congrArg (·.toBitVec[i]) h
  rw [UInt8.toBitVec_and, UInt8.toBitVec_and, BitVec.getElem_and, BitVec.getElem_and,
    overwrite_getElem hi]
  cases hm : mask.toBitVec[i] <;> simp_all

lemma assignBit_eq (o mask : UInt8) (b : Bool) :
    assignBit o mask b = overwrite o mask (if b then mask else 0) := by
  cases b
  · simp [assignBit, overwrite]
  · rw [← UInt8.toBitVec_inj]
    ext i hi
    rw [overwrite_getElem hi, assignBit, if_pos rfl, if_pos rfl, UInt8.toBitVec_or,
      BitVec.getElem_or]
    cases mask.toBitVec[i] <;> simp

lemma hasBit_assignBit (hm : mask ≠ 0) (o : UInt8) (b : Bool) :
    hasBit (assignBit o mask b) mask = b := by
  rw [hasBit, assignBit_eq, overwrite_and_mask]
  cases b <;> simp [hm]

lemma lowBits_eq_mod (a : UInt8) : lowBits a = a % 16 := by
  rw [lowBits, ← UInt8.toNat_inj, UInt8.toNat_and, UInt8.toNat_mod]
  exact Nat.and_two_pow_sub_one_eq_mod a.toNat 4

lemma lowBits_shiftRight (o : UInt8) : lowBits (o >>> 3) = (o &&& 0x78) >>> 3 := by
  rw [UInt8.shiftRight_and]
  rfl

lemma opcodeBits_eq (a : UInt8) : opcodeBits a = (a <<< 3) &&& 0x78 := UInt8.shiftLeft_and

lemma opcodeBits_shiftRight (a : UInt8) : opcodeBits a >>> 3 = lowBits a := by
  have hlt : (lowBits a).toNat < 16 := by
    rw [lowBits_eq_mod, UInt8.toNat_mod]
    exact Nat.mod_lt _ (by decide)
  rw [opcodeBits, ← UInt8.toNat_inj, UInt8.toNat_shiftRight, UInt8.toNat_shiftLeft]
  simp only [Nat.shiftLeft_eq, Nat.shiftRight_eq_div_pow, UInt8.reduceToNat, Nat.reduceMod,
    Nat.reducePow]
  omega

end Bits

/-! ### Octets in place -/

namespace Octets

/-- The octets with those of a range replaced. -/
def splice (o : Octets) (range : Nat × Nat) (w : Octets) : Octets :=
  o.take range.1 ++ (w ++ o.drop range.2)

/-- Octets before and behind the range stay, if it is replaced by as many octets as it has. -/
lemma getElem?_splice {o w : Octets} {a b i : Nat} (hw : a + w.length = b) (hb : b ≤ o.length)
    (hi : i < a ∨ b ≤ i) : (o.splice (a, b) w)[i]? = o[i]? := by
  have ha : (o.take a).length = a := List.length_take_of_le (by omega)
  change (o.take a ++ (w ++ o.drop b))[i]? = o[i]?
  rcases hi with hi | hi
  · rw [List.getElem?_append_left (by omega), List.getElem?_take_of_lt hi]
  · have hj : b + (i - a - w.length) = i := by omega
    rw [List.getElem?_append_right (by omega), List.getElem?_append_right (by omega), ha,
      List.getElem?_drop, hj]

end Octets

/-! ### The fields of the first four octets -/

namespace Header

inductive Field where
  | id
  | qr
  | opcode
  | aa
  | tc
  | rd
  | ra
  | z
  | ad
  | cd
  | rcode

abbrev Field.Value : Field → Type
  | .id => UInt16
  | .opcode => Opcode
  | .rcode => Rcode
  | _ => Bool

def get (h : Header) : (f : Field) → f.Value
  | .id => h.id
  | .qr => h.qr
  | .opcode => h.opcode
  | .aa => h.aa
  | .tc => h.tc
  | .rd => h.rd
  | .ra => h.ra
  | .z => h.z
  | .ad => h.ad
  | .cd => h.cd
  | .rcode => h.rcode

/-- The value that an update gives to a field, if it is for that one. -/
def Update.value? : Update → (f : Field) → Option f.Value
  | .id n, .id => some n
  | .qr b, .qr => some b
  | .opcode c, .opcode => some ⟨c.code % 16⟩
  | .aa b, .aa => some b
  | .tc b, .tc => some b
  | .rd b, .rd => some b
  | .ra b, .ra => some b
  | .ad b, .ad => some b
  | .cd b, .cd => some b
  | .rcode c, .rcode => some ⟨c.code % 16⟩
  | _, _ => none

def Update.field : Update → Field
  | .id _ => .id
  | .qr _ => .qr
  | .opcode _ => .opcode
  | .aa _ => .aa
  | .tc _ => .tc
  | .rd _ => .rd
  | .ra _ => .ra
  | .ad _ => .ad
  | .cd _ => .cd
  | .rcode _ => .rcode

/-- The bits that a field has in the two octets of flags. -/
def Field.mask : Field → UInt8 × UInt8
  | .id => (0, 0)
  | .qr => (0x80, 0)
  | .opcode => (0x78, 0)
  | .aa => (0x04, 0)
  | .tc => (0x02, 0)
  | .rd => (0x01, 0)
  | .ra => (0, 0x80)
  | .z => (0, 0x40)
  | .ad => (0, 0x20)
  | .cd => (0, 0x10)
  | .rcode => (0, 0x0F)

/-- Where the octets of a field begin in a header, and where they end. -/
def Field.range : Field → Nat × Nat
  | .id => (0, 2)
  | .qr | .opcode | .aa | .tc | .rd => (2, 3)
  | .ra | .z | .ad | .cd | .rcode => (3, 4)

/-- The octets in which a field stands. -/
def octets (h : Header) : Field → Octets
  | .id => Octets.ofWord16 h.id
  | .qr | .opcode | .aa | .tc | .rd => [h.high]
  | .ra | .z | .ad | .cd | .rcode => [h.low]

variable {h k : Header} {u : Update} {f g : Field}

lemma Field.range_le (f : Field) : f.range.2 ≤ 4 := by cases f <;> decide

lemma length_octets (h : Header) (f : Field) : f.range.1 + (h.octets f).length = f.range.2 := by
  cases f <;> rfl

lemma Field.mask_disjoint (hne : f ≠ g) :
    f.mask.1 &&& g.mask.1 = 0 ∧ f.mask.2 &&& g.mask.2 = 0 := by
  cases f <;> cases g <;> first | exact absurd rfl hne | decide

/-- A field is read off its bits. -/
lemma get_congr (hid : f = .id → h.id = k.id) (hh : h.high &&& f.mask.1 = k.high &&& f.mask.1)
    (hl : h.low &&& f.mask.2 = k.low &&& f.mask.2) : h.get f = k.get f := by
  cases f with
  | id => exact hid rfl
  | qr | aa | tc | rd => exact congrArg (· != 0) hh
  | ra | z | ad | cd => exact congrArg (· != 0) hl
  | opcode =>
    simp only [get, opcode, lowBits_shiftRight]
    exact congrArg (fun o : UInt8 => Opcode.mk (o >>> 3)) hh
  | rcode => exact congrArg Rcode.mk hl

lemma id_set (hu : u.field ≠ .id) : (h.set u).id = h.id := by
  cases u <;> first | rfl | exact absurd rfl hu

lemma high_set_opcode (h : Header) (c : Opcode) :
    (h.set (.opcode c)).high = overwrite h.high 0x78 (c.code <<< 3) := by
  have hm : (0x87 : UInt8) = ~~~0x78 := by decide
  rw [overwrite, ← opcodeBits_eq, ← hm, set]

lemma low_set_rcode (h : Header) (c : Rcode) :
    (h.set (.rcode c)).low = overwrite h.low 0x0F c.code := by
  have hm : (0xF0 : UInt8) = ~~~0x0F := by decide
  rw [overwrite, ← lowBits, ← hm, set]

lemma high_set (h : Header) (u : Update) :
    ∃ a, (h.set u).high = overwrite h.high u.field.mask.1 a := by
  cases u with
  | qr b | aa b | tc b | rd b => exact ⟨_, assignBit_eq _ _ b⟩
  | opcode c => exact ⟨_, high_set_opcode h c⟩
  | id | ra | ad | cd | rcode => exact ⟨0, (overwrite_zero _ _).symm⟩

lemma low_set (h : Header) (u : Update) :
    ∃ a, (h.set u).low = overwrite h.low u.field.mask.2 a := by
  cases u with
  | ra b | ad b | cd b => exact ⟨_, assignBit_eq _ _ b⟩
  | rcode c => exact ⟨_, low_set_rcode h c⟩
  | id | qr | opcode | aa | tc | rd => exact ⟨0, (overwrite_zero _ _).symm⟩

/-- An update leaves all other fields alone. -/
lemma get_set_of_ne (hne : u.field ≠ f) : (h.set u).get f = h.get f := by
  obtain ⟨hd, hd'⟩ := Field.mask_disjoint hne
  obtain ⟨a, ha⟩ := high_set h u
  obtain ⟨b, hb⟩ := low_set h u
  refine get_congr (fun hf => id_set (hf ▸ hne)) ?_ ?_
  · rw [ha, overwrite_and_of_disjoint hd]
  · rw [hb, overwrite_and_of_disjoint hd']

/-- An update sets its own field. -/
lemma value?_field (h : Header) (u : Update) :
    u.value? u.field = some ((h.set u).get u.field) := by
  cases u with
  | id n => rfl
  | qr b | aa b | tc b | rd b | ra b | ad b | cd b =>
    exact congrArg some (hasBit_assignBit (by decide) _ b).symm
  | opcode c =>
    have hc : (h.set (.opcode c)).opcode = ⟨c.code % 16⟩ := by
      rw [opcode, high_set_opcode, lowBits_shiftRight, overwrite_and_mask, ← opcodeBits_eq,
        opcodeBits_shiftRight, lowBits_eq_mod]
    exact congrArg some hc.symm
  | rcode c =>
    have hc : (h.set (.rcode c)).rcode = ⟨c.code % 16⟩ := by
      rw [rcode, low_set_rcode, lowBits, overwrite_and_mask, ← lowBits, lowBits_eq_mod]
    exact congrArg some hc.symm

lemma value?_of_ne (hne : u.field ≠ f) : u.value? f = none := by
  cases u <;> cases f <;> first | rfl | exact absurd rfl hne

lemma get_set (h : Header) (u : Update) (f : Field) :
    (h.set u).get f = (u.value? f).getD (h.get f) := by
  by_cases hf : u.field = f
  · subst hf
    rw [value?_field h, Option.getD_some]
  · rw [get_set_of_ne hf, value?_of_ne hf, Option.getD_none]

/-- An update overwrites the octets of its field. -/
lemma wire_set (h : Header) (u : Update) :
    (h.set u).wire = h.wire.splice u.field.range ((h.set u).octets u.field) := by
  cases u <;> rfl

lemma getElem?_wire_set {i : Nat} (hi : i < u.field.range.1 ∨ u.field.range.2 ≤ i) :
    (h.set u).wire[i]? = h.wire[i]? := by
  have hb : u.field.range.2 ≤ h.wire.length := h.length_wire ▸ u.field.range_le
  rw [wire_set]
  exact Octets.getElem?_splice (length_octets _ _) hb hi

/-- Four octets are the header that is read off them. -/
lemma exists_ofMessage? {o : Octets} (ho : o.length = 4) :
    ∃ h, ofMessage? o = some h ∧ h.wire = o := by
  obtain ⟨a, b, c, d, rfl⟩ := List.length_eq_four.1 ho
  refine ⟨_, rfl, ?_⟩
  rw [wire, Octets.ofWord16_toWord16 [a, b] rfl]
  rfl

end Header

/-! ### Section counts -/

namespace Counts

/-- The number that an update gives to a section, if it is for that one. -/
def Update.value? : Update → Section → Option UInt16
  | .qd n, .question => some n
  | .an n, .answer => some n
  | .ns n, .authority => some n
  | .ar n, .additional => some n
  | _, _ => none

/-- The section that an update is for. -/
def Update.part : Update → Section
  | .qd _ => .question
  | .an _ => .answer
  | .ns _ => .authority
  | .ar _ => .additional

/-- Where the octets of a section begin among the counts, and where they end. -/
def range (s : Section) : Nat × Nat := (2 * s.index, 2 * s.index + 2)

lemma range_le (s : Section) : (range s).2 ≤ 8 := by cases s <;> decide

lemma announced_update (c : Counts) (u : Update) (s : Section) :
    (c.set u).announced s = (u.value? s).getD (c.announced s) := by
  cases u <;> cases s <;> rfl

/-- An update overwrites the two octets of its section. -/
lemma wire_set (c : Counts) (u : Update) : (c.set u).wire =
    c.wire.splice (range u.part) (Octets.ofWord16 ((c.set u).announced u.part)) := by
  cases u <;> rfl

lemma getElem?_wire_set {c : Counts} {u : Update} {i : Nat}
    (hi : i < (range u.part).1 ∨ (range u.part).2 ≤ i) : (c.set u).wire[i]? = c.wire[i]? := by
  have hb : (range u.part).2 ≤ c.wire.length := c.length_wire ▸ range_le u.part
  rw [wire_set]
  exact Octets.getElem?_splice rfl hb hi

/-- Eight octets are the counts that are read off them, behind any four. -/
lemma exists_ofMessage? {p o : Octets} (hp : p.length = 4) (ho : o.length = 8) :
    ∃ c, ofMessage? (p ++ o) = some c ∧ c.wire = o := by
  have h₁ : (o.take 4).length = 4 := by simp [ho]
  have h₂ : (o.drop 4).length = 4 := by simp [ho]
  obtain ⟨a, b, c, d, ht⟩ := List.length_eq_four.1 h₁
  obtain ⟨e, f, g, h, hd⟩ := List.length_eq_four.1 h₂
  obtain rfl : o = [a, b, c, d, e, f, g, h] := by rw [← o.take_append_drop 4, ht, hd]; rfl
  rw [ofMessage?, ← hp, List.drop_left]
  refine ⟨_, rfl, ?_⟩
  rw [wire, Octets.ofWord16_toWord16 [a, b] rfl, Octets.ofWord16_toWord16 [c, d] rfl,
    Octets.ofWord16_toWord16 [e, f] rfl, Octets.ofWord16_toWord16 [g, h] rfl]
  rfl

lemma ofMessage?_behind {p : Octets} (hp : p.length = 4) (c : Counts) (o : Octets) :
    ofMessage? (p ++ (c.wire ++ o)) = some c := by
  obtain ⟨h, -, rfl⟩ := Header.exists_ofMessage? hp
  exact ofMessage?_wire h c o

end Counts

/-! ### Sequences of updates -/

/-- Where each step sets a part or leaves it, the part is in the end what it was last set to. -/
lemma foldl_eq_getLastD {σ τ α : Type} {step : σ → τ → σ} {value? : τ → Option α} (part : σ → α)
    (h : ∀ s t, part (step s t) = (value? t).getD (part s)) (s : σ) (ts : List τ) :
    part (ts.foldl step s) = (ts.filterMap value?).getLastD (part s) := by
  induction ts generalizing s with
  | nil => rfl
  | cons t ts ih =>
    rw [List.foldl_cons, ih, h, List.filterMap_cons]
    cases value? t with
    | none => rfl
    | some a => rw [List.getLastD_cons, Option.getD_some]

/-- A part that no step changes is in the end what it was. -/
lemma foldl_eq_of_forall {σ τ α : Type} {step : σ → τ → σ} (part : σ → α) {ts : List τ}
    (h : ∀ t ∈ ts, ∀ s, part (step s t) = part s) (s : σ) : part (ts.foldl step s) = part s := by
  induction ts generalizing s with
  | nil => rfl
  | cons t ts ih =>
    obtain ⟨ht, hts⟩ := List.forall_mem_cons.1 h
    rw [List.foldl_cons, ih hts, ht]

/-- The second header has in each field what the updates gave it last, or else what the first one
has, and it can be read off a message that starts with it. -/
structure Header.Updated (h : Header) (us : List Update) (k : Header) : Prop where
  fields : ∀ f, k.get f = (us.filterMap (·.value? f)).getLastD (h.get f)
  reserved : k.z = h.z
  /-- Octets before and behind all the fields that are set stay. -/
  untouched : ∀ i, (∀ u ∈ us, i < u.field.range.1 ∨ u.field.range.2 ≤ i) →
    k.wire[i]? = h.wire[i]?
  readsBack : ∀ o, ofMessage? (k.wire ++ o) = some k

/-- The same of section counts, which are read behind any four octets. -/
structure Counts.Updated (c : Counts) (us : List Update) (d : Counts) : Prop where
  announced : ∀ s, d.announced s = (us.filterMap (·.value? s)).getLastD (c.announced s)
  untouched : ∀ i, (∀ u ∈ us, i < (range u.part).1 ∨ (range u.part).2 ≤ i) →
    d.wire[i]? = c.wire[i]?
  readsBack : ∀ (p : { p : Octets // p.length = 4 }) (o : Octets),
    ofMessage? (p.1 ++ (d.wire ++ o)) = some d

lemma Header.updated_foldl (h : Header) (us : List Update) : h.Updated us (us.foldl set h) := by
  have hf (f : Field) : (us.foldl set h).get f = _ :=
    foldl_eq_getLastD (get · f) (fun h u => get_set h u f) h us
  refine ⟨hf, ?_, fun i hi => ?_, ofMessage?_wire _⟩
  · have hz : us.filterMap (·.value? .z) = [] := by
      refine List.filterMap_eq_nil_iff.2 fun u _ => ?_
      cases u <;> rfl
    exact (hf .z).trans (by rw [hz]; rfl)
  · exact foldl_eq_of_forall (·.wire[i]?) (fun u hu _ => getElem?_wire_set (hi u hu)) h

lemma Counts.updated_foldl (c : Counts) (us : List Update) : c.Updated us (us.foldl set c) where
  announced s := foldl_eq_getLastD (announced · s) (fun c u => announced_update c u s) c us
  untouched i hi := foldl_eq_of_forall (·.wire[i]?) (fun u hu _ => getElem?_wire_set (hi u hu)) c
  readsBack p o := ofMessage?_behind p.2 _ o

/-- **Header fields are independent.** Whatever octets a header is read from, and in whatever order
its fields are set, each of them is what it was last set to or what it was at first. This is so of
the flags and of the section counts, and it is what a message tells that starts with them. -/
theorem fields_independent :
    (∀ o : { o : Octets // o.length = 4 }, ∃ h, Header.ofMessage? o.1 = some h ∧ h.wire = o.1 ∧
      ∀ us, h.Updated us (us.foldl Header.set h)) ∧
    ∀ (p : { p : Octets // p.length = 4 }) (o : { o : Octets // o.length = 8 }),
      ∃ c, Counts.ofMessage? (p.1 ++ o.1) = some c ∧ c.wire = o.1 ∧
        ∀ us, c.Updated us (us.foldl Counts.set c) := by
  constructor
  · intro o
    obtain ⟨h, hr, hw⟩ := Header.exists_ofMessage? o.2
    exact ⟨h, hr, hw, h.updated_foldl⟩
  · intro p o
    obtain ⟨c, hr, hw⟩ := Counts.exists_ofMessage? p.2 o.2
    exact ⟨c, hr, hw, c.updated_foldl⟩

end DnsClient
