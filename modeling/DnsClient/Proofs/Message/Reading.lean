import DnsClient.Message.Builder
import DnsClient.Proofs.Name.Expansion

/-!
Reading what was written.

A read takes octets for a value if it yields that value wherever those octets lie ahead of the
cursor, and stops right behind them (`Read.Takes`). Reads in sequence take octets in sequence
(`Read.Takes.bind`), so each part of a message is taken for what was written there.
-/

namespace DnsClient

/-- The class field of a record, if it is an OPT record. -/
def Record.optSize? (r : Record) : Option UInt16 :=
  if r.rtype = Rtype.opt then some r.rclass else none

variable {α β : Type} {o p : Octets} {c d : Cursor}

/-- The second cursor is in the same octets, right behind some that lie ahead of the first. -/
structure Cursor.Passes (c : Cursor) (o : Octets) (d : Cursor) : Prop where
  octets : d.octets = c.octets
  pos : d.pos = c.pos + o.length

namespace Cursor

lemma exists_passes (h : o <+: c.rest) : ∃ d, c.Passes o d := by
  have hl := h.length_le
  rw [length_rest] at hl
  have := c.pos_add_remaining
  obtain ⟨x, d, hd⟩ : ∃ x d, c.take? o.length = some (x, d) := exists_take? (by omega)
  exact ⟨d, (take?_pos hd).1, (take?_pos hd).2⟩

/-- What lies ahead behind some octets. -/
lemma Passes.ahead (h : c.Passes o d) (ho : o ++ p <+: c.rest) : p <+: d.rest := by
  obtain ⟨q, hq⟩ := ho
  have hr : d.rest = c.rest.drop o.length := by
    rw [rest, rest, h.octets, h.pos, List.drop_drop]
  exact ⟨q, by rw [hr, ← hq, List.append_assoc, List.drop_left]⟩

lemma Passes.trans {e : Cursor} (h : c.Passes o d) (h' : d.Passes p e) : c.Passes (o ++ p) e where
  octets := h'.octets.trans h.octets
  pos := by rw [h'.pos, h.pos, List.length_append, Nat.add_assoc]

end Cursor

namespace Read

/-- The read yields the value wherever the octets lie ahead, and passes over them. -/
def Takes (r : Read α) (o : Octets) (a : α) : Prop :=
  ∀ c : Cursor, o <+: c.rest → ∃ d, r c = (.ok a, d) ∧ c.Passes o d

variable {r : Read α} {f : α → Read β} {a : α} {b : β} {n : Nat}

lemma takes_pure (a : α) : Takes (pure a) [] a := fun c _ => ⟨c, rfl, rfl, rfl⟩

lemma Takes.bind (h : r.Takes o a) (h' : (f a).Takes p b) : (r >>= f).Takes (o ++ p) b := by
  intro c ho
  obtain ⟨d, hd, hp⟩ := h c ((List.prefix_append o p).trans ho)
  obtain ⟨e, he, hp'⟩ := h' d (hp.ahead ho)
  have hb : (r >>= f) c = f a d := by
    simp only [Bind.bind]
    rw [hd]
  exact ⟨e, hb.trans he, hp.trans hp'⟩

lemma Takes.map (h : r.Takes o a) (g : α → β) :
    Takes (do let x ← r; return g x) o (g a) := by
  have := h.bind (f := fun x => pure (g x)) (takes_pure (g a))
  rwa [List.append_nil] at this

/-! ### Numbers and slices -/

lemma takes_slice (h : o.length = n) : (slice n).Takes o ⟨o, h⟩ := by
  intro c ho
  have hl := ho.length_le
  rw [Cursor.length_rest] at hl
  have := c.pos_add_remaining
  obtain ⟨x, d, hd⟩ : ∃ x d, c.take? n = some (x, d) := Cursor.exists_take? (by omega)
  have hx : x = ⟨o, h⟩ := by
    have ht := (List.prefix_iff_eq_take.1 ho).symm
    rw [h] at ht
    exact Subtype.ext ((Cursor.take?_octets hd).trans ht)
  refine ⟨d, ?_, (Cursor.take?_pos hd).1, by rw [(Cursor.take?_pos hd).2, h]⟩
  rw [slice, hd, hx]

lemma takes_skip (h : o.length = n) : (skip n).Takes o () := (takes_slice h).map fun _ => ()

lemma takes_number (h : o.length = n) : (number n).Takes o (Octets.toNat o) :=
  (takes_slice h).map fun x => Octets.toNat x.1

lemma takes_word16 (n : UInt16) : word16.Takes (Octets.ofWord16 n) n := by
  have h := (takes_number (Octets.length_ofWord16 n)).map UInt16.ofNat
  have hn : UInt16.ofNat (Octets.toNat (Octets.ofWord16 n)) = n := Octets.toWord16_ofWord16 n
  rw [hn] at h
  exact h

lemma takes_word32 (n : UInt32) : word32.Takes (Octets.ofWord32 n) n := by
  have h := (takes_number (Octets.length_ofWord32 n)).map UInt32.ofNat
  have hn : UInt32.ofNat (Octets.toNat (Octets.ofWord32 n)) = n := by
    have := n.toNat_lt
    rw [Octets.ofWord32, Octets.toNat_ofNat, ← UInt32.toNat_inj]
    simp [Octets.capacity]
  rw [hn] at h
  exact h

/-- A length that fits into two octets. -/
lemma takes_length {k : Nat} (h : k ≤ maxMessageLength) :
    ∃ m : UInt16, m.toNat = k ∧ word16.Takes (Octets.ofNat 2 k) m := by
  refine ⟨UInt16.ofNat k, ?_, ?_⟩
  · rw [UInt16.toNat_ofNat']
    exact Nat.mod_eq_of_lt (by rw [maxMessageLength] at h; omega)
  · have hk : Octets.ofWord16 (UInt16.ofNat k) = Octets.ofNat 2 k := by
      rw [Octets.ofWord16, UInt16.toNat_ofNat']
      exact Octets.ofNat_mod 2 k
    exact hk ▸ takes_word16 _

/-! ### Names -/

lemma expands_of_prefix {ls : List Label} {pos : Nat} (h : encodeLabels ls <+: o.drop pos) :
    Name.Expands o pos ls 0 (pos + wireLength ls) := by
  induction ls generalizing pos with
  | nil =>
    refine .root ?_
    obtain ⟨p, hp⟩ := h
    rw [← List.head?_drop, ← hp]
    rfl
  | cons l ls ih =>
    rw [encodeLabels_cons] at h
    have hl : (o.drop pos).take (l.octets.length + 1) = l.wire := by
      have := (List.prefix_append l.wire _).trans h
      rw [← Label.length_wire]
      exact (List.prefix_iff_eq_take.1 this).symm
    have ht : encodeLabels ls <+: o.drop (pos + l.octets.length + 1) := by
      obtain ⟨p, hp⟩ := h
      refine ⟨p, ?_⟩
      rw [Nat.add_assoc, ← List.drop_drop, ← hp, ← Label.length_wire, List.append_assoc,
        List.drop_left]
    have he := Name.Expands.label l hl (ih ht)
    rwa [Nat.add_assoc, Nat.add_assoc, ← Nat.add_assoc l.octets.length] at he

/-- A name without pointers is read for itself. -/
lemma takes_name (n : Name) : Read.name.Takes n.wire n := by
  intro c ho
  obtain ⟨d, hd⟩ := Cursor.exists_passes ho
  refine ⟨d, Name.Stands.read ⟨hd.octets, 0, Nat.zero_le _, ?_⟩, hd⟩
  rw [hd.pos, Name.length_wire]
  exact expands_of_prefix ho

/-! ### Questions and records -/

lemma takes_question (q : Question) : Read.question.Takes q.wire q := by
  rw [Question.wire, List.append_assoc]
  refine (takes_name q.qname).bind ?_
  refine (takes_word16 q.qtype.code).bind ?_
  exact (takes_word16 q.qclass.code).map _

lemma takes_skipQuestions (qs : List Question) :
    (Message.skipQuestions qs.length).Takes (qs.flatMap Question.wire) () := by
  induction qs with
  | nil => exact takes_pure ()
  | cons q qs ih => exact (takes_question q).bind ih

/-- A record is passed over, whatever it holds. -/
lemma takes_record (r : Record) (h : r.rdata.length ≤ maxMessageLength) :
    Message.skipRecord.Takes r.wire (r.rtype, r.rclass) := by
  obtain ⟨m, hm, hl⟩ := takes_length h
  simp only [Record.wire, List.append_assoc]
  refine (takes_name r.owner).bind ?_
  refine (takes_word16 r.rtype.code).bind ?_
  refine (takes_word16 r.rclass).bind ?_
  refine (takes_word32 r.ttl).bind ?_
  refine hl.bind ?_
  exact (takes_skip hm.symm).map _

lemma takes_skipRecords (rs : List Record) (h : ∀ r ∈ rs, r.rdata.length ≤ maxMessageLength) :
    (Message.skipRecords rs.length).Takes (rs.flatMap Record.wire) () := by
  induction rs with
  | nil => exact takes_pure ()
  | cons r rs ih =>
    obtain ⟨hr, hrs⟩ := List.forall_mem_cons.1 h
    exact (takes_record r hr).bind (ih hrs)

/-- Looking for an OPT record takes no more octets than there are records. -/
lemma takes_findOpt (rs : List Record) (h : ∀ r ∈ rs, r.rdata.length ≤ maxMessageLength) :
    ∃ o, o <+: rs.flatMap Record.wire ∧
      (Message.findOpt rs.length).Takes o (rs.findSome? Record.optSize?) := by
  induction rs with
  | nil => exact ⟨[], List.nil_prefix, takes_pure none⟩
  | cons r rs ih =>
    obtain ⟨hr, hrs⟩ := List.forall_mem_cons.1 h
    have ht := takes_record r hr
    rw [List.flatMap_cons, List.findSome?_cons, List.length_cons, Message.findOpt]
    by_cases hopt : r.rtype = Rtype.opt
    · refine ⟨r.wire ++ [], by simp, ht.bind ?_⟩
      simp only [hopt, if_true, Record.optSize?]
      exact takes_pure _
    · obtain ⟨o, ho, hf⟩ := ih hrs
      refine ⟨r.wire ++ o, (List.prefix_append_right_inj _).2 ho, ht.bind ?_⟩
      simp only [hopt, if_false, Record.optSize?]
      exact hf

end Read

end DnsClient
