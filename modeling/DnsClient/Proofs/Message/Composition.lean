import DnsClient.Proofs.Message.Pushing
import DnsClient.Proofs.Message.Reading
import Mathlib.Data.List.Basic

/-!
What a builder has composed, and what is read of it.

A builder that holds entries (`Builder.Composes`) has them in the order of their sections. So the
parts of its message lie one behind the other where readers look for them.
-/

namespace DnsClient

namespace Entry

def question? : Entry → Option Question
  | .question q => some q
  | _ => none

/-- The payload size that an OPT record among the additional ones states. -/
def optSize? : Entry → Option UInt16
  | .additional r => r.optSize?
  | _ => none

end Entry

/-- The message consists of a header and entries, and this is what is read of it. -/
structure ReadsBack (header : Header) (entries : List Entry) (m : Message) : Prop where
  length_le : m.octets.length ≤ maxMessageLength
  octets : m.octets = header.wire ++ m.counts.wire ++ entries.flatMap Entry.wire
  header : m.header = header
  counts : ∀ s, (m.counts.announced s).toNat = entries.countP (·.part = s)
  firstQuestion : m.firstQuestion = .ok (entries.findSome? Entry.question?)
  optPayloadSize : m.optPayloadSize = .ok (entries.findSome? Entry.optSize?)

/-! ### Sections -/

/-- The entries of a message from the questions and records of its sections. -/
def inSections (qs : List Question) (an ns ar : List Record) : List Entry :=
  qs.map .question ++ (an.map .answer ++ (ns.map .authority ++ ar.map .additional))

lemma eq_nil_of_below {α : Type} {f : α → Entry} {as : List α} {x : Entry}
    (h : ∀ y ∈ as.map f, x.part.index ≤ y.part.index)
    (hf : ∀ a, (f a).part.index < x.part.index) : as = [] :=
  List.eq_nil_iff_forall_not_mem.2 fun a ha =>
    Nat.not_lt.2 (h (f a) (List.mem_map_of_mem ha)) (hf a)

/-- Entries in the order of their sections are four lists, one behind the other: no section
before that of the first entry has any. -/
lemma exists_inSections {es : List Entry}
    (h : es.Pairwise fun x y => x.part.index ≤ y.part.index) :
    ∃ qs an ns ar, es = inSections qs an ns ar := by
  induction h with
  | nil => exact ⟨[], [], [], [], rfl⟩
  | @cons x es hx _ ih =>
    obtain ⟨qs, an, ns, ar, rfl⟩ := ih
    rw [inSections] at hx
    simp only [List.forall_mem_append] at hx
    obtain ⟨hqs, han, hns, -⟩ := hx
    cases x with
    | question q => exact ⟨q :: qs, an, ns, ar, rfl⟩
    | answer r =>
      cases eq_nil_of_below hqs fun _ => by simp [Entry.part, Section.index]
      exact ⟨[], r :: an, ns, ar, rfl⟩
    | authority r =>
      cases eq_nil_of_below hqs fun _ => by simp [Entry.part, Section.index]
      cases eq_nil_of_below han fun _ => by simp [Entry.part, Section.index]
      exact ⟨[], [], r :: ns, ar, rfl⟩
    | additional r =>
      cases eq_nil_of_below hqs fun _ => by simp [Entry.part, Section.index]
      cases eq_nil_of_below han fun _ => by simp [Entry.part, Section.index]
      cases eq_nil_of_below hns fun _ => by simp [Entry.part, Section.index]
      exact ⟨[], [], [], r :: ar, rfl⟩

section

variable (qs : List Question) (an ns ar : List Record)

lemma flatMap_wire_inSections : (inSections qs an ns ar).flatMap Entry.wire =
    qs.flatMap Question.wire ++ ((an ++ ns).flatMap Record.wire ++ ar.flatMap Record.wire) := by
  simp [inSections, List.flatMap_map, Entry.wire]

lemma countP_inSections (s : Section) : (inSections qs an ns ar).countP (·.part = s) =
    match s with
    | .question => qs.length
    | .answer => an.length
    | .authority => ns.length
    | .additional => ar.length := by
  cases s <;> simp [inSections, List.countP_map, Function.comp_def, Entry.part]

lemma findSome?_none {α β : Type} (as : List α) :
    as.findSome? (fun _ => (none : Option β)) = none :=
  List.findSome?_eq_none_iff.2 fun _ _ => rfl

lemma findSome?_question_inSections :
    (inSections qs an ns ar).findSome? Entry.question? = qs.head? := by
  cases qs with
  | nil => simp [inSections, List.findSome?_map, Function.comp_def, Entry.question?, findSome?_none]
  | cons q qs => rfl

lemma findSome?_optSize_inSections :
    (inSections qs an ns ar).findSome? Entry.optSize? = ar.findSome? Record.optSize? := by
  simp [inSections, List.findSome?_map, Function.comp_def, Entry.optSize?, findSome?_none]

lemma forall_record?_inSections {P : Record → Prop} :
    (∀ x ∈ inSections qs an ns ar, ∀ r ∈ x.record?, P r) ↔
      (∀ r ∈ an ++ ns, P r) ∧ ∀ r ∈ ar, P r := by
  simp [inSections, Entry.record?, or_imp, forall_and, and_assoc]

end

/-! ### Reading back -/

lemma Octets.exists_ofWord16 (n : UInt16) : ∃ a b, ofWord16 n = [a, b] ∧ toWord16 [a, b] = n := by
  obtain ⟨a, b, h⟩ := List.length_eq_two.1 (length_ofWord16 n)
  exact ⟨a, b, h, by rw [← h, toWord16_ofWord16]⟩

lemma Header.ofMessage?_wire (h : Header) (o : Octets) : ofMessage? (h.wire ++ o) = some h := by
  obtain ⟨a, b, hw, hid⟩ := Octets.exists_ofWord16 h.id
  simp [wire, hw, ofMessage?, hid]

lemma Counts.ofMessage?_wire (h : Header) (c : Counts) (o : Octets) :
    ofMessage? (h.wire ++ (c.wire ++ o)) = some c := by
  obtain ⟨_, _, hqd, hqd'⟩ := Octets.exists_ofWord16 c.qd
  obtain ⟨_, _, han, han'⟩ := Octets.exists_ofWord16 c.an
  obtain ⟨_, _, hns, hns'⟩ := Octets.exists_ofWord16 c.ns
  obtain ⟨_, _, har, har'⟩ := Octets.exists_ofWord16 c.ar
  rw [ofMessage?, ← h.length_wire, List.drop_left]
  simp [wire, hqd, han, hns, har, hqd', han', hns', har']

namespace Builder

variable {b : Builder} {es : List Entry}

lemma message_octets (b : Builder) :
    b.message.octets = b.header.wire ++ (b.counts.wire ++ b.body) :=
  List.append_assoc _ _ _

@[simp] lemma message_header (b : Builder) : b.message.header = b.header := by
  rw [Message.header, message_octets, Header.ofMessage?_wire, Option.getD_some]

@[simp] lemma message_counts (b : Builder) : b.message.counts = b.counts := by
  rw [Message.counts, message_octets, Counts.ofMessage?_wire, Option.getD_some]

@[simp] lemma rest_body (b : Builder) : b.message.body.rest = b.body := by
  have hl : (b.header.wire ++ b.counts.wire).length = headerLength := by simp [headerLength]
  change b.message.octets.drop headerLength = b.body
  rw [message_octets, ← List.append_assoc, ← hl, List.drop_left]

lemma Composes.firstQuestion (h : b.Composes es) :
    b.message.firstQuestion = .ok (es.findSome? Entry.question?) := by
  obtain ⟨qs, an, ns, ar, rfl⟩ := exists_inSections h.ordered
  have hqd : b.counts.qd.toNat = qs.length := by
    exact (h.counts .question).trans (countP_inSections qs an ns ar .question)
  have hbody := h.body
  rw [flatMap_wire_inSections] at hbody
  rw [findSome?_question_inSections, Message.firstQuestion, message_counts]
  cases qs with
  | nil => rw [if_pos (UInt16.toNat_inj.1 hqd)]; rfl
  | cons q qs =>
    have hq : q.wire <+: b.message.body.rest := by
      rw [rest_body, hbody, List.flatMap_cons, List.append_assoc]
      exact List.prefix_append _ _
    obtain ⟨d, hd, -⟩ := Read.takes_question q b.message.body hq
    rw [if_neg, hd]
    · rfl
    · intro h0
      rw [h0] at hqd
      cases hqd

lemma Composes.optPayloadSize (h : b.Composes es) :
    b.message.optPayloadSize = .ok (es.findSome? Entry.optSize?) := by
  obtain ⟨qs, an, ns, ar, rfl⟩ := exists_inSections h.ordered
  obtain ⟨hskip, hfind⟩ := (forall_record?_inSections qs an ns ar).1 h.rdata
  have hc := fun s => (h.counts s).trans (countP_inSections qs an ns ar s)
  have hbody := h.body
  rw [flatMap_wire_inSections] at hbody
  have hqd : b.counts.qd.toNat = qs.length := hc .question
  have han : b.counts.an.toNat = an.length := hc .answer
  have hns : b.counts.ns.toNat = ns.length := hc .authority
  have har : b.counts.ar.toNat = ar.length := hc .additional
  obtain ⟨o, ho, hf⟩ := Read.takes_findOpt ar hfind
  have ht := (Read.takes_skipQuestions qs).bind
    (f := fun _ => do Message.skipRecords (an ++ ns).length; Message.findOpt ar.length)
    ((Read.takes_skipRecords (an ++ ns) hskip).bind hf)
  obtain ⟨d, hd, -⟩ := ht b.message.body (by
    rw [rest_body, hbody]
    exact (List.prefix_append_right_inj _).2 ((List.prefix_append_right_inj _).2 ho))
  rw [findSome?_optSize_inSections, Message.optPayloadSize, message_counts, hqd, han, hns, har,
    ← List.length_append]
  exact congrArg Prod.fst hd

lemma Composes.readsBack (h : b.Composes es) : ReadsBack b.header es b.message where
  length_le := by
    have := h.length_le
    rw [message_octets]
    simp only [List.length_append, Header.length_wire, Counts.length_wire]
    rw [headerLength] at this
    omega
  octets := by rw [message_octets, message_counts, h.body, List.append_assoc]
  header := b.message_header
  counts s := by rw [message_counts, h.counts]
  firstQuestion := h.firstQuestion
  optPayloadSize := h.optPayloadSize

end Builder

/-- A message built by any steps, of which some may fail, holds what was asked for with success,
and it is found there again. -/
theorem message_reads_back (ss : List Builder.Step) :
    ReadsBack (ss.foldl Builder.Step.onHeader {}) (Builder.entries {} ss)
      (Builder.run {} ss).message := by
  have h := (Builder.composes_empty.run ss).readsBack
  rwa [Builder.header_run] at h

end DnsClient
