import DnsClient.Message
import DnsClient.Proofs.Name.Expansion
import Mathlib.Data.List.Infix

/-!
What is read of a message that was cut short.

A read of octets that others begin with fails for want of octets, or it does what it would do there:
it yields the same value or the same error, and stops at the same place (`Read.Steady`). A name is
read so wherever its pointers lead, since they lead to places in front of them. Reads one after the
other are steady if each of them is, and so is all that is read of a message.
-/

namespace DnsClient

variable {α β : Type} {c c₁ d d₁ e : Cursor} {n : Nat}

namespace Cursor

/-- The first cursor is at the place of the second, in octets that the others begin with. -/
structure Cuts (c d : Cursor) : Prop where
  octets : c.octets <+: d.octets
  pos : c.pos = d.pos

lemma Cuts.rest (h : c.Cuts d) : c.rest <+: d.rest := by
  rw [Cursor.rest, Cursor.rest, ← h.pos]
  exact h.octets.drop c.pos

/-- What there is to take is there in the whole octets as well. -/
lemma Cuts.take? {o : { o : Octets // o.length = n }} (h : c.Cuts d)
    (ht : c.take? n = some (o, e)) : ∃ d', d.take? n = some (o, d') ∧ e.Cuts d' := by
  have ho := take?_octets ht
  have hn : n ≤ c.rest.length := by
    have := congrArg List.length ho
    rw [o.2, List.length_take] at this
    omega
  have hlen := h.rest.length_le
  have hd := d.pos_add_remaining
  rw [length_rest d] at hlen
  obtain ⟨x, d', hx⟩ : ∃ x d', d.take? n = some (x, d') := exists_take? (by omega)
  obtain rfl : x = o := by
    obtain ⟨p, hp⟩ := h.rest
    refine Subtype.ext ?_
    rw [take?_octets hx, ho, ← hp, List.take_append_of_le_length hn]
  obtain ⟨hoc, hpc⟩ := take?_pos ht
  obtain ⟨hod, hpd⟩ := take?_pos hx
  exact ⟨d', hx, by rw [hoc, hod]; exact h.octets, by rw [hpc, hpd, h.pos]⟩

lemma Cuts.seek? {pos : Nat} (h : c.Cuts d) (hs : c.seek? pos = .ok e) :
    ∃ d', d.seek? pos = .ok d' ∧ e.Cuts d' := by
  obtain ⟨ho, hp⟩ := seek?_eq_ok hs
  have he := e.pos_add_remaining
  have hle := h.octets.length_le
  have hsize : d.octets.length = d.data.size := Array.length_toList
  exact ⟨_, dif_pos (by rw [ho] at he; omega), ho ▸ h.octets, hp⟩

end Cursor

/-! ### Names -/

namespace Name

variable {pointers room : Nat} {a : { o : Octets // o.length = 1 }}

/-- The first result comes of octets cut short: it is for want of octets, or as the second. -/
inductive Persists : Except ParseError (α × Cursor) → Except ParseError (α × Cursor) → Prop
  | short (y : Except ParseError (α × Cursor)) : Persists (.error .shortInput) y
  | error (e : ParseError) : Persists (.error e) (.error e)
  | ok (a : α) {c d : Cursor} (h : c.Cuts d) : Persists (.ok (a, c)) (.ok (a, d))

/-- A label, with the labels behind it. -/
lemma persists_label (h : c₁.Cuts d₁) (hc : c.take? 1 = some (a, c₁))
    (hd : d.take? 1 = some (a, d₁)) (hs : Octets.toNat a.1 < 64)
    (ih : ∀ r < room, ∀ {c d : Cursor}, c.Cuts d →
      Persists (readLabels pointers r c) (readLabels pointers r d)) :
    Persists (readLabels pointers room c) (readLabels pointers room d) := by
  rw [readLabels, readLabels]
  simp only [hc, hd]
  rw [dif_pos hs, dif_pos hs]
  cases hx : c₁.take? (Octets.toNat a.1) with
  | none => exact .short _
  | some p =>
    obtain ⟨o, c₂⟩ := p
    obtain ⟨d₂, hy, h₂⟩ := h.take? hx
    simp only [hy]
    split_ifs with hr h0
    · exact .error _
    · exact .ok _ h₂
    · have ht := ih (room - (Octets.toNat a.1 + 1)) (by omega) h₂
      generalize readLabels pointers (room - (Octets.toNat a.1 + 1)) c₂ = x at ht
      generalize readLabels pointers (room - (Octets.toNat a.1 + 1)) d₂ = y at ht
      cases ht with
      | short => exact .short _
      | error => exact .error _
      | ok _ h => exact .ok _ h

/-- A pointer, or what is neither pointer nor label. -/
lemma persists_pointer (h : c₁.Cuts d₁) (hc : c.take? 1 = some (a, c₁))
    (hd : d.take? 1 = some (a, d₁)) (hs : ¬ Octets.toNat a.1 < 64)
    (ih : ∀ k < pointers, ∀ {c d : Cursor}, c.Cuts d →
      Persists (readLabels k room c) (readLabels k room d)) :
    Persists (readLabels pointers room c) (readLabels pointers room d) := by
  rw [readLabels, readLabels]
  simp only [hc, hd]
  rw [dif_neg hs, dif_neg hs]
  by_cases hp : 192 ≤ Octets.toNat a.1
  · rw [if_pos hp, if_pos hp]
    cases hx : c₁.take? 1 with
    | none => exact .short _
    | some p =>
      obtain ⟨b, c₂⟩ := p
      obtain ⟨d₂, hy, h₂⟩ := h.take? hx
      simp only [hy, ← h₂.pos]
      cases pointers with
      | zero => exact .error _
      | succ k =>
        dsimp only
        split_ifs with ht
        · exact .error _
        · -- The place lies in front of the pointer, so it is within the octets that are left.
          obtain ⟨c₃, hc₃⟩ := Cursor.exists_seek? (c := c₂) (Nat.le_of_add_right_le
            (Nat.le_of_lt (Nat.not_le.1 ht)))
          obtain ⟨d₃, hd₃, h₃⟩ := h₂.seek? hc₃
          simp only [hc₃, hd₃]
          have ht := ih k (Nat.lt_succ_self k) h₃
          generalize readLabels k room c₃ = x at ht
          generalize readLabels k room d₃ = y at ht
          cases ht with
          | short => exact .short _
          | error => exact .error _
          | ok => exact .ok _ h₂
  · rw [if_neg hp, if_neg hp]
    exact .error _

lemma persists_readLabels (h : c.Cuts d) :
    Persists (readLabels pointers room c) (readLabels pointers room d) := by
  induction hk : pointers + room using Nat.strong_induction_on generalizing pointers room c d with
  | _ k ih =>
    cases hc : c.take? 1 with
    | none =>
      rw [readLabels]
      simp only [hc]
      exact .short _
    | some p =>
      obtain ⟨a, c₁⟩ := p
      obtain ⟨d₁, hd, h₁⟩ := h.take? hc
      by_cases hs : Octets.toNat a.1 < 64
      · exact persists_label h₁ hc hd hs fun r hr _ _ h => ih (pointers + r) (by omega) h rfl
      · exact persists_pointer h₁ hc hd hs fun k hk _ _ h => ih (k + room) (by omega) h rfl

end Name

/-! ### Reads -/

namespace Read

/-- The read fails for want of octets where they are cut short, or does as in the whole. -/
def Steady (r : Read α) : Prop :=
  ∀ c d, c.Cuts d → (r c).1 = .error .shortInput ∨ (r c).1 = (r d).1 ∧ (r c).2.Cuts (r d).2

variable {r : Read α} {f : α → Read β}

lemma steady_pure (a : α) : Steady (pure a) := fun _ _ h => .inr ⟨rfl, h⟩

lemma Steady.bind (h : r.Steady) (h' : ∀ a, (f a).Steady) : (r >>= f).Steady := by
  intro c d hc
  simp only [Bind.bind]
  rcases hx : r c with ⟨x, c'⟩
  rcases hy : r d with ⟨y, d'⟩
  have hr := h c d hc
  rw [hx, hy] at hr
  obtain rfl | ⟨rfl, hc'⟩ := hr
  · exact .inl rfl
  · cases x with
    | error e => exact .inr ⟨rfl, hc'⟩
    | ok a => exact h' a c' d' hc'

lemma steady_slice (n : Nat) : (slice n).Steady := by
  intro c d h
  rw [slice]
  cases ht : c.take? n with
  | none => exact .inl rfl
  | some p =>
    obtain ⟨d', hd, hc⟩ := h.take? ht
    rw [slice, hd]
    exact .inr ⟨rfl, hc⟩

lemma steady_skip (n : Nat) : (skip n).Steady := (steady_slice n).bind fun _ => steady_pure ()

lemma steady_number (n : Nat) : (number n).Steady := (steady_slice n).bind fun _ => steady_pure _

lemma steady_word16 : word16.Steady := (steady_number 2).bind fun _ => steady_pure _

lemma steady_word32 : word32.Steady := (steady_number 4).bind fun _ => steady_pure _

lemma steady_name : Read.name.Steady := by
  intro c d h
  have hp : Name.Persists (Name.readLabels maxPointers maxNameLength c)
    (Name.readLabels maxPointers maxNameLength d) := Name.persists_readLabels h
  rw [Read.name, Read.name]
  generalize Name.readLabels maxPointers maxNameLength c = x at hp
  generalize Name.readLabels maxPointers maxNameLength d = y at hp
  cases hp with
  | short => exact .inl rfl
  | error => exact .inr ⟨rfl, h⟩
  | ok _ hc => exact .inr ⟨rfl, hc⟩

lemma steady_question : Read.question.Steady :=
  steady_name.bind fun _ => steady_word16.bind fun _ => steady_word16.bind fun _ => steady_pure _

lemma steady_skipQuestions (n : Nat) : (Message.skipQuestions n).Steady := by
  induction n with
  | zero => exact steady_pure ()
  | succ n ih => exact steady_question.bind fun _ => ih

lemma steady_skipRecord : Message.skipRecord.Steady :=
  steady_name.bind fun _ => steady_word16.bind fun _ => steady_word16.bind fun _ =>
    steady_word32.bind fun _ => steady_word16.bind fun _ => (steady_skip _).bind fun _ =>
      steady_pure _

lemma steady_skipRecords (n : Nat) : (Message.skipRecords n).Steady := by
  induction n with
  | zero => exact steady_pure ()
  | succ n ih => exact steady_skipRecord.bind fun _ => ih

lemma steady_findOpt (n : Nat) : (Message.findOpt n).Steady := by
  induction n with
  | zero => exact steady_pure none
  | succ n ih =>
    refine steady_skipRecord.bind fun p => ?_
    dsimp only
    split_ifs
    · exact steady_pure _
    · exact ih

end Read

/-! ### Messages -/

lemma Counts.ofMessage?_append {o : Octets} (h : headerLength ≤ o.length) (p : Octets) :
    ofMessage? (o ++ p) = ofMessage? o := by
  have hle : 12 ≤ o.length := h
  have hlen : 8 ≤ (o.drop 4).length := by
    rw [List.length_drop]
    omega
  rw [ofMessage?, ofMessage?, List.drop_append_of_le_length (by omega)]
  match o.drop 4, hlen with
  | _ :: _ :: _ :: _ :: _ :: _ :: _ :: _ :: _, _ => rfl

namespace Message

variable {m n : Message}

lemma counts_of_isPrefix (h : m.octets <+: n.octets) : m.counts = n.counts := by
  obtain ⟨p, hp⟩ := h
  rw [counts, counts, ← hp, Counts.ofMessage?_append m.length_ge]

lemma cuts_body (h : m.octets <+: n.octets) : m.body.Cuts n.body := ⟨h, rfl⟩

/-- **Messages cut short can only look short.** A name or a question read from any place in them,
and the first question and the payload size as long as the header is there, are what the whole
message gives, unless the read fails for want of octets. -/
theorem short_or_same : Read.name.Steady ∧ Read.question.Steady ∧
    ∀ m n : Message, m.octets <+: n.octets →
      (m.firstQuestion = .error .shortInput ∨ m.firstQuestion = n.firstQuestion) ∧
      (m.optPayloadSize = .error .shortInput ∨ m.optPayloadSize = n.optPayloadSize) := by
  refine ⟨Read.steady_name, Read.steady_question, fun m n h => ⟨?_, ?_⟩⟩
  · rw [firstQuestion, firstQuestion, counts_of_isPrefix h]
    split_ifs
    · exact .inr rfl
    · obtain hs | ⟨hs, -⟩ := Read.steady_question _ _ (cuts_body h)
      · exact .inl (by rw [hs]; rfl)
      · exact .inr (by rw [hs])
  · have hr := (Read.steady_skipQuestions n.counts.qd.toNat).bind fun _ =>
      (Read.steady_skipRecords (n.counts.an.toNat + n.counts.ns.toNat)).bind fun _ =>
        Read.steady_findOpt n.counts.ar.toNat
    rw [optPayloadSize, optPayloadSize, counts_of_isPrefix h]
    exact (hr _ _ (cuts_body h)).imp_right And.left

/-- A message without its last octet still has its question, and so has a name that is a pointer to
the name of that question. But its payload size is out of reach. -/
theorem short_or_same_opt : ∃ (m n : Message) (c d : Cursor), m.octets <+: n.octets ∧
    m.octets.length = 45 ∧ n.octets.length = 46 ∧ c.Cuts d ∧ c.octets = m.octets ∧
    d.octets = n.octets ∧ c.pos = 19 ∧ (Read.name c).1 = (Read.name d).1 ∧
    (Read.name c).2.pos = 21 ∧ (Read.name d).2.pos = 21 ∧ m.firstQuestion = n.firstQuestion ∧
    m.optPayloadSize = .error .shortInput ∧ n.optPayloadSize = .ok (some 1232) := by
  let header : Octets := [0, 1, 129, 128, 0, 1, 0, 1, 0, 0, 0, 1]
  let question : Octets := [1, 97, 0, 0, 1, 0, 1]
  let answer : Octets := [192, 12, 0, 1, 0, 1, 0, 0, 0, 60, 0, 4, 192, 0, 2, 1]
  let opt : Octets := [0, 0, 41, 4, 208, 0, 0, 0, 0, 0, 0]
  let n : Message := ⟨header ++ question ++ answer ++ opt, by decide⟩
  let m : Message := ⟨n.octets.take 45, by decide⟩
  let c : Cursor := ⟨m.octets.toArray, 19, by decide⟩
  let d : Cursor := ⟨n.octets.toArray, 19, by decide⟩
  have hm : m.octets <+: n.octets := List.take_prefix 45 n.octets
  have hc : c.Cuts d := ⟨hm, rfl⟩
  have hname : (Read.name c).1.toOption.isSome := by decide +kernel
  have hquestion : m.firstQuestion.toOption.isSome := by decide +kernel
  refine ⟨m, n, c, d, hm, rfl, rfl, hc, rfl, rfl, rfl, ?_, by decide +kernel, by decide +kernel,
    ?_, by decide +kernel, by decide +kernel⟩
  · obtain h | ⟨h, -⟩ := short_or_same.1 c d hc
    · rw [h] at hname
      cases hname
    · exact h
  · obtain h | h := (short_or_same.2.2 m n hm).1
    · rw [h] at hquestion
      cases hquestion
    · exact h

end Message

end DnsClient
