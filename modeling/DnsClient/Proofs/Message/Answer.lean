import DnsClient.Proofs.Message.Composition
import DnsClient.Proofs.Name.Comparison

/-!
Which messages answer which.

Of messages that were built, the first question is what was pushed first with success
(`Builder.Composes.firstQuestion`). So whether one of them answers another depends on nothing else
than the QR bit, the two IDs and these questions.
-/

namespace DnsClient

variable {p q : Question}

/-- The questions have the same type and class, and names that are equal but for the case of
letters. -/
structure Question.SameAs (p q : Question) : Prop where
  qname : p.qname.SameLabels q.qname
  qtype : p.qtype = q.qtype
  qclass : p.qclass = q.qclass

lemma Question.beq_iff_sameAs : (p == q) = true ↔ p.SameAs q := by
  have h : (p == q) = (p.qname == q.qname && p.qtype == q.qtype && p.qclass == q.qclass) := rfl
  rw [h, Bool.and_eq_true, Bool.and_eq_true, ← Name.sameLabels_iff]
  constructor
  · rintro ⟨⟨hn, ht⟩, hc⟩
    exact ⟨hn, beq_iff_eq.1 ht, beq_iff_eq.1 hc⟩
  · rintro ⟨hn, ht, hc⟩
    exact ⟨⟨hn, beq_iff_eq.2 ht⟩, beq_iff_eq.2 hc⟩

lemma Question.beq_option_iff (p q : Option Question) :
    (p == q) = true ↔ Option.Rel SameAs p q := by
  cases p with
  | none =>
    cases q with
    | none => exact iff_of_true rfl .none
    | some q => exact iff_of_false Bool.false_ne_true nofun
  | some p =>
    cases q with
    | none => exact iff_of_false Bool.false_ne_true nofun
    | some q =>
      rw [Option.some_beq_some, beq_iff_sameAs]
      exact ⟨.some, fun | .some h => h⟩

lemma Message.isAnswer_iff {m n : Message} {p q : Option Question} (hp : m.firstQuestion = .ok p)
    (hq : n.firstQuestion = .ok q) :
    m.isAnswer n = true ↔ m.header.qr = true ∧ m.id = n.id ∧ Option.Rel Question.SameAs p q := by
  rw [isAnswer, hp, hq]
  simp only [Bool.and_eq_true, beq_iff_eq, Question.beq_option_iff, and_assoc]

namespace Builder

/-- **An answer has QR set, the ID of the query and its first question.** This holds of all messages
that are built by any steps, of which some may fail. Neither has a question, or the first ones that
were pushed with success are the same. -/
theorem isAnswer_iff_of_built (ss ts : List Step) :
    (run {} ss).message.isAnswer (run {} ts).message = true ↔
      (ss.foldl Step.onHeader {}).qr = true ∧
      (ss.foldl Step.onHeader {}).id = (ts.foldl Step.onHeader {}).id ∧
      Option.Rel Question.SameAs ((entries {} ss).findSome? Entry.question?)
        ((entries {} ts).findSome? Entry.question?) := by
  have hs := (composes_empty.run ss).firstQuestion
  have ht := (composes_empty.run ts).firstQuestion
  rw [Message.isAnswer_iff hs ht, Message.id, Message.id, message_header, message_header,
    header_run, header_run]
  rfl

end Builder

end DnsClient
