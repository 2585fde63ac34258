import DnsClient.Request
import DnsClient.Proofs.Message.Composition

/-!
Requests as messages.

A request is a question, and an OPT record if a payload size is set. Both fit into a message for
every name, so a request always composes. Its message tells the question, and what was set last of
the ID, the two flags and the payload size.
-/

namespace DnsClient

namespace Request

variable {α : Type}

/-! ### What was set -/

namespace Update

def id? : Update → Option UInt16
  | .id n => some n
  | _ => none

def recursionDesired? : Update → Option Bool
  | .recursionDesired b => some b
  | _ => none

def checkingDisabled? : Update → Option Bool
  | .checkingDisabled b => some b
  | _ => none

def payloadSize? : Update → Option (Option UInt16)
  | .payloadSize n => some n
  | _ => none

end Update

/-- The updates, where a random ID is the number that is drawn for it. -/
def drawn (supply : RandomSupply) : List Update → List Update
  | [] => []
  | .randomId :: us => .id supply.draw.1 :: drawn supply.draw.2 us
  | u :: us => u :: drawn supply us

/-- The value that was set last, or else the one there was before. -/
def lastSet (value? : Update → Option α) (us : List Update) (first : α) : α :=
  (us.reverse.findSome? value?).getD first

lemma lastSet_cons (value? : Update → Option α) (u : Update) (us : List Update) (first : α) :
    lastSet value? (u :: us) first = lastSet value? us ((value? u).getD first) := by
  rw [lastSet, lastSet, List.reverse_cons, List.findSome?_append, List.findSome?_singleton]
  cases us.reverse.findSome? value? <;> rfl

/-- The request after updates that draw from a supply. -/
lemma foldl_update (r : Request) (supply : RandomSupply) (us : List Update) :
    (us.foldl (fun (r, supply) u => r.update supply u) (r, supply)).1 =
      { question := r.question
        id := lastSet Update.id? (drawn supply us) r.id
        recursionDesired := lastSet Update.recursionDesired? us r.recursionDesired
        checkingDisabled := lastSet Update.checkingDisabled? us r.checkingDisabled
        payloadSize := lastSet Update.payloadSize? us r.payloadSize } := by
  induction us generalizing r supply with
  | nil => rfl
  | cons u us ih =>
    rw [List.foldl_cons]
    cases u <;>
      · refine (ih _ _).trans ?_
        simp only [drawn, lastSet_cons]
        rfl

/-! ### Composing -/

/-- What the message of a request holds. -/
def entries (r : Request) : List Entry :=
  .question r.question :: (r.payloadSize.map fun n => Entry.additional (.opt n)).toList

def header (r : Request) : Header :=
  ((({} : Header).set (.id r.id)).set (.rd r.recursionDesired)).set (.cd r.checkingDisabled)

lemma length_entries (r : Request) : (r.entries.flatMap Entry.wire).length =
    r.question.length + if r.payloadSize.isSome then 11 else 0 := by
  rw [entries, List.flatMap_cons, List.length_append, Entry.wire, Question.length_wire]
  congr 1
  cases r.payloadSize with
  | none => rfl
  | some n =>
    rw [Option.map_some, Option.toList_some, List.flatMap_singleton, Entry.wire, Record.length_wire]
    rfl

/-- The longest request has a name of 255 octets and an OPT record. -/
lemma length_entries_le (r : Request) :
    headerLength + (r.entries.flatMap Entry.wire).length ≤ 282 := by
  have := r.question.qname.length_le
  rw [length_entries, headerLength, Question.length]
  split_ifs <;> omega

/-- Composing is pushing the question, and then the OPT record if there is one. -/
lemma compose_eq (r : Request) : r.compose =
    ((({ header := r.header } : Builder).apply (.question r.question)).toExcept >>= fun b =>
      match r.payloadSize with
      | none => .ok b.message
      | some n => (b.apply (.opt n)).toExcept.map Builder.message) := by
  rw [compose]
  rfl

/-- Nothing that a request pushes is refused. -/
lemma exists_compose (r : Request) :
    ∃ b : Builder, r.compose = .ok b.message ∧ b.Composes r.entries ∧ b.header = r.header := by
  have hmax : headerLength + (r.entries.flatMap Entry.wire).length ≤ maxMessageLength :=
    Nat.le_trans r.length_entries_le (by decide)
  have h₀ : Builder.Composes { header := r.header } [] :=
    Builder.composes_empty.run [.header r.header]
  have hq : Builder.refusal? [] (.question r.question) = none := by
    refine Builder.refusal?_eq_none (by simp [Entry.record?]) (Nat.le_refl _) ?_
    rw [entries, List.flatMap_cons, List.length_append] at hmax
    rw [List.nil_append, List.flatMap_singleton]
    omega
  obtain ⟨b₁, hb₁, h₁, hh₁⟩ := h₀.accepts (rfl : Builder.Step.entry? (.question _) = _) hq
  rw [compose_eq, hb₁]
  cases hs : r.payloadSize with
  | none =>
    refine ⟨b₁, rfl, ?_, hh₁⟩
    simpa [entries, hs] using h₁
  | some n =>
    have he : r.entries = [.question r.question] ++ [.additional (.opt n)] := by simp [entries, hs]
    have hn : Builder.refusal? [.question r.question] (.additional (.opt n)) = none := by
      rw [he] at hmax
      exact Builder.refusal?_eq_none (by simp [Entry.record?, Record.opt]) (Nat.zero_le _) hmax
    obtain ⟨b₂, hb₂, h₂, hh₂⟩ := h₁.accepts (rfl : Builder.Step.entry? (.opt _) = _) hn
    refine ⟨b₂, ?_, he ▸ h₂, hh₂.trans hh₁⟩
    change (b₁.apply (.opt n)).toExcept.map Builder.message = _
    rw [hb₂]
    rfl

/-! ### Reading back -/

/-- The message is a standard query for the question, with nothing set but these. -/
structure Asks (q : Question) (id : UInt16) (rd cd : Bool) (size : Option UInt16) (m : Message) :
    Prop where
  length_le : m.octets.length ≤ 282
  id : m.id = id
  rd : m.header.rd = rd
  cd : m.header.cd = cd
  flags : m.header.qr = false ∧ m.header.aa = false ∧ m.header.tc = false ∧ m.header.ra = false ∧
    m.header.z = false ∧ m.header.ad = false
  opcode : m.header.opcode = ⟨0⟩
  rcode : m.header.rcode = ⟨0⟩
  counts : m.counts = ⟨1, 0, 0, if size.isSome then 1 else 0⟩
  firstQuestion : m.firstQuestion = .ok (some q)
  optPayloadSize : m.optPayloadSize = .ok size

/-- The first octet of flags, if there is nothing in it but RD. -/
lemma flags_high : ∀ b : Bool, hasBit (assignBit 0 0x01 b) 0x01 = b ∧
    hasBit (assignBit 0 0x01 b) 0x80 = false ∧ hasBit (assignBit 0 0x01 b) 0x04 = false ∧
    hasBit (assignBit 0 0x01 b) 0x02 = false ∧ lowBits (assignBit 0 0x01 b >>> 3) = 0 := by
  decide

/-- The second octet of flags, if there is nothing in it but CD. -/
lemma flags_low : ∀ b : Bool, hasBit (assignBit 0 0x10 b) 0x10 = b ∧
    hasBit (assignBit 0 0x10 b) 0x80 = false ∧ hasBit (assignBit 0 0x10 b) 0x40 = false ∧
    hasBit (assignBit 0 0x10 b) 0x20 = false ∧ lowBits (assignBit 0 0x10 b) = 0 := by
  decide

lemma countP_part (r : Request) (s : Section) : r.entries.countP (·.part = s) =
    match s with
    | .question => 1
    | .additional => if r.payloadSize.isSome then 1 else 0
    | _ => 0 := by
  cases hs : r.payloadSize <;> cases s <;> simp [entries, hs, Entry.part]

lemma counts_of_readsBack {r : Request} {m : Message} (h : ReadsBack r.header r.entries m) :
    m.counts = ⟨1, 0, 0, if r.payloadSize.isSome then 1 else 0⟩ := by
  have hc (s : Section) := (h.counts s).trans (r.countP_part s)
  have hqd : m.counts.qd = 1 := UInt16.toNat_inj.1 (hc .question)
  have han : m.counts.an = 0 := UInt16.toNat_inj.1 (hc .answer)
  have hns : m.counts.ns = 0 := UInt16.toNat_inj.1 (hc .authority)
  have har : m.counts.ar = if r.payloadSize.isSome then 1 else 0 := by
    refine UInt16.toNat_inj.1 ((hc .additional).trans ?_)
    cases r.payloadSize <;> rfl
  calc m.counts = ⟨m.counts.qd, m.counts.an, m.counts.ns, m.counts.ar⟩ := rfl
    _ = _ := by rw [hqd, han, hns, har]

lemma asks_of_readsBack {r : Request} {m : Message} (h : ReadsBack r.header r.entries m) :
    Asks r.question r.id r.recursionDesired r.checkingDisabled r.payloadSize m := by
  obtain ⟨hrd, hqr, haa, htc, hopcode⟩ := flags_high r.recursionDesired
  obtain ⟨hcd, hra, hz, had, hrcode⟩ := flags_low r.checkingDisabled
  have hid : m.id = r.id := by rw [Message.id, h.header]; rfl
  have hhigh : m.header.high = assignBit 0 0x01 r.recursionDesired := by rw [h.header]; rfl
  have hlow : m.header.low = assignBit 0 0x10 r.checkingDisabled := by rw [h.header]; rfl
  rw [← hhigh] at hrd hqr haa htc hopcode
  rw [← hlow] at hcd hra hz had hrcode
  have hlen : m.octets.length ≤ 282 := by
    rw [h.octets, List.length_append, List.length_append, Header.length_wire, Counts.length_wire]
    exact r.length_entries_le
  have hopt : m.optPayloadSize = .ok r.payloadSize := by
    rw [h.optPayloadSize, entries]
    cases r.payloadSize <;> rfl
  exact ⟨hlen, hid, hrd, hcd, ⟨hqr, haa, htc, hra, hz, had⟩, congrArg Opcode.mk hopcode,
    congrArg Rcode.mk hrcode, counts_of_readsBack h, h.firstQuestion, hopt⟩

/-- **Requests compose and read back.** A request for any question, after any updates, has a message
of at most 282 octets, and what is read of it is what was set last. -/
theorem compose_reads_back (q : Question) (supply : RandomSupply) (us : List Update) :
    ∃ m, (edited q supply us).1.compose = .ok m ∧
      Asks q (lastSet Update.id? (drawn supply.draw.2 us) supply.draw.1)
        (lastSet Update.recursionDesired? us true) (lastSet Update.checkingDisabled? us false)
        (lastSet Update.payloadSize? us none) m := by
  obtain ⟨b, hb, hc, hh⟩ := (edited q supply us).1.exists_compose
  have h := hc.readsBack
  rw [hh] at h
  have ha := asks_of_readsBack h
  have he : (edited q supply us).1 = _ := foldl_update (new q supply).1 (new q supply).2 us
  rw [he] at ha
  exact ⟨_, hb, ha⟩

end Request

end DnsClient
