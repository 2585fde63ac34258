import DnsClient.Message.Builder
import Mathlib.Data.List.Basic
import Mathlib.Tactic.Common

/-!
Pushing entries to a message.

The entries of a message are what was pushed with success, in order (`Builder.entries`). A builder
keeps the wire form of its entries and their number in each section, and the sections in their order
(`Builder.Composes`). Since a message has no more octets than a count can tell, no count overflows,
so a builder that refuses an entry is left as it was.
-/

namespace DnsClient

/-! ### What was asked for -/

/-- What a push adds to a message. -/
inductive Entry where
  | question (q : Question)
  | answer (r : Record)
  | authority (r : Record)
  | additional (r : Record)

namespace Entry

def part : Entry → Section
  | .question _ => .question
  | .answer _ => .answer
  | .authority _ => .authority
  | .additional _ => .additional

def wire : Entry → Octets
  | .question q => q.wire
  | .answer r | .authority r | .additional r => r.wire

def record? : Entry → Option Record
  | .question _ => none
  | .answer r | .authority r | .additional r => some r

end Entry

namespace Builder

/-- What a step adds if it succeeds. -/
def Step.entry? : Step → Option Entry
  | .set _ | .header _ => none
  | .question q => some (.question q)
  | .answer r => some (.answer r)
  | .authority r => some (.authority r)
  | .additional r => some (.additional r)
  | .opt size => some (.additional (.opt size))

/-- The header after a step. -/
def Step.onHeader (h : Header) : Step → Header
  | .set u => h.set u
  | .header h => h
  | _ => h

/-- What the steps add that succeed, when made one after the other. -/
def entries (b : Builder) : List Step → List Entry
  | [] => []
  | s :: ss =>
    match b.attempt s with
    | .ok b => s.entry?.toList ++ entries b ss
    | .error _ => entries b ss

end Builder

/-- How many entries a message announces in a section. -/
def Counts.announced (c : Counts) : Section → UInt16
  | .question => c.qd
  | .answer => c.an
  | .authority => c.ns
  | .additional => c.ar

@[simp] lemma Record.length_wire (r : Record) :
    r.wire.length = r.owner.length + 10 + r.rdata.length := by
  simp [Record.wire]
  omega

lemma Entry.wire_pos (x : Entry) : 0 < x.wire.length := by
  cases x with
  | question q => simp [Entry.wire, Question.length]
  | answer r | authority r | additional r =>
    rw [Entry.wire, Record.length_wire]
    omega

lemma Counts.announced_set (c : Counts) (n : UInt16) (s s' : Section) :
    (c.set (Builder.countUpdate n s)).announced s' = if s = s' then n else c.announced s' := by
  cases s <;> cases s' <;> rfl

/-! ### Single pushes -/

namespace Builder

variable {b b' : Builder} {s : Section} {x : Entry} {st : Step} {es : List Entry}

/-- The builder with some octets more, which count as one more entry of a section. -/
def extend (b : Builder) (s : Section) (n : UInt16) (o : Octets) : Builder :=
  { b with current := s, counts := b.counts.set (countUpdate n s), body := b.body ++ o }

lemma recordCount_eq (b : Builder) (s : Section) : b.recordCount s = b.counts.announced s := by
  cases s <;> rfl

/-- A count that goes up is one higher: there is no count beyond the highest. -/
lemma toNat_of_bump {n m : UInt16} (h : bump n = .ok m) : m.toNat = n.toNat + 1 := by
  unfold bump at h
  split_ifs at h with hn
  cases h
  have hlt := n.toNat_lt
  have hne : n.toNat ≠ 65535 := fun he => hn (UInt16.toNat_inj.1 he)
  rw [UInt16.toNat_add]
  exact Nat.mod_eq_of_lt (by simp; omega)

/-- What a step does that adds an entry. -/
structure Adds (b : Builder) (x : Entry) (b' : Builder) : Prop where
  order : b.current.index ≤ x.part.index
  fits : headerLength + b.body.length + x.wire.length ≤ maxMessageLength
  rdata : ∀ r ∈ x.record?, r.rdata.length ≤ maxMessageLength
  extended : ∃ n, bump (b.counts.announced x.part) = .ok n ∧ b' = b.extend x.part n x.wire

/-- How the push of an entry can go. -/
inductive Pushes (b : Builder) (x : Entry) : Pushed → Prop
  | tooMuchData (h : ∃ r ∈ x.record?, maxMessageLength < r.rdata.length) :
      Pushes b x (.error .shortBuffer, b)
  | passed (hr : ∀ r ∈ x.record?, r.rdata.length ≤ maxMessageLength)
      (h : x.part.index < b.current.index) : Pushes b x (.error .sectionOrder, b)
  | full (hr : ∀ r ∈ x.record?, r.rdata.length ≤ maxMessageLength)
      (ho : b.current.index ≤ x.part.index)
      (h : maxMessageLength < headerLength + b.body.length + x.wire.length) :
      Pushes b x (.error .shortBuffer, b)
  | uncounted {e : PushError} (h : bump (b.counts.announced x.part) = .error e) :
      Pushes b x (.error e, { b with current := x.part })
  | added {b' : Builder} (h : b.Adds x b') : Pushes b x (.ok (), b')

lemma pushes_add (hr : ∀ r ∈ x.record?, r.rdata.length ≤ maxMessageLength) :
    b.Pushes x (b.add x.part x.wire.length x.wire) := by
  unfold add enter
  split_ifs with ho hl
  · exact .passed hr ho
  · exact .full hr (Nat.not_lt.1 ho) hl
  · simp only [recordCount_eq]
    cases hn : bump (b.counts.announced x.part) with
    | error e => exact .uncounted hn
    | ok n => exact .added ⟨Nat.not_lt.1 ho, Nat.not_lt.1 hl, hr, n, hn, rfl⟩

lemma pushes_pushQuestion (b : Builder) (q : Question) :
    b.Pushes (.question q) (b.pushQuestion q) := by
  rw [pushQuestion, ← Question.length_wire]
  exact pushes_add (x := .question q) (by simp [Entry.record?])

lemma pushes_pushRecord {r : Record} (hr : x.record? = some r) (hw : x.wire = r.wire)
    (b : Builder) : b.Pushes x (b.pushRecord x.part r) := by
  rw [pushRecord, ← Record.length_wire, ← hw]
  split_ifs with h
  · exact .tooMuchData ⟨r, hr, h⟩
  · exact pushes_add (by simpa [hr] using h)

lemma pushes_of_entry (hx : st.entry? = some x) (b : Builder) : b.Pushes x (b.apply st) := by
  cases st with
  | set u => cases hx
  | header h => cases hx
  | question q =>
    cases hx
    exact pushes_pushQuestion b q
  | answer r =>
    cases hx
    exact pushes_pushRecord (x := .answer r) rfl rfl b
  | authority r =>
    cases hx
    exact pushes_pushRecord (x := .authority r) rfl rfl b
  | additional r =>
    cases hx
    exact pushes_pushRecord (x := .additional r) rfl rfl b
  | opt size =>
    cases hx
    exact pushes_pushRecord (x := .additional (.opt size)) rfl rfl b

lemma attempt_eq_ok : b.attempt st = .ok b' ↔ b.apply st = (.ok (), b') := by
  rw [attempt]
  rcases b.apply st with ⟨_ | _, c⟩ <;> simp [Pushed.toExcept]

lemma attempt_eq_error {e : PushError} :
    b.attempt st = .error e ↔ (b.apply st).1 = .error e := by
  rw [attempt]
  rcases b.apply st with ⟨_ | _, c⟩ <;> simp [Pushed.toExcept]

lemma adds_of_attempt (hx : st.entry? = some x) (h : b.attempt st = .ok b') : b.Adds x b' := by
  have hp := pushes_of_entry hx b
  rw [attempt_eq_ok.1 h] at hp
  cases hp with
  | added ha => exact ha

/-- The header is what the step makes of it, which a push leaves alone even if it fails. -/
lemma header_step (b : Builder) (st : Step) : (step b st).header = st.onHeader b.header := by
  rw [step]
  cases hx : st.entry? with
  | none => cases st <;> cases hx <;> rfl
  | some x =>
    have hs : st.onHeader b.header = b.header := by cases st <;> cases hx <;> rfl
    have hp := pushes_of_entry hx b
    rw [hs]
    generalize b.apply st = p at hp
    cases hp with
    | added ha => obtain ⟨-, -, -, n, -, rfl⟩ := ha; rfl
    | _ => rfl

/-! ### Runs -/

/-- The section of the last entry, at first that of the questions. -/
def lastSection (es : List Entry) : Section := (es.getLast?.map Entry.part).getD .question

/-- The builder holds the entries, each in its section. -/
structure Composes (b : Builder) (es : List Entry) : Prop where
  body : b.body = es.flatMap Entry.wire
  length_le : headerLength + b.body.length ≤ maxMessageLength
  counts : ∀ s, (b.counts.announced s).toNat = es.countP (·.part = s)
  ordered : es.Pairwise fun x y => x.part.index ≤ y.part.index
  current : ∀ x ∈ es, x.part.index ≤ b.current.index
  entered : b.current = lastSection es
  rdata : ∀ x ∈ es, ∀ r ∈ x.record?, r.rdata.length ≤ maxMessageLength

lemma composes_empty : Composes {} [] where
  body := rfl
  length_le := by decide
  counts s := by cases s <;> rfl
  ordered := .nil
  current x hx := by cases hx
  entered := rfl
  rdata x hx := by cases hx

lemma Composes.add (h : b.Composes es) (ha : b.Adds x b') : b'.Composes (es ++ [x]) := by
  obtain ⟨n, hn, rfl⟩ := ha.extended
  refine ⟨?_, ?_, fun s => ?_, ?_, ?_, by simp [lastSection, extend], ?_⟩
  · simp [extend, h.body]
  · have := ha.fits
    simp only [extend, List.length_append]
    omega
  · rw [extend, Counts.announced_set, List.countP_append, ← h.counts]
    split_ifs with hs
    · rw [toNat_of_bump hn, hs]
      simp [hs]
    · simp [hs]
  · refine List.pairwise_append.2 ⟨h.ordered, List.pairwise_singleton _ _, fun y hy z hz => ?_⟩
    rw [List.mem_singleton.1 hz]
    exact Nat.le_trans (h.current y hy) ha.order
  · refine List.forall_mem_append.2 ⟨fun y hy => ?_, fun y hy => ?_⟩
    · exact Nat.le_trans (h.current y hy) ha.order
    · rw [List.mem_singleton.1 hy]
      exact Nat.le_refl _
  · refine List.forall_mem_append.2 ⟨h.rdata, fun y hy => ?_⟩
    rw [List.mem_singleton.1 hy]
    exact ha.rdata

/-- A step that succeeds adds its entry, if it has one. -/
lemma Composes.attempt (h : b.Composes es) (ha : b.attempt st = .ok b') :
    b'.Composes (es ++ st.entry?.toList) := by
  cases hx : st.entry? with
  | some x => exact h.add (adds_of_attempt hx ha)
  | none =>
    have : ∃ h', b' = { b with header := h' } := by
      cases st <;> cases hx <;> cases ha <;> exact ⟨_, rfl⟩
    obtain ⟨h', rfl⟩ := this
    rw [Option.toList_none, List.append_nil]
    exact ⟨h.body, h.length_le, h.counts, h.ordered, h.current, h.entered, h.rdata⟩

/-! ### Refusals -/

/-- Why a message of these entries takes no further one, if it does not. -/
def refusal? (es : List Entry) (x : Entry) : Option PushError :=
  if ∃ r ∈ x.record?, maxMessageLength < r.rdata.length then some .shortBuffer
  else if x.part.index < (lastSection es).index then some .sectionOrder
  else if maxMessageLength < headerLength + ((es ++ [x]).flatMap Entry.wire).length then
    some .shortBuffer
  else none

lemma refusal?_eq_none (hr : ∀ r ∈ x.record?, r.rdata.length ≤ maxMessageLength)
    (ho : (lastSection es).index ≤ x.part.index)
    (hl : headerLength + ((es ++ [x]).flatMap Entry.wire).length ≤ maxMessageLength) :
    refusal? es x = none := by
  rw [refusal?, if_neg (by simpa using hr), if_neg (by omega), if_neg (by omega)]

lemma length_le_flatMap_wire (es : List Entry) :
    es.length ≤ (es.flatMap Entry.wire).length := by
  induction es with
  | nil => exact Nat.le_refl _
  | cons x es ih =>
    have := x.wire_pos
    rw [List.length_cons, List.flatMap_cons, List.length_append]
    omega

/-- No count is at its end: each entry takes an octet or more, and there are less than that. -/
lemma Composes.exists_bump (h : b.Composes es) (s : Section) :
    ∃ n, bump (b.counts.announced s) = .ok n := by
  have hc : (b.counts.announced s).toNat ≤ es.length := by
    rw [h.counts]
    exact List.countP_le_length
  have hw := length_le_flatMap_wire es
  have hl := h.length_le
  rw [h.body, headerLength, maxMessageLength] at hl
  refine ⟨_, if_neg fun hn => ?_⟩
  rw [hn] at hc
  have : (0xFFFF : UInt16).toNat = 65535 := rfl
  omega

/-- An entry that is refused leaves the builder alone, and any other is added. A section is entered
before its entries are counted, but the count goes up then. -/
lemma Composes.refused_or_added (h : b.Composes es) (hx : st.entry? = some x) :
    (∃ e, refusal? es x = some e ∧ b.apply st = (.error e, b)) ∨
      refusal? es x = none ∧ ∃ b', b.apply st = (.ok (), b') ∧ b.Adds x b' := by
  have hw : ((es ++ [x]).flatMap Entry.wire).length = b.body.length + x.wire.length := by
    simp [h.body]
  have hp := pushes_of_entry hx b
  generalize b.apply st = p at hp
  cases hp with
  | tooMuchData hd => exact .inl ⟨_, if_pos hd, rfl⟩
  | passed hr ho =>
    rw [h.entered] at ho
    exact .inl ⟨_, by rw [refusal?, if_neg (by simpa using hr), if_pos ho], rfl⟩
  | full hr ho hl =>
    rw [h.entered] at ho
    rw [Nat.add_assoc, ← hw] at hl
    refine .inl ⟨_, ?_, rfl⟩
    rw [refusal?, if_neg (by simpa using hr), if_neg (by omega), if_pos hl]
  | uncounted hn =>
    obtain ⟨n, hn'⟩ := h.exists_bump x.part
    rw [hn'] at hn
    cases hn
  | added ha =>
    have hl := ha.fits
    rw [Nat.add_assoc, ← hw] at hl
    exact .inr ⟨refusal?_eq_none ha.rdata (h.entered ▸ ha.order) hl, _, rfl, ha⟩

lemma Composes.apply_of_error {e : PushError} (h : b.Composes es)
    (he : (b.apply st).1 = .error e) : (b.apply st).2 = b := by
  cases hx : st.entry? with
  | none => cases st <;> cases hx <;> cases he
  | some x =>
    obtain ⟨_, -, ha⟩ | ⟨-, _, ha, -⟩ := h.refused_or_added hx
    · rw [ha]
    · rw [ha] at he
      cases he

lemma Composes.accepts (h : b.Composes es) (hx : st.entry? = some x)
    (hn : refusal? es x = none) :
    ∃ b', b.apply st = (.ok (), b') ∧ b'.Composes (es ++ [x]) ∧ b'.header = b.header := by
  obtain ⟨_, hr, -⟩ | ⟨-, b', hb, ha⟩ := h.refused_or_added hx
  · rw [hn] at hr
    cases hr
  · obtain ⟨n, -, rfl⟩ := ha.extended
    exact ⟨_, hb, h.add ha, rfl⟩

lemma Composes.run (h : b.Composes es) (ss : List Step) :
    (run b ss).Composes (es ++ entries b ss) := by
  induction ss generalizing b es with
  | nil => simpa [entries] using h
  | cons st ss ih =>
    rw [run_cons, entries, step]
    cases ha : b.attempt st with
    | error e =>
      rw [h.apply_of_error (attempt_eq_error.1 ha)]
      exact ih h
    | ok b' =>
      rw [← List.append_assoc, attempt_eq_ok.1 ha]
      exact ih (h.attempt ha)

lemma header_run (b : Builder) (ss : List Step) :
    (run b ss).header = ss.foldl Step.onHeader b.header := by
  induction ss generalizing b with
  | nil => rfl
  | cons st ss ih => rw [run_cons, ih, header_step, List.foldl_cons]

/-- What a step answers depends only on the entries so far. -/
lemma Composes.answer (h : b.Composes es) (st : Step) :
    (b.apply st).1 = (st.entry?.bind (refusal? es)).elim (.ok ()) .error := by
  cases hx : st.entry? with
  | none => cases st <;> cases hx <;> rfl
  | some x =>
    obtain ⟨_, hr, ha⟩ | ⟨hr, _, ha, -⟩ := h.refused_or_added hx
    · rw [ha, Option.bind_some, hr]
      rfl
    · rw [ha, Option.bind_some, hr]
      rfl

lemma refusal?_ne_countOverflow (es : List Entry) (x : Entry) :
    refusal? es x ≠ some .countOverflow := by
  unfold refusal?
  split_ifs <;> simp

/-- What steps answer one after the other, each with the builder that it leaves. -/
def history (b : Builder) : List Step → List Pushed
  | [] => []
  | st :: ss => b.apply st :: history (b.apply st).2 ss

/-- **Refusals are exact and harmless.** After any steps, a push fails for one of three reasons, and
succeeds if there is none: its data is too long for a record, its section lies before the one
entered last, or the message would grow too long. Counts never overflow. A push that fails leaves
the builder as it was, so all later steps go as if it had not been made. -/
theorem refusals_harmless (ss : List Step) (st : Step) :
    ((run {} ss).apply st).1 = (st.entry?.bind (refusal? (entries {} ss))).elim (.ok ()) .error ∧
    ((run {} ss).apply st).1 ≠ .error .countOverflow ∧
    ∀ e, ((run {} ss).apply st).1 = .error e →
      ((run {} ss).apply st).2 = run {} ss ∧
      ∀ ts, history (run {} (ss ++ [st])) ts = history (run {} ss) ts := by
  have h : (run {} ss).Composes (entries {} ss) := composes_empty.run ss
  refine ⟨h.answer st, fun ho => ?_, fun e he => ?_⟩
  · rw [h.answer] at ho
    cases hx : st.entry?.bind (refusal? (entries {} ss)) with
    | none => rw [hx] at ho; cases ho
    | some e =>
      obtain ⟨x, -, hr⟩ := Option.bind_eq_some_iff.1 hx
      rw [hx] at ho
      cases ho
      exact refusal?_ne_countOverflow _ x hr
  · have hb := h.apply_of_error he
    refine ⟨hb, fun ts => ?_⟩
    rw [run_append, run_cons, run_nil, step, hb]

/-- An OPT record ends the questions: a question that comes after it is refused. -/
theorem refusals_harmless_order : ∃ (ss : List Step) (st : Step),
    ((run {} ss).apply st).1 = .error .sectionOrder ∧ ((run {} ss).apply st).2 = run {} ss := by
  have h : ((run {} [.opt 1232]).apply (.question ⟨Name.root, Rtype.a, Class.internet⟩)).1 =
    .error .sectionOrder := rfl
  exact ⟨_, _, h, ((refusals_harmless _ _).2.2 _ h).1⟩

end Builder

end DnsClient
