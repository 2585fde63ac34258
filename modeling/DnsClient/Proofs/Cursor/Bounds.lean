import DnsClient.Cursor.Ops
import DnsClient.Proofs.Name.Expansion
import Mathlib.Algebra.Group.Nat.Defs

/-!
Where reads leave a cursor.

A read that succeeds yields what the octets between the old and the new place tell, and one that
fails leaves the cursor where it was. Only a question is read in parts, and a failing one stays
behind those of its parts that are there (`Question.Breaks`). No read leaves the octets, so that
what a cursor computes comes out the same in machine words, whatever lengths it is asked for
(`Cursor.ExactIn`).
-/

namespace DnsClient

variable {c d e : Cursor} {n : Nat}

namespace Cursor

/-- The octets from the place of one cursor up to that of another. -/
def between (c d : Cursor) : Octets := c.octets.extract c.pos d.pos

lemma opened?_octets (c : Cursor) (pos : Nat) : opened? c.octets pos = c.seek? pos := rfl

lemma seek?_cases (c : Cursor) (pos : Nat) :
    (∃ d, c.seek? pos = .ok d ∧ d.octets = c.octets ∧ d.pos = pos) ∨
      c.octets.length < pos ∧ c.seek? pos = .error .shortInput := by
  unfold seek?
  split_ifs with h
  · exact .inl ⟨_, rfl, rfl, rfl⟩
  · exact .inr ⟨Nat.not_le.1 h, rfl⟩

/-! ### Machine words -/

/-- What the cursor computes comes out right in words of `w` bits. The subtraction for the octets
ahead does not wrap. Its result shows for every length that fits into a word whether so many are
there. Only then is the length added to the place, and this does not wrap either. -/
structure ExactIn (w : Nat) (c : Cursor) : Prop where
  pos_le : BitVec.ofNat w c.pos ≤ BitVec.ofNat w c.octets.length
  remaining : (BitVec.ofNat w c.octets.length - BitVec.ofNat w c.pos).toNat = c.remaining
  short_iff : ∀ n : BitVec w,
    BitVec.ofNat w c.octets.length - BitVec.ofNat w c.pos < n ↔ c.remaining < n.toNat
  stop : ∀ n : BitVec w, n.toNat ≤ c.remaining →
    (BitVec.ofNat w c.pos + n).toNat = c.pos + n.toNat

/-- Words are wide enough if they can hold the number of octets. -/
lemma exactIn {w : Nat} (h : c.octets.length < 2 ^ w) : c.ExactIn w := by
  have hr := c.pos_add_remaining
  have hl : (BitVec.ofNat w c.octets.length).toNat = c.octets.length := by
    rw [BitVec.toNat_ofNat, Nat.mod_eq_of_lt h]
  have hp : (BitVec.ofNat w c.pos).toNat = c.pos := by
    rw [BitVec.toNat_ofNat, Nat.mod_eq_of_lt (by omega)]
  have hle : BitVec.ofNat w c.pos ≤ BitVec.ofNat w c.octets.length := by
    rw [BitVec.le_def]
    omega
  have hsub : (BitVec.ofNat w c.octets.length - BitVec.ofNat w c.pos).toNat = c.remaining := by
    rw [BitVec.toNat_sub_of_le hle]
    omega
  refine ⟨hle, hsub, fun n => ?_, fun n hn => ?_⟩
  · rw [BitVec.lt_def, hsub]
  · rw [BitVec.toNat_add_of_lt (by omega), hp]

end Cursor

/-! ### Single reads -/

/-- A name ends behind its first octet or further. -/
lemma Name.Expands.lt {o : Octets} {pos pointers stop : Nat} {ls : List Label}
    (h : Expands o pos ls pointers stop) : pos < stop := by
  induction h <;> omega

lemma Name.Stands.lt {m : Name} (h : m.Stands c d) : c.pos < d.pos := by
  obtain ⟨-, _, -, he⟩ := h
  exact he.lt

/-- How the reading of a question fails: behind nothing, behind the name, or behind name and type,
whichever are there. -/
inductive Question.Breaks (c : Cursor) : ParseError → Cursor → Prop
  | qname {x : ParseError} (h : ∀ (m : Name) (d : Cursor), ¬ m.Stands c d) : Breaks c x c
  | qtype {m : Name} {d : Cursor} (h : m.Stands c d) (hr : d.remaining < 2) :
      Breaks c .shortInput d
  | qclass {m : Name} {d e : Cursor} (h : m.Stands c d) (ho : e.octets = d.octets)
      (hp : e.pos = d.pos + 2) (hr : e.remaining < 2) : Breaks c .shortInput e

/-- The question stands at the first cursor and ends at the second: its name, and two octets each
for type and class. -/
structure Question.Stands (q : Question) (c e : Cursor) : Prop where
  octets : e.octets = c.octets
  parts : ∃ d : Cursor, q.qname.Stands c d ∧ e.pos = d.pos + 4 ∧
    Octets.ofWord16 q.qtype.code ++ Octets.ofWord16 q.qclass.code = d.between e

namespace Cursor

/-- The octets up to a place between two others, and those from there on. -/
lemma between_append (ho : d.octets = c.octets) (hc : c.pos ≤ d.pos) (hd : d.pos ≤ e.pos) :
    c.between d ++ d.between e = c.between e := by
  obtain ⟨k, hk⟩ := Nat.exists_eq_add_of_le hc
  have hsub : e.pos - c.pos = k + (e.pos - d.pos) := by omega
  simp only [between, List.extract_eq_take_drop, ho, hsub, List.take_add, List.drop_drop]
  simp [hk]

end Cursor

lemma Question.Stands.lt {q : Question} (h : q.Stands c e) : c.pos < e.pos := by
  obtain ⟨-, d, hn, hp, -⟩ := h
  have := hn.lt
  omega

namespace Read

/-- Octets are taken, or there are not as many ahead. -/
lemma slice_cases (c : Cursor) (n : Nat) :
    (∃ o d, slice n c = (.ok o, d) ∧ d.octets = c.octets ∧ d.pos = c.pos + n ∧
        o.1 = c.between d) ∨
      c.remaining < n ∧ slice n c = (.error .shortInput, c) := by
  unfold slice
  rcases ht : c.take? n with _ | ⟨o, d⟩
  · exact .inr ⟨Cursor.take?_eq_none.1 ht, rfl⟩
  · obtain ⟨ho, hp⟩ := Cursor.take?_pos ht
    have hb : c.between d = c.rest.take n := by simp [Cursor.between, Cursor.rest, hp]
    exact .inl ⟨o, d, rfl, ho, hp, (Cursor.take?_octets ht).trans hb.symm⟩

lemma word16_cases (c : Cursor) :
    (∃ a d, word16 c = (.ok a, d) ∧ d.octets = c.octets ∧ d.pos = c.pos + 2 ∧
        Octets.ofWord16 a = c.between d) ∨
      c.remaining < 2 ∧ word16 c = (.error .shortInput, c) := by
  have hw : word16 c = match slice 2 c with
    | (.ok o, d) => (.ok (Octets.toWord16 o.1), d)
    | (.error x, d) => (.error x, d) := by
    simp only [word16, number, Bind.bind, Pure.pure]
    rcases slice 2 c with ⟨_ | _, _⟩ <;> rfl
  rcases slice_cases c 2 with ⟨⟨o, hl⟩, d, hs, ho, hp, hb⟩ | ⟨hr, hs⟩
  · exact .inl ⟨_, d, by rw [hw, hs], ho, hp, (Octets.ofWord16_toWord16 o hl).trans hb⟩
  · exact .inr ⟨hr, by rw [hw, hs]⟩

lemma name_cases (c : Cursor) :
    (∃ m d, name c = (.ok m, d) ∧ m.Stands c d) ∨
      ∃ x, (∀ (m : Name) (d : Cursor), ¬ m.Stands c d) ∧ name c = (.error x, c) := by
  rcases h : name c with ⟨x | m, d⟩
  · obtain rfl := Name.read_error h
    refine .inr ⟨x, fun m e hm => ?_, rfl⟩
    rw [hm.read] at h
    cases h
  · exact .inl ⟨m, d, rfl, Name.stands_of_read h⟩

lemma question_cases (c : Cursor) :
    (∃ q d, question c = (.ok q, d) ∧ q.Stands c d) ∨
      ∃ x d, question c = (.error x, d) ∧ Question.Breaks c x d := by
  simp only [question, Bind.bind, Pure.pure]
  rcases name_cases c with ⟨m, d, hn, hs⟩ | ⟨x, hx, hn⟩
  · rcases word16_cases d with ⟨a, d₁, ha, ho₁, hp₁, hb₁⟩ | ⟨hr, ha⟩
    · rcases word16_cases d₁ with ⟨b, d₂, hb, ho₂, hp₂, hb₂⟩ | ⟨hr, hb⟩
      · refine .inl ⟨⟨m, ⟨a⟩, ⟨b⟩⟩, d₂, by simp only [hn, ha, hb], ?_⟩
        refine ⟨ho₂.trans (ho₁.trans hs.1), d, hs, by omega, ?_⟩
        rw [hb₁, hb₂]
        exact Cursor.between_append ho₁ (by omega) (by omega)
      · exact .inr ⟨_, d₁, by simp only [hn, ha, hb], .qclass hs ho₁ hp₁ hr⟩
    · exact .inr ⟨_, d, by simp only [hn, ha], .qtype hs hr⟩
  · exact .inr ⟨x, c, by simp only [hn], .qname hx⟩

end Read

/-! ### Sequences of reads -/

namespace ReadOp

variable {op : ReadOp}

/-- How many octets a read takes, if that is known before. -/
def width? : ReadOp → Option Nat
  | .octet => some 1
  | .word16 => some 2
  | .word32 => some 4
  | .slice n | .skip n => some n
  | _ => none

/-- The value that the octets taken tell. -/
def valueOf : ReadOp → Octets → ReadValue
  | .octet, o | .word16, o | .word32, o => .number (Octets.toNat o)
  | .slice _, o => .slice o
  | _, _ => .moved

/-- The place that a read moves to, if it takes nothing. -/
def target? : ReadOp → Option Nat
  | .seek pos | .reopen pos => some pos
  | _ => none

/-- How a read at a cursor goes: its result, and where it leaves the cursor. -/
inductive Goes (c : Cursor) : ReadOp → Except ParseError ReadValue → Cursor → Prop
  | taken {op : ReadOp} {n : Nat} {d : Cursor} (hn : op.width? = some n)
      (ho : d.octets = c.octets) (hp : d.pos = c.pos + n) :
      Goes c op (.ok (op.valueOf (c.between d))) d
  | short {op : ReadOp} {n : Nat} (hn : op.width? = some n) (hr : c.remaining < n) :
      Goes c op (.error .shortInput) c
  | moved {op : ReadOp} {pos : Nat} {d : Cursor} (ht : op.target? = some pos)
      (ho : d.octets = c.octets) (hp : d.pos = pos) : Goes c op (.ok .moved) d
  | outside {op : ReadOp} {pos : Nat} (ht : op.target? = some pos)
      (hl : c.octets.length < pos) : Goes c op (.error .shortInput) c
  | name {m : Name} {d : Cursor} (h : m.Stands c d) (hlt : c.pos < d.pos) :
      Goes c .name (.ok (.name m)) d
  | noName {x : ParseError} (h : ∀ (m : Name) (d : Cursor), ¬ m.Stands c d) :
      Goes c .name (.error x) c
  | question {q : Question} {d : Cursor} (h : q.Stands c d) (hlt : c.pos < d.pos) :
      Goes c .question (.ok (.question q)) d
  | noQuestion {x : ParseError} {d : Cursor} (h : Question.Breaks c x d) :
      Goes c .question (.error x) d

/-- Reads one after the other, each from where the one before left the cursor. -/
inductive Course : Cursor → List ReadOp → List (Except ParseError ReadValue × Cursor) → Prop
  | nil (c : Cursor) : Course c [] []
  | cons {c d : Cursor} {op : ReadOp} {ops : List ReadOp} {r : Except ParseError ReadValue}
      {rs : List (Except ParseError ReadValue × Cursor)} (h : Goes c op r d)
      (t : Course d ops rs) : Course c (op :: ops) ((r, d) :: rs)

/-- Numbers, slices and what is skipped are slices to begin with. -/
lemma read_of_width (h : op.width? = some n) (c : Cursor) :
    op.read c = match Read.slice n c with
      | (.ok o, d) => (.ok (op.valueOf o.1), d)
      | (.error x, d) => (.error x, d) := by
  cases op with
  | octet | word16 | word32 =>
    cases h
    simp only [read, Read.octet, Read.word16, Read.word32, Read.number, Bind.bind, Pure.pure]
    rcases Read.slice _ c with ⟨_ | ⟨o, hl⟩, d⟩
    · rfl
    · -- The word that a number is read as has room for all numbers of its octets.
      have hlt := Octets.toNat_lt o
      rw [hl] at hlt
      simp only [valueOf, UInt8.toNat_ofNat', UInt16.toNat_ofNat', UInt32.toNat_ofNat']
      exact congrArg (fun k => (Except.ok (ReadValue.number k), d)) (Nat.mod_eq_of_lt hlt)
  | slice | skip =>
    cases h
    simp only [read, Read.skip, Bind.bind, Pure.pure]
    rcases Read.slice n c with ⟨_ | _, _⟩ <;> rfl
  | seek | reopen | name | question => cases h

lemma read_of_target {pos : Nat} (h : op.target? = some pos) (c : Cursor) :
    op.read c = match c.seek? pos with
      | .ok d => (.ok .moved, d)
      | .error x => (.error x, c) := by
  cases op with
  | seek | reopen =>
    cases h
    simp only [read, Read.seek, Read.reopen, Cursor.opened?_octets, Bind.bind, Pure.pure]
    rcases c.seek? pos with _ | _ <;> rfl
  | octet | word16 | word32 | slice | skip | name | question => cases h

lemma goes_of_width (h : op.width? = some n) (c : Cursor) :
    Goes c op (op.read c).1 (op.read c).2 := by
  rw [read_of_width h]
  rcases Read.slice_cases c n with ⟨o, d, hs, ho, hp, hb⟩ | ⟨hr, hs⟩
  · simp only [hs, hb]
    exact .taken h ho hp
  · simp only [hs]
    exact .short h hr

lemma goes_of_target {pos : Nat} (h : op.target? = some pos) (c : Cursor) :
    Goes c op (op.read c).1 (op.read c).2 := by
  rw [read_of_target h]
  rcases c.seek?_cases pos with ⟨d, hs, ho, hp⟩ | ⟨hl, hs⟩
  · simp only [hs]
    exact .moved h ho hp
  · simp only [hs]
    exact .outside h hl

lemma goes_name (c : Cursor) : Goes c .name (ReadOp.name.read c).1 (ReadOp.name.read c).2 := by
  simp only [read, Bind.bind, Pure.pure]
  rcases Read.name_cases c with ⟨m, d, hn, hs⟩ | ⟨x, hx, hn⟩
  · simp only [hn]
    exact .name hs hs.lt
  · simp only [hn]
    exact .noName hx

lemma goes_question (c : Cursor) :
    Goes c .question (ReadOp.question.read c).1 (ReadOp.question.read c).2 := by
  simp only [read, Bind.bind, Pure.pure]
  rcases Read.question_cases c with ⟨q, d, hq, hs⟩ | ⟨x, d, hq, hb⟩
  · simp only [hq]
    exact .question hs hs.lt
  · simp only [hq]
    exact .noQuestion hb

/-- Every read goes in one of these ways. -/
lemma goes_read (op : ReadOp) (c : Cursor) : Goes c op (op.read c).1 (op.read c).2 := by
  cases op with
  | octet | word16 | word32 | slice | skip => exact goes_of_width rfl c
  | seek | reopen => exact goes_of_target rfl c
  | name => exact goes_name c
  | question => exact goes_question c

/-- No read goes on in other octets. -/
lemma Goes.octets {r : Except ParseError ReadValue} (h : Goes c op r d) : d.octets = c.octets := by
  cases h with
  | taken _ ho | moved _ ho => exact ho
  | name h => exact h.1
  | question h => exact h.octets
  | noQuestion h =>
    cases h with
    | qname => rfl
    | qtype h => exact h.1
    | qclass h ho => exact ho.trans h.1
  | short | outside | noName => rfl

/-- A run is a course, and stays in the octets it began in. -/
lemma course_run (c : Cursor) (ops : List ReadOp) :
    Course c ops (run c ops) ∧ ∀ r ∈ run c ops, r.2.octets = c.octets := by
  induction ops generalizing c with
  | nil => exact ⟨.nil c, by simp [run]⟩
  | cons op ops ih =>
    have hg := goes_read op c
    obtain ⟨hc, ho⟩ := ih (op.read c).2
    refine ⟨.cons hg hc, fun r hr => ?_⟩
    rcases List.mem_cons.1 hr with rfl | hr
    · exact hg.octets
    · exact (ho r hr).trans hg.octets

/-- **Reads keep to the octets.** In whatever order they are made, each of them takes just what
lies between two places of the cursor or leaves it alone, and all places are within the octets, also
when they are computed in machine words. -/
theorem run_within (o : Octets) (ops : List ReadOp) :
    Course (Cursor.start o) ops (run (Cursor.start o) ops) ∧
      ∀ c ∈ Cursor.start o :: (run (Cursor.start o) ops).map Prod.snd,
        c.octets = o ∧ c.pos + c.remaining = o.length ∧
          ∀ w, o.length < 2 ^ w → c.ExactIn w := by
  obtain ⟨hc, ho⟩ := course_run (Cursor.start o) ops
  refine ⟨hc, fun c hm => ?_⟩
  have hco : c.octets = o := by
    rcases List.mem_cons.1 hm with rfl | hm
    · rfl
    · obtain ⟨r, hr, rfl⟩ := List.mem_map.1 hm
      exact ho r hr
  subst hco
  exact ⟨rfl, c.pos_add_remaining, fun w hw => Cursor.exactIn hw⟩

/-- Lengths so great that in words of 64 bits they would lead back to the front fail. So does a
question whose class is cut short, which leaves the cursor behind its name, a pointer, and its
type. -/
theorem run_within_overlong : ∃ (o : Octets) (ops : List ReadOp), o.length < 2 ^ 64 ∧
    (run (Cursor.start o) ops).map (·.2.pos) = [0, 3, 7, 7, 8, 3, 5, 5] ∧
    Course (Cursor.start o) ops (run (Cursor.start o) ops) ∧
    ∀ c ∈ Cursor.start o :: (run (Cursor.start o) ops).map Prod.snd,
      c.octets = o ∧ c.pos + c.remaining = o.length ∧ c.ExactIn 64 := by
  let o : Octets := [1, 97, 0, 192, 0, 0, 1, 0]
  let ops : List ReadOp := [.slice (2 ^ 64 - 1), .name, .question, .skip (2 ^ 64 - 7), .octet,
    .reopen 3, .word16, .seek 9]
  have hl : o.length < 2 ^ 64 := by decide
  obtain ⟨hc, hw⟩ := run_within o ops
  refine ⟨o, ops, hl, by decide +kernel, hc, fun c hm => ?_⟩
  obtain ⟨ho, hp, he⟩ := hw c hm
  exact ⟨ho, hp, he 64 hl⟩

end ReadOp

end DnsClient
