import DnsClient.ResolvConf
import Mathlib.Tactic.Common

/-!
The configurations that can come about by reading texts.

A configuration starts out empty. Texts are read into it, with success or not, and it may be made
fit for use at any time (`Edit`). All that can come about is kept in one invariant, line by line
and word by word (`Attainable`): the port of a server is always the usual one, numbers are those
that can be written in a text, and nothing takes back that recursion is desired.
-/

namespace DnsClient.ResolvConf

/-- What changes a configuration. -/
inductive Edit where
  | parse (o : Octets)
  | finalize

/-- The configuration after an edit, also if the text turns out to be bad. -/
def edit (c : ResolvConf) : Edit → ResolvConf
  | .parse o => (parse o c).2
  | .finalize => c.finalize

/-- What edits make of an empty configuration. -/
def edited (es : List Edit) : ResolvConf := es.foldl edit {}

structure Attainable (c : ResolvConf) : Prop where
  ports : ∀ a ∈ c.servers, a.port = port
  ndots_le : c.ndots ≤ maxNumber
  timeout : ∃ n ≤ maxNumber, c.timeout = Duration.ofSecs n
  attempts_le : c.attempts ≤ maxNumber
  recurse : c.recurse = true

variable {c : ResolvConf}

lemma attainable_empty : Attainable {} where
  ports _ h := by cases h
  ndots_le := by decide
  timeout := ⟨5, by decide, rfl⟩
  attempts_le := by decide
  recurse := rfl

lemma Attainable.addServer (h : c.Attainable) (ip : IpAddress) :
    Attainable { c with servers := c.servers ++ [⟨ip, port⟩] } := by
  refine ⟨List.forall_mem_append.2 ⟨h.ports, ?_⟩, h.ndots_le, h.timeout, h.attempts_le, h.recurse⟩
  exact List.forall_mem_singleton.2 rfl

lemma Attainable.setSearch (h : c.Attainable) (ns : List Name) :
    Attainable { c with search := ns } :=
  ⟨h.ports, h.ndots_le, h.timeout, h.attempts_le, h.recurse⟩

/-! ### Options -/

lemma readOption?_le {w name : List Char} {arg : Option Nat}
    (h : readOption? w = some (name, arg)) : ∀ n ∈ arg, n ≤ maxNumber := by
  unfold readOption? at h
  split at h
  · cases h
    simp
  · obtain ⟨n, hn, he⟩ := Option.map_eq_some_iff.1 h
    cases he
    rintro _ ⟨⟩
    exact (readDecimal?_eq_some.1 hn).2.2.2

lemma Attainable.setOption (h : c.Attainable) (name : List Char) {arg : Option Nat}
    (ha : ∀ n ∈ arg, n ≤ maxNumber) : (c.setOption name arg).Attainable := by
  unfold ResolvConf.setOption
  split
  · exact ⟨h.ports, ha _ rfl, h.timeout, h.attempts_le, h.recurse⟩
  · exact ⟨h.ports, h.ndots_le, ⟨_, ha _ rfl, rfl⟩, h.attempts_le, h.recurse⟩
  · exact ⟨h.ports, h.ndots_le, h.timeout, ha _ rfl, h.recurse⟩
  · exact ⟨h.ports, h.ndots_le, h.timeout, h.attempts_le, h.recurse⟩
  · exact ⟨h.ports, h.ndots_le, h.timeout, h.attempts_le, h.recurse⟩
  · exact ⟨h.ports, h.ndots_le, h.timeout, h.attempts_le, h.recurse⟩
  · exact h

lemma Attainable.readOptions (h : c.Attainable) (ws : List (List Char)) :
    (ResolvConf.readOptions ws c).2.Attainable := by
  induction ws generalizing c with
  | nil => exact h
  | cons w ws ih =>
    rw [ResolvConf.readOptions]
    split
    · next hw => exact ih (h.setOption _ (readOption?_le hw))
    · exact h

/-! ### Lines -/

lemma Attainable.readNameserver (h : c.Attainable) (ws : List (List Char)) :
    (ResolvConf.readNameserver ws c).2.Attainable := by
  cases ws with
  | nil => exact h
  | cons w ws =>
    rw [ResolvConf.readNameserver]
    split
    · exact h.addServer _
    · exact h

lemma Attainable.readDomain (h : c.Attainable) (ws : List (List Char)) :
    (ResolvConf.readDomain ws c).2.Attainable := by
  cases ws with
  | nil => exact h
  | cons w ws =>
    rw [ResolvConf.readDomain]
    split
    · exact h.setSearch _
    · exact h

lemma Attainable.readSearch (h : c.Attainable) (ws : List (List Char)) :
    (ResolvConf.readSearch ws c).2.Attainable := by
  rw [ResolvConf.readSearch]
  split
  · exact h.setSearch _
  · exact h

lemma Attainable.readWords (h : c.Attainable) (ws : List (List Char)) :
    (ResolvConf.readWords ws c).2.Attainable := by
  cases ws with
  | nil => exact h
  | cons keyword ws =>
    rw [ResolvConf.readWords]
    split
    · exact h.readNameserver ws
    · exact h.readDomain ws
    · exact h.readSearch ws
    · exact h
    · exact h.readOptions ws
    · exact h

lemma Attainable.readLine (h : c.Attainable) (line : Octets) :
    (ResolvConf.readLine line c).2.Attainable := by
  rw [ResolvConf.readLine]
  split
  · exact h
  · split_ifs
    · exact h
    · exact h.readWords _

lemma Attainable.readLines (h : c.Attainable) (ls : List Octets) :
    (ResolvConf.readLines ls c).2.Attainable := by
  induction ls generalizing c with
  | nil => exact h
  | cons l ls ih =>
    have hl := h.readLine l
    rw [ResolvConf.readLines]
    split
    · next he =>
      rw [he] at hl
      exact ih hl
    · next he =>
      rw [he] at hl
      exact hl

/-! ### Edits -/

lemma Attainable.finalize (h : c.Attainable) : c.finalize.Attainable := by
  refine ⟨?_, h.ndots_le, h.timeout, ?_, h.recurse⟩
  · simp only [ResolvConf.finalize]
    split_ifs
    · exact List.forall_mem_singleton.2 rfl
    · exact h.ports
  · simp only [ResolvConf.finalize]
    split_ifs
    · decide
    · exact h.attempts_le

lemma Attainable.edit (h : c.Attainable) (e : Edit) : (c.edit e).Attainable := by
  cases e with
  | parse o => exact h.readLines _
  | finalize => exact h.finalize

theorem attainable_edited (es : List Edit) : (edited es).Attainable := by
  suffices ∀ c : ResolvConf, c.Attainable → (es.foldl ResolvConf.edit c).Attainable from
    this {} attainable_empty
  induction es with
  | nil => exact fun _ h => h
  | cons e es ih => exact fun c h => ih _ (h.edit e)

end DnsClient.ResolvConf
