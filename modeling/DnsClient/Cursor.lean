import DnsClient.Octets

/-!
Reading wire data: a cursor over the octets of a message.

A read either yields a value and moves the cursor behind the octets it stands for, or fails.
Reading a number, a slice or a name leaves the cursor alone when it fails; a read made of several
stays behind the parts that could be read.
-/

namespace DnsClient

inductive FormError where
  | longName
  | pointerLoop
  | forwardPointer
  | labelType
deriving DecidableEq, Repr

inductive ParseError where
  | shortInput
  | form (e : FormError)
deriving DecidableEq, Repr

def FormError.message : FormError → String
  | .longName => "long domain name"
  | .pointerLoop => "compression pointer loop"
  | .forwardPointer => "forward compression pointer"
  | .labelType => "invalid label type"

def ParseError.message : ParseError → String
  | .shortInput => "unexpected end of input"
  | .form e => e.message

/-- A position in the octets of a message, which are kept so that any of them is at hand. -/
structure Cursor where
  data : Array UInt8
  pos : Nat
  pos_le : pos ≤ data.size

namespace Cursor

def octets (c : Cursor) : Octets := c.data.toList

def rest (c : Cursor) : Octets := c.octets.drop c.pos

@[ext] theorem ext {c d : Cursor} (ho : c.octets = d.octets) (hp : c.pos = d.pos) : c = d := by
  obtain ⟨⟨_⟩, _, _⟩ := c
  obtain ⟨⟨_⟩, _, _⟩ := d
  cases ho; cases hp; rfl

def start (o : Octets) : Cursor := ⟨o.toArray, 0, Nat.zero_le _⟩

@[simp] theorem octets_start (o : Octets) : (start o).octets = o := rfl

def seek? (c : Cursor) (pos : Nat) : Except ParseError Cursor :=
  if h : pos ≤ c.data.size then .ok ⟨c.data, pos, h⟩ else .error .shortInput

/-- A cursor at any place of the octets. -/
def opened? (o : Octets) (pos : Nat) : Except ParseError Cursor := (start o).seek? pos

def remaining (c : Cursor) : Nat := c.data.size - c.pos

theorem pos_add_remaining (c : Cursor) : c.pos + c.remaining = c.octets.length := by
  have := c.pos_le
  simp [remaining, octets]; omega

@[simp] theorem length_rest (c : Cursor) : c.rest.length = c.remaining := by
  simp [rest, octets, remaining]

/-- The next `n` octets, and the cursor behind them. -/
def take? (c : Cursor) (n : Nat) : Option ({ o : Octets // o.length = n } × Cursor) :=
  if h : n ≤ c.remaining then
    have hle : c.pos + n ≤ c.data.size := by have := c.pos_le; rw [remaining] at h; omega
    some (⟨(c.data.extract c.pos (c.pos + n)).toList, by
      rw [Array.length_toList, Array.size_extract]; omega⟩, ⟨c.data, c.pos + n, hle⟩)
  else none

/-- Taking octets fails exactly if there are not as many. -/
theorem take?_eq_none {c : Cursor} {n : Nat} : c.take? n = none ↔ c.remaining < n := by
  unfold take?
  split <;> simp <;> omega

/-- What is taken are the first of the octets ahead. -/
theorem take?_octets {c d : Cursor} {n : Nat} {o : { o : Octets // o.length = n }}
    (h : c.take? n = some (o, d)) : o.1 = c.rest.take n := by
  unfold take? at h
  split at h
  · cases h
    simp [rest, octets]
  · cases h

/-- Taking octets moves the cursor by their number. -/
theorem take?_pos {c d : Cursor} {n : Nat} {o : { o : Octets // o.length = n }}
    (h : c.take? n = some (o, d)) : d.octets = c.octets ∧ d.pos = c.pos + n := by
  unfold take? at h
  split at h
  · cases h
    exact ⟨rfl, rfl⟩
  · cases h

end Cursor

def Read (α : Type) := Cursor → Except ParseError α × Cursor

namespace Read

instance : Monad Read where
  pure a := fun c => (.ok a, c)
  bind r f := fun c =>
    match r c with
    | (.ok a, c) => f a c
    | (.error e, c) => (.error e, c)

def slice (n : Nat) : Read { o : Octets // o.length = n } := fun c =>
  match c.take? n with
  | some (o, c) => (.ok o, c)
  | none => (.error .shortInput, c)

def skip (n : Nat) : Read Unit := do let _ ← slice n

def seek (pos : Nat) : Read Unit := fun c =>
  match c.seek? pos with
  | .ok c => (.ok (), c)
  | .error e => (.error e, c)

/-- Goes on with another cursor, at any place of the same octets. -/
def reopen (pos : Nat) : Read Unit := fun c =>
  match Cursor.opened? c.octets pos with
  | .ok c => (.ok (), c)
  | .error e => (.error e, c)

def number (width : Nat) : Read Nat := do return Octets.toNat (← slice width).1

def octet : Read UInt8 := do return UInt8.ofNat (← number 1)

def word16 : Read UInt16 := do return UInt16.ofNat (← number 2)

def word32 : Read UInt32 := do return UInt32.ofNat (← number 4)

end Read

end DnsClient
