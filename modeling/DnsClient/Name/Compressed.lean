import DnsClient.Name
import DnsClient.Cursor

/-!
Names inside a message, where the end of a name may be a pointer to an earlier place.

`Read.name` follows at most 64 pointers, each to a place before the pointer itself, so it ends on
every input. `Expands` is the rule it decides: which labels a place in a message stands for.
-/

namespace DnsClient

/-- The most compression pointers that one name may lead through. -/
def maxPointers : Nat := 64

/-- The length of a name in wire form is at most this. -/
def maxNameLength : Nat := 255

namespace Name

/-- The place that a compression pointer with these two octets leads to. -/
def pointerTarget (high low : Nat) : Nat := (high - 192) * 256 + low

/-- Reads the labels of a name of at most `room` octets through at most `pointers` pointers.
The cursor returned stands behind the root label or behind the first pointer. -/
def readLabels (pointers room : Nat) (c : Cursor) :
    Except ParseError ({ ls : List Label // wireLength ls ≤ room } × Cursor) :=
  match c.take? 1 with
  | none => .error .shortInput
  | some (a, c) =>
    let size := Octets.toNat a.1
    if hs : size < 64 then
      match c.take? size with
      | none => .error .shortInput
      | some (o, c) =>
        if hr : room < size + 1 then .error (.form .longName)
        else if h0 : size = 0 then .ok (⟨[], by simp; omega⟩, c)
        else
          match readLabels pointers (room - (size + 1)) c with
          | .error e => .error e
          | .ok (ls, c) =>
            .ok (⟨⟨o.1, by have := o.2; omega, by have := o.2; omega⟩ :: ls.1, by
              have := o.2; have := ls.2; simp; omega⟩, c)
    else if 192 ≤ size then
      match c.take? 1 with
      | none => .error .shortInput
      | some (b, c) =>
        match pointers with
        | 0 => .error (.form .pointerLoop)
        | pointers + 1 =>
          let target := pointerTarget size (Octets.toNat b.1)
          if c.pos ≤ target + 2 then .error (.form .forwardPointer)
          else
            match c.seek? target with
            | .error e => .error e
            | .ok d =>
              match readLabels pointers room d with
              | .error e => .error e
              | .ok (ls, _) => .ok (ls, c)
    else .error (.form .labelType)
termination_by pointers + room

/-- The labels that place `pos` of `o` stands for, how many pointers lead there, and the place
right behind the name as written at `pos`. -/
inductive Expands (o : Octets) : (pos : Nat) → List Label → (pointers stop : Nat) → Prop where
  | root {pos : Nat} (h : o[pos]? = some 0) : Expands o pos [] 0 (pos + 1)
  | label {pos : Nat} (l : Label) {ls : List Label} {pointers stop : Nat}
      (h : (o.drop pos).take (l.octets.length + 1) = l.wire)
      (t : Expands o (pos + l.octets.length + 1) ls pointers stop) :
      Expands o pos (l :: ls) pointers stop
  | pointer {pos : Nat} {a b : UInt8} {ls : List Label} {pointers stop : Nat}
      (ha : o[pos]? = some a) (hp : 192 ≤ a.toNat) (hb : o[pos + 1]? = some b)
      (hlt : pointerTarget a.toNat b.toNat < pos)
      (t : Expands o (pointerTarget a.toNat b.toNat) ls pointers stop) :
      Expands o pos ls (pointers + 1) (pos + 2)

end Name

/-- The possibly compressed name at the cursor. -/
def Read.name : Read Name := fun c =>
  match Name.readLabels maxPointers maxNameLength c with
  | .error e => (.error e, c)
  | .ok (ls, d) => (.ok ⟨ls.1, ls.2⟩, d)

end DnsClient
