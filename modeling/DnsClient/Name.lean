import DnsClient.Octets

/-!
Absolute domain names: lists of labels that fit into 255 octets on the wire.

The wire form writes each label behind its length and ends in a zero octet. `Name.ofWire`
accepts exactly the wire forms (`wire_ofWire`, `ofWire_wire`).
-/

namespace DnsClient

inductive NameError where
  | emptyLabel
  | longLabel
  | longName
  | illegalCharacter
  | badEscape
  | relativeName
  | shortInput
  | trailingData
deriving DecidableEq, Repr

def NameError.message : NameError → String
  | .emptyLabel => "empty label"
  | .longLabel => "label exceeds 63 octets"
  | .longName => "name exceeds 255 octets"
  | .illegalCharacter => "illegal character"
  | .badEscape => "invalid escape sequence"
  | .relativeName => "name is not absolute"
  | .shortInput => "unexpected end of input"
  | .trailingData => "trailing data after name"

/-! ### Labels -/

/-- A label other than that of the root: 1 to 63 octets. -/
structure Label where
  octets : Octets
  length_pos : 0 < octets.length
  length_le : octets.length ≤ 63
deriving DecidableEq

namespace Label

def ofOctets (o : Octets) : Except NameError Label :=
  if h : 0 < o.length then
    if h' : o.length ≤ 63 then .ok ⟨o, h, h'⟩ else .error .longLabel
  else .error .emptyLabel

def wire (l : Label) : Octets := UInt8.ofNat l.octets.length :: l.octets

@[simp] theorem length_wire (l : Label) : l.wire.length = l.octets.length + 1 := rfl

/-- The length of a label fits into an octet. -/
theorem toNat_ofNat_length (l : Label) :
    (UInt8.ofNat l.octets.length).toNat = l.octets.length := by
  have := l.length_le
  rw [UInt8.toNat_ofNat']
  omega

end Label

/-- How many octets the labels take on the wire, the root's zero octet included. -/
def wireLength : List Label → Nat
  | [] => 1
  | l :: ls => l.octets.length + 1 + wireLength ls

/-- The labels on the wire, closed by the zero octet of the root. -/
def encodeLabels (ls : List Label) : Octets := ls.flatMap Label.wire ++ [0]

@[simp] theorem wireLength_nil : wireLength [] = 1 := rfl

@[simp] theorem wireLength_cons (l : Label) (ls : List Label) :
    wireLength (l :: ls) = l.octets.length + 1 + wireLength ls := rfl

@[simp] theorem encodeLabels_nil : encodeLabels [] = [0] := rfl

@[simp] theorem encodeLabels_cons (l : Label) (ls : List Label) :
    encodeLabels (l :: ls) = l.wire ++ encodeLabels ls := by
  simp [encodeLabels]

@[simp] theorem length_encodeLabels (ls : List Label) :
    (encodeLabels ls).length = wireLength ls := by
  induction ls with
  | nil => rfl
  | cons l ls ih => simp [ih]

/-! ### Names -/

/-- An absolute domain name, given by its labels without that of the root. -/
structure Name where
  labels : List Label
  wireLength_le : wireLength labels ≤ 255

namespace Name

@[ext] theorem ext {m n : Name} (h : m.labels = n.labels) : m = n := by
  cases m; cases n; cases h; rfl

def root : Name := ⟨[], by decide⟩

def ofLabels (ls : List Label) : Except NameError Name :=
  if h : wireLength ls ≤ 255 then .ok ⟨ls, h⟩ else .error .longName

def wire (n : Name) : Octets := encodeLabels n.labels

def length (n : Name) : Nat := wireLength n.labels

@[simp] theorem length_wire (n : Name) : n.wire.length = n.length := length_encodeLabels _

theorem length_le (n : Name) : n.length ≤ 255 := n.wireLength_le

def isRoot (n : Name) : Bool := n.length == 1

/-- Reads labels off octets that hold nothing else. -/
def decodeLabels (o : Octets) : Except NameError (List Label) :=
  match o with
  | [] => .error .relativeName
  | a :: tail =>
    if h63 : 63 < a.toNat then .error .longLabel
    else if hlen : tail.length < a.toNat then .error .shortInput
    else if h0 : a.toNat = 0 then
      if tail = [] then .ok [] else .error .trailingData
    else
      match decodeLabels (tail.drop a.toNat) with
      | .error e => .error e
      | .ok ls =>
        have hl : (tail.take a.toNat).length = a.toNat := by simp; omega
        .ok (⟨tail.take a.toNat, by omega, by omega⟩ :: ls)
termination_by o.length
decreasing_by rw [List.length_drop, List.length_cons]; omega

theorem encodeLabels_of_decodeLabels {o : Octets} {ls : List Label}
    (h : decodeLabels o = .ok ls) : encodeLabels ls = o := by
  fun_induction decodeLabels o generalizing ls with
  | case1 => cases h
  | case2 => cases h
  | case3 => cases h
  | case4 a _ h0 =>
    cases h
    obtain rfl : a = 0 := UInt8.toNat_inj.1 h0
    rfl
  | case5 => cases h
  | case6 => cases h
  | case7 a tail _ hlen _ ms _ _ ih =>
    cases h
    rw [encodeLabels_cons, ih ‹_›]
    simp [Label.wire, Nat.min_eq_left (Nat.not_lt.1 hlen)]

def ofWire (o : Octets) : Except NameError Name :=
  if hlen : 255 < o.length then .error .longName
  else
    match h : decodeLabels o with
    | .error e => .error e
    | .ok ls => .ok ⟨ls, by rw [← length_encodeLabels, encodeLabels_of_decodeLabels h]; omega⟩

/-- The labels met when walking over a wire form, the empty label of the root included. -/
def walk (o : Octets) : List Octets :=
  match o with
  | [] => []
  | a :: tail => if a = 0 then [[]] else tail.take a.toNat :: walk (tail.drop a.toNat)
termination_by o.length
decreasing_by rw [List.length_drop, List.length_cons]; omega

/-! ### Comparison -/

/-- Names are equal if their wire forms are but for the case of ASCII letters. -/
def eq (m n : Name) : Bool := m.wire.eqIgnoreCase n.wire

instance : BEq Name := ⟨eq⟩

def hashed (n : Name) : Octets := n.wire.map Octets.foldCase

/-! ### The wire form determines the name -/

theorem encodeLabels_injective {ls ms : List Label} (h : encodeLabels ls = encodeLabels ms) :
    ls = ms := by
  induction ls generalizing ms with
  | nil =>
    cases ms with
    | nil => rfl
    | cons m ms =>
      have := congrArg List.length h
      have := m.length_pos
      simp at *
      omega
  | cons l ls ih =>
    cases ms with
    | nil =>
      have := congrArg List.length h
      have := l.length_pos
      simp at *
      omega
    | cons m ms =>
      simp only [encodeLabels_cons, Label.wire, List.cons_append, List.cons.injEq] at h
      have hl : l.octets.length = m.octets.length := by
        rw [← l.toNat_ofNat_length, h.1, m.toNat_ofNat_length]
      obtain ⟨h1, h2⟩ := List.append_inj h.2 hl
      have : l = m := by cases l; cases m; simp_all
      rw [this, ih h2]

theorem decodeLabels_encodeLabels (ls : List Label) : decodeLabels (encodeLabels ls) = .ok ls := by
  suffices h : ∃ ms, decodeLabels (encodeLabels ls) = .ok ms by
    obtain ⟨ms, h⟩ := h
    rw [h, encodeLabels_injective (encodeLabels_of_decodeLabels h)]
  induction ls with
  | nil => exact ⟨_, by rw [encodeLabels_nil, decodeLabels]; rfl⟩
  | cons l ls ih =>
    obtain ⟨r, hr⟩ := ih
    have h1 := l.length_pos
    have h2 := l.length_le
    have ha := l.toNat_ofNat_length
    have hd : (l.octets ++ encodeLabels ls).drop (UInt8.ofNat l.octets.length).toNat =
        encodeLabels ls := by rw [ha]; simp
    rw [encodeLabels_cons, Label.wire, List.cons_append, decodeLabels]
    rw [dif_neg (by omega), dif_neg (by simp [ha]), dif_neg (by omega), hd, hr]
    exact ⟨_, rfl⟩

theorem wire_ofWire {o : Octets} {n : Name} (h : ofWire o = .ok n) : n.wire = o := by
  rw [ofWire] at h
  split at h
  · cases h
  · split at h
    · cases h
    · next h' => cases h; exact encodeLabels_of_decodeLabels h'

theorem ofWire_wire (n : Name) : ofWire n.wire = .ok n := by
  have := n.length_le
  rw [← length_wire] at this
  rw [ofWire, dif_neg (by omega)]
  split
  · next h => rw [wire, decodeLabels_encodeLabels] at h; cases h
  · next h => rw [wire, decodeLabels_encodeLabels] at h; cases h; rfl

end Name

end DnsClient
