import DnsClient.Name

/-!
Presentation format of domain names.

Labels are separated by dots, and a name may end in one. A backslash takes the octet after it
for itself, or, before three decimal digits, the octet of that value. Printing escapes dots,
backslashes and everything that is not printable ASCII, and always ends in a dot.
-/

namespace DnsClient

namespace Name

def dot : UInt8 := 0x2E

/-- The octet of the backslash that starts an escape sequence. -/
def backslash : UInt8 := 0x5C

def isDigit (a : UInt8) : Bool := 0x30 ≤ a ∧ a ≤ 0x39

/-- The octets that may stand for themselves: printable ASCII. -/
def isLiteral (a : UInt8) : Bool := 0x20 ≤ a ∧ a ≤ 0x7E

def ofDigits (a b c : UInt8) : Nat :=
  100 * (a.toNat - 48) + 10 * (b.toNat - 48) + (c.toNat - 48)

/-! ### Reading -/

/-- Reads the rest of a text, where `acc` holds the octets of the label read so far, the last
one first. -/
def scan (acc : Octets) : Octets → Except NameError (List Label)
  | [] => (Label.ofOctets acc.reverse).map ([·])
  | a :: s =>
    if a = dot then
      match Label.ofOctets acc.reverse with
      | .error e => .error e
      | .ok l =>
        if s = [] then .ok [l]
        else (scan [] s).map (l :: ·)
    else if a = backslash then
      match s with
      | [] => .error .badEscape
      | b :: s =>
        if isDigit b then
          match s with
          | c :: d :: s =>
            if isDigit c ∧ isDigit d ∧ ofDigits b c d ≤ 255 then
              scan (UInt8.ofNat (ofDigits b c d) :: acc) s
            else .error .badEscape
          | _ => .error .badEscape
        else scan (b :: acc) s
    else if isLiteral a then scan (a :: acc) s
    else .error .illegalCharacter

/-- Reads a name from the UTF-8 octets of its text. -/
def ofText (s : Octets) : Except NameError Name :=
  if s = [dot] then .ok root
  else
    match scan [] s with
    | .error e => .error e
    | .ok ls => ofLabels ls

/-! ### Printing -/

def digit (n : Nat) : UInt8 := UInt8.ofNat (48 + n % 10)

/-- How an octet of a label is printed. -/
def escape (a : UInt8) : Octets :=
  if a = dot ∨ a = backslash then [backslash, a]
  else if 0x21 ≤ a ∧ a ≤ 0x7E then [a]
  else [backslash, digit (a.toNat / 100), digit (a.toNat / 10), digit a.toNat]

def text (n : Name) : Octets :=
  if n.labels = [] then [dot]
  else n.labels.flatMap fun l => l.octets.flatMap escape ++ [dot]

def display (n : Name) : String :=
  String.ofList (n.text.map fun a => Char.ofNat a.toNat)

instance : ToString Name := ⟨display⟩

end Name

end DnsClient
