/-!
White space and the words between it.
-/

namespace DnsClient

/-- Characters with the property White_Space. -/
def isBlank (c : Char) : Bool :=
  (0x09 ≤ c.toNat ∧ c.toNat ≤ 0x0D) ∨ c.toNat = 0x20 ∨ c.toNat = 0x85 ∨ c.toNat = 0xA0 ∨
    c.toNat = 0x1680 ∨ (0x2000 ≤ c.toNat ∧ c.toNat ≤ 0x200A) ∨ c.toNat = 0x2028 ∨
    c.toNat = 0x2029 ∨ c.toNat = 0x202F ∨ c.toNat = 0x205F ∨ c.toNat = 0x3000

/-- The words of a text, where `acc` holds the word read so far, its last character first. -/
def wordsFrom (acc : List Char) : List Char → List (List Char)
  | [] => if acc = [] then [] else [acc.reverse]
  | c :: s =>
    if isBlank c then
      if acc = [] then wordsFrom [] s else acc.reverse :: wordsFrom [] s
    else wordsFrom (c :: acc) s

/-- The longest pieces of a text without white space, in order. -/
def words (s : List Char) : List (List Char) := wordsFrom [] s

end DnsClient
