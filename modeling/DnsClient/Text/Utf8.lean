import DnsClient.Octets

/-!
UTF-8: the octets of a text, and the text in octets that are well formed.

A character is accepted in its shortest encoding only, and surrogates are not characters.
-/

namespace DnsClient

namespace Utf8

def encode (s : List Char) : Octets := s.flatMap String.utf8EncodeChar

def isTail (a : UInt8) : Bool := 0x80 ≤ a ∧ a ≤ 0xBF

def tailBits (a : UInt8) : Nat := a.toNat - 0x80

/-- The character of a number that is not below `least`. -/
def char? (least n : Nat) : Option Char :=
  if h : least ≤ n ∧ n.isValidChar then some (Char.ofNatAux n h.2) else none

/-- Reads a text, where `acc` holds the characters before, the last one first. -/
def decodeFrom (acc : List Char) : Octets → Option (List Char)
  | [] => some acc.reverse
  | a :: s =>
    if a < 0x80 then
      (char? 0 a.toNat).bind fun c => decodeFrom (c :: acc) s
    else if a < 0xC0 then none
    else
      match s with
      | [] => none
      | b :: s =>
        if !isTail b then none
        else if a < 0xE0 then
          (char? 0x80 ((a.toNat - 0xC0) * 64 + tailBits b)).bind fun c => decodeFrom (c :: acc) s
        else
          match s with
          | [] => none
          | d :: s =>
            if !isTail d then none
            else if a < 0xF0 then
              (char? 0x800 (((a.toNat - 0xE0) * 64 + tailBits b) * 64 + tailBits d)).bind
                fun c => decodeFrom (c :: acc) s
            else
              match s with
              | [] => none
              | e :: s =>
                if isTail e ∧ a < 0xF8 then
                  (char? 0x10000 ((((a.toNat - 0xF0) * 64 + tailBits b) * 64 + tailBits d) * 64 +
                    tailBits e)).bind fun c => decodeFrom (c :: acc) s
                else none

def decode (o : Octets) : Option (List Char) := decodeFrom [] o

end Utf8

end DnsClient
