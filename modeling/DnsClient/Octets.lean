/-!
Octet strings, the big-endian numbers in them, and comparison that ignores the case of ASCII
letters.
-/

namespace DnsClient

abbrev Octets := List UInt8

namespace Octets

/-- The number that the octets write in big-endian order. -/
def toNat (o : Octets) : Nat := o.foldl (fun n a => 256 * n + a.toNat) 0

/-- The low `width` octets of a number in big-endian order. -/
def ofNat : (width : Nat) → (n : Nat) → Octets
  | 0, _ => []
  | width + 1, n => ofNat width (n / 256) ++ [UInt8.ofNat n]

/-- How many numbers can be written in `width` octets. -/
def capacity : (width : Nat) → Nat
  | 0 => 1
  | width + 1 => 256 * capacity width

@[simp] theorem length_ofNat (width n : Nat) : (ofNat width n).length = width := by
  induction width generalizing n with
  | zero => rfl
  | succ width ih => simp [ofNat, ih]

theorem toNat_append_singleton (o : Octets) (a : UInt8) :
    toNat (o ++ [a]) = 256 * toNat o + a.toNat := by
  simp [toNat]

theorem toNat_ofNat (width n : Nat) : toNat (ofNat width n) = n % capacity width := by
  induction width generalizing n with
  | zero => simp [ofNat, toNat, capacity, Nat.mod_one]
  | succ width ih =>
    rw [ofNat, toNat_append_singleton, ih, capacity, Nat.mod_mul, UInt8.toNat_ofNat']
    omega

theorem ofNat_mod (width n : Nat) : ofNat width (n % capacity width) = ofNat width n := by
  induction width generalizing n with
  | zero => rfl
  | succ width ih =>
    have h' : n % capacity (width + 1) % 256 = n % 256 := Nat.mod_mod_of_dvd n ⟨_, rfl⟩
    rw [ofNat, ofNat, capacity, Nat.mod_mul_right_div_self, ih]
    congr 2
    rw [← UInt8.toNat_inj]
    exact (UInt8.toNat_ofNat' ..).trans (h'.trans (UInt8.toNat_ofNat' ..).symm)

theorem ofNat_toNat (o : Octets) : ofNat o.length (toNat o) = o := by
  suffices h : ∀ o : Octets, ofNat o.length (toNat o.reverse) = o.reverse by
    simpa using h o.reverse
  intro o
  induction o with
  | nil => rfl
  | cons a o ih =>
    have ha := a.toNat_lt
    have hdiv : (256 * toNat o.reverse + a.toNat) / 256 = toNat o.reverse := by omega
    have hmod : UInt8.ofNat (256 * toNat o.reverse + a.toNat) = a := by
      rw [← UInt8.toNat_inj, UInt8.toNat_ofNat']
      omega
    rw [List.length_cons, List.reverse_cons, toNat_append_singleton, ofNat, hdiv, hmod, ih]

theorem capacity_pos (width : Nat) : 0 < capacity width := by
  induction width with
  | zero => exact Nat.one_pos
  | succ width ih =>
    rw [capacity]
    omega

theorem toNat_lt (o : Octets) : toNat o < capacity o.length := by
  rw [← ofNat_toNat o, toNat_ofNat, length_ofNat]
  exact Nat.mod_lt _ (capacity_pos _)

def toWord16 (o : Octets) : UInt16 := UInt16.ofNat (toNat o)

def ofWord16 (n : UInt16) : Octets := ofNat 2 n.toNat

def ofWord32 (n : UInt32) : Octets := ofNat 4 n.toNat

@[simp] theorem length_ofWord16 (n : UInt16) : (ofWord16 n).length = 2 := length_ofNat 2 _

@[simp] theorem length_ofWord32 (n : UInt32) : (ofWord32 n).length = 4 := length_ofNat 4 _

@[simp] theorem toWord16_ofWord16 (n : UInt16) : toWord16 (ofWord16 n) = n := by
  rw [toWord16, ofWord16, toNat_ofNat, ← UInt16.toNat_inj]
  have := n.toNat_lt
  simp [capacity]

theorem ofWord16_toWord16 (o : Octets) (h : o.length = 2) : ofWord16 (toWord16 o) = o := by
  have hn := ofNat_toNat o
  rw [h] at hn
  rw [ofWord16, toWord16, UInt16.toNat_ofNat']
  exact (ofNat_mod 2 _).trans hn

/-! ### Letter case -/

/-- The octet with an ASCII capital letter made small. -/
def foldCase (a : UInt8) : UInt8 := if 0x41 ≤ a ∧ a ≤ 0x5A then a + 0x20 else a

/-- Whether two octet strings are equal but for the case of ASCII letters. -/
def eqIgnoreCase : Octets → Octets → Bool
  | [], [] => true
  | a :: s, b :: t => foldCase a == foldCase b && eqIgnoreCase s t
  | _, _ => false

theorem eqIgnoreCase_iff (s t : Octets) :
    eqIgnoreCase s t = true ↔ s.map foldCase = t.map foldCase := by
  induction s generalizing t with
  | nil => cases t <;> simp [eqIgnoreCase]
  | cons a s ih => cases t <;> simp [eqIgnoreCase, ih]

end Octets

end DnsClient
