import DnsClient.Address
import DnsClient.Proofs.Text.Words

/-!
The text form of an address is read as that address.

Numbers and groups are read for themselves, and neither holds a dot or a colon, so the pieces of an
address are found again between these. What was left out of an IPv6 address are zero groups
(`eq_of_longestZeroRun`), and as many are put in as are missing.
-/

namespace DnsClient

variable {n d : Nat} {c : Char}

/-! ### Digits -/

lemma exists_digitChar_of_mem {b : Nat} (hb : 1 < b) (h : c ∈ Nat.toDigits b n) :
    ∃ d < b, c = Nat.digitChar d := by
  induction n using Nat.strongRecOn with
  | ind n ih =>
    rw [Nat.toDigits_eq_if hb] at h
    split_ifs at h with hn
    · exact ⟨n, hn, List.mem_singleton.1 h⟩
    · obtain h | h := List.mem_append.1 h
      · exact ih (n / b) (Nat.div_lt_self (by omega) hb) h
      · exact ⟨n % b, Nat.mod_lt _ (by omega), List.mem_singleton.1 h⟩

/-- Numbers other than zero have no leading zeros. -/
lemma head?_toDigits_ne (h : n ≠ 0) : (Nat.toDigits 10 n).head? ≠ some '0' := by
  induction n using Nat.strongRecOn with
  | ind n ih =>
    rw [Nat.toDigits_eq_if (by decide)]
    split_ifs with hn
    · have : ∀ d < 10, d ≠ 0 → [Nat.digitChar d].head? ≠ some '0' := by decide
      exact this n hn h
    · have ih := ih (n / 10) (by omega) (by omega)
      obtain ⟨c, s, hs⟩ := List.exists_cons_of_ne_nil (Nat.toDigits_ne_nil (n := n / 10) (b := 10))
      rw [hs] at ih ⊢
      exact ih

lemma isGraphic_decimal (h : c ∈ IpAddress.decimal n) : IsGraphic c :=
  isGraphic_of_isDigit (Nat.isDigit_of_mem_toDigits (by decide) (by decide) h)

lemma isGraphic_hexadecimal (h : c ∈ IpAddress.hexadecimal n) : IsGraphic c ∧ c ≠ ':' ∧ c ≠ '.' := by
  obtain ⟨d, hd, rfl⟩ := exists_digitChar_of_mem (by decide) h
  have : ∀ d < 16, IsGraphic d.digitChar ∧ d.digitChar ≠ ':' ∧ d.digitChar ≠ '.' := by decide
  exact this d hd

lemma notMem_decimal (h : c.isDigit = false) (n : Nat) : c ∉ IpAddress.decimal n := by
  intro hc
  have := Nat.isDigit_of_mem_toDigits (by decide) (by decide) hc
  rw [h] at this
  cases this

namespace IpAddress

/-! ### IPv4 -/

lemma readOctet?_decimal (a : UInt8) : readOctet? (decimal a.toNat) = some a := by
  have hz : ¬((decimal a.toNat).head? = some '0' ∧ (decimal a.toNat).tail ≠ []) := by
    rintro ⟨hh, ht⟩
    by_cases ha : a.toNat = 0
    · rw [ha] at ht
      exact ht rfl
    · exact head?_toDigits_ne ha hh
  have hr : readDecimal? 255 (decimal a.toNat) = some a.toNat :=
    readDecimal?_toDigits (Nat.le_of_lt_succ a.toNat_lt)
  rw [readOctet?, if_neg hz, hr, Option.map_some, UInt8.ofNat_toNat]

variable (a b c d : UInt8)

lemma mem_v4Text {x : Char} (h : x ∈ v4Text a b c d) : x = '.' ∨ x.isDigit := by
  refine (mem_joinWith h).imp id fun ⟨p, hp, hx⟩ => ?_
  simp only [List.mem_cons, List.not_mem_nil, or_false] at hp
  obtain rfl | rfl | rfl | rfl := hp <;>
    exact Nat.isDigit_of_mem_toDigits (by decide) (by decide) hx

theorem readV4?_v4Text : readV4? (v4Text a b c d) = some (a, b, c, d) := by
  have hs : splitOn '.' (v4Text a b c d) =
      [decimal a.toNat, decimal b.toNat, decimal c.toNat, decimal d.toNat] := by
    refine splitOn_joinWith (List.cons_ne_nil _ _) ?_
    simp only [List.forall_mem_cons]
    exact ⟨notMem_decimal rfl _, notMem_decimal rfl _, notMem_decimal rfl _,
      notMem_decimal rfl _, by simp⟩
  simp [readV4?, hs, readOctet?_decimal]

/-- A text without dots is no IPv4 address. -/
lemma readV4?_of_notMem {s : List Char} (h : '.' ∉ s) : readV4? s = none := by
  rw [readV4?, splitOn_of_notMem h]

/-- Nor is a text that does not start with a digit. -/
lemma readV4?_of_not_isDigit {x : Char} (h : x.isDigit = false) (hd : x ≠ '.') (s : List Char) :
    readV4? (x :: s) = none := by
  have hx (p : List Char) : readOctet? (x :: p) = none := by
    simp [readOctet?, readDecimal?, decimalFrom?, h]
  obtain ⟨p, ps, hs⟩ : ∃ p ps, splitOn '.' (x :: s) = (x :: p) :: ps := by
    rw [splitOn, if_neg hd]
    split
    · exact ⟨_, _, rfl⟩
    · exact ⟨_, _, rfl⟩
  rw [readV4?, hs]
  split
  · next he =>
    cases he
    rw [hx]
    rfl
  · rfl

/-! ### Groups -/

lemma hexDigit?_digitChar : ∀ d < 16, hexDigit? (Nat.digitChar d) = some d := by decide

/-- Hexadecimal digits write the number they are made from. -/
lemma exists_mapM_hexDigit? (n : Nat) : ∃ ds, (hexadecimal n).mapM hexDigit? = some ds ∧
    ds.foldl (fun n d => 16 * n + d) 0 = n := by
  induction n using Nat.strongRecOn with
  | ind n ih =>
    rw [hexadecimal, Nat.toDigits_eq_if (by decide)]
    split_ifs with hn
    · exact ⟨[n], by simp [hexDigit?_digitChar n hn], by simp⟩
    · obtain ⟨ds, hds, hf⟩ := ih (n / 16) (by omega)
      have hl := hexDigit?_digitChar (n % 16) (Nat.mod_lt _ (by decide))
      rw [hexadecimal] at hds
      refine ⟨ds ++ [n % 16], by simp [hds, hl], ?_⟩
      rw [List.foldl_append, hf]
      simp only [List.foldl_cons, List.foldl_nil]
      omega

lemma readGroup?_hexadecimal (a : UInt16) : readGroup? (hexadecimal a.toNat) = some a := by
  have hl : (hexadecimal a.toNat).length ≤ 4 :=
    (Nat.length_toDigits_le_iff (by decide) (by decide)).2 a.toNat_lt
  obtain ⟨ds, hds, hf⟩ := exists_mapM_hexDigit? a.toNat
  have hne : ¬(hexadecimal a.toNat = [] ∨ 4 < (hexadecimal a.toNat).length) :=
    not_or.2 ⟨Nat.toDigits_ne_nil, Nat.not_lt.2 hl⟩
  rw [readGroup?, if_neg hne, hds, Option.map_some, hf, UInt16.ofNat_toNat]

lemma readGroups?_map (tail : Bool) (g : List UInt16) :
    readGroups? tail (g.map fun a => hexadecimal a.toNat) = some g := by
  induction g with
  | nil => rfl
  | cons a g ih =>
    cases g with
    | nil =>
      have h4 : readV4? (hexadecimal a.toNat) = none :=
        readV4?_of_notMem fun h => (isGraphic_hexadecimal h).2.2 rfl
      have h : (if tail then readV4? (hexadecimal a.toNat) else none) = none := by
        rw [h4, ite_self]
      simp only [List.map_cons, List.map_nil, readGroups?, h, readGroup?_hexadecimal]
      rfl
    | cons b g =>
      simp only [List.map_cons] at ih ⊢
      simp [readGroups?, readGroup?_hexadecimal, ih]

/-- A text of groups starts with a digit. -/
lemma exists_groupsText_cons (a : UInt16) (g : List UInt16) :
    ∃ c s, groupsText (a :: g) = c :: s ∧ c ≠ ':' := by
  obtain ⟨c, w, hw⟩ := List.exists_cons_of_ne_nil (Nat.toDigits_ne_nil (n := a.toNat) (b := 16))
  have hm : c ∈ hexadecimal a.toNat := by
    rw [hexadecimal, hw]
    exact List.mem_cons_self
  have hc := (isGraphic_hexadecimal hm).2.1
  cases g with
  | nil => exact ⟨c, w, hw, hc⟩
  | cons b g =>
    refine ⟨c, w ++ ':' :: groupsText (b :: g), ?_, hc⟩
    rw [← List.cons_append, ← hw]
    rfl

lemma readPart?_groupsText (tail : Bool) (g : List UInt16) :
    readPart? tail (groupsText g) = some g := by
  cases g with
  | nil => rfl
  | cons a g =>
    have hs : splitOn ':' (groupsText (a :: g)) = (a :: g).map fun a => hexadecimal a.toNat := by
      refine splitOn_joinWith (by simp) ?_
      simp only [List.forall_mem_map]
      exact fun a _ h => (isGraphic_hexadecimal h).2.1 rfl
    have hne : groupsText (a :: g) ≠ [] := by
      obtain ⟨c, s, h, -⟩ := exists_groupsText_cons a g
      rw [h]
      exact List.cons_ne_nil _ _
    rw [readPart?, if_neg hne, hs, readGroups?_map]

lemma splitDouble_append {w : List Char} (h : ':' ∉ w) (s : List Char) :
    splitDouble (w ++ s) = (splitDouble s).map fun r => (w ++ r.1, r.2) := by
  induction w with
  | nil => simp
  | cons c w ih =>
    obtain ⟨hc, hw⟩ := List.ne_and_not_mem_of_not_mem_cons h
    rw [List.cons_append, splitDouble, if_neg (fun h => hc h.1.symm), ih hw, Option.map_map]
    rfl

/-- There are no two colons in a row in a text of groups. -/
lemma splitDouble_groupsText (g : List UInt16) (s : List Char) :
    splitDouble (groupsText g ++ s) = (splitDouble s).map fun r => (groupsText g ++ r.1, r.2) := by
  have hn (a : UInt16) : ':' ∉ hexadecimal a.toNat := fun h => (isGraphic_hexadecimal h).2.1 rfl
  induction g with
  | nil => simp [groupsText, joinWith]
  | cons a g ih =>
    cases g with
    | nil => exact splitDouble_append (hn a) s
    | cons b g =>
      have hg : groupsText (a :: b :: g) = hexadecimal a.toNat ++ ':' :: groupsText (b :: g) := rfl
      have hc : splitDouble (':' :: (groupsText (b :: g) ++ s)) =
          (splitDouble (groupsText (b :: g) ++ s)).map fun r => (':' :: r.1, r.2) := by
        obtain ⟨c, w, hw, hc⟩ := exists_groupsText_cons b g
        rw [splitDouble, if_neg]
        rw [hw]
        rintro ⟨-, h⟩
        exact hc (Option.some.inj h)
      rw [hg, List.append_assoc, splitDouble_append (hn a), List.cons_append, hc, ih,
        Option.map_map, Option.map_map]
      simp [Function.comp_def]

/-! ### Zero groups -/

lemma eq_of_zeroRun (g : List UInt16) : g = List.replicate (zeroRun g) 0 ++ g.drop (zeroRun g) := by
  induction g with
  | nil => rfl
  | cons a g ih =>
    by_cases ha : a = 0
    · have hz : zeroRun (a :: g) = zeroRun g + 1 := by simp [zeroRun, ha]
      rw [hz, ha, List.replicate_succ, List.drop_succ_cons, List.cons_append, ← ih]
    · have hz : zeroRun (a :: g) = 0 := by simp [zeroRun, ha]
      rw [hz]
      rfl

/-- The longest run consists of zero groups. -/
lemma eq_of_longestZeroRun (g : List UInt16) : g = g.take (longestZeroRun g).1 ++
    List.replicate (longestZeroRun g).2 0 ++ g.drop ((longestZeroRun g).1 + (longestZeroRun g).2) := by
  induction g with
  | nil => rfl
  | cons a g ih =>
    simp only [longestZeroRun]
    split_ifs with h
    · rw [List.take_zero, List.nil_append, Nat.zero_add]
      exact eq_of_zeroRun (a :: g)
    · rw [List.take_succ_cons, Nat.add_right_comm, List.drop_succ_cons]
      exact congrArg (a :: ·) ih

/-! ### IPv6 -/

variable {g : List UInt16}

lemma readV6?_groupsText (h : g.length = 8) : readV6? (groupsText g) = some ⟨g, h⟩ := by
  have hs : splitDouble (groupsText g) = none := by
    have := splitDouble_groupsText g []
    rwa [List.append_nil] at this
  simp [readV6?, hs, readPart?_groupsText, h]

/-- Groups that are left out are read as zero groups. -/
lemma readV6?_of_splitDouble {s p q : List Char} {front back : List UInt16} {k : Nat}
    (hs : splitDouble s = some (p, q)) (hp : readPart? false p = some front)
    (hq : readPart? true q = some back) (hk : 0 < k)
    (h : (front ++ List.replicate k 0 ++ back).length = 8) :
    readV6? s = some ⟨front ++ List.replicate k 0 ++ back, h⟩ := by
  have hl := h
  simp only [List.length_append, List.length_replicate] at hl
  have hle : front.length + back.length ≤ 7 := by omega
  obtain rfl : k = 8 - (front.length + back.length) := by omega
  rw [readV6?, hs]
  simp [hp, hq, hle]

lemma readV6?_shortened {front back : List UInt16} {k : Nat} (hk : 0 < k)
    (h : (front ++ List.replicate k 0 ++ back).length = 8) :
    readV6? (groupsText front ++ [':', ':'] ++ groupsText back) =
      some ⟨front ++ List.replicate k 0 ++ back, h⟩ := by
  refine readV6?_of_splitDouble ?_ (readPart?_groupsText _ _) (readPart?_groupsText _ _) hk h
  rw [List.append_assoc, splitDouble_groupsText]
  simp [splitDouble]

lemma ofNat_octets (x : UInt16) :
    UInt16.ofNat (256 * (x >>> 8).toUInt8.toNat + x.toUInt8.toNat) = x := by
  have := x.toNat_lt
  rw [← UInt16.toNat_inj]
  simp [Nat.shiftRight_eq_div_pow]
  omega

/-- The last two groups may be an IPv4 address. -/
lemma readV6?_mapped (x y : UInt16) (h : [0, 0, 0, 0, 0, 0xFFFF, x, y].length = 8) :
    readV6? ([':', ':', 'f', 'f', 'f', 'f', ':'] ++
      v4Text (x >>> 8).toUInt8 x.toUInt8 (y >>> 8).toUInt8 y.toUInt8) = some ⟨_, h⟩ := by
  have hr := readV4?_v4Text (x >>> 8).toUInt8 x.toUInt8 (y >>> 8).toUInt8 y.toUInt8
  have hn : ':' ∉ v4Text (x >>> 8).toUInt8 x.toUInt8 (y >>> 8).toUInt8 y.toUInt8 := by
    intro h
    obtain h | h := mem_v4Text _ _ _ _ h <;> cases h
  generalize v4Text (x >>> 8).toUInt8 x.toUInt8 (y >>> 8).toUInt8 y.toUInt8 = v at hr hn ⊢
  have hg : readGroup? ['f', 'f', 'f', 'f'] = some 0xFFFF := by decide
  have hb : readPart? true ('f' :: 'f' :: 'f' :: 'f' :: ':' :: v) = some [0xFFFF, x, y] := by
    have hs : splitOn ':' ('f' :: 'f' :: 'f' :: 'f' :: ':' :: v) = [['f', 'f', 'f', 'f'], v] := by
      have : splitOn ':' (['f', 'f', 'f', 'f'] ++ ':' :: v) = _ := splitOn_append_cons (by decide)
      rwa [splitOn_of_notMem hn] at this
    rw [readPart?, if_neg (List.cons_ne_nil _ _), hs]
    simp only [readGroups?, if_true, hr, hg, ofNat_octets]
    rfl
  have hf : readPart? false [] = some [] := rfl
  exact readV6?_of_splitDouble (k := 5) rfl hf hb (by decide) h

theorem readV6?_v6Text (h : g.length = 8) : readV6? (v6Text g) = some ⟨g, h⟩ := by
  unfold v6Text
  split
  · exact readV6?_mapped _ _ h
  · simp only
    split_ifs with hl
    · have hg := eq_of_longestZeroRun g
      have := readV6?_shortened (Nat.lt_of_succ_lt hl) (hg ▸ h)
      exact this.trans (congrArg some (Subtype.ext hg.symm))
    · exact readV6?_groupsText h

/-! ### Addresses -/

lemma mem_groupsText {x : Char} (h : x ∈ groupsText g) : IsGraphic x ∧ x ≠ '.' := by
  obtain rfl | ⟨p, hp, hx⟩ := mem_joinWith h
  · decide
  · obtain ⟨a, -, rfl⟩ := List.mem_map.1 hp
    exact ⟨(isGraphic_hexadecimal hx).1, (isGraphic_hexadecimal hx).2.2⟩

lemma graphic_v4Text {x : Char} (h : x ∈ v4Text a b c d) : IsGraphic x := by
  obtain rfl | h := mem_v4Text a b c d h
  · decide
  · exact isGraphic_of_isDigit h

/-- The text of an IPv6 address is that of an IPv4 address behind a prefix, or has no dots. -/
lemma v6Text_cases (g : List UInt16) :
    (∃ a b c d, v6Text g = [':', ':', 'f', 'f', 'f', 'f', ':'] ++ v4Text a b c d) ∨
      ∀ x ∈ v6Text g, IsGraphic x ∧ x ≠ '.' := by
  unfold v6Text
  split
  · exact .inl ⟨_, _, _, _, rfl⟩
  · refine .inr ?_
    simp only
    split_ifs
    · have hc : ∀ x ∈ [':', ':'], IsGraphic x ∧ x ≠ '.' :=
        List.forall_mem_cons.2 ⟨by decide, List.forall_mem_singleton.2 (by decide)⟩
      simp only [List.forall_mem_append]
      exact ⟨⟨fun x => mem_groupsText, hc⟩, fun x => mem_groupsText⟩
    · exact fun x => mem_groupsText

lemma readV4?_v6Text (g : List UInt16) : readV4? (v6Text g) = none := by
  obtain ⟨a, b, c, d, h⟩ | h := v6Text_cases g
  · rw [h]
    exact readV4?_of_not_isDigit rfl (by decide) _
  · exact readV4?_of_notMem fun hm => (h _ hm).2 rfl

theorem ofText?_text (ip : IpAddress) : ofText? ip.text = some ip := by
  cases ip with
  | v4 a b c d => rw [text, ofText?, readV4?_v4Text]
  | v6 g h => rw [text, ofText?, readV4?_v6Text, readV6?_v6Text h, Option.map_some]

/-- No address is printed as nothing, since nothing is no address. -/
lemma text_ne_nil (ip : IpAddress) : ip.text ≠ [] := by
  intro h
  have hr := ofText?_text ip
  rw [h] at hr
  cases hr

theorem isWord_text (ip : IpAddress) : IsWord ip.text where
  ne_nil := ip.text_ne_nil
  graphic := by
    cases ip with
    | v4 a b c d => exact fun x => graphic_v4Text a b c d
    | v6 g hg =>
      obtain ⟨a, b, c, d, h⟩ | h := v6Text_cases g
      · have hp : IsWord [':', ':', 'f', 'f', 'f', 'f', ':'] := by decide
        rw [text, h]
        exact List.forall_mem_append.2 ⟨hp.graphic, fun x => graphic_v4Text a b c d⟩
      · exact fun x hx => (h x hx).1

end IpAddress

end DnsClient
