import DnsClient.Proofs.Address.Presentation
import DnsClient.Proofs.Name.Presentation
import DnsClient.Proofs.ResolvConf.Attainable

/-!
A configuration is read from its own text.

Every part of the text changes what was read so far into what it was printed from, whatever stands
behind it (`Gives`): a line, the lines of the servers, that of the domains to search, and that of
the options, of which those are left out that have their usual value.
-/

namespace DnsClient.ResolvConf

variable {c c' c'' : ResolvConf} {s t : List Char} {ws : List (List Char)}

/-! ### Lines -/

/-- The text makes the second configuration of the first, and reading goes on behind it. -/
def Gives (s : List Char) (c c' : ResolvConf) : Prop :=
  ∀ o, parse (Utf8.encode s ++ o) c = parse o c'

lemma gives_nil (c : ResolvConf) : Gives [] c c := fun _ => rfl

lemma Gives.append (h : Gives s c c') (h' : Gives t c' c'') : Gives (s ++ t) c c'' := by
  intro o
  rw [Utf8.encode, List.flatMap_append, List.append_assoc]
  exact (h _).trans (h' o)

/-- Nothing is left to read behind the text. -/
lemma Gives.parse_eq (h : Gives s c c') : parse (Utf8.encode s) c = (.ok (), c') := by
  have := h []
  rw [List.append_nil] at this
  exact this

lemma printable_joinWith (h : ∀ w ∈ ws, IsWord w) :
    ∀ x ∈ joinWith ' ' ws, 0x20 ≤ x.toNat ∧ x.toNat < 0x80 := by
  intro x hx
  obtain rfl | ⟨w, hw, hx⟩ := mem_joinWith hx
  · decide
  · obtain ⟨h, h'⟩ := (h w hw).graphic x hx
    exact ⟨by omega, by omega⟩

lemma newline_notMem_encode (h : ∀ x ∈ s, 0x20 ≤ x.toNat ∧ x.toNat < 0x80) :
    newline ∉ Utf8.encode s := by
  rw [Utf8.encode_eq_map fun x hx => (h x hx).2]
  intro hm
  obtain ⟨x, hx, he⟩ := List.mem_map.1 hm
  have := h x hx
  have hn : x.toNat % 256 = 10 := by
    rw [← UInt8.toNat_ofNat', he]
    rfl
  omega

/-- A line gives what its words do. -/
lemma gives_line {keyword : List Char} (hk : isComment keyword = false)
    (h : ∀ w ∈ keyword :: ws, IsWord w) (hr : readWords (keyword :: ws) c = (.ok (), c')) :
    Gives (line (keyword :: ws)) c c' := by
  intro o
  have hp := printable_joinWith h
  have hc : isComment (joinWith ' ' (keyword :: ws)) = false := by
    rw [isComment, head?_joinWith (List.forall_mem_cons.1 h).1.ne_nil]
    exact hk
  have hl : readLine (Utf8.encode (joinWith ' ' (keyword :: ws))) c = (.ok (), c') := by
    simp only [readLine, Utf8.decode_encode fun x hx => (hp x hx).2, hc, words_joinWith h, hr]
    rfl
  have he : Utf8.encode (line (keyword :: ws)) ++ o =
      Utf8.encode (joinWith ' ' (keyword :: ws)) ++ newline :: o := by
    rw [line, Utf8.encode, List.flatMap_append, List.append_assoc]
    rfl
  rw [he, parse, splitOn_append_cons (newline_notMem_encode hp), readLines, hl]
  rfl

/-! ### Servers and domains -/

lemma gives_serverLines {servers : List SocketAddress} (h : ∀ a ∈ servers, a.port = port)
    (c : ResolvConf) :
    Gives (serverLines servers) c { c with servers := c.servers ++ servers } := by
  induction servers generalizing c with
  | nil =>
    rw [List.append_nil]
    exact gives_nil c
  | cons a servers ih =>
    obtain ⟨ha, hs⟩ := List.forall_mem_cons.1 h
    have ht : serverText a = a.ip.text := if_pos ha
    have hw : ∀ w ∈ ["nameserver".toList, a.ip.text], IsWord w :=
      List.forall_mem_cons.2 ⟨by decide, List.forall_mem_singleton.2 a.ip.isWord_text⟩
    have hr : readWords ["nameserver".toList, a.ip.text] c =
        (.ok (), { c with servers := c.servers ++ [a] }) := by
      have ha : a = ⟨a.ip, port⟩ := by rw [← ha]
      rw [ha]
      simp [readWords, readNameserver, IpAddress.ofText?_text, noMore]
    have := (gives_line (by decide) hw hr).append (ih hs _)
    rw [List.append_assoc, List.singleton_append] at this
    rw [serverLines, List.flatMap_cons, ht]
    exact this

lemma nameText_eq (n : Name) : nameText n = n.display.toList := n.toList_display.symm

lemma encode_nameText (n : Name) : Utf8.encode (nameText n) = n.text := by
  rw [nameText_eq, Name.encode_display]

lemma isWord_nameText (n : Name) : IsWord (nameText n) :=
  ⟨List.map_eq_nil_iff.not.2 n.text_ne_nil, nameText_eq n ▸ n.isGraphic_display⟩

lemma readName?_nameText (n : Name) : readName? (nameText n) = some n := by
  rw [readName?, encode_nameText, Name.ofText_text]
  rfl

lemma mapM_readName? (ns : List Name) : (ns.map nameText).mapM readName? = some ns := by
  induction ns with
  | nil => rfl
  | cons n ns ih => simp [readName?_nameText, ih]

lemma gives_searchLine (c : ResolvConf) (h : c.search = []) (ns : List Name) :
    Gives (searchLine ns) c { c with search := ns } := by
  match ns with
  | [] =>
    have : c = { c with search := [] } := by rw [← h]
    rw [← this]
    exact gives_nil c
  | [n] =>
    refine gives_line (by decide) ?_ ?_
    · exact List.forall_mem_cons.2 ⟨by decide, List.forall_mem_singleton.2 (isWord_nameText n)⟩
    · simp [readWords, readDomain, readName?_nameText, noMore]
  | n :: m :: ns =>
    refine gives_line (by decide) ?_ ?_
    · refine List.forall_mem_cons.2 ⟨by decide, List.forall_mem_map.2 ?_⟩
      exact fun n _ => isWord_nameText n
    · simp only [readWords, String.ofList_toList, readSearch, mapM_readName?]

/-! ### Options -/

lemma readOptions_append {vs : List (List Char)} (h : readOptions ws c = (.ok (), c'))
    (h' : readOptions vs c' = (.ok (), c'')) : readOptions (ws ++ vs) c = (.ok (), c'') := by
  induction ws generalizing c with
  | nil =>
    cases h
    exact h'
  | cons w ws ih =>
    rw [readOptions] at h
    rw [List.cons_append, readOptions]
    split at h
    · next hw =>
      exact ih h
    · cases h

lemma readNumber?_toDigits {n : Nat} (h : n ≤ maxNumber) :
    readNumber? (Nat.toDigits 10 n) = some n := by
  have hp : (Nat.toDigits 10 n).head? ≠ some '+' := by
    intro h
    have := Nat.isDigit_of_mem_toDigits (by decide) (by decide) (List.mem_of_head? h)
    revert this
    decide
  rw [readNumber?, if_neg hp, readDecimal?_toDigits h]

lemma readOption?_numberOption {name : String} {n : Nat} (hn : ':' ∉ name.toList)
    (h : n ≤ maxNumber) : readOption? (numberOption name n) = some (name.toList, some n) := by
  rw [readOption?, numberOption, splitFirst_append_cons hn]
  simp [readNumber?_toDigits h]

lemma readOptions_number (name : String) {n : Nat} (hn : ':' ∉ name.toList) (h : n ≤ maxNumber)
    (hs : c.setOption name.toList (some n) = c') :
    readOptions [numberOption name n] c = (.ok (), c') := by
  rw [readOptions, readOption?_numberOption hn h, ← hs]
  rfl

lemma readOptions_flag (name : String) (hn : ':' ∉ name.toList)
    (hs : c.setOption name.toList none = c') : readOptions [name.toList] c = (.ok (), c') := by
  rw [readOptions, readOption?, splitFirst_of_notMem hn, ← hs]
  rfl

/-- A word that is left out for the usual value of an option. -/
lemma readOptions_value {α : Type} [DecidableEq α] (f : α → ResolvConf) (a u : α) {w : List Char}
    (h : readOptions [w] (f u) = (.ok (), f a)) :
    readOptions (if a = u then [] else [w]) (f u) = (.ok (), f a) := by
  split_ifs with ha
  · rw [ha]
    rfl
  · exact h

lemma readOptions_switch (f : Bool → ResolvConf) (b : Bool) {w : List Char}
    (h : readOptions [w] (f false) = (.ok (), f true)) :
    readOptions (if b then [w] else []) (f false) = (.ok (), f b) := by
  cases b with
  | false => rfl
  | true => exact h

/-- The option words of an attainable configuration turn the usual options into its own. -/
lemma readOptions_optionWords (h : c.Attainable) :
    readOptions c.optionWords { servers := c.servers, search := c.search } = (.ok (), c) := by
  let conf (n : Nat) (t : Duration) (a : Nat) (v r e : Bool) : ResolvConf :=
    ⟨c.servers, c.search, n, t, a, v, true, r, e⟩
  have hc : conf c.ndots c.timeout c.attempts c.useVc c.rotate c.useEdns0 = c := by
    simp only [conf, ← h.recurse]
  obtain ⟨k, hk, ht⟩ := h.timeout
  have hs : c.timeout.toSecs = k := by
    rw [ht]
    exact Nat.mul_div_cancel k (by decide)
  have hle : c.timeout.toSecs ≤ maxNumber := hs ▸ hk
  have ht : Duration.ofSecs c.timeout.toSecs = c.timeout := by rw [hs, ht]
  have hndots := readOptions_value (conf · (.ofSecs 5) 2 false false false) c.ndots 1
    (readOptions_number "ndots" (by decide) h.ndots_le (by simp [setOption, conf]))
  have htimeout := readOptions_value (conf c.ndots · 2 false false false) c.timeout (.ofSecs 5)
    (readOptions_number "timeout" (by decide) hle (by simp [setOption, conf, ht]))
  have hattempts := readOptions_value (conf c.ndots c.timeout · false false false) c.attempts 2
    (readOptions_number "attempts" (by decide) h.attempts_le (by simp [setOption, conf]))
  have hvc := readOptions_switch (conf c.ndots c.timeout c.attempts · false false) c.useVc
    (readOptions_flag "use-vc" (by decide) (by simp [setOption, conf]))
  have hrotate := readOptions_switch (conf c.ndots c.timeout c.attempts c.useVc · false) c.rotate
    (readOptions_flag "rotate" (by decide) (by simp [setOption, conf]))
  have hedns := readOptions_switch (conf c.ndots c.timeout c.attempts c.useVc c.rotate) c.useEdns0
    (readOptions_flag "edns0" (by decide) (by simp [setOption, conf]))
  rw [hc] at hedns
  exact readOptions_append (readOptions_append (readOptions_append (readOptions_append
    (readOptions_append hndots htimeout) hattempts) hvc) hrotate) hedns

lemma isWord_numberOption {name : String} (h : IsWord name.toList) (n : Nat) :
    IsWord (numberOption name n) := by
  refine h.append (List.forall_mem_cons.2 ⟨by decide, fun x hx => ?_⟩)
  exact isGraphic_decimal hx

lemma isWord_optionWords (c : ResolvConf) : ∀ w ∈ c.optionWords, IsWord w := by
  have hv {w : List Char} (h : IsWord w) (p : Prop) [Decidable p] :
      ∀ v ∈ if p then [] else [w], IsWord v := by
    split_ifs
    · exact List.forall_mem_nil _
    · exact List.forall_mem_singleton.2 h
  have hs {w : List Char} (h : IsWord w) (b : Bool) : ∀ v ∈ if b then [w] else [], IsWord v := by
    split_ifs
    · exact List.forall_mem_singleton.2 h
    · exact List.forall_mem_nil _
  have hn {name : String} (h : IsWord name.toList) (n : Nat) := hv (isWord_numberOption h n)
  have ndots : IsWord "ndots".toList := by decide
  have timeout : IsWord "timeout".toList := by decide
  have attempts : IsWord "attempts".toList := by decide
  simp only [optionWords, List.forall_mem_append]
  exact ⟨⟨⟨⟨⟨hn ndots _ _, hn timeout _ _⟩, hn attempts _ _⟩, hs (by decide) _⟩,
    hs (by decide) _⟩, hs (by decide) _⟩

lemma gives_optionsLine (hw : ∀ w ∈ ws, IsWord w) (h : readOptions ws c = (.ok (), c')) :
    Gives (optionsLine ws) c c' := by
  unfold optionsLine
  split_ifs with hn
  · rw [hn] at h
    cases h
    exact gives_nil c
  · refine gives_line (by decide) (List.forall_mem_cons.2 ⟨by decide, hw⟩) ?_
    simp only [readWords, String.ofList_toList, h]

/-! ### Configurations -/

theorem Attainable.gives_text (h : c.Attainable) : Gives c.text {} c := by
  refine ((gives_serverLines h.ports _).append (gives_searchLine _ rfl c.search)).append ?_
  exact gives_optionsLine (isWord_optionWords c) (readOptions_optionWords h)

theorem Attainable.parse_text (h : c.Attainable) : parse (Utf8.encode c.text) {} = (.ok (), c) :=
  h.gives_text.parse_eq

/-- What can come about is just what is attainable. -/
theorem exists_edited_iff : (∃ es, edited es = c) ↔ c.Attainable := by
  constructor
  · rintro ⟨es, rfl⟩
    exact attainable_edited es
  · exact fun h => ⟨[.parse (Utf8.encode c.text)], congrArg Prod.snd h.parse_text⟩

/-- **The round trip of configurations**: whatever texts were read, well or badly, and whether the
result was made fit for use or not, an empty configuration becomes the same by reading its text. All
addresses and all names can come about as servers and domains. -/
theorem parse_display : (∀ es, parse (Utf8.encode (edited es).display.toList) {} =
      (.ok (), edited es)) ∧
    ∀ (ips : List IpAddress) (ns : List Name), ∃ es,
      (edited es).servers = ips.map (⟨·, port⟩) ∧ (edited es).search = ns := by
  constructor
  · intro es
    rw [display, String.toList_ofList]
    exact (attainable_edited es).parse_text
  · intro ips ns
    have h : Attainable { servers := ips.map (⟨·, port⟩), search := ns } :=
      { attainable_empty with ports := List.forall_mem_map.2 fun _ _ => rfl }
    obtain ⟨es, he⟩ := exists_edited_iff.2 h
    exact ⟨es, by rw [he], by rw [he]⟩

end DnsClient.ResolvConf
