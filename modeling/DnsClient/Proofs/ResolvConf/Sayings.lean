import DnsClient.ResolvConf
import Mathlib.Data.List.Forall2

/-!
What a text makes of a configuration, line by line.

A good line says one thing (`Says`), and all that the lines of a text say goes into the
configuration field by field (`told`): servers add up, of domains and numbers the last ones count,
and switches stay on. A bad line says what is wrong with it, and how far it got (`Fails`).
Main statement: reading succeeds just on good lines, and otherwise stops at the first bad one.
-/

namespace DnsClient.ResolvConf

variable {c c' : ResolvConf} {l : Octets} {w k : List Char} {ws vs : List (List Char)}
  {e : ConfError}

/-! ### Sayings -/

/-- What a good line says. -/
inductive Saying where
  | nothing
  | server (a : SocketAddress)
  | search (ns : List Name)
  | options (ws : List (List Char))

namespace Saying

def server? : Saying → Option SocketAddress
  | .server a => some a
  | _ => none

def search? : Saying → Option (List Name)
  | .search ns => some ns
  | _ => none

def optionWords : Saying → List (List Char)
  | .options ws => ws
  | _ => []

end Saying

def linesOf (o : Octets) : List Octets := splitOn newline o

/-- The words of a line if it is text. A comment has none. -/
def wordsOf? (l : Octets) : Option (List (List Char)) :=
  (Utf8.decode l).map fun s => if isComment s then [] else words s

/-- An option word without a colon, or with a number behind the first one. -/
def IsOption (w : List Char) : Prop := ∀ p ∈ splitFirst ':' w, (readNumber? p.2).isSome

instance (w : List Char) : Decidable (IsOption w) :=
  inferInstanceAs (Decidable (∀ p ∈ splitFirst ':' w, _))

/-- What a line says, if it is good. -/
inductive Says (l : Octets) : Saying → Prop where
  | blank (h : wordsOf? l = some []) : Says l .nothing
  | sortlist {ws : List (List Char)} (h : wordsOf? l = some ("sortlist".toList :: ws)) :
      Says l .nothing
  | nameserver {w : List Char} {ip : IpAddress}
      (h : wordsOf? l = some ["nameserver".toList, w]) (hw : IpAddress.ofText? w = some ip) :
      Says l (.server ⟨ip, port⟩)
  | domain {w : List Char} {n : Name}
      (h : wordsOf? l = some ["domain".toList, w]) (hw : readName? w = some n) :
      Says l (.search [n])
  | search {ws : List (List Char)} {ns : List Name}
      (h : wordsOf? l = some ("search".toList :: ws))
      (hw : List.Forall₂ (fun w n => readName? w = some n) ws ns) : Says l (.search ns)
  | options {ws : List (List Char)}
      (h : wordsOf? l = some ("options".toList :: ws)) (hw : ∀ w ∈ ws, IsOption w) :
      Says l (.options ws)

def keywords : List String := ["nameserver", "domain", "search", "sortlist", "options"]

/-- The number that an option word gives to the option with this name. -/
def number? (name : String) (w : List Char) : Option Nat :=
  match splitFirst ':' w with
  | some (n, arg) => if n = name.toList then readNumber? arg else none
  | none => none

/-- The configuration with option words taken in. -/
def withOptions (c : ResolvConf) (ws : List (List Char)) : ResolvConf :=
  { c with
    ndots := (ws.filterMap (number? "ndots")).getLastD c.ndots
    timeout := ((ws.filterMap (number? "timeout")).map Duration.ofSecs).getLastD c.timeout
    attempts := (ws.filterMap (number? "attempts")).getLastD c.attempts
    useVc := c.useVc || ws.contains "use-vc".toList
    rotate := c.rotate || ws.contains "rotate".toList
    useEdns0 := c.useEdns0 || ws.contains "edns0".toList }

/-- The configuration that was told these sayings. -/
def told (c : ResolvConf) (ss : List Saying) : ResolvConf :=
  { c.withOptions (ss.flatMap Saying.optionWords) with
    servers := c.servers ++ ss.filterMap Saying.server?
    search := (ss.filterMap Saying.search?).getLastD c.search }

/-- What is wrong with a bad line, and the configuration that it leaves. -/
inductive Fails (c : ResolvConf) (l : Octets) : ConfError → ResolvConf → Prop where
  | encoding (h : Utf8.decode l = none) : Fails c l .io c
  | keyword {k : List Char} {ws : List (List Char)} (h : wordsOf? l = some (k :: ws))
      (hk : String.ofList k ∉ keywords) : Fails c l .parse c
  | noServer (h : wordsOf? l = some ["nameserver".toList]) : Fails c l .parse c
  | badServer {w : List Char} {ws : List (List Char)}
      (h : wordsOf? l = some ("nameserver".toList :: w :: ws))
      (hw : IpAddress.ofText? w = none) : Fails c l .io c
  | moreServers {w v : List Char} {ws : List (List Char)} {ip : IpAddress}
      (h : wordsOf? l = some ("nameserver".toList :: w :: v :: ws))
      (hw : IpAddress.ofText? w = some ip) : Fails c l .parse (c.told [.server ⟨ip, port⟩])
  | noDomain (h : wordsOf? l = some ["domain".toList]) : Fails c l .parse c
  | badDomain {w : List Char} {ws : List (List Char)}
      (h : wordsOf? l = some ("domain".toList :: w :: ws)) (hw : readName? w = none) :
      Fails c l .parse c
  | moreDomains {w v : List Char} {ws : List (List Char)} {n : Name}
      (h : wordsOf? l = some ("domain".toList :: w :: v :: ws)) (hw : readName? w = some n) :
      Fails c l .parse (c.told [.search [n]])
  | badSearch {w : List Char} {ws : List (List Char)}
      (h : wordsOf? l = some ("search".toList :: ws)) (hm : w ∈ ws) (hw : readName? w = none) :
      Fails c l .parse c
  | badOption {w : List Char} {ws vs : List (List Char)}
      (h : wordsOf? l = some ("options".toList :: (ws ++ w :: vs))) (hws : ∀ v ∈ ws, IsOption v)
      (hw : ¬ IsOption w) : Fails c l .parse (c.told [.options ws])

/-! ### What is told -/

lemma getLastD_append {α : Type} (xs ys : List α) (a : α) :
    (xs ++ ys).getLastD a = ys.getLastD (xs.getLastD a) := by
  induction xs generalizing a with
  | nil => rfl
  | cons x xs ih => simp only [List.cons_append, List.getLastD_cons, ih]

lemma withOptions_append (c : ResolvConf) (ws vs : List (List Char)) :
    c.withOptions (ws ++ vs) = (c.withOptions ws).withOptions vs := by
  simp only [withOptions, List.filterMap_append, List.map_append, getLastD_append,
    List.contains_append, Bool.or_assoc]

lemma told_append (c : ResolvConf) (ss ts : List Saying) :
    c.told (ss ++ ts) = (c.told ss).told ts := by
  simp only [told, List.flatMap_append, withOptions_append, List.filterMap_append,
    getLastD_append, List.append_assoc]
  rfl

@[simp] lemma told_nil (c : ResolvConf) : c.told [] = c := by
  simp [told, withOptions]

lemma told_nothing (c : ResolvConf) : c.told [.nothing] = c := told_nil c

lemma told_server (c : ResolvConf) (a : SocketAddress) :
    c.told [.server a] = { c with servers := c.servers ++ [a] } := by
  simp [told, withOptions, Saying.server?, Saying.search?, Saying.optionWords]

lemma told_search (c : ResolvConf) (ns : List Name) :
    c.told [.search ns] = { c with search := ns } := by
  simp [told, withOptions, Saying.server?, Saying.search?, Saying.optionWords]

lemma told_options (c : ResolvConf) (ws : List (List Char)) :
    c.told [.options ws] = c.withOptions ws := by
  simp [told, withOptions, Saying.server?, Saying.search?, Saying.optionWords]

/-! ### Options -/

lemma readOption?_eq_none : readOption? w = none ↔ ¬ IsOption w := by
  unfold readOption? IsOption
  cases h : splitFirst ':' w with
  | none => simp
  | some p => simp

/-- A word without a colon is a switch, or means nothing. -/
lemma setOption_switch (c : ResolvConf) (h : splitFirst ':' w = none) :
    c.setOption w none = c.withOptions [w] := by
  obtain ⟨s, rfl⟩ : ∃ s : String, w = s.toList := ⟨.ofList w, by simp⟩
  have hn (name : String) : [s.toList].filterMap (number? name) = [] := by simp [number?, h]
  have hc (name : String) : [s.toList].contains name.toList = decide (s = name) := by
    simp [eq_comm, String.toList_inj]
  simp only [withOptions, hn, hc]
  unfold setOption
  rw [String.ofList_toList]
  split
  case h_4 | h_5 | h_6 => simp
  case h_7 hrotate hedns hvc => simp_all
  all_goals contradiction

/-- A word with a number behind a colon gives it to an option, or means nothing. -/
lemma setOption_number (c : ResolvConf) {name arg : List Char} {n : Nat}
    (h : splitFirst ':' w = some (name, arg)) (hn : readNumber? arg = some n) :
    c.setOption name (some n) = c.withOptions [w] := by
  obtain ⟨s, rfl⟩ : ∃ s : String, name = s.toList := ⟨.ofList name, by simp⟩
  have hw (option : String) :
      [w].filterMap (number? option) = if s = option then [n] else [] := by
    by_cases hs : s = option <;> simp [number?, h, hn, hs, String.toList_inj]
  have hc (option : String) (ho : ':' ∉ option.toList) : [w].contains option.toList = false := by
    simp only [List.contains_cons, List.contains_nil, Bool.or_false, beq_eq_false_iff_ne]
    rintro rfl
    rw [splitFirst_of_notMem ho] at h
    cases h
  simp only [withOptions, hw, hc "use-vc" (by decide), hc "rotate" (by decide),
    hc "edns0" (by decide), Bool.or_false]
  unfold setOption
  rw [String.ofList_toList]
  split
  case h_1 | h_2 | h_3 => simp_all
  case h_7 hndots htimeout hattempts _ _ _ => simp_all
  all_goals contradiction

lemma setOption_eq {name : List Char} {arg : Option Nat} (h : readOption? w = some (name, arg)) :
    c.setOption name arg = c.withOptions [w] := by
  unfold readOption? at h
  split at h
  · next hs =>
    cases h
    exact setOption_switch c hs
  · next hs =>
    obtain ⟨n, hn, he⟩ := Option.map_eq_some_iff.1 h
    cases he
    exact setOption_number c hs hn

/-- Good option words are taken in one after the other. -/
lemma readOptions_append_of_isOption (h : ∀ w ∈ ws, IsOption w) :
    readOptions (ws ++ vs) c = readOptions vs (c.withOptions ws) := by
  induction ws generalizing c with
  | nil => simp [withOptions]
  | cons w ws ih =>
    obtain ⟨hw, hws⟩ := List.forall_mem_cons.1 h
    rw [List.cons_append, readOptions]
    split
    · next hr =>
      rw [ih hws, setOption_eq hr, ← withOptions_append, List.singleton_append]
    · next hr => exact absurd hw (readOption?_eq_none.1 hr)

lemma readOptions_good (h : ∀ w ∈ ws, IsOption w) :
    readOptions ws c = (.ok (), c.withOptions ws) := by
  have hr : readOptions (ws ++ []) c = readOptions [] (c.withOptions ws) :=
    readOptions_append_of_isOption h
  rwa [List.append_nil] at hr

lemma readOptions_bad (h : ∀ w ∈ ws, IsOption w) (hw : ¬ IsOption w) :
    readOptions (ws ++ w :: vs) c = (.error .parse, c.withOptions ws) := by
  rw [readOptions_append_of_isOption h, readOptions, readOption?_eq_none.2 hw]

/-! ### Lines -/

lemma readLine_of_wordsOf? (h : wordsOf? l = some ws) : readLine l c = readWords ws c := by
  obtain ⟨s, hs, rfl⟩ := Option.map_eq_some_iff.1 h
  simp only [readLine, hs]
  split <;> rfl

lemma mapM_readName?_of_forall₂ {ns : List Name}
    (h : List.Forall₂ (fun w n => readName? w = some n) ws ns) : ws.mapM readName? = some ns := by
  induction h with
  | nil => rfl
  | cons hw _ ih => simp [hw, ih]

lemma mapM_readName?_eq_none (hm : w ∈ ws) (hw : readName? w = none) :
    ws.mapM readName? = none := by
  induction ws with
  | nil => cases hm
  | cons v ws ih =>
    rcases List.mem_cons.1 hm with rfl | hm
    · simp [hw]
    · simp [ih hm]

/-- A good line tells what it says. -/
lemma Says.readLine {s : Saying} (h : Says l s) : readLine l c = (.ok (), c.told [s]) := by
  cases h with
  | blank h => rw [readLine_of_wordsOf? h, told_nothing, readWords]
  | sortlist h => simp [readLine_of_wordsOf? h, told_nothing, readWords]
  | nameserver h hw =>
    simp [readLine_of_wordsOf? h, told_server, readWords, readNameserver, hw, noMore]
  | domain h hw => simp [readLine_of_wordsOf? h, told_search, readWords, readDomain, hw, noMore]
  | search h hw =>
    simp [readLine_of_wordsOf? h, told_search, readWords, readSearch, mapM_readName?_of_forall₂ hw]
  | options h hw => simp [readLine_of_wordsOf? h, told_options, readWords, readOptions_good hw]

/-- A bad line leaves what it got to. -/
lemma Fails.readLine (h : Fails c l e c') : readLine l c = (.error e, c') := by
  cases h with
  | encoding h => simp [ResolvConf.readLine, h]
  | @keyword k ws h hk =>
    rw [readLine_of_wordsOf? h, readWords]
    split <;> simp_all [keywords]
  | noServer h => simp [readLine_of_wordsOf? h, readWords, readNameserver]
  | badServer h hw => simp [readLine_of_wordsOf? h, readWords, readNameserver, hw]
  | moreServers h hw =>
    simp [readLine_of_wordsOf? h, told_server, readWords, readNameserver, hw, noMore]
  | noDomain h => simp [readLine_of_wordsOf? h, readWords, readDomain]
  | badDomain h hw => simp [readLine_of_wordsOf? h, readWords, readDomain, hw]
  | moreDomains h hw =>
    simp [readLine_of_wordsOf? h, told_search, readWords, readDomain, hw, noMore]
  | badSearch h hm hw =>
    simp [readLine_of_wordsOf? h, readWords, readSearch, mapM_readName?_eq_none hm hw]
  | badOption h hws hw =>
    simp [readLine_of_wordsOf? h, told_options, readWords, readOptions_bad hws hw]

/-- Option words are all good, or one of them is the first that is not. -/
lemma options_good_or_bad (ws : List (List Char)) : (∀ w ∈ ws, IsOption w) ∨
    ∃ us w vs, ws = us ++ w :: vs ∧ (∀ u ∈ us, IsOption u) ∧ ¬ IsOption w := by
  induction ws with
  | nil => simp
  | cons w ws ih =>
    by_cases hw : IsOption w
    · rcases ih with h | ⟨us, v, vs, rfl, hus, hv⟩
      · exact .inl (List.forall_mem_cons.2 ⟨hw, h⟩)
      · exact .inr ⟨w :: us, v, vs, rfl, List.forall_mem_cons.2 ⟨hw, hus⟩, hv⟩
    · exact .inr ⟨[], w, ws, rfl, by simp, hw⟩

lemma names_good_or_bad (ws : List (List Char)) :
    (∃ ns, List.Forall₂ (fun w n => readName? w = some n) ws ns) ∨
      ∃ w ∈ ws, readName? w = none := by
  induction ws with
  | nil => exact .inl ⟨[], .nil⟩
  | cons w ws ih =>
    cases hw : readName? w with
    | none => exact .inr ⟨w, List.mem_cons_self, hw⟩
    | some n =>
      rcases ih with ⟨ns, h⟩ | ⟨v, hv, hn⟩
      · exact .inl ⟨n :: ns, .cons hw h⟩
      · exact .inr ⟨v, List.mem_cons_of_mem w hv, hn⟩

/-- Every line is good or bad. -/
lemma says_or_fails (c : ResolvConf) (l : Octets) :
    (∃ s, Says l s) ∨ ∃ e c', Fails c l e c' := by
  cases hd : Utf8.decode l with
  | none => exact .inr ⟨_, _, .encoding hd⟩
  | some t =>
    obtain ⟨ws, h⟩ : ∃ ws, wordsOf? l = some ws := by simp [wordsOf?, hd]
    rcases ws with _ | ⟨k, ws⟩
    · exact .inl ⟨_, .blank h⟩
    obtain ⟨k, rfl⟩ : ∃ s : String, k = s.toList := ⟨.ofList k, by simp⟩
    by_cases hk : k ∈ keywords
    · simp only [keywords, List.mem_cons, List.not_mem_nil, or_false] at hk
      rcases hk with rfl | rfl | rfl | rfl | rfl
      · -- nameserver
        rcases ws with _ | ⟨w, ws⟩
        · exact .inr ⟨_, _, .noServer h⟩
        cases hw : IpAddress.ofText? w with
        | none => exact .inr ⟨_, _, .badServer h hw⟩
        | some ip =>
          cases ws with
          | nil => exact .inl ⟨_, .nameserver h hw⟩
          | cons v ws => exact .inr ⟨_, _, .moreServers h hw⟩
      · -- domain
        rcases ws with _ | ⟨w, ws⟩
        · exact .inr ⟨_, _, .noDomain h⟩
        cases hw : readName? w with
        | none => exact .inr ⟨_, _, .badDomain h hw⟩
        | some n =>
          cases ws with
          | nil => exact .inl ⟨_, .domain h hw⟩
          | cons v ws => exact .inr ⟨_, _, .moreDomains h hw⟩
      · -- search
        rcases names_good_or_bad ws with ⟨ns, hns⟩ | ⟨w, hm, hw⟩
        · exact .inl ⟨_, .search h hns⟩
        · exact .inr ⟨_, _, .badSearch h hm hw⟩
      · -- sortlist
        exact .inl ⟨_, .sortlist h⟩
      · -- options
        rcases options_good_or_bad ws with hws | ⟨us, w, vs, rfl, hus, hw⟩
        · exact .inl ⟨_, .options h hws⟩
        · exact .inr ⟨_, _, .badOption h hus hw⟩
    · exact .inr ⟨_, _, .keyword h (by rwa [String.ofList_toList])⟩

lemma readLine_ok_iff : readLine l c = (.ok (), c') ↔ ∃ s, Says l s ∧ c' = c.told [s] := by
  constructor
  · intro h
    rcases says_or_fails c l with ⟨s, hs⟩ | ⟨e, c₁, hf⟩
    · rw [hs.readLine] at h
      exact ⟨s, hs, (Prod.mk.inj h).2.symm⟩
    · rw [hf.readLine] at h
      cases h
  · rintro ⟨s, hs, rfl⟩
    exact hs.readLine

lemma readLine_error_iff : readLine l c = (.error e, c') ↔ Fails c l e c' := by
  refine ⟨fun h => ?_, Fails.readLine⟩
  rcases says_or_fails c l with ⟨s, hs⟩ | ⟨e₁, c₁, hf⟩
  · rw [hs.readLine] at h
    cases h
  · rw [hf.readLine] at h
    cases h
    exact hf

/-! ### Texts -/

lemma readLines_append_of_says {ss : List Saying} {ls ms : List Octets}
    (h : List.Forall₂ Says ls ss) : readLines (ls ++ ms) c = readLines ms (c.told ss) := by
  induction h generalizing c with
  | nil => rw [List.nil_append, told_nil]
  | @cons l s ls ss hl _ ih =>
    have ht : c.told (s :: ss) = (c.told [s]).told ss := told_append c [s] ss
    rw [List.cons_append, readLines, hl.readLine, ht]
    exact ih

/-- Lines that are read to their end say something each. -/
lemma says_of_readLines {ls : List Octets} (h : readLines ls c = (.ok (), c')) :
    ∃ ss, List.Forall₂ Says ls ss ∧ c' = c.told ss := by
  induction ls generalizing c with
  | nil =>
    cases h
    exact ⟨[], .nil, (told_nil _).symm⟩
  | cons l ls ih =>
    rw [readLines] at h
    split at h
    · next c₁ hl =>
      obtain ⟨s, hs, rfl⟩ := readLine_ok_iff.1 hl
      obtain ⟨ss, hss, rfl⟩ := ih h
      exact ⟨s :: ss, .cons hs hss, by rw [← told_append, List.singleton_append]⟩
    · cases h

/-- Lines that are not read to their end have a first bad one. -/
lemma fails_of_readLines {ls : List Octets} (h : readLines ls c = (.error e, c')) :
    ∃ before l after ss, ls = before ++ l :: after ∧ List.Forall₂ Says before ss ∧
      Fails (c.told ss) l e c' := by
  induction ls generalizing c with
  | nil => cases h
  | cons l ls ih =>
    rw [readLines] at h
    split at h
    · next c₁ hl =>
      obtain ⟨s, hs, rfl⟩ := readLine_ok_iff.1 hl
      obtain ⟨before, m, after, ss, rfl, hss, hf⟩ := ih h
      refine ⟨l :: before, m, after, s :: ss, rfl, .cons hs hss, ?_⟩
      rwa [← told_append, List.singleton_append] at hf
    · next hl =>
      cases h
      exact ⟨[], l, ls, [], rfl, .nil, by rw [told_nil]; exact readLine_error_iff.1 hl⟩

/-- **Reading configurations**: a text is read well just if every line of it says something, and
then the configuration is told all of that in order. Otherwise reading stops at the first bad line:
the configuration was told what the lines before it say, and is left as the bad line leaves it,
whatever lines come after. -/
theorem parse_tells (c : ResolvConf) (o : Octets) :
    (∀ c', parse o c = (.ok (), c') ↔
      ∃ ss, List.Forall₂ Says (linesOf o) ss ∧ c' = c.told ss) ∧
    ∀ e c', parse o c = (.error e, c') ↔ ∃ before l after ss, linesOf o = before ++ l :: after ∧
      List.Forall₂ Says before ss ∧ Fails (c.told ss) l e c' := by
  refine ⟨fun c' => ⟨says_of_readLines, ?_⟩, fun e c' => ⟨fails_of_readLines, ?_⟩⟩
  · rintro ⟨ss, hss, rfl⟩
    have hr : readLines (linesOf o ++ []) c = readLines [] (c.told ss) :=
      readLines_append_of_says hss
    rwa [List.append_nil] at hr
  · rintro ⟨before, l, after, ss, ho, hss, hf⟩
    change readLines (linesOf o) c = _
    rw [ho, readLines_append_of_says hss, readLines, hf.readLine]

end DnsClient.ResolvConf
