import DnsClient.Proofs.ResolvConf.Sayings
import Mathlib

/-!
Options of others.

Words for options that are not known may stand anywhere on the lines with options (`Extends`). They
change nothing, whether they are bare or give a number. But an argument is read before it is known
whether the option is, so one that is no number is refused, for whatever option it is.
-/

namespace DnsClient.ResolvConf

variable {c c' c₁ : ResolvConf} {l l' o o' : Octets} {w f : List Char} {ls ls' : List Octets}
  {ws fs vs : List (List Char)}

def optionNames : List String := ["ndots", "timeout", "attempts", "rotate", "edns0", "use-vc"]

/-- What stands before the first colon of an option word, or the whole word. -/
def optionName (w : List Char) : List Char :=
  match splitFirst ':' w with
  | some (name, _) => name
  | none => w

/-- The word is for an option that is not known. -/
def IsForeign (w : List Char) : Prop := String.ofList (optionName w) ∉ optionNames

instance (w : List Char) : Decidable (IsForeign w) := inferInstanceAs (Decidable (_ ∉ _))

/-- The last list is the first one with the items of the second put in between. -/
inductive Mixes {α : Type} : List α → List α → List α → Prop where
  | nil : Mixes [] [] []
  | keep {as bs cs : List α} (a : α) (h : Mixes as bs cs) : Mixes (a :: as) bs (a :: cs)
  | put {as bs cs : List α} (b : α) (h : Mixes as bs cs) : Mixes as (b :: bs) (b :: cs)

/-- The last line is the first one, on which the words are put in if it has options. -/
inductive ExtendsLine (l : Octets) : List (List Char) → Octets → Prop where
  | same : ExtendsLine l [] l
  | options {l' : Octets} {ws fs vs : List (List Char)}
      (h : wordsOf? l = some ("options".toList :: ws))
      (h' : wordsOf? l' = some ("options".toList :: vs)) (hm : Mixes ws fs vs) :
      ExtendsLine l fs l'

/-- The last lines are the first ones with the words put in on lines with options. -/
inductive Extends : List Octets → List (List Char) → List Octets → Prop where
  | nil : Extends [] [] []
  | cons {l l' : Octets} {fs gs : List (List Char)} {ls ls' : List Octets}
      (hl : ExtendsLine l fs l') (h : Extends ls gs ls') : Extends (l :: ls) (fs ++ gs) (l' :: ls')

/-! ### Words -/

lemma Mixes.mem_iff {α : Type} {as bs cs : List α} {x : α} (h : Mixes as bs cs) :
    x ∈ cs ↔ x ∈ as ∨ x ∈ bs := by
  induction h with
  | nil => simp
  | keep a _ ih => rw [List.mem_cons, List.mem_cons, ih, or_assoc]
  | put b _ ih => rw [List.mem_cons, List.mem_cons, ih, or_left_comm]

lemma number?_of_isForeign (h : IsForeign f) {name : String} (hn : name ∈ optionNames) :
    number? name f = none := by
  unfold number?
  split
  · next n arg hs =>
    rw [if_neg]
    rintro rfl
    rw [IsForeign, optionName, hs, String.ofList_toList] at h
    exact h hn
  · rfl

lemma ne_of_isForeign (h : IsForeign f) {name : String} (hn : name ∈ optionNames)
    (hc : ':' ∉ name.toList) : name.toList ≠ f := by
  rintro rfl
  rw [IsForeign, optionName, splitFirst_of_notMem hc, String.ofList_toList] at h
  exact h hn

lemma withOptions_of_isForeign (c : ResolvConf) (h : IsForeign f) : c.withOptions [f] = c := by
  have hn (name : String) (hm : name ∈ optionNames) : [f].filterMap (number? name) = [] := by
    simp [number?_of_isForeign h hm]
  have hs (name : String) (hm : name ∈ optionNames) (hc : ':' ∉ name.toList) :
      [f].contains name.toList = false := by
    rw [List.contains_cons, List.contains_nil, Bool.or_false, beq_eq_false_iff_ne]
    exact ne_of_isForeign h hm hc
  simp only [withOptions, hn "ndots" (by decide), hn "timeout" (by decide),
    hn "attempts" (by decide), hs "use-vc" (by decide) (by decide),
    hs "rotate" (by decide) (by decide), hs "edns0" (by decide) (by decide), List.map_nil,
    List.getLastD_nil, Bool.or_false]

/-- Foreign words have no effect wherever they stand. -/
lemma Mixes.withOptions_eq (h : Mixes ws fs vs) (hf : ∀ f ∈ fs, IsForeign f) (c : ResolvConf) :
    c.withOptions vs = c.withOptions ws := by
  induction h generalizing c with
  | nil => rfl
  | @keep ws fs vs w _ ih =>
    calc c.withOptions (w :: vs) = (c.withOptions [w]).withOptions vs := withOptions_append c [w] vs
      _ = (c.withOptions [w]).withOptions ws := ih hf _
      _ = c.withOptions (w :: ws) := (withOptions_append c [w] ws).symm
  | @put ws fs vs f _ ih =>
    obtain ⟨h, hfs⟩ := List.forall_mem_cons.1 hf
    calc c.withOptions (f :: vs) = (c.withOptions [f]).withOptions vs := withOptions_append c [f] vs
      _ = c.withOptions vs := by rw [withOptions_of_isForeign c h]
      _ = c.withOptions ws := ih hfs c

/-! ### Lines -/

lemma isOption_of_readLine (h : wordsOf? l = some ("options".toList :: ws))
    (hr : readLine l c = (.ok (), c₁)) : (∀ w ∈ ws, IsOption w) ∧ c₁ = c.withOptions ws := by
  rcases options_good_or_bad ws with hws | ⟨us, w, vs, rfl, hus, hw⟩
  · rw [(Says.options h hws).readLine, told_options] at hr
    cases hr
    exact ⟨hws, rfl⟩
  · rw [(Fails.badOption h hus hw).readLine] at hr
    cases hr

lemma ExtendsLine.readLine_ok (h : ExtendsLine l fs l') (hf : ∀ f ∈ fs, IsForeign f)
    (ho : ∀ f ∈ fs, IsOption f) (hr : readLine l c = (.ok (), c₁)) :
    readLine l' c = (.ok (), c₁) := by
  cases h with
  | same => exact hr
  | @options l' ws fs vs h h' hm =>
    obtain ⟨hws, rfl⟩ := isOption_of_readLine h hr
    have hvs : ∀ w ∈ vs, IsOption w := fun w hw => (hm.mem_iff.1 hw).elim (hws w) (ho w)
    rw [(Says.options h' hvs).readLine, told_options, hm.withOptions_eq hf]

lemma ExtendsLine.readLine_error (h : ExtendsLine l fs l') (hm : f ∈ fs) (ho : ¬ IsOption f) :
    ∃ c₁, readLine l' c = (.error .parse, c₁) := by
  cases h with
  | same => cases hm
  | @options l' ws fs vs h h' hx =>
    rcases options_good_or_bad vs with hvs | ⟨us, w, ts, rfl, hus, hw⟩
    · exact absurd (hvs f (hx.mem_iff.2 (.inr hm))) ho
    · exact ⟨_, (Fails.badOption h' hus hw).readLine⟩

/-! ### Texts -/

/-- A text of one line, which ends in a line feed. -/
lemma extends_of_line (hl : linesOf o = [l, []]) (hl' : linesOf o' = [l', []])
    (hx : ExtendsLine l fs l') : Extends (linesOf o) fs (linesOf o') := by
  have hfs : fs = fs ++ ([] ++ []) := by simp
  rw [hl, hl', hfs]
  exact .cons hx (.cons .same .nil)

lemma Extends.readLines_ok (h : Extends ls fs ls') (hf : ∀ f ∈ fs, IsForeign f)
    (ho : ∀ f ∈ fs, IsOption f) (hr : readLines ls c = (.ok (), c')) :
    readLines ls' c = (.ok (), c') := by
  induction h generalizing c with
  | nil => exact hr
  | @cons l l' fs gs ls ls' hl _ ih =>
    obtain ⟨hf₁, hf₂⟩ := List.forall_mem_append.1 hf
    obtain ⟨ho₁, ho₂⟩ := List.forall_mem_append.1 ho
    rw [readLines] at hr ⊢
    split at hr
    · next c₁ hc =>
      rw [hl.readLine_ok hf₁ ho₁ hc]
      exact ih hf₂ ho₂ hr
    · cases hr

lemma Extends.readLines_error (h : Extends ls fs ls') (hf : ∀ f ∈ fs, IsForeign f) (hm : f ∈ fs)
    (ho : ¬ IsOption f) (hr : readLines ls c = (.ok (), c')) :
    ∃ c₁, readLines ls' c = (.error .parse, c₁) := by
  induction h generalizing c with
  | nil => cases hm
  | @cons l l' fs gs ls ls' hl _ ih =>
    obtain ⟨hf₁, hf₂⟩ := List.forall_mem_append.1 hf
    rw [readLines] at hr ⊢
    split at hr
    · next c₁ hc =>
      by_cases ho₁ : ∀ f ∈ fs, IsOption f
      · have hm₂ : f ∈ gs := (List.mem_append.1 hm).resolve_left fun hm₁ => ho (ho₁ f hm₁)
        rw [hl.readLine_ok hf₁ ho₁ hc]
        exact ih hf₂ hm₂ hr
      · push Not at ho₁
        obtain ⟨g, hg, hn⟩ := ho₁
        obtain ⟨c₂, hc₂⟩ := hl.readLine_error (c := c) hg hn
        exact ⟨c₂, by rw [hc₂]⟩
    · cases hr

/-- **Options of others**: a text that is read well is read the same with any words for unknown
options put in on its lines with options, if each of them is bare or has a number behind its first
colon. If one is neither, the text is refused. -/
theorem foreign_options_ignored (hr : parse o c = (.ok (), c'))
    (hx : Extends (linesOf o) fs (linesOf o')) (hf : ∀ f ∈ fs, IsForeign f) :
    ((∀ f ∈ fs, IsOption f) → parse o' c = (.ok (), c')) ∧
      ((∃ f ∈ fs, ¬ IsOption f) → ∃ c₁, parse o' c = (.error .parse, c₁)) :=
  ⟨fun ho => hx.readLines_ok hf ho hr, fun ⟨_, hm, ho⟩ => hx.readLines_error hf hm ho hr⟩

/-- A bare word in front of an option that is known, and a number behind it. -/
theorem foreign_options_ignored_number : ∃ (o o' : Octets) (fs : List (List Char)),
    parse o {} = (.ok (), { rotate := true }) ∧ Extends (linesOf o) fs (linesOf o') ∧
      fs = ["inet6".toList, "family:4".toList] ∧ (∀ f ∈ fs, IsForeign f) ∧
      (∀ f ∈ fs, IsOption f) ∧ parse o' {} = (.ok (), { rotate := true }) := by
  have hr : parse (Utf8.encode "options rotate\n".toList) {} = (.ok (), { rotate := true }) := by
    cbv
  have hl : linesOf (Utf8.encode "options rotate\n".toList) =
      [Utf8.encode "options rotate".toList, []] := by cbv
  have hl' : linesOf (Utf8.encode "options inet6 rotate\tfamily:4\n".toList) =
      [Utf8.encode "options inet6 rotate\tfamily:4".toList, []] := by cbv
  have hw : wordsOf? (Utf8.encode "options rotate".toList) =
      some ["options".toList, "rotate".toList] := by cbv
  have hw' : wordsOf? (Utf8.encode "options inet6 rotate\tfamily:4".toList) =
      some ["options".toList, "inet6".toList, "rotate".toList, "family:4".toList] := by cbv
  have hx := extends_of_line hl hl' (.options hw hw' (.put _ (.keep _ (.put _ .nil))))
  have hf : ∀ f ∈ ["inet6".toList, "family:4".toList], IsForeign f := by decide
  have ho : ∀ f ∈ ["inet6".toList, "family:4".toList], IsOption f := by decide
  exact ⟨_, _, _, hr, hx, rfl, hf, ho, (foreign_options_ignored hr hx hf).1 ho⟩

/-- An unknown option can make a text be refused that is read well without it. -/
theorem not_all_foreign_options_ignored : ¬ ∀ (c c' : ResolvConf) (o o' : Octets)
    (fs : List (List Char)), parse o c = (.ok (), c') → Extends (linesOf o) fs (linesOf o') →
      (∀ f ∈ fs, IsForeign f) → parse o' c = (.ok (), c') := by
  intro h
  have hr : parse (Utf8.encode "options rotate\n".toList) {} = (.ok (), { rotate := true }) := by
    cbv
  have hl : linesOf (Utf8.encode "options rotate\n".toList) =
      [Utf8.encode "options rotate".toList, []] := by cbv
  have hl' : linesOf (Utf8.encode "options rotate family:any\n".toList) =
      [Utf8.encode "options rotate family:any".toList, []] := by cbv
  have hw : wordsOf? (Utf8.encode "options rotate".toList) =
      some ["options".toList, "rotate".toList] := by cbv
  have hw' : wordsOf? (Utf8.encode "options rotate family:any".toList) =
      some ["options".toList, "rotate".toList, "family:any".toList] := by cbv
  have hx := extends_of_line hl hl' (.options hw hw' (.keep _ (.put _ .nil)))
  have hn : parse (Utf8.encode "options rotate family:any\n".toList) {} =
      (.error .parse, { rotate := true }) := by cbv
  have hy := h _ _ _ _ _ hr hx (by decide)
  rw [hn] at hy
  cases hy

end DnsClient.ResolvConf
