import Mathlib.Data.List.Pairwise
import CommandOntology.Proofs.Criteria
import CommandOntology.Proofs.Outcomes

set_option autoImplicit false

/-!
# Which graphs are accepted

Each rule that finds errors finds none exactly when its criterion holds, even though the rules leave some
cases to one another. An index can be built of all that the rules let pass.
-/

namespace CommandOntology

open View Rule

theorem rule_of_mem_checkArguments (v : View) (command : Term) (seen : List String)
    (arguments : List Term) (f : Finding) (hf : f ∈ checkArguments v command seen arguments) :
    f.rule = .cardinality := by
  induction arguments generalizing seen with
  | nil => simp [checkArguments] at hf
  | cons a rest ih =>
    have hname : f ∈ checkArgumentName v command seen a → f.rule = .cardinality := by
      unfold checkArgumentName
      split
      · simp +contextual
      · split <;> simp +contextual
    have hvalue {α : Type} (property kind : String) (read : Term → Option α) :
        f ∈ checkValue v a property kind read → f.rule = .cardinality := by
      unfold checkValue
      split
      · simp
      · split <;> simp +contextual
    unfold checkArguments at hf
    split at hf
    · obtain rfl | hf := List.mem_cons.1 hf
      · rfl
      · exact ih _ hf
    · split at hf
      · exact ih _ hf
      · simp only [List.mem_append] at hf
        obtain ((hf | hf) | hf) | hf := hf
        · exact hname hf
        · exact hvalue _ _ _ hf
        · exact hvalue _ _ _ hf
        · exact ih _ hf

theorem rule_of_mem_check (tags : List String) (v : View) (r : Rule) (f : Finding)
    (hf : f ∈ check tags v r) : f.rule = r := by
  cases r with
  | referential =>
    simp only [check, checkReferences, List.mem_flatMap, List.mem_filterMap] at hf
    obtain ⟨p, -, t, -, ht⟩ := hf
    split at ht <;> simp_all
    rw [← ht]
  | cardinality =>
    simp only [check, checkCardinality, List.mem_flatMap, List.mem_append] at hf
    have hpart (command : Term) (predicate part : String) :
        f ∈ checkPart v command predicate part → f.rule = .cardinality := by
      unfold checkPart
      split
      · simp +contextual
      · split <;> simp +contextual
      · simp +contextual
    obtain ⟨c, -, ((hf | hf) | hf) | hf⟩ := hf
    · exact hpart _ _ _ hf
    · exact hpart _ _ _ hf
    · unfold checkHandler at hf
      split at hf <;> simp_all
    · exact rule_of_mem_checkArguments v c _ _ f hf
  | duplicateCommand =>
    simp only [check, checkUnique, List.mem_filterMap] at hf
    obtain ⟨key, -, hkey⟩ := hf
    split at hkey <;> simp_all
    rw [← hkey]
  | missingHelp =>
    simp only [check, checkHelp, List.mem_map] at hf
    obtain ⟨c, -, rfl⟩ := hf
    rfl
  | defaultDatatype =>
    simp only [check, checkDatatypes, List.mem_map] at hf
    obtain ⟨a, -, rfl⟩ := hf
    rfl
  | unknownTypeTag =>
    simp only [check, checkTypeTags, List.mem_filterMap, Option.bind_eq_some_iff] at hf
    obtain ⟨a, -, datatype, -, ht⟩ := hf
    split at ht <;> simp_all
    rw [← ht]
  | multipleHandlers =>
    simp only [check, checkHandlerCount, List.mem_filterMap] at hf
    obtain ⟨c, -, hc⟩ := hf
    split at hc <;> simp_all
    rw [← hc]
  | unusedResource =>
    simp only [check, checkUnused, checkUsed, List.mem_append, List.mem_map] at hf
    obtain ⟨x, -, rfl⟩ | ⟨x, -, rfl⟩ := hf <;> rfl
  | requiredWithDefault =>
    simp only [check, checkRequiredDefaults, List.mem_map] at hf
    obtain ⟨a, -, rfl⟩ := hf
    rfl

theorem report_isValid_iff (validator : Validator) (v : View) :
    (validator.report v).isValid = true ↔
      checkReferences v = [] ∧ checkCardinality v = [] ∧ checkUnique v = [] := by
  have herrors : (validator.report v).isValid = true ↔
      ∀ r : Rule, r.isError = true → check validator.knownTags v r = [] := by
    simp only [Report.isValid, Report.errors, Validator.report, List.isEmpty_iff,
      List.filter_eq_nil_iff, List.mem_flatMap, Finding.isError]
    constructor
    · intro h r hr
      refine List.eq_nil_iff_forall_not_mem.2 fun f hf => h f ⟨r, ?_, hf⟩ ?_
      · cases r <;> decide
      · rw [rule_of_mem_check _ v r f hf, hr]
    · rintro h f ⟨r, -, hf⟩ hr
      rw [rule_of_mem_check _ v r f hf] at hr
      rw [h r hr] at hf
      exact List.not_mem_nil hf
  rw [herrors]
  constructor
  · exact fun h => ⟨h .referential rfl, h .cardinality rfl, h .duplicateCommand rfl⟩
  · rintro ⟨h₁, h₂, h₃⟩ r hr
    cases r <;> first | assumption | cases hr

/-- Arguments that are good: described resources with names that no earlier ones have. -/
theorem checkArguments_eq_nil_iff_named (v : View) (c : Term) (seen : List String)
    (arguments : List Term) (hd : ∀ a ∈ arguments, a.isResource = true → v.isDeclared a = true) :
    checkArguments v c seen arguments = [] ↔
      (∀ a ∈ arguments, a.isResource = true ∧ (∃ name, argumentName? v a = some name) ∧
          checkValue v a Cnv.required "a boolean" boolean? = [] ∧
            checkValue v a Cnv.position "an integer" integer? = []) ∧
        (arguments.filterMap (argumentName? v)).Nodup ∧
          ∀ name ∈ arguments.filterMap (argumentName? v), name ∉ seen := by
  induction arguments generalizing seen with
  | nil => simp [checkArguments]
  | cons a rest ih =>
    by_cases ha : a.isResource = true
    · have hrest := ih ((argumentName? v a).toList ++ seen)
        fun b hb => hd b (List.mem_cons_of_mem a hb)
      simp only [checkArguments, ha, hd a List.mem_cons_self ha, Bool.not_true, Bool.false_eq_true,
        if_false, List.append_eq_nil_iff, hrest, List.forall_mem_cons]
      cases hname : argumentName? v a with
      | none => simp [checkArgumentName, hname]
      | some name =>
        by_cases hs : name ∈ seen
        · simp [checkArgumentName, hname, hs]
        · simp only [checkArgumentName, hname, hs, if_false, Option.some.injEq, exists_eq', true_and,
            List.filterMap_cons_some hname, List.nodup_cons, List.mem_cons, forall_eq_or_imp,
            Option.toList_some, List.singleton_append, not_or, not_false_eq_true]
          constructor
          · rintro ⟨⟨hb, hi⟩, hall, hn, hnew⟩
            exact ⟨⟨⟨hb, hi⟩, hall⟩, ⟨fun hin => (hnew name hin).1 rfl, hn⟩,
              fun other hin => (hnew other hin).2⟩
          · rintro ⟨⟨⟨hb, hi⟩, hall⟩, ⟨hnot, hn⟩, hnew⟩
            exact ⟨⟨hb, hi⟩, hall, hn, fun other hin =>
              ⟨fun he => hnot (he ▸ hin), hnew other hin⟩⟩
    · simp only [checkArguments, ha, Bool.not_false, if_true, List.cons_ne_nil, false_iff]
      exact fun hall => ha (hall.1 a List.mem_cons_self).1

/-- A part that is described, if it is a resource, has to be the only one and to have a name. -/
theorem checkPart_eq_nil_iff_values (v : View) (c : Term) (p part : String)
    (hd : ∀ x ∈ v.values c p, x.isResource = true → v.isDeclared x = true) :
    checkPart v c p part = [] ↔
      ∃ target name, v.values c p = [target] ∧ v.nameOf (some target) = some name := by
  unfold checkPart
  split
  next hnil => simp [hnil]
  next target hone =>
    have hdecl := hd target (hone ▸ List.mem_singleton_self target)
    simp only [hone, List.cons.injEq, and_true, exists_and_left, exists_eq_left']
    cases hn : v.nameOf (some target) with
    | some name => simp
    | none =>
      have hr : target.isResource = true := by
        cases target <;> simp [nameOf, Term.isResource] at hn ⊢
      simp [hr, hdecl hr]
  next hnone =>
    simp only [List.cons_ne_nil, false_iff, not_exists, not_and]
    exact fun target _ hone => absurd hone (hnone target)

theorem checkCardinality_eq_nil_iff (v : View) : checkCardinality v = [] ↔
    ∀ c ∈ v.commands, checkPart v c Cnv.hasNoun "noun" = [] ∧ checkPart v c Cnv.hasVerb "verb" = [] ∧
      checkHandler v c = [] ∧ checkArguments v c [] (v.arguments c) = [] := by
  simp only [checkCardinality, List.flatMap_eq_nil_iff, List.append_eq_nil_iff, and_assoc]

section

variable {v : View} {g : List Triple} (h : v.Reads g) (hg : ∀ t ∈ g, t.IsStatement)

include h

theorem checkReferences_eq_nil_iff : checkReferences v = [] ↔
    ∀ p ∈ referencePredicates, ∀ s x, Says g s p x → x.isResource = true → ∃ t ∈ g, t.subject = x := by
  have hquery (p : String) := h.mem_query ⟨none, some (.iri p), none⟩ (isResource_predicateTerms p)
  simp only [checkReferences, List.flatMap_eq_nil_iff, List.filterMap_eq_nil_iff, sortTriples,
    mem_sortByKey, hquery]
  refine forall₂_congr fun p _ => ?_
  constructor
  · intro hall s x hs hx
    have ht := hall ⟨s, .iri p, x⟩ ⟨hs, by simp [TriplePattern.holds, TriplePattern.admits]⟩
    refine (h.declared x).1 ?_
    by_contra hd
    simp [hx, hd] at ht
  · rintro hall ⟨s, q, x⟩ ⟨hin, hp⟩
    simp only [TriplePattern.holds_iff, TriplePattern.admits_some] at hp
    obtain ⟨-, rfl, -⟩ := hp
    by_cases hx : x.isResource = true
    · simp [(h.declared x).2 (hall s x hin hx)]
    · simp [hx]

/-- Where references lead to described resources, the parts and the arguments of a command do. -/
theorem isDeclared_of_checkReferences (hr : checkReferences v = []) (s : Term) (p : String)
    (hp : p ∈ referencePredicates) (x : Term) (hx : x ∈ v.values s p) (hres : x.isResource = true) :
    v.isDeclared x = true :=
  (h.declared x).2 ((checkReferences_eq_nil_iff h).1 hr p hp s x ((h.mem_values s x p).1 hx).2 hres)

/-- The rules see to it that a command has one noun and one verb, which have names. -/
theorem exists_part_of_checkCardinality (hrefs : checkReferences v = []) (hcard : checkCardinality v = [])
    (c : Term) (hc : c ∈ v.commands) (p : String) (hp : p ∈ [Cnv.hasNoun, Cnv.hasVerb]) :
    ∃ target name, v.values c p = [target] ∧ v.nameOf (some target) = some name := by
  obtain ⟨hnoun, hverb, -⟩ := (checkCardinality_eq_nil_iff v).1 hcard c hc
  have hd := isDeclared_of_checkReferences h hrefs c p
  simp only [List.mem_cons, List.not_mem_nil, or_false] at hp
  obtain rfl | rfl := hp
  · exact (checkPart_eq_nil_iff_values v c _ _ (hd (by decide))).1 hnoun
  · exact (checkPart_eq_nil_iff_values v c _ _ (hd (by decide))).1 hverb

theorem nameOf_eq_some_iff (target : Term) (name : String) :
    v.nameOf (some target) = some name ↔ HasName g target name := by
  cases target with
  | literal lexical datatype language => simp [nameOf, HasName]
  | iri value => exact h.value?_lexical?_eq_some_iff (.iri value) Cnv.name name rfl
  | blank label => exact h.value?_lexical?_eq_some_iff (.blank label) Cnv.name name rfl

theorem argumentName?_eq_some_iff (a : Term) (name : String) (ha : a.isResource = true) :
    argumentName? v a = some name ↔ IsArgumentName g a name := by
  have htrim : (!(Text.trim name.toList).isEmpty) = true ↔
      ∃ c ∈ name.toList, Text.isBlank c = false := by
    rw [Bool.not_eq_true', ← Bool.not_eq_true, trim_isEmpty_iff]
    simp
  rw [argumentName?, Option.filter_eq_some_iff, h.value?_lexical?_eq_some_iff a _ name ha, htrim,
    IsArgumentName]

/-- The values of a resource are one alone when the resource has one value. -/
theorem values_eq_singleton_iff (s x : Term) (p : String) (hs : s.isResource = true) :
    v.values s p = [x] ↔ ∀ y, Says g s p y ↔ y = x := by
  have hmem (y : Term) : y ∈ v.values s p ↔ Says g s p y := by
    rw [h.mem_values, and_iff_right hs]
  constructor
  · intro he y
    rw [← hmem, he, List.mem_singleton]
  · intro hall
    have hp : (v.values s p).Perm [x] := by
      refine (List.perm_ext_iff_of_nodup (h.nodup_values s p) (List.nodup_singleton x)).2 fun y => ?_
      rw [hmem, hall, List.mem_singleton]
    exact List.perm_singleton.1 hp

/-- A value that has no name is reported, unless it is not described at all. -/
theorem checkPart_eq_nil_iff (c : Term) (p part : String) (hc : c.isResource = true)
    (hd : ∀ x, Says g c p x → x.isResource = true → v.isDeclared x = true) :
    checkPart v c p part = [] ↔ ∃ name, HasPart g c p name := by
  rw [checkPart_eq_nil_iff_values v c p part fun x hx => hd x ((h.mem_values c x p).1 hx).2]
  constructor
  · rintro ⟨target, name, hone, hname⟩
    exact ⟨name, target, (values_eq_singleton_iff h c target p hc).1 hone,
      (nameOf_eq_some_iff h target name).1 hname⟩
  · rintro ⟨name, target, hall, hname⟩
    exact ⟨target, name, (values_eq_singleton_iff h c target p hc).2 hall,
      (nameOf_eq_some_iff h target name).2 hname⟩

theorem checkHandler_eq_nil_iff (c : Term) (hc : c.isResource = true) :
    checkHandler v c = [] ↔ ∃ x, Says g c Cnv.handler x := by
  unfold checkHandler
  cases hv : v.values c Cnv.handler with
  | nil =>
    simp only [List.isEmpty_nil, if_true, List.cons_ne_nil, false_iff, not_exists]
    intro x hx
    have hin := (h.mem_values c x Cnv.handler).2 ⟨hc, hx⟩
    simp [hv] at hin
  | cons x rest =>
    have hx : x ∈ v.values c Cnv.handler := by simp [hv]
    simpa using ⟨x, ((h.mem_values c x Cnv.handler).1 hx).2⟩

theorem nameOf_value?_of_hasPart (c : Term) (p name : String) (hc : c.isResource = true)
    (hp : HasPart g c p name) : v.nameOf (v.value? c p) = some name := by
  obtain ⟨target, hall, hn⟩ := hp
  rw [value?, (values_eq_singleton_iff h c target p hc).2 hall, List.head?_cons,
    nameOf_eq_some_iff h]
  exact hn

theorem hasPart_iff (c : Term) (p name : String) (hc : c.isResource = true)
    (hone : ∃ n, HasPart g c p n) : HasPart g c p name ↔ v.nameOf (v.value? c p) = some name := by
  obtain ⟨n, hn⟩ := hone
  have he := nameOf_value?_of_hasPart h c p n hc hn
  constructor
  · exact nameOf_value?_of_hasPart h c p name hc
  · intro hname
    rw [he, Option.some.injEq] at hname
    exact hname ▸ hn

include hg

theorem checkValue_eq_nil_iff {α : Type} (a : Term) (property kind : String)
    (read : Term → Option α) (test : Term → Prop) (hread : ∀ x, (read x).isSome = true ↔ test x)
    (ha : a.isResource = true) :
    checkValue v a property kind read = [] ↔ ∀ x, IsLeastValue g a property x → test x := by
  simp only [← h.value?_eq_some_iff hg _ _ _ ha, ← hread]
  unfold checkValue
  cases v.value? a property with
  | none => simp
  | some x => cases hx : read x <;> simp [hx]

/-- The names that make a list of arguments good are those not given to earlier ones. -/
theorem checkArguments_eq_nil_iff (c : Term) (seen : List String) (arguments : List Term)
    (hd : ∀ a ∈ arguments, a.isResource = true → v.isDeclared a = true) :
    checkArguments v c seen arguments = [] ↔
      (∀ a ∈ arguments, DescribesArgument g a) ∧
        (arguments.filterMap (argumentName? v)).Nodup ∧
          ∀ name ∈ arguments.filterMap (argumentName? v), name ∉ seen := by
  rw [checkArguments_eq_nil_iff_named v c seen arguments hd]
  refine and_congr_left fun _ => forall₂_congr fun a _ => ?_
  constructor
  · rintro ⟨ha, ⟨name, hname⟩, hbool, hint⟩
    exact ⟨ha, ⟨name, (argumentName?_eq_some_iff h a name ha).1 hname⟩,
      (checkValue_eq_nil_iff h hg a _ _ _ _ boolean?_isSome_iff ha).1 hbool,
      (checkValue_eq_nil_iff h hg a _ _ _ _ integer?_isSome_iff ha).1 hint⟩
  · rintro ⟨ha, ⟨name, hname⟩, hbool, hint⟩
    exact ⟨ha, ⟨name, (argumentName?_eq_some_iff h a name ha).2 hname⟩,
      (checkValue_eq_nil_iff h hg a _ _ _ _ boolean?_isSome_iff ha).2 hbool,
      (checkValue_eq_nil_iff h hg a _ _ _ _ integer?_isSome_iff ha).2 hint⟩

end

/-- A filter of different elements gives different ones when no two are mapped alike. -/
theorem nodup_filterMap_iff {α β : Type} (f : α → Option β) (xs : List α) (hn : xs.Nodup) :
    (xs.filterMap f).Nodup ↔
      ∀ a ∈ xs, ∀ b ∈ xs, ∀ y, f a = some y → f b = some y → a = b := by
  rw [List.Nodup, List.pairwise_filterMap]
  constructor
  · intro hp a ha b hb y hfa hfb
    by_contra hne
    have hsymm : Std.Symm fun x z => ∀ y, f x = some y → ∀ y', f z = some y' → y ≠ y' :=
      ⟨fun x z hxz y hy y' hy' he => hxz y' hy' y hy he.symm⟩
    exact hp.forall ha hb hne y hfa y hfb rfl
  · intro hinj
    refine List.Pairwise.imp_of_mem ?_ hn
    intro a b ha hb hne y hy y' hy' he
    exact hne (hinj a ha b hb y hy (he ▸ hy'))

def View.keyOf? (v : View) (command : Term) : Option CommandKey :=
  match v.nounOf command, v.verbOf command with
  | some noun, some verb => some ⟨noun, verb⟩
  | _, _ => none

theorem keyOf?_eq_some_iff (v : View) (c : Term) (key : CommandKey) :
    v.keyOf? c = some key ↔ v.nounOf c = some key.noun ∧ v.verbOf c = some key.verb := by
  unfold keyOf?
  split
  next noun verb hnoun hverb =>
    simp only [hnoun, hverb, Option.some.injEq]
    constructor
    · rintro rfl
      exact ⟨rfl, rfl⟩
    · rintro ⟨rfl, rfl⟩
      rfl
  next hnone =>
    simp only [reduceCtorEq, false_iff, not_and]
    exact fun hnoun hverb => hnone _ _ hnoun hverb

theorem keyedCommands_keys (v : View) :
    (keyedCommands v).map (·.1) = v.commands.filterMap v.keyOf? := by
  rw [keyedCommands, List.map_filterMap]
  refine List.filterMap_congr fun c _ => ?_
  unfold keyOf?
  cases v.nounOf c <;> cases v.verbOf c <;> rfl

theorem checkUnique_eq_nil_iff (v : View) :
    checkUnique v = [] ↔ (v.commands.filterMap v.keyOf?).Nodup := by
  have hcount (key : CommandKey) :
      (((keyedCommands v).filter (·.1 == key)).map (·.2)).length =
        ((keyedCommands v).map (·.1)).count key := by
    rw [List.length_map, List.count_eq_countP, List.countP_map, List.countP_eq_length_filter]
    rfl
  rw [← keyedCommands_keys, List.nodup_iff_count_le_one]
  simp only [checkUnique, List.filterMap_eq_nil_iff, hcount, (List.mergeSort_perm _ _).mem_iff,
    mem_distinct]
  constructor
  · intro hall key
    by_cases hin : key ∈ (keyedCommands v).map (·.1)
    · have hk := hall key hin
      split at hk
      · cases hk
      · omega
    · rw [List.count_eq_zero_of_not_mem hin]
      omega
  · intro hall key _
    rw [if_neg (by have := hall key; omega)]

section

variable {v : View} {g : List Triple} (h : v.Reads g) (hg : ∀ t ∈ g, t.IsStatement)

include h hg

theorem describesProgram_of_isValid (validator : Validator)
    (hv : (validator.report v).isValid = true) : DescribesProgram g := by
  obtain ⟨href, hcard, huniq⟩ := (report_isValid_iff validator v).1 hv
  have hdecl := (checkReferences_eq_nil_iff h).1 href
  have hreach (c : Term) (p : String) (hp : p ∈ referencePredicates) (x : Term)
      (hx : Says g c p x) (hr : x.isResource = true) : v.isDeclared x = true :=
    (h.declared x).2 (hdecl p hp c x hx hr)
  have hchecks (c : Term) (hc : IsCommand g c) : c ∈ v.commands ∧ c.isResource = true ∧
      checkPart v c Cnv.hasNoun "noun" = [] ∧ checkPart v c Cnv.hasVerb "verb" = [] ∧
        checkHandler v c = [] ∧ checkArguments v c [] (v.arguments c) = [] := by
    have hin : c ∈ v.commands := (h.mem_instances Cnv.command c).2 hc
    exact ⟨hin, (hg _ hc).subject, (checkCardinality_eq_nil_iff v).1 hcard c hin⟩
  have hnoun (c : Term) (hc : IsCommand g c) : ∃ name, HasPart g c Cnv.hasNoun name := by
    obtain ⟨-, hr, hpart, -⟩ := hchecks c hc
    exact (checkPart_eq_nil_iff h c _ _ hr (hreach c _ (by decide))).1 hpart
  have hverb (c : Term) (hc : IsCommand g c) : ∃ name, HasPart g c Cnv.hasVerb name := by
    obtain ⟨-, hr, -, hpart, -⟩ := hchecks c hc
    exact (checkPart_eq_nil_iff h c _ _ hr (hreach c _ (by decide))).1 hpart
  have harguments (c : Term) (hc : IsCommand g c) :=
    (checkArguments_eq_nil_iff h hg c [] (v.arguments c) fun a ha =>
      hreach c _ (by decide) a ((h.mem_values c a _).1 ha).2).1 (hchecks c hc).2.2.2.2.2
  -- What is left: handlers, arguments, names of arguments, keys.
  refine ⟨hdecl, hnoun, hverb, ?_, ?_, ?_, ?_⟩
  · intro c hc
    obtain ⟨-, hr, -, -, hhandler, -⟩ := hchecks c hc
    exact (checkHandler_eq_nil_iff h c hr).1 hhandler
  · intro c a hc ha
    exact (harguments c hc).1 a ((h.mem_values c a _).2 ⟨(hg _ hc).subject, ha⟩)
  · intro c a b name hc ha hb hna hnb
    have hin (x : Term) (hx : Says g c Cnv.hasArgument x) : x ∈ v.arguments c :=
      (h.mem_values c x _).2 ⟨(hg _ hc).subject, hx⟩
    have hname (x : Term) (hx : Says g c Cnv.hasArgument x) (hn : IsArgumentName g x name) :
        argumentName? v x = some name :=
      (argumentName?_eq_some_iff h x name ((harguments c hc).1 x (hin x hx)).resource).2 hn
    exact (nodup_filterMap_iff _ _ (h.nodup_values c _)).1 (harguments c hc).2.1
      a (hin a ha) b (hin b hb) name (hname a ha hna) (hname b hb hnb)
  · intro c d noun verb hc hd hcn hdn hcv hdv
    have hkey (x : Term) (hx : IsCommand g x) (hn : HasPart g x Cnv.hasNoun noun)
        (hv : HasPart g x Cnv.hasVerb verb) : v.keyOf? x = some ⟨noun, verb⟩ :=
      (keyOf?_eq_some_iff v x _).2
        ⟨nameOf_value?_of_hasPart h x _ _ (hg _ hx).subject hn,
          nameOf_value?_of_hasPart h x _ _ (hg _ hx).subject hv⟩
    exact (nodup_filterMap_iff _ _ (h.nodup_instances _)).1 ((checkUnique_eq_nil_iff v).1 huniq)
      c (hchecks c hc).1 d (hchecks d hd).1 _ (hkey c hc hcn hcv) (hkey d hd hdn hdv)

theorem keyOf?_inj_of_describesProgram (hp : DescribesProgram g) (c d : Term) (key : CommandKey)
    (hc : c ∈ v.commands) (hd : d ∈ v.commands) (hck : v.keyOf? c = some key)
    (hdk : v.keyOf? d = some key) : c = d := by
  have hparts (x : Term) (hx : x ∈ v.commands) (hk : v.keyOf? x = some key) :
      HasPart g x Cnv.hasNoun key.noun ∧ HasPart g x Cnv.hasVerb key.verb := by
    have hx := (h.mem_instances Cnv.command x).1 hx
    obtain ⟨hn, hv⟩ := (keyOf?_eq_some_iff v x key).1 hk
    exact ⟨(hasPart_iff h x _ _ (hg _ hx).subject (hp.noun x hx)).2 hn,
      (hasPart_iff h x _ _ (hg _ hx).subject (hp.verb x hx)).2 hv⟩
  have hcp := hparts c hc hck
  have hdp := hparts d hd hdk
  exact hp.keys c d key.noun key.verb ((h.mem_instances _ c).1 hc) ((h.mem_instances _ d).1 hd)
    hcp.1 hdp.1 hcp.2 hdp.2

theorem isValid_of_describesProgram (validator : Validator) (hp : DescribesProgram g) :
    (validator.report v).isValid = true := by
  refine (report_isValid_iff validator v).2 ⟨(checkReferences_eq_nil_iff h).2 hp.declared, ?_, ?_⟩
  · have hreach (c : Term) (p : String) (hr : p ∈ referencePredicates) (x : Term)
        (hx : Says g c p x) (hres : x.isResource = true) : v.isDeclared x = true :=
      (h.declared x).2 (hp.declared p hr c x hx hres)
    refine (checkCardinality_eq_nil_iff v).2 fun c hin => ?_
    have hc : IsCommand g c := (h.mem_instances Cnv.command c).1 hin
    have hr := (hg _ hc).subject
    refine ⟨(checkPart_eq_nil_iff h c _ _ hr (hreach c _ (by decide))).2 (hp.noun c hc),
      (checkPart_eq_nil_iff h c _ _ hr (hreach c _ (by decide))).2 (hp.verb c hc),
      (checkHandler_eq_nil_iff h c hr).2 (hp.handler c hc), ?_⟩
    have harg (a : Term) (ha : a ∈ v.arguments c) : Says g c Cnv.hasArgument a :=
      ((h.mem_values c a _).1 ha).2
    refine (checkArguments_eq_nil_iff h hg c [] (v.arguments c) fun a ha =>
      hreach c _ (by decide) a (harg a ha)).2
        ⟨fun a ha => hp.arguments c a hc (harg a ha), ?_, fun _ _ => List.not_mem_nil⟩
    refine (nodup_filterMap_iff _ _ (h.nodup_values c _)).2 fun a ha b hb name hna hnb => ?_
    have hname (x : Term) (hx : x ∈ v.arguments c) (hn : argumentName? v x = some name) :
        IsArgumentName g x name :=
      (argumentName?_eq_some_iff h x name (hp.arguments c x hc (harg x hx)).resource).1 hn
    exact hp.argumentNames c a b name hc (harg a ha) (harg b hb) (hname a ha hna) (hname b hb hnb)
  · refine (checkUnique_eq_nil_iff v).2 ((nodup_filterMap_iff _ _ (h.nodup_instances _)).2 ?_)
    exact fun c hc d hd key hck hdk => keyOf?_inj_of_describesProgram h hg hp c d key hc hd hck hdk

end

theorem filterMap_eq_map_of_forall₂ {α β κ : Type} (f : α → Option κ) (key : β → κ) {xs : List α}
    {ys : List β} (h : List.Forall₂ (fun x y => f x = some (key y)) xs ys) :
    xs.filterMap f = ys.map key := by
  induction h with
  | nil => rfl
  | cons hx _ ih => rw [List.filterMap_cons_some hx, ih, List.map_cons]

theorem duplicate?_eq_none_iff (seen : List CommandKey) (commands : List Command) :
    CommandIndex.duplicate? seen commands = none ↔
      (commands.map Command.key).Nodup ∧ ∀ key ∈ commands.map Command.key, key ∉ seen := by
  induction commands generalizing seen with
  | nil => simp [CommandIndex.duplicate?]
  | cons c rest ih =>
    by_cases hc : c.key ∈ seen
    · simp [CommandIndex.duplicate?, hc]
    · simp only [CommandIndex.duplicate?, hc, if_false, ih, List.map_cons, List.nodup_cons,
        List.mem_cons, forall_eq_or_imp, not_or, not_false_eq_true, true_and]
      constructor
      · rintro ⟨hn, hall⟩
        exact ⟨⟨fun hin => (hall c.key hin).1 rfl, hn⟩, fun key hk => (hall key hk).2⟩
      · rintro ⟨⟨hnot, hn⟩, hall⟩
        exact ⟨hn, fun key hk => ⟨fun he => hnot (he ▸ hk), hall key hk⟩⟩

/-- An index has the commands that it was built from, in the order of their keys, and groups them. -/
theorem CommandIndex.ofList_eq_ok_iff (commands : List Command) (index : CommandIndex) :
    CommandIndex.ofList commands = .ok index ↔ (commands.map Command.key).Nodup ∧
      index.commands = (commands.mergeSort fun a b => CommandKey.le a.key b.key) ∧
      index.groups = CommandIndex.group index.commands := by
  have hkeys := duplicate?_eq_none_iff [] commands
  rw [CommandIndex.ofList]
  cases hdup : CommandIndex.duplicate? [] commands with
  | some key =>
    rw [hdup] at hkeys
    simp_all
  | none =>
    have hnodup := (hkeys.1 hdup).1
    obtain ⟨held, groups⟩ := index
    simp only [Except.ok.injEq, CommandIndex.mk.injEq, hnodup, true_and]
    constructor
    · rintro ⟨rfl, rfl⟩
      exact ⟨rfl, rfl⟩
    · rintro ⟨rfl, rfl⟩
      exact ⟨rfl, rfl⟩

/-- Commands with different keys have an index, which holds them in the order of their keys. -/
theorem exists_index (commands : List Command) (hkeys : (commands.map Command.key).Nodup) :
    ∃ index, CommandIndex.ofList commands = .ok index ∧
      index.commands = commands.mergeSort fun a b => CommandKey.le a.key b.key :=
  ⟨⟨_, CommandIndex.group _⟩, (CommandIndex.ofList_eq_ok_iff _ _).2 ⟨hkeys, rfl, rfl⟩, rfl⟩

theorem buildArgument_ok (v : View) (a : Term) (name : String)
    (hn : (v.value? a Cnv.name).bind lexical? = some name) : ∃ x, v.buildArgument a = .ok x := by
  simp only [buildArgument, hn, requireName]
  exact ⟨_, rfl⟩

theorem buildCommand_ok (v : View) (c : Term) (key : CommandKey) (hk : v.keyOf? c = some key)
    (ha : ∀ a ∈ v.arguments c, ∃ name, (v.value? a Cnv.name).bind lexical? = some name) :
    ∃ x, v.buildCommand c = .ok x ∧ x.key = key := by
  obtain ⟨hnoun, hverb⟩ := (keyOf?_eq_some_iff v c key).1 hk
  obtain ⟨arguments, hm, -⟩ := mapM_ok_of_forall v.buildArgument (fun _ _ => True)
    (v.arguments c) fun a hin => by
      obtain ⟨name, hn⟩ := ha a hin
      obtain ⟨x, hx⟩ := buildArgument_ok v a name hn
      exact ⟨x, hx, trivial⟩
  simp only [buildCommand, hnoun, hverb, requireName, hm]
  exact ⟨_, rfl, rfl⟩

/-- The rules see to it that the index can be built. -/
theorem buildIndex_ok_of_isValid {v : View} {g : List Triple} (h : v.Reads g) (validator : Validator)
    (hvalid : (validator.report v).isValid = true) : ∃ index, v.buildIndex = .ok index := by
  obtain ⟨hrefs, hcard, huniq⟩ := (report_isValid_iff validator v).1 hvalid
  have hname (c : Term) (hin : c ∈ v.commands) (p : String) (hp : p ∈ [Cnv.hasNoun, Cnv.hasVerb]) :
      ∃ name, v.nameOf (v.value? c p) = some name := by
    obtain ⟨target, name, hone, hname⟩ := exists_part_of_checkCardinality h hrefs hcard c hin p hp
    exact ⟨name, by rw [value?, hone, List.head?_cons, hname]⟩
  have hkeys (c : Term) (hin : c ∈ v.commands) : ∃ key, v.keyOf? c = some key := by
    obtain ⟨noun, hnoun⟩ := hname c hin Cnv.hasNoun (by decide)
    obtain ⟨verb, hverb⟩ := hname c hin Cnv.hasVerb (by decide)
    exact ⟨⟨noun, verb⟩, (keyOf?_eq_some_iff v c _).2 ⟨hnoun, hverb⟩⟩
  have hnames (c : Term) (hin : c ∈ v.commands) (a : Term) (ha : a ∈ v.arguments c) :
      ∃ name, (v.value? a Cnv.name).bind lexical? = some name := by
    obtain ⟨-, -, -, harguments⟩ := (checkCardinality_eq_nil_iff v).1 hcard c hin
    obtain ⟨hnamed, -⟩ := (checkArguments_eq_nil_iff_named v c [] _
      (isDeclared_of_checkReferences h hrefs c _ (by decide))).1 harguments
    obtain ⟨-, ⟨name, hargument⟩, -⟩ := hnamed a ha
    exact ⟨name, (Option.filter_eq_some_iff.1 hargument).1⟩
  obtain ⟨commands, hm, hall⟩ := mapM_ok_of_forall v.buildCommand
    (fun c x => v.keyOf? c = some x.key) v.commands fun c hin => by
      obtain ⟨key, hk⟩ := hkeys c hin
      obtain ⟨x, hx, hxk⟩ := buildCommand_ok v c key hk (hnames c hin)
      exact ⟨x, hx, hxk ▸ hk⟩
  -- The keys of what is built are those that the rule has compared.
  have hnodup : (commands.map Command.key).Nodup := by
    rw [← filterMap_eq_map_of_forall₂ _ _ hall]
    exact (checkUnique_eq_nil_iff v).1 huniq
  obtain ⟨index, hindex, -⟩ := exists_index commands hnodup
  simp only [buildIndex, hm, hindex, bind, Except.bind]
  exact ⟨index, rfl⟩

theorem buildIndex_ok {v : View} {g : List Triple} (h : v.Reads g) (hg : ∀ t ∈ g, t.IsStatement)
    (hp : DescribesProgram g) : ∃ index, v.buildIndex = .ok index :=
  buildIndex_ok_of_isValid h {} (isValid_of_describesProgram h hg {} hp)

/-- The criteria depend on which statements there are, not on their order or number. -/
theorem describesProgram_congr (g g' : List Triple) (h : ∀ t, t ∈ g ↔ t ∈ g')
    (hp : DescribesProgram g) : DescribesProgram g' := by
  have hstated : Says g' = Says g := by
    funext s p x
    exact propext (h _).symm
  have hleast : IsLeastValue g' = IsLeastValue g := by
    funext s p x
    rw [IsLeastValue, IsLeastValue, hstated]
  have hname : HasName g' = HasName g := by
    funext target name
    cases target <;> simp only [HasName, hleast]
  have hpart : HasPart g' = HasPart g := by
    funext c p name
    simp only [HasPart, hstated, hname]
  have hcommand : IsCommand g' = IsCommand g := by
    funext c
    rw [IsCommand, IsCommand, hstated]
  have hargument : IsArgumentName g' = IsArgumentName g := by
    funext a name
    simp only [IsArgumentName, hleast]
  constructor
  · intro p hin s x hx hr
    rw [hstated] at hx
    obtain ⟨t, ht, hsubject⟩ := hp.declared p hin s x hx hr
    exact ⟨t, (h t).1 ht, hsubject⟩
  · rw [hcommand, hpart]
    exact hp.noun
  · rw [hcommand, hpart]
    exact hp.verb
  · rw [hcommand, hstated]
    exact hp.handler
  · rw [hcommand, hstated]
    intro c a hc ha
    obtain ⟨hres, hnamed, hreq, hpos⟩ := hp.arguments c a hc ha
    exact ⟨hres, hargument ▸ hnamed, hleast ▸ hreq, hleast ▸ hpos⟩
  · rw [hcommand, hstated, hargument]
    exact hp.argumentNames
  · rw [hcommand, hpart]
    exact hp.keys

/-- Validation accepts just the graphs that describe a program, and rejects all others with a report. -/
theorem validate_memory (triples : List Triple) (ht : ∀ t ∈ triples, t.IsStatement)
    (validator : Validator) (namespaces : Namespaces) (base : Option String)
    (own : Option Validator) :
    (DescribesProgram triples → ∃ validated,
      validator.validate ⟨.ofList .memory triples, namespaces, base, own⟩ = .ok validated) ∧
    (¬DescribesProgram triples → ∃ report,
      validator.validate ⟨.ofList .memory triples, namespaces, base, own⟩ =
        .error (.rejected report)) := by
  have hmem (t : Triple) : t ∈ triples ↔ t ∈ distinct triples := (mem_distinct t triples).symm
  have hg (t : Triple) (hin : t ∈ distinct triples) : t.IsStatement := ht t ((hmem t).2 hin)
  have hr := reads_memory triples
  constructor
  · intro hp
    have hd := describesProgram_congr triples (distinct triples) hmem hp
    obtain ⟨index, hindex⟩ := buildIndex_ok hr hg hd
    simp only [Validator.validate, isValid_of_describesProgram hr hg validator hd, if_true, hindex]
    exact ⟨_, rfl⟩
  · intro hp
    have hinvalid : (validator.report (ofStore (.ofList .memory triples))).isValid = false := by
      rw [← Bool.not_eq_true]
      intro hv
      exact hp (describesProgram_congr _ _ (fun t => (hmem t).symm)
        (describesProgram_of_isValid hr hg validator hv))
    simp only [Validator.validate, hinvalid, Bool.false_eq_true, if_false]
    exact ⟨_, rfl⟩

def podsList : List Triple :=
  [⟨.iri "urn:c", .iri Rdf.type, .iri Cnv.command⟩, ⟨.iri "urn:c", .iri Cnv.hasNoun, .plain "pods"⟩,
    ⟨.iri "urn:c", .iri Cnv.hasVerb, .plain "list"⟩, ⟨.iri "urn:c", .iri Cnv.handler, .plain "run"⟩]

theorem isStatement_podsList : ∀ t ∈ podsList, t.IsStatement :=
  @isStatement_plain [⟨"urn:c", "pods", "list", "run"⟩]

theorem describesProgram_podsList : DescribesProgram podsList :=
  @describesProgram_plain [⟨"urn:c", "pods", "list", "run"⟩] (by simp) (by simp)

/-- A command with a noun, a verb and a handler is accepted, and one without a handler is rejected. -/
theorem validate_memory_podsList :
    (∃ validated, Validator.validate {}
      ⟨.ofList .memory podsList, .empty 32, none, none⟩ = .ok validated) ∧
    (∃ report, Validator.validate {}
      ⟨.ofList .memory (podsList.take 3), .empty 32, none, none⟩ = .error (.rejected report)) := by
  have htake : ∀ t ∈ podsList.take 3, t.IsStatement := fun t h =>
    isStatement_podsList t (List.mem_of_mem_take h)
  refine ⟨(validate_memory podsList isStatement_podsList {} _ none none).1 describesProgram_podsList,
    (validate_memory (podsList.take 3) htake {} _ none none).2 fun hp => ?_⟩
  obtain ⟨x, hx⟩ := hp.handler (.iri "urn:c") (by simp [IsCommand, Says, podsList])
  simp [Says, podsList, Cnv.handler, Rdf.type, Cnv.hasNoun, Cnv.hasVerb] at hx

end CommandOntology
