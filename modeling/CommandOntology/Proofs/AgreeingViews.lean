import CommandOntology.Proofs.NormalForm
import CommandOntology.Proofs.ViewValues

set_option autoImplicit false

/-!
# Views that agree

The rules and the index ask a store for lists that they put in order. Two views in which these lists are
the same are reported alike and have the same index; and so they are where both views read the same
statements, in whatever order, and the keys of the statements tell them apart.
-/

namespace CommandOntology

namespace Triple

theorem Key.le_eq :
    Key.le = lexLe Key.subject (fun a b => decide (a ≤ b))
      (lexLe Key.predicate (fun a b => decide (a ≤ b)) fun a b => decide (a.object ≤ b.object)) :=
  rfl

theorem Key.le_trans (a b c : Key) (hab : a.le b = true) (hbc : b.le c = true) : a.le c = true := by
  rw [le_eq] at *
  exact lexLe_trans _ _ _ textLe_trans textLe_antisymm
    (lexLe_trans _ _ _ textLe_trans textLe_antisymm
      fun x y z => textLe_trans x.object y.object z.object) a b c hab hbc

theorem Key.le_total (a b : Key) : (a.le b || b.le a) = true := by
  rw [le_eq]
  have hobject (x y : Key) : (decide (x.object ≤ y.object) || decide (y.object ≤ x.object)) = true :=
    textLe_total x.object y.object
  exact lexLe_total _ _ _ textLe_total (lexLe_total _ _ _ textLe_total hobject) a b

theorem Key.le_antisymm (a b : Key) (hab : a.le b = true) (hba : b.le a = true) : a = b := by
  rw [le_eq] at *
  obtain ⟨hs, hab, hba⟩ := lexLe_antisymm _ _ _ textLe_antisymm a b hab hba
  obtain ⟨hp, hab, hba⟩ := lexLe_antisymm _ _ _ textLe_antisymm a b hab hba
  have ho := textLe_antisymm _ _ hab hba
  cases a
  cases b
  simp_all

end Triple

def HasDistinctKeys (triples : List Triple) : Prop :=
  ∀ t ∈ triples, ∀ u ∈ triples, t.key = u.key → t = u

theorem sortTriples_congr (xs ys : List Triple) (hp : xs.Perm ys) (h : HasDistinctKeys xs) :
    sortTriples xs = sortTriples ys :=
  sortByKey_congr _ _ Triple.Key.le_trans Triple.Key.le_total Triple.Key.le_antisymm xs ys hp h

structure View.Agree (v w : View) : Prop where
  isDeclared : v.isDeclared = w.isDeclared
  instances : v.instances = w.instances
  values : v.values = w.values
  statements (p : String) : sortTriples (v.store.query ⟨none, some (.iri p), none⟩) =
    sortTriples (w.store.query ⟨none, some (.iri p), none⟩)
  isUnused (classIri p : String) : ∀ r ∈ w.instances classIri,
    (v.store.query ⟨none, some (.iri p), some r⟩).isEmpty =
      (w.store.query ⟨none, some (.iri p), some r⟩).isEmpty

namespace View.Agree

variable {v w : View} (h : v.Agree w)

include h

theorem commands : v.commands = w.commands :=
  congrFun h.instances Cnv.command

theorem value? : v.value? = w.value? := by
  funext s p
  rw [View.value?, View.value?, h.values]

theorem nameOf : v.nameOf = w.nameOf := by
  funext t
  match t with
  | none => rfl
  | some (.literal lexical datatype language) => rfl
  | some (.iri value) => simp only [View.nameOf, h.value?]
  | some (.blank label) => simp only [View.nameOf, h.value?]

theorem nounOf : v.nounOf = w.nounOf := by
  funext c
  rw [View.nounOf, View.nounOf, h.nameOf, h.value?]

theorem verbOf : v.verbOf = w.verbOf := by
  funext c
  rw [View.verbOf, View.verbOf, h.nameOf, h.value?]

theorem helpText : v.helpText = w.helpText := by
  funext s
  rw [View.helpText, View.helpText, h.values]

theorem arguments : v.arguments = w.arguments := by
  funext c
  rw [View.arguments, View.arguments, h.values]

theorem describedArguments : v.describedArguments = w.describedArguments := by
  rw [View.describedArguments, View.describedArguments, h.commands, h.arguments, h.isDeclared]

theorem checkArgumentName : Rule.checkArgumentName v = Rule.checkArgumentName w := by
  funext command seen argument
  simp only [Rule.checkArgumentName, Rule.argumentName?, h.value?]

theorem checkArguments (command : Term) (arguments : List Term) (seen : List String) :
    Rule.checkArguments v command seen arguments = Rule.checkArguments w command seen arguments := by
  induction arguments generalizing seen with
  | nil => rfl
  | cons argument rest ih =>
    simp only [Rule.checkArguments, Rule.checkValue, Rule.argumentName?, h.isDeclared, h.value?,
      h.checkArgumentName, ih]

theorem checkCardinality : Rule.checkCardinality v = Rule.checkCardinality w := by
  simp only [Rule.checkCardinality, Rule.checkPart, Rule.checkHandler, h.commands, h.values,
    h.isDeclared, h.nameOf, h.arguments, h.checkArguments]

theorem checkUnique : Rule.checkUnique v = Rule.checkUnique w := by
  have hkeyed : Rule.keyedCommands v = Rule.keyedCommands w := by
    simp only [Rule.keyedCommands, h.commands, h.nounOf, h.verbOf]
  rw [Rule.checkUnique, Rule.checkUnique, hkeyed]

theorem checkUnused : Rule.checkUnused v = Rule.checkUnused w := by
  have hused (classIri p kind : String) :
      Rule.checkUsed v classIri p kind = Rule.checkUsed w classIri p kind := by
    rw [Rule.checkUsed, Rule.checkUsed, h.instances]
    exact congrArg _ (List.filter_congr fun r hr => h.isUnused classIri p r hr)
  simp only [Rule.checkUnused, hused]

theorem check (knownTags : List String) (rule : Rule) :
    rule.check knownTags v = rule.check knownTags w := by
  cases rule with
  | referential => simp only [Rule.check, Rule.checkReferences, h.statements, h.isDeclared]
  | cardinality => exact h.checkCardinality
  | duplicateCommand => exact h.checkUnique
  | missingHelp => simp only [Rule.check, Rule.checkHelp, h.commands, h.helpText]
  | defaultDatatype => simp only [Rule.check, Rule.checkDatatypes, h.describedArguments, h.value?]
  | unknownTypeTag => simp only [Rule.check, Rule.checkTypeTags, h.describedArguments, h.value?]
  | multipleHandlers => simp only [Rule.check, Rule.checkHandlerCount, h.commands, h.values]
  | unusedResource => exact h.checkUnused
  | requiredWithDefault =>
    simp only [Rule.check, Rule.checkRequiredDefaults, h.describedArguments, h.value?]

theorem report (validator : Validator) : validator.report v = validator.report w := by
  have hrule : Rule.check validator.knownTags v = Rule.check validator.knownTags w :=
    funext fun rule => h.check validator.knownTags rule
  rw [Validator.report, Validator.report, hrule, h.commands]

theorem buildArgument : v.buildArgument = w.buildArgument := by
  funext resource
  simp only [View.buildArgument, h.value?, h.values, h.helpText]

theorem buildCommand : v.buildCommand = w.buildCommand := by
  funext resource
  simp only [View.buildCommand, h.nounOf, h.verbOf, h.arguments, h.buildArgument, h.values, h.helpText]

theorem buildIndex : v.buildIndex = w.buildIndex := by
  rw [View.buildIndex, View.buildIndex, h.commands, h.buildCommand]

end View.Agree

/-- Terms of statements in order, where their line forms tell the statements apart. -/
theorem sortTerms_map_congr (place : Triple → Term) (xs ys : List Triple) (hp : xs.Perm ys)
    (hinj : ∀ t ∈ xs, ∀ u ∈ xs, (place t).lineForm = (place u).lineForm → t = u) :
    sortTerms (xs.map place) = sortTerms (ys.map place) := by
  refine sortByKey_congr _ _ textLe_trans textLe_total textLe_antisymm _ _ (hp.map place) ?_
  intro x hx y hy hxy
  obtain ⟨t, ht, rfl⟩ := List.mem_map.1 hx
  obtain ⟨u, hu, rfl⟩ := List.mem_map.1 hy
  rw [hinj t ht u hu hxy]

namespace View

variable {v w : View} {g g' : List Triple} (hv : v.Reads g) (hw : w.Reads g') (hp : g.Perm g')

include hv

/-- Answers that agree in all but one place are told apart by that place. -/
theorem Reads.eq_of_mem_query (hkey : HasDistinctKeys g) {p : TriplePattern}
    (hterms : ∀ t ∈ p.terms, t.isResource = true) {t u : Triple} (ht : t ∈ v.store.query p)
    (hu : u ∈ v.store.query p)
    (h : p.holds t = true → p.holds u = true → t.key = u.key) : t = u := by
  obtain ⟨htg, htp⟩ := (hv.mem_query p hterms t).1 ht
  obtain ⟨hug, hup⟩ := (hv.mem_query p hterms u).1 hu
  exact hkey t htg u hug (h htp hup)

include hw hp

theorem Reads.query_perm (p : TriplePattern) (hterms : ∀ t ∈ p.terms, t.isResource = true) :
    (v.store.query p).Perm (w.store.query p) :=
  (hv.query p hterms).trans ((hp.filter _).trans (hw.query p hterms).symm)

/-- Views agree that read the same statements, if these have different keys. -/
theorem Reads.agree (hs : ∀ t ∈ g, t.subject.isResource = true) (hkey : HasDistinctKeys g) :
    v.Agree w where
  isDeclared := by
    funext t
    rw [Bool.eq_iff_iff, hv.declared, hw.declared]
    simp only [hp.mem_iff]
  -- Two places of these questions are bound, so that the third one tells the answers apart.
  instances := by
    funext classIri
    have hterms := isResource_classTerms classIri
    refine sortTerms_map_congr _ _ _ (hv.query_perm hw hp _ hterms) fun t ht u hu hline => ?_
    refine hv.eq_of_mem_query hkey hterms ht hu fun htp hup => ?_
    simp only [TriplePattern.holds_iff, TriplePattern.admits_some] at htp hup
    rw [Triple.key, Triple.key, hline, ← htp.2.1, ← hup.2.1, ← htp.2.2, ← hup.2.2]
  values := by
    funext s p
    unfold values
    split_ifs with hresource
    · have hterms := isResource_valueTerms s p hresource
      refine sortTerms_map_congr _ _ _ (hv.query_perm hw hp _ hterms) fun t ht u hu hline => ?_
      refine hv.eq_of_mem_query hkey hterms ht hu fun htp hup => ?_
      simp only [TriplePattern.holds_iff, TriplePattern.admits_some] at htp hup
      rw [Triple.key, Triple.key, hline, ← htp.1, ← hup.1, ← htp.2.1, ← hup.2.1]
    · rfl
  statements p := by
    have hterms := isResource_predicateTerms p
    refine sortTriples_congr _ _ (hv.query_perm hw hp _ hterms) fun t ht u hu he => ?_
    exact hv.eq_of_mem_query hkey hterms ht hu fun _ _ => he
  isUnused classIri p r hr := by
    have hresource := hs _ (hp.mem_iff.2 ((hw.mem_instances classIri r).1 hr))
    refine (hv.query_perm hw hp _ fun t ht => ?_).isEmpty_eq
    simp only [TriplePattern.terms, Option.toList_none, Option.toList_some, List.nil_append,
      List.cons_append, List.mem_cons, List.not_mem_nil, or_false] at ht
    obtain rfl | rfl := ht
    · rfl
    · exact hresource

end View

end CommandOntology
