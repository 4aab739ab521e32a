import Mathlib.Data.String.Basic
import CommandOntology.Proofs.Validation

set_option autoImplicit false

/-!
# The labels of blank nodes

Blank nodes are told apart by their labels, and a label bears on the order of terms. Blank nodes come
after all other terms, so that labels do not decide which name, truth value or number is taken. The rules
accept a view just if they accept it under other labels.
-/

namespace CommandOntology

def Term.relabel (f : String → String) : Term → Term
  | .blank label => .blank (f label)
  | other => other

def Term.isNamed : Term → Bool
  | .blank _ => false
  | _ => true

namespace Term

variable (f : String → String)

@[simp] theorem relabel_iri (value : String) : (iri value).relabel f = iri value := rfl

theorem relabel_of_isNamed (t : Term) (h : t.isNamed = true) : t.relabel f = t := by
  cases t with
  | blank label => cases h
  | iri => rfl
  | literal => rfl

@[simp] theorem isNamed_relabel (t : Term) : (t.relabel f).isNamed = t.isNamed := by
  cases t <;> rfl

@[simp] theorem isResource_relabel (t : Term) : (t.relabel f).isResource = t.isResource := by
  cases t <;> rfl

theorem relabel_inj (hf : Function.Injective f) : Function.Injective (relabel f) := by
  intro a b h
  cases a <;> cases b <;> simp_all [relabel, hf.eq_iff]

theorem lineForm_lt_of_isNamed (t u : Term) (ht : t.isNamed = true) (hu : u.isNamed = false) :
    t.lineForm < u.lineForm := by
  rw [String.lt_iff_toList_lt]
  cases u with
  | iri => cases hu
  | literal => cases hu
  | blank label =>
    cases t with
    | blank other => cases ht
    | iri value =>
      rw [lineForm, lineForm, String.toList_append, String.toList_append, String.toList_append]
      exact List.cons_lt_cons_iff.2 (.inl (by decide))
    | literal lexical datatype language =>
      rw [lineForm, lineForm, String.toList_append, String.toList_append, quotedLiteral,
        String.toList_ofList]
      exact List.cons_lt_cons_iff.2 (.inl (by decide))

end Term

theorem filter_isNamed_map_relabel (f : String → String) (terms : List Term) :
    (terms.map (Term.relabel f)).filter Term.isNamed = terms.filter Term.isNamed := by
  rw [List.filter_map]
  have htest : Term.isNamed ∘ Term.relabel f = Term.isNamed := funext (Term.isNamed_relabel f)
  rw [htest]
  conv_rhs => rw [← List.map_id (terms.filter Term.isNamed)]
  exact List.map_congr_left fun t ht => t.relabel_of_isNamed f (List.mem_filter.1 ht).2

/-- The first of terms in order is named just if there is a named one, which then is the first of the
named. -/
theorem head?_sortTerms_of_isNamed (x : Term) (hx : x.isNamed = true) (terms : List Term) :
    (sortTerms terms).head? = some x ↔ ((sortTerms terms).filter Term.isNamed).head? = some x := by
  have hp := sortTerms_pairwise terms
  cases hs : sortTerms terms with
  | nil => simp
  | cons y rest =>
    rw [hs] at hp
    cases hy : y.isNamed with
    | true => rw [List.filter_cons_of_pos hy, List.head?_cons, List.head?_cons]
    | false =>
      -- All terms behind a blank node are blank.
      have hrest : rest.filter Term.isNamed = [] := by
        refine List.filter_eq_nil_iff.2 fun z hz hnamed => ?_
        exact absurd ((List.pairwise_cons.1 hp).1 z hz)
          (not_le_of_gt (z.lineForm_lt_of_isNamed y hnamed hy))
      rw [List.filter_cons_of_neg (by simp [hy]), hrest, List.head?_cons, List.head?_nil]
      constructor
      · rintro ⟨⟩
        exact absurd hx (by simp [hy])
      · rintro ⟨⟩

namespace View

/-- A view that answers as another does, under other labels, which tell the blank nodes apart. -/
structure IsRelabelled (f : String → String) (v v' : View) : Prop where
  injective : Function.Injective f
  query : ∀ p : TriplePattern, v'.store.query (p.mapTerms (Term.relabel f)) =
    (v.store.query p).map (·.mapTerms (Term.relabel f))
  isDeclared : ∀ t, v'.isDeclared (t.relabel f) = v.isDeclared t

theorem isRelabelled_memory (f : String → String) (hf : Function.Injective f) (triples : List Triple) :
    IsRelabelled f (ofStore (.ofList .memory triples))
      (ofStore (.ofList .memory (triples.map (·.mapTerms (Term.relabel f))))) := by
  have hterm := Term.relabel_inj f hf
  have htriple : Function.Injective fun t : Triple => t.mapTerms (Term.relabel f) := by
    rintro ⟨s, p, o⟩ ⟨s', p', o'⟩ h
    simp only [Triple.mapTerms, Triple.mk.injEq, hterm.eq_iff] at h
    obtain ⟨rfl, rfl, rfl⟩ := h
    rfl
  have hadmits (place : Option Term) (t : Term) :
      TriplePattern.admits (place.map (Term.relabel f)) (t.relabel f) = TriplePattern.admits place t := by
    cases place with
    | none => rfl
    | some u => simp [TriplePattern.admits, hterm.eq_iff]
  refine ⟨hf, fun p => ?_, fun t => ?_⟩
  · have hholds : (p.mapTerms (Term.relabel f)).holds ∘ (fun t : Triple => t.mapTerms (Term.relabel f)) =
        p.holds := by
      funext t
      simp only [Function.comp, TriplePattern.holds, TriplePattern.mapTerms, Triple.mapTerms, hadmits]
    rw [ofStore, ofStore, Store.query_memory, Store.query_memory, distinct_map htriple, List.filter_map,
      hholds]
  · rw [Bool.eq_iff_iff, (reads_memory _).declared, (reads_memory _).declared]
    simp [Triple.mapTerms, hterm.eq_iff]

section

variable {f : String → String} {v v' : View} (h : IsRelabelled f v v')

include h

theorem IsRelabelled.instances_perm (classIri : String) :
    (v'.instances classIri).Perm ((v.instances classIri).map (Term.relabel f)) := by
  have hquery := h.query ⟨none, some (.iri Rdf.type), some (.iri classIri)⟩
  simp only [TriplePattern.mapTerms, Option.map_none, Option.map_some, Term.relabel_iri] at hquery
  rw [instances, instances, hquery, List.map_map]
  refine (sortTerms_perm _).trans (List.Perm.trans ?_ ((sortTerms_perm _).map _).symm)
  rw [List.map_map]
  rfl

theorem IsRelabelled.exists_values (s : Term) (p : String) :
    ∃ terms, v.values s p = sortTerms terms ∧
      v'.values (s.relabel f) p = sortTerms (terms.map (Term.relabel f)) := by
  unfold values
  rw [Term.isResource_relabel]
  split_ifs with hs
  · have hquery := h.query ⟨some s, some (.iri p), none⟩
    simp only [TriplePattern.mapTerms, Option.map_none, Option.map_some, Term.relabel_iri] at hquery
    refine ⟨_, rfl, ?_⟩
    rw [hquery, List.map_map, List.map_map]
    rfl
  · exact ⟨[], by simp [sortTerms, sortByKey]⟩

theorem IsRelabelled.values_perm (s : Term) (p : String) :
    (v'.values (s.relabel f) p).Perm ((v.values s p).map (Term.relabel f)) := by
  obtain ⟨terms, hv, hv'⟩ := h.exists_values s p
  rw [hv, hv']
  exact (sortTerms_perm _).trans ((sortTerms_perm _).map _).symm

theorem IsRelabelled.value?_eq_none_iff (s : Term) (p : String) :
    v'.value? (s.relabel f) p = none ↔ v.value? s p = none := by
  rw [value?, value?, List.head?_eq_none_iff, List.head?_eq_none_iff, ← List.isEmpty_iff,
    ← List.isEmpty_iff, (h.values_perm s p).isEmpty_eq, List.isEmpty_map]

/-- Labels do not decide which value is taken, unless that is a blank node. -/
theorem IsRelabelled.value?_eq_some_iff (s x : Term) (p : String) (hx : x.isNamed = true) :
    v'.value? (s.relabel f) p = some x ↔ v.value? s p = some x := by
  obtain ⟨terms, hv, hv'⟩ := h.exists_values s p
  rw [value?, value?, hv, hv', head?_sortTerms_of_isNamed x hx, head?_sortTerms_of_isNamed x hx,
    ← sortTerms_filter, ← sortTerms_filter, filter_isNamed_map_relabel]

/-- What is read of a value, but not of a blank node, does not depend on labels. -/
theorem IsRelabelled.value?_bind {α : Type} (read : Term → Option α)
    (hread : ∀ label, read (.blank label) = none) (s : Term) (p : String) :
    (v'.value? (s.relabel f) p).bind read = (v.value? s p).bind read := by
  have hnamed (x : Term) (y : α) (hx : read x = some y) : x.isNamed = true := by
    cases x with
    | blank label => rw [hread] at hx; cases hx
    | iri => rfl
    | literal => rfl
  refine Option.ext fun y => ?_
  simp only [Option.bind_eq_some_iff]
  exact exists_congr fun x => and_congr_left fun hx => h.value?_eq_some_iff s x p (hnamed x y hx)

theorem IsRelabelled.nameOf_some (target : Term) :
    v'.nameOf (some (target.relabel f)) = v.nameOf (some target) := by
  cases target with
  | literal => rfl
  | iri value => exact h.value?_bind lexical? (fun _ => rfl) (.iri value) Cnv.name
  | blank label => exact h.value?_bind lexical? (fun _ => rfl) (.blank label) Cnv.name

end

end View

namespace Rule

open View

section

variable {f : String → String} {v v' : View} (h : IsRelabelled f v v')

include h

theorem checkReferences_relabel : checkReferences v' = [] ↔ checkReferences v = [] := by
  simp only [checkReferences, List.flatMap_eq_nil_iff, List.filterMap_eq_nil_iff, sortTriples,
    mem_sortByKey]
  refine forall₂_congr fun p _ => ?_
  have hquery := h.query ⟨none, some (.iri p), none⟩
  simp only [TriplePattern.mapTerms, Option.map_none, Option.map_some, Term.relabel_iri] at hquery
  rw [hquery, List.forall_mem_map]
  refine forall₂_congr fun t _ => ?_
  simp only [Triple.mapTerms, Term.isResource_relabel, h.isDeclared]
  split_ifs <;> simp

/-- The parts of a command lead to described resources under other labels too. -/
theorem isDeclared_relabel {s : Term} {p : String}
    (hd : ∀ x ∈ v.values s p, x.isResource = true → v.isDeclared x = true) :
    ∀ x ∈ v'.values (s.relabel f) p, x.isResource = true → v'.isDeclared x = true := by
  intro x' hx' hr
  obtain ⟨x, hx, rfl⟩ := List.mem_map.1 ((h.values_perm s p).mem_iff.1 hx')
  rw [h.isDeclared]
  exact hd x hx ((Term.isResource_relabel f x).symm.trans hr)

theorem values_relabel_singleton_iff (s target : Term) (p : String) :
    v'.values (s.relabel f) p = [target.relabel f] ↔ v.values s p = [target] := by
  have hperm := h.values_perm s p
  rw [← List.perm_singleton, ← List.perm_singleton]
  constructor
  · intro hone
    exact (List.map_perm_map_iff (Term.relabel_inj f h.injective)).1 (hperm.symm.trans hone)
  · exact fun hone => hperm.trans (hone.map _)

theorem checkPart_relabel (c : Term) (p part : String)
    (hd : ∀ x ∈ v.values c p, x.isResource = true → v.isDeclared x = true) :
    checkPart v' (c.relabel f) p part = [] ↔ checkPart v c p part = [] := by
  rw [checkPart_eq_nil_iff_values v c p part hd,
    checkPart_eq_nil_iff_values v' _ p part (isDeclared_relabel h hd)]
  constructor
  · rintro ⟨target', name, hone, hname⟩
    have hin := (h.values_perm c p).mem_iff.1 (hone ▸ List.mem_singleton_self target')
    obtain ⟨target, -, rfl⟩ := List.mem_map.1 hin
    exact ⟨target, name, (values_relabel_singleton_iff h c target p).1 hone,
      (h.nameOf_some target).symm.trans hname⟩
  · rintro ⟨target, name, hone, hname⟩
    exact ⟨target.relabel f, name, (values_relabel_singleton_iff h c target p).2 hone,
      (h.nameOf_some target).trans hname⟩

theorem checkHandler_relabel (c : Term) :
    checkHandler v' (c.relabel f) = [] ↔ checkHandler v c = [] := by
  have hempty := (h.values_perm c Cnv.handler).isEmpty_eq
  rw [List.isEmpty_map] at hempty
  simp only [checkHandler, hempty]
  split_ifs <;> simp

theorem argumentName?_relabel (a : Term) : argumentName? v' (a.relabel f) = argumentName? v a := by
  rw [argumentName?, argumentName?, h.value?_bind lexical? fun _ => rfl]

theorem checkValue_relabel {α : Type} (a : Term) (property kind : String) (read : Term → Option α)
    (hread : ∀ label, read (.blank label) = none) :
    checkValue v' (a.relabel f) property kind read = [] ↔ checkValue v a property kind read = [] := by
  have hcheck (w : View) (b : Term) : checkValue w b property kind read = [] ↔
      w.value? b property = none ∨ ((w.value? b property).bind read).isSome = true := by
    unfold checkValue
    cases w.value? b property with
    | none => simp
    | some x => cases hx : read x <;> simp [hx]
  rw [hcheck, hcheck, h.value?_eq_none_iff, h.value?_bind read hread]

theorem checkArguments_relabel (c : Term)
    (hd : ∀ x ∈ v.arguments c, x.isResource = true → v.isDeclared x = true) :
    checkArguments v' (c.relabel f) [] (v'.arguments (c.relabel f)) = [] ↔
      checkArguments v c [] (v.arguments c) = [] := by
  have hperm := h.values_perm c Cnv.hasArgument
  have hnames : ((v'.arguments (c.relabel f)).filterMap (argumentName? v')).Perm
      ((v.arguments c).filterMap (argumentName? v)) := by
    have hmap := hperm.filterMap (argumentName? v')
    rw [List.filterMap_map] at hmap
    rwa [show argumentName? v' ∘ Term.relabel f = argumentName? v from
      funext (argumentName?_relabel h)] at hmap
  rw [checkArguments_eq_nil_iff_named v c [] _ hd,
    checkArguments_eq_nil_iff_named v' _ [] (v'.arguments _) (isDeclared_relabel h hd), hnames.nodup_iff]
  simp only [View.arguments, hperm.mem_iff, List.forall_mem_map, Term.isResource_relabel,
    argumentName?_relabel h, checkValue_relabel h _ _ _ boolean? fun _ => rfl,
    checkValue_relabel h _ _ _ integer? fun _ => rfl, List.not_mem_nil, not_false_eq_true, implies_true]

/-- Where a resource has one value, the name of the value does not depend on labels. -/
theorem nameOf_value?_relabel (c target : Term) (p : String) (hone : v.values c p = [target]) :
    v'.nameOf (v'.value? (c.relabel f) p) = v.nameOf (v.value? c p) := by
  rw [value?, value?, hone, (values_relabel_singleton_iff h c target p).2 hone, List.head?_cons,
    List.head?_cons, h.nameOf_some]

variable {g : List Triple} (hv : v.Reads g)

include hv

/-- The rules accept a view just if they accept it under other labels. -/
theorem isValid_relabel (validator : Validator) :
    (validator.report v').isValid = true ↔ (validator.report v).isValid = true := by
  rw [report_isValid_iff, report_isValid_iff, checkReferences_relabel h]
  -- Each rule leaves some cases to the ones before it: a part that is not described to the first, and a
  -- command of several nouns, whose key does depend on labels, to the second.
  refine and_congr_right fun hrefs => ?_
  have hd := isDeclared_of_checkReferences hv hrefs
  have hcommands := h.instances_perm Cnv.command
  have hcardinality : checkCardinality v' = [] ↔ checkCardinality v = [] := by
    rw [checkCardinality_eq_nil_iff, checkCardinality_eq_nil_iff]
    simp only [View.commands, hcommands.mem_iff, List.forall_mem_map]
    refine forall₂_congr fun c _ => ?_
    rw [checkPart_relabel h c _ _ (hd c _ (by decide)), checkPart_relabel h c _ _ (hd c _ (by decide)),
      checkHandler_relabel h, checkArguments_relabel h c (hd c _ (by decide))]
  rw [hcardinality]
  refine and_congr_right fun hcard => ?_
  have hkey (c : Term) (hc : c ∈ v.commands) : v'.keyOf? (c.relabel f) = v.keyOf? c := by
    obtain ⟨noun, -, hnoun, -⟩ :=
      exists_part_of_checkCardinality hv hrefs hcard c hc Cnv.hasNoun (by decide)
    obtain ⟨verb, -, hverb, -⟩ :=
      exists_part_of_checkCardinality hv hrefs hcard c hc Cnv.hasVerb (by decide)
    simp only [keyOf?, nounOf, verbOf, nameOf_value?_relabel h c noun _ hnoun,
      nameOf_value?_relabel h c verb _ hverb]
  have hkeys : (v'.commands.filterMap v'.keyOf?).Perm (v.commands.filterMap v.keyOf?) := by
    have hmap := hcommands.filterMap v'.keyOf?
    rw [List.filterMap_map] at hmap
    exact hmap.trans (List.Perm.of_eq (List.filterMap_congr hkey))
  rw [checkUnique_eq_nil_iff, checkUnique_eq_nil_iff, hkeys.nodup_iff]

end

end Rule

end CommandOntology
