import Mathlib.Data.List.Nodup
import CommandOntology.Ontology.View
import CommandOntology.Proofs.StoreAnswers
import CommandOntology.Proofs.TermOrder

set_option autoImplicit false

namespace CommandOntology

/-- A statement whose line form tells it apart: a resource has a marked term under an IRI. -/
structure Triple.IsStatement (t : Triple) : Prop where
  subject : t.subject.isResource = true
  predicate : ∃ iri, t.predicate = .iri iri
  object : t.object.IsMarked

def Says (g : List Triple) (subject : Term) (predicate : String) (object : Term) : Prop :=
  (⟨subject, .iri predicate, object⟩ : Triple) ∈ g

def IsLeastValue (g : List Triple) (subject : Term) (predicate : String) (object : Term) : Prop :=
  Says g subject predicate object ∧ ∀ other, Says g subject predicate other →
    object.lineForm ≤ other.lineForm

namespace View

theorem lexical?_eq_of_lineForm {a b : Term} (h : a.lineForm = b.lineForm) : lexical? a = lexical? b := by
  have hchars := congrArg String.toList h
  cases a with
  | iri value => cases b <;> first | rfl | simp [Term.lineForm, Term.quotedLiteral] at hchars
  | blank label => cases b <;> first | rfl | simp [Term.lineForm, Term.quotedLiteral] at hchars
  | literal lexical datatype language =>
    cases b with
    | iri value => simp [Term.lineForm, Term.quotedLiteral] at hchars
    | blank label => simp [Term.lineForm, Term.quotedLiteral] at hchars
    | literal lexical' datatype' language' =>
      simp only [Term.lineForm, Term.quotedLiteral, String.toList_append, String.toList_ofList,
        List.cons_append, List.append_assoc, List.nil_append, List.cons.injEq, true_and] at hchars
      obtain ⟨htext, -⟩ := Term.flatMap_literalChar_inj _ _ _ _ hchars
      rw [lexical?, lexical?, String.toList_inj.1 htext]

/-- The store of a view answers questions about resources from a set of statements, in some order. -/
structure Reads (v : View) (g : List Triple) : Prop where
  query : ∀ p : TriplePattern, (∀ t ∈ p.terms, t.isResource = true) →
    (v.store.query p).Perm (g.filter p.holds)
  declared : ∀ t, v.isDeclared t = true ↔ ∃ x ∈ g, x.subject = t
  nodup : g.Nodup

theorem reads_memory (triples : List Triple) :
    (ofStore (.ofList .memory triples)).Reads (distinct triples) where
  query p _ := by
    rw [ofStore, Store.query_memory]
  declared t := by
    simp [isDeclared, ofStore, Store.subjects, Store.toList_memory]
  nodup := nodup_distinct triples

theorem isResource_classTerms (classIri : String) :
    ∀ t ∈ (⟨none, some (.iri Rdf.type), some (.iri classIri)⟩ : TriplePattern).terms,
      t.isResource = true := by
  simp [TriplePattern.terms, Term.isResource]

theorem isResource_predicateTerms (p : String) :
    ∀ t ∈ (⟨none, some (.iri p), none⟩ : TriplePattern).terms, t.isResource = true := by
  simp [TriplePattern.terms, Term.isResource]

theorem isResource_valueTerms (s : Term) (p : String) (hs : s.isResource = true) :
    ∀ t ∈ (⟨some s, some (.iri p), none⟩ : TriplePattern).terms, t.isResource = true := by
  simpa [TriplePattern.terms, Term.isResource] using hs

section

variable {v : View} {g : List Triple} (h : v.Reads g)

include h

theorem Reads.mem_query (p : TriplePattern) (hp : ∀ t ∈ p.terms, t.isResource = true) (t : Triple) :
    t ∈ v.store.query p ↔ t ∈ g ∧ p.holds t = true := by
  rw [(h.query p hp).mem_iff, List.mem_filter]

theorem Reads.nodup_query (p : TriplePattern) (hp : ∀ t ∈ p.terms, t.isResource = true) :
    (v.store.query p).Nodup :=
  (h.query p hp).nodup_iff.2 (h.nodup.filter _)

theorem Reads.mem_instances (classIri : String) (t : Term) :
    t ∈ v.instances classIri ↔ Says g t Rdf.type (.iri classIri) := by
  rw [instances, mem_sortTerms, List.mem_map]
  constructor
  · rintro ⟨⟨s, p, o⟩, hx, rfl⟩
    obtain ⟨hg, hp⟩ := (h.mem_query _ (isResource_classTerms classIri) _).1 hx
    simp only [TriplePattern.holds_iff, TriplePattern.admits_some] at hp
    obtain ⟨-, rfl, rfl⟩ := hp
    exact hg
  · intro hs
    refine ⟨_, (h.mem_query _ (isResource_classTerms classIri) _).2 ⟨hs, ?_⟩, rfl⟩
    simp [TriplePattern.holds_iff, TriplePattern.admits]

theorem Reads.nodup_instances (classIri : String) : (v.instances classIri).Nodup := by
  rw [instances, (sortTerms_perm _).nodup_iff]
  refine (h.nodup_query _ (isResource_classTerms classIri)).map_on ?_
  rintro ⟨s, p, o⟩ hx ⟨s', p', o'⟩ hy (rfl : s = s')
  have hxp := ((h.mem_query _ (isResource_classTerms classIri) _).1 hx).2
  have hyp := ((h.mem_query _ (isResource_classTerms classIri) _).1 hy).2
  simp only [TriplePattern.holds_iff, TriplePattern.admits_some] at hxp hyp
  obtain ⟨-, rfl, rfl⟩ := hxp
  obtain ⟨-, rfl, rfl⟩ := hyp
  rfl

theorem Reads.mem_values (s x : Term) (p : String) :
    x ∈ v.values s p ↔ s.isResource = true ∧ Says g s p x := by
  unfold values
  by_cases hs : s.isResource = true
  · rw [if_pos hs, mem_sortTerms, List.mem_map]
    constructor
    · rintro ⟨⟨s', p', o'⟩, hx, rfl⟩
      obtain ⟨hg, hp⟩ := (h.mem_query _ (isResource_valueTerms s p hs) _).1 hx
      simp only [TriplePattern.holds_iff, TriplePattern.admits_some] at hp
      obtain ⟨rfl, rfl, -⟩ := hp
      exact ⟨hs, hg⟩
    · rintro ⟨-, hg⟩
      refine ⟨_, (h.mem_query _ (isResource_valueTerms s p hs) _).2 ⟨hg, ?_⟩, rfl⟩
      simp [TriplePattern.holds_iff, TriplePattern.admits]
  · simp [hs]

theorem Reads.nodup_values (s : Term) (p : String) : (v.values s p).Nodup := by
  unfold values
  split
  next hs =>
    rw [(sortTerms_perm _).nodup_iff]
    refine (h.nodup_query _ (isResource_valueTerms s p hs)).map_on ?_
    rintro ⟨s₁, p₁, o₁⟩ hx ⟨s₂, p₂, o₂⟩ hy (rfl : o₁ = o₂)
    have hxp := ((h.mem_query _ (isResource_valueTerms s p hs) _).1 hx).2
    have hyp := ((h.mem_query _ (isResource_valueTerms s p hs) _).1 hy).2
    simp only [TriplePattern.holds_iff, TriplePattern.admits_some] at hxp hyp
    obtain ⟨rfl, rfl, -⟩ := hxp
    obtain ⟨rfl, rfl, -⟩ := hyp
    rfl
  next => exact List.nodup_nil

theorem Reads.value?_eq_none_iff (s : Term) (p : String) (hs : s.isResource = true) :
    v.value? s p = none ↔ ∀ x, ¬ Says g s p x := by
  rw [value?, List.head?_eq_none_iff, List.eq_nil_iff_forall_not_mem]
  simp [h.mem_values, hs]

theorem Reads.mem_valueTerms (s x : Term) (p : String) (hs : s.isResource = true) :
    x ∈ (v.store.query ⟨some s, some (.iri p), none⟩).map (·.object) ↔ Says g s p x := by
  have hmem := h.mem_values s x p
  rw [values, if_pos hs, mem_sortTerms] at hmem
  simpa [hs] using hmem

theorem Reads.isLeastValue (s x : Term) (p : String) (hs : s.isResource = true)
    (hx : v.value? s p = some x) : IsLeastValue g s p x := by
  rw [value?, values, if_pos hs] at hx
  obtain ⟨hin, hleast⟩ := isLeast_of_head?_sortTerms hx
  exact ⟨(h.mem_valueTerms s x p hs).1 hin, fun y hy => hleast y ((h.mem_valueTerms s y p hs).2 hy)⟩

/-- The text of the first value is the same for all values that come first. -/
theorem Reads.value?_lexical?_eq_some_iff (s : Term) (p name : String) (hs : s.isResource = true) :
    (v.value? s p).bind lexical? = some name ↔
      ∃ datatype language, IsLeastValue g s p (.literal name datatype language) := by
  rw [Option.bind_eq_some_iff]
  constructor
  · rintro ⟨x, hx, hl⟩
    have hleast := h.isLeastValue s x p hs hx
    cases x <;> simp only [lexical?, reduceCtorEq, Option.some.injEq] at hl
    subst hl
    exact ⟨_, _, hleast⟩
  · rintro ⟨datatype, language, hleast⟩
    cases hx : v.value? s p with
    | none => exact absurd hleast.1 ((h.value?_eq_none_iff s p hs).1 hx _)
    | some x =>
      have hfirst := h.isLeastValue s x p hs hx
      have hform := String.le_antisymm (hfirst.2 _ hleast.1) (hleast.2 x hfirst.1)
      exact ⟨x, rfl, lexical?_eq_of_lineForm hform⟩

theorem Reads.value?_eq_some_iff (hg : ∀ t ∈ g, t.IsStatement) (s x : Term) (p : String)
    (hs : s.isResource = true) : v.value? s p = some x ↔ IsLeastValue g s p x := by
  have hm : ∀ y ∈ (v.store.query ⟨some s, some (.iri p), none⟩).map (·.object), y.IsMarked := by
    intro y hy
    obtain ⟨t, ht, rfl⟩ := List.mem_map.1 hy
    exact (hg t ((h.mem_query _ (isResource_valueTerms s p hs) _).1 ht).1).object
  have hv (y : Term) := h.mem_valueTerms s y p hs
  rw [value?, values, if_pos hs, head?_sortTerms_eq_some_iff _ _ hm, hv]
  exact and_congr_right fun _ => forall_congr' fun y => by rw [hv]

end

end View

end CommandOntology
