import CommandOntology.Proofs.StoreAnswers

set_option autoImplicit false

namespace CommandOntology

theorem placesOf_append (terms : List Term) (x t : Term) :
    placesOf (terms ++ [x]) t = placesOf terms t ++ if x = t then [terms.length] else [] := by
  have hbefore : (List.range terms.length).filter (fun i => (terms ++ [x])[i]? == some t) =
      placesOf terms t := by
    refine List.filter_congr fun i hi => ?_
    rw [List.getElem?_append_left (List.mem_range.1 hi)]
  have hlast : (terms ++ [x])[terms.length]? = some x := by simp
  rw [placesOf, List.length_append, List.length_singleton, List.range_succ, List.filter_append, hbefore,
    List.filter_singleton, hlast]
  by_cases hx : x = t
  · simp [hx]
  · simp [hx, beq_eq_false_iff_ne.2 hx]

namespace TermIndex

def add (index : TermIndex) (t : Term) (place : Nat) : TermIndex :=
  index.alter t fun places => some (places.getD [] ++ [place])

theorem places_add (index : TermIndex) (x : Term) (place : Nat) (t : Term) :
    (index.add x place).places t = index.places t ++ if x = t then [place] else [] := by
  simp only [add, places, Std.HashMap.getD_alter]
  by_cases hx : x = t
  · subst hx
    simp [Std.HashMap.getD_eq_getD_getElem?]
  · simp [hx]

theorem indexes_nil : Indexes ∅ [] := fun t => by
  simp [places, placesOf]

theorem Indexes.add {index : TermIndex} {terms : List Term} (h : index.Indexes terms) (x : Term) :
    (index.add x terms.length).Indexes (terms ++ [x]) := fun t => by
  rw [places_add, placesOf_append, h t]

end TermIndex

namespace MemoryStore

def empty : MemoryStore :=
  ⟨#[], ∅, ∅, ∅⟩

def insert (s : MemoryStore) (t : Triple) : MemoryStore :=
  if t ∈ s.toList then s
  else
    { triples := s.triples.push t
      bySubject := s.bySubject.add t.subject s.size
      byPredicate := s.byPredicate.add t.predicate s.size
      byObject := s.byObject.add t.object s.size }

theorem toList_insert (s : MemoryStore) (t : Triple) :
    (s.insert t).toList = if t ∈ s.toList then s.toList else s.toList ++ [t] := by
  unfold insert
  split_ifs
  · rfl
  · simp [toList]

theorem isIndexed_empty : empty.IsIndexed :=
  ⟨TermIndex.indexes_nil, TermIndex.indexes_nil, TermIndex.indexes_nil⟩

theorem IsIndexed.insert {s : MemoryStore} (h : s.IsIndexed) (t : Triple) : (s.insert t).IsIndexed := by
  by_cases ht : t ∈ s.toList
  · rw [MemoryStore.insert, if_pos ht]
    exact h
  · have hlist : (s.insert t).toList = s.toList ++ [t] := by rw [toList_insert, if_neg ht]
    have hsize (key : Triple → Term) : s.size = (s.toList.map key).length := by simp [size, toList]
    constructor
    · rw [hlist, List.map_append, MemoryStore.insert, if_neg ht, hsize (·.subject)]
      exact h.bySubject.add t.subject
    · rw [hlist, List.map_append, MemoryStore.insert, if_neg ht, hsize (·.predicate)]
      exact h.byPredicate.add t.predicate
    · rw [hlist, List.map_append, MemoryStore.insert, if_neg ht, hsize (·.object)]
      exact h.byObject.add t.object

theorem IsIndexed.foldl_insert {s : MemoryStore} (h : s.IsIndexed) (triples : List Triple) :
    (triples.foldl MemoryStore.insert s).IsIndexed := by
  induction triples generalizing s with
  | nil => exact h
  | cons t rest ih => exact ih (h.insert t)

/-- Of the statements that are inserted those are new that the store does not have, each at its first
occurrence. -/
theorem toList_foldl_insert (triples : List Triple) (s : MemoryStore) (seen : List Triple)
    (hseen : ∀ t, t ∈ seen ↔ t ∈ s.toList) :
    (triples.foldl insert s).toList = s.toList ++ distinctByFrom id seen triples := by
  induction triples generalizing s seen with
  | nil => simp [distinctByFrom]
  | cons t rest ih =>
    have hlist := toList_insert s t
    by_cases ht : t ∈ s.toList
    · rw [if_pos ht] at hlist
      rw [List.foldl_cons, ih _ seen (by simpa [hlist] using hseen), hlist, distinctByFrom, id,
        if_pos ((hseen t).2 ht)]
    · rw [if_neg ht] at hlist
      have hmore : ∀ u, u ∈ t :: seen ↔ u ∈ (s.insert t).toList := fun u => by
        rw [hlist, List.mem_append, List.mem_singleton, List.mem_cons, hseen u, or_comm]
      rw [List.foldl_cons, ih _ (t :: seen) hmore, hlist, distinctByFrom, id,
        if_neg (mt (hseen t).1 ht), List.append_assoc, List.singleton_append]

end MemoryStore

namespace TriplePattern

structure Matches (p : TriplePattern) (t : Triple) : Prop where
  subject : ∀ x ∈ p.subject, x = t.subject
  predicate : ∀ x ∈ p.predicate, x = t.predicate
  object : ∀ x ∈ p.object, x = t.object

theorem holds_iff_matches (p : TriplePattern) (t : Triple) : p.holds t = true ↔ p.Matches t := by
  have hplace (place : Option Term) (x : Term) : admits place x = true ↔ ∀ y ∈ place, y = x := by
    cases place <;> simp [admits]
  rw [holds_iff, hplace, hplace, hplace]
  exact ⟨fun h => ⟨h.1, h.2.1, h.2.2⟩, fun h => ⟨h.subject, h.predicate, h.object⟩⟩

def IsForeign (p : TriplePattern) (triples : List Triple) : Prop :=
  (∃ x ∈ p.subject, ∀ t ∈ triples, t.subject ≠ x) ∨
    (∃ x ∈ p.predicate, ∀ t ∈ triples, t.predicate ≠ x) ∨ ∃ x ∈ p.object, ∀ t ∈ triples, t.object ≠ x

theorem IsForeign.not_matches {p : TriplePattern} {triples : List Triple} (h : p.IsForeign triples) :
    ∀ t ∈ triples, ¬p.Matches t := by
  intro t ht hmatches
  obtain ⟨x, hx, hnone⟩ | ⟨x, hx, hnone⟩ | ⟨x, hx, hnone⟩ := h
  · exact hnone t ht (hmatches.subject x hx).symm
  · exact hnone t ht (hmatches.predicate x hx).symm
  · exact hnone t ht (hmatches.object x hx).symm

end TriplePattern

namespace MemoryStore

/-- A store answers with the statements that match, as a scan of all statements without their repetitions
would, whether they were stored at once or one after the other. Whichever index is followed leads to this
answer, and there is none for a pattern with a term that the store does not know. -/
theorem query_scan (triples : List Triple) (p : TriplePattern) :
    (ofList triples).query p = triples.eraseDups.filter p.holds ∧
      (∀ t, p.holds t = true ↔ p.Matches t) ∧
      (triples.foldl insert empty).query p = (ofList triples).query p ∧
      (∀ places ∈ (ofList triples).placeLists p,
        (ofList triples).follow p places = (ofList triples).query p) ∧
      (p.IsForeign triples → (ofList triples).query p = []) := by
  have hindexed := isIndexed_ofList triples
  have hlist : (triples.foldl insert empty).toList = (ofList triples).toList :=
    toList_foldl_insert triples empty [] fun t => by simp [empty, toList]
  refine ⟨?_, p.holds_iff_matches, ?_, fun places hplaces => ?_, fun hforeign => ?_⟩
  · rw [query_ofList, distinct_eq_eraseDups]
  · rw [(isIndexed_empty.foldl_insert triples).query_eq, hindexed.query_eq, hlist]
  · rw [hindexed.follow_eq hplaces, hindexed.query_eq]
  · rw [query_ofList, List.filter_eq_nil_iff]
    intro t ht
    rw [p.holds_iff_matches]
    exact hforeign.not_matches t ((mem_distinct t triples).1 ht)

end MemoryStore

end CommandOntology
