import Mathlib.Data.List.Basic
import CommandOntology.Store
import CommandOntology.Proofs.Distinct
import Std.Data.HashMap.Lemmas

set_option autoImplicit false

namespace CommandOntology

def placesOf (terms : List Term) (t : Term) : List Nat :=
  (List.range terms.length).filter fun i => terms[i]? == some t

theorem placesOf_cons (x : Term) (xs : List Term) (t : Term) : placesOf (x :: xs) t =
    if x = t then 0 :: (placesOf xs t).map (· + 1) else (placesOf xs t).map (· + 1) := by
  have hlater : ((List.range xs.length).map Nat.succ).filter (fun i => (x :: xs)[i]? == some t) =
      (placesOf xs t).map (· + 1) := by
    rw [List.filter_map]
    rfl
  rw [placesOf, List.length_cons, List.range_succ_eq_map, List.filter_cons, hlater]
  simp

/-- Following the places of a term leads to the elements that have it as their key. -/
theorem filterMap_placesOf {α : Type} (key : α → Term) (test : α → Bool) (xs : List α) (t : Term) :
    (placesOf (xs.map key) t).filterMap (fun i => xs[i]?.filter test) =
      xs.filter fun x => key x == t && test x := by
  induction xs with
  | nil => rfl
  | cons x xs ih =>
    have hlater : ((placesOf (xs.map key) t).map (· + 1)).filterMap
        (fun i => (x :: xs)[i]?.filter test) = xs.filter fun x => key x == t && test x := by
      rw [List.filterMap_map, ← ih]
      rfl
    rw [List.map_cons, placesOf_cons]
    by_cases hk : key x = t
    · rw [if_pos hk, List.filterMap_cons, hlater]
      cases hx : test x <;> simp [hk, hx, Option.filter_some]
    · rw [if_neg hk, hlater]
      simp [hk]

namespace TermIndex

def Indexes (index : TermIndex) (terms : List Term) : Prop :=
  ∀ t, index.places t = placesOf terms t

theorem places_cons (start : Nat) (x : Term) (xs : List Term) (t : Term) :
    (build start (x :: xs)).places t =
      if x = t then start :: (build (start + 1) xs).places t
      else (build (start + 1) xs).places t := by
  simp only [build, places, Std.HashMap.getD_alter]
  by_cases h : x = t
  · subst h
    simp [Std.HashMap.getD_eq_getD_getElem?]
  · simp [h]

theorem places_build (start : Nat) (terms : List Term) (t : Term) :
    (build start terms).places t = (placesOf terms t).map (· + start) := by
  induction terms generalizing start with
  | nil => simp [build, places, placesOf]
  | cons x xs ih =>
    have hshift : ((placesOf xs t).map (· + 1)).map (· + start) = (placesOf xs t).map (· + (start + 1)) := by
      rw [List.map_map]
      exact List.map_congr_left fun i _ => by simp only [Function.comp_apply]; omega
    rw [places_cons, placesOf_cons, ih]
    split_ifs
    · rw [List.map_cons, hshift, Nat.zero_add]
    · rw [hshift]

theorem indexes_build (terms : List Term) : (build 0 terms).Indexes terms := fun t => by
  rw [places_build]
  simp

end TermIndex

namespace TriplePattern

theorem admits_some (t x : Term) : admits (some t) x = true ↔ t = x := by
  simp [admits]

theorem holds_iff (p : TriplePattern) (t : Triple) :
    p.holds t = true ↔ admits p.subject t.subject = true ∧ admits p.predicate t.predicate = true ∧
      admits p.object t.object = true := by
  simp [holds, and_assoc]

end TriplePattern

namespace MemoryStore

structure IsIndexed (s : MemoryStore) : Prop where
  bySubject : s.bySubject.Indexes (s.toList.map (·.subject))
  byPredicate : s.byPredicate.Indexes (s.toList.map (·.predicate))
  byObject : s.byObject.Indexes (s.toList.map (·.object))

theorem isIndexed_ofList (triples : List Triple) : (ofList triples).IsIndexed :=
  ⟨TermIndex.indexes_build _, TermIndex.indexes_build _, TermIndex.indexes_build _⟩

theorem shortestList_mem (best : List Nat) (rest : List (List Nat)) :
    shortestList best rest ∈ best :: rest := by
  induction rest generalizing best with
  | nil => simp [shortestList]
  | cons places rest ih =>
    simp only [shortestList]
    by_cases hl : places.length < best.length
    · rw [if_pos hl]
      exact List.mem_cons_of_mem best (ih places)
    · rw [if_neg hl]
      have h := ih best
      simp only [List.mem_cons] at h ⊢
      exact h.imp id .inr

def follow (s : MemoryStore) (p : TriplePattern) (places : List Nat) : List Triple :=
  places.filterMap fun i => s.triples[i]?.filter p.holds

theorem holds_of_placeLists_nil {s : MemoryStore} {p : TriplePattern} (h : s.placeLists p = [])
    (x : Triple) : p.holds x = true := by
  obtain ⟨u, q, o⟩ := p
  cases u <;> cases q <;> cases o <;>
    simp [placeLists, TriplePattern.holds, TriplePattern.admits] at h ⊢

namespace IsIndexed

variable {s : MemoryStore} (h : s.IsIndexed)

include h

/-- The places of any bound term lead to all statements that a pattern admits. -/
theorem follow_eq {p : TriplePattern} {places : List Nat} (hplaces : places ∈ s.placeLists p) :
    s.follow p places = s.toList.filter p.holds := by
  have hfound (index : TermIndex) (key : Triple → Term) (t : Term)
      (hindex : index.Indexes (s.toList.map key)) (hkey : ∀ x, p.holds x = true → key x = t) :
      s.follow p (index.places t) = s.toList.filter p.holds := by
    have hscan := filterMap_placesOf key p.holds s.toList t
    simp only [toList, Array.getElem?_toList] at hscan
    rw [follow, hindex t, toList, hscan]
    apply List.filter_congr
    intro x _
    cases hx : p.holds x with
    | false => simp
    | true => simp [hkey x hx]
  simp only [placeLists, List.mem_append, List.mem_map, Option.mem_toList] at hplaces
  obtain (⟨t, ht, rfl⟩ | ⟨t, ht, rfl⟩) | ⟨t, ht, rfl⟩ := hplaces
  · refine hfound _ (·.subject) t h.bySubject fun x hx => ?_
    have hs := ((TriplePattern.holds_iff p x).1 hx).1
    rw [ht, TriplePattern.admits_some] at hs
    exact hs.symm
  · refine hfound _ (·.predicate) t h.byPredicate fun x hx => ?_
    have hs := ((TriplePattern.holds_iff p x).1 hx).2.1
    rw [ht, TriplePattern.admits_some] at hs
    exact hs.symm
  · refine hfound _ (·.object) t h.byObject fun x hx => ?_
    have hs := ((TriplePattern.holds_iff p x).1 hx).2.2
    rw [ht, TriplePattern.admits_some] at hs
    exact hs.symm

theorem query_eq (p : TriplePattern) : s.query p = s.toList.filter p.holds := by
  unfold query
  cases hl : s.placeLists p with
  | nil =>
    have hall : ∀ x ∈ s.toList, p.holds x = true := fun x _ => holds_of_placeLists_nil hl x
    exact (List.filter_eq_self.2 hall).symm
  | cons places rest => exact h.follow_eq (hl ▸ shortestList_mem places rest)

end IsIndexed

theorem query_ofList (triples : List Triple) (p : TriplePattern) :
    (ofList triples).query p = (distinct triples).filter p.holds :=
  (isIndexed_ofList triples).query_eq p

end MemoryStore

theorem Store.query_memory (triples : List Triple) (p : TriplePattern) :
    (Store.ofList .memory triples).query p = (distinct triples).filter p.holds :=
  MemoryStore.query_ofList triples p

theorem Store.toList_memory (triples : List Triple) :
    (Store.ofList .memory triples).toList = distinct triples :=
  rfl

end CommandOntology
