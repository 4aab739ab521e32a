import CommandOntology.Proofs.PrefixTables
import Mathlib.Data.List.Nodup
import Mathlib.Tactic.SplitIfs

set_option autoImplicit false

namespace CommandOntology

section

variable {α : Type} {fields : List (String × α)} {key : String}

theorem findField_cons (field : String × α) (fields : List (String × α)) (name : String) :
    findField (field :: fields) name = if field.1 = name then some field.2 else findField fields name := by
  by_cases hname : field.1 = name <;> simp [findField, hname]

theorem findField_putField (fields : List (String × α)) (key : String) (value : α) (name : String) :
    findField (putField fields key value) name = if key = name then some value else findField fields name := by
  induction fields with
  | nil => rw [putField, findField_cons]
  | cons field fields ih =>
    obtain ⟨other, held⟩ := field
    rw [putField]
    by_cases hkey : other = key
    · subst hkey
      rw [if_pos rfl, findField_cons, findField_cons]
      split_ifs <;> rfl
    · rw [if_neg hkey, findField_cons, findField_cons, ih]
      by_cases hname : other = name
      · rw [if_pos hname, if_pos hname, if_neg (hname ▸ Ne.symm hkey)]
      · rw [if_neg hname, if_neg hname]

theorem map_fst_putField (fields : List (String × α)) (key : String) (value : α) :
    (putField fields key value).map (·.1) =
      if key ∈ fields.map (·.1) then fields.map (·.1) else fields.map (·.1) ++ [key] := by
  induction fields with
  | nil => rfl
  | cons field fields ih =>
    obtain ⟨other, held⟩ := field
    rw [putField]
    by_cases hkey : other = key
    · simp [hkey]
    · rw [if_neg hkey, List.map_cons, ih]
      simp only [List.map_cons, List.mem_cons, Ne.symm hkey, false_or]
      split_ifs <;> rfl

theorem findField_eq_none_iff : findField fields key = none ↔ key ∉ fields.map (·.1) := by
  refine ⟨fun h hmem => ?_, Turtle.findField_eq_none⟩
  obtain ⟨field, hfield, rfl⟩ := List.mem_map.1 hmem
  rw [findField, Option.map_eq_none_iff, List.find?_eq_none] at h
  exact h field hfield (beq_self_eq_true _)

theorem findField_append (fields more : List (String × α)) (key : String) :
    findField (fields ++ more) key = (findField fields key).or (findField more key) := by
  rw [findField, List.find?_append, findField, findField]
  cases fields.find? fun field => field.1 == key <;> rfl

end

namespace Namespaces

inductive Step
  | declare (name iri : String)
  | freeze
  | resolve (name : String)
  | expand (name : String)
  | compact (iri : String)

def perform (t : Namespaces) : Step → Except DeclareError (Namespaces × Option String)
  | .declare name iri => (t.declare name iri).map (·, none)
  | .freeze => .ok (t.freeze, none)
  | .resolve name => .ok (t, t.resolve name)
  | .expand name => .ok (t, t.expand name)
  | .compact iri => .ok (t, t.compact iri)

def after (t : Namespaces) (s : Step) : Namespaces :=
  match t.perform s with
  | .ok r => r.1
  | .error _ => t

def afterAll (t : Namespaces) (steps : List Step) : Namespaces :=
  steps.foldl after t

def declared? (t : Namespaces) : Step → Option (String × String)
  | .declare name iri =>
    match t.declare name iri with
    | .ok _ => some (name, iri)
    | .error _ => none
  | _ => none

def declarations (t : Namespaces) : List Step → List (String × String)
  | [] => []
  | s :: rest => (t.declared? s).toList ++ declarations (t.after s) rest

/-- A table that keeps its bounds: no prefix stands in it twice, and it holds no more of them than it may. -/
structure IsKept (capacity : Nat) (t : Namespaces) : Prop where
  capacity_eq : t.capacity = capacity
  size_le : t.size ≤ capacity
  nodup : (t.entries.map (·.1)).Nodup

section

variable {t : Namespaces} {name iri : String} {capacity : Nat}

/-- A prefix is declared if the table is open, and if it has the prefix already or room for it. -/
theorem declare_cases (t : Namespaces) (name iri : String) :
    ((t.isFrozen = true ∨ t.resolve name = none ∧ t.capacity ≤ t.size) ∧ ∃ e, t.declare name iri = .error e) ∨
    ((t.isFrozen = false ∧ (t.resolve name = none → t.size < t.capacity)) ∧
      t.declare name iri = .ok { t with entries := putField t.entries name iri }) := by
  unfold declare
  split_ifs with hfrozen hfull
  · exact .inl ⟨.inl hfrozen, _, rfl⟩
  · simp only [Bool.and_eq_true, Option.isNone_iff_eq_none, decide_eq_true_eq] at hfull
    exact .inl ⟨.inr hfull, _, rfl⟩
  · simp only [Bool.and_eq_true, Option.isNone_iff_eq_none, decide_eq_true_eq, not_and, not_le] at hfull
    exact .inr ⟨⟨by simpa using hfrozen, hfull⟩, rfl⟩

/-- A step leaves the table, freezes it, or puts the namespace of a prefix in. -/
theorem after_cases (t : Namespaces) (s : Step) :
    (s ≠ .freeze ∧ t.after s = t ∧ t.declared? s = none) ∨
    (s = .freeze ∧ t.after s = t.freeze ∧ t.declared? s = none) ∨
    ∃ name iri, s = .declare name iri ∧ (t.resolve name = none → t.size < t.capacity) ∧
      t.after s = { t with entries := putField t.entries name iri } ∧ t.declared? s = some (name, iri) := by
  cases s with
  | declare name iri =>
    simp only [after, perform, declared?]
    obtain ⟨-, e, h⟩ | ⟨⟨-, hroom⟩, h⟩ := t.declare_cases name iri
    · rw [h]
      exact .inl ⟨nofun, rfl, rfl⟩
    · rw [h]
      exact .inr (.inr ⟨name, iri, rfl, hroom, rfl, rfl⟩)
  | freeze => exact .inr (.inl ⟨rfl, rfl, rfl⟩)
  | _ => exact .inl ⟨nofun, rfl, rfl⟩

theorem IsKept.after (h : t.IsKept capacity) (s : Step) : (t.after s).IsKept capacity := by
  obtain ⟨-, hafter, -⟩ | ⟨-, hafter, -⟩ | ⟨name, iri, -, hroom, hafter, -⟩ := t.after_cases s
  · rwa [hafter]
  · rw [hafter]
    exact ⟨h.capacity_eq, h.size_le, h.nodup⟩
  · have hkeys := map_fst_putField t.entries name iri
    rw [hafter]
    by_cases hmem : name ∈ t.entries.map (·.1)
    · rw [if_pos hmem] at hkeys
      refine ⟨h.capacity_eq, ?_, by rw [hkeys]; exact h.nodup⟩
      have hlength := congrArg List.length hkeys
      simp only [List.length_map] at hlength
      exact hlength.trans_le h.size_le
    · rw [if_neg hmem] at hkeys
      have hlength := congrArg List.length hkeys
      simp only [List.length_append, List.length_map, List.length_singleton] at hlength
      have hlt := hroom (findField_eq_none_iff.2 hmem)
      rw [h.capacity_eq] at hlt
      refine ⟨h.capacity_eq, hlength.trans_le hlt, ?_⟩
      rw [hkeys, ← List.concat_eq_append]
      exact h.nodup.concat hmem

theorem isFrozen_after (t : Namespaces) (s : Step) :
    (t.after s).isFrozen = true ↔ t.isFrozen = true ∨ s = .freeze := by
  obtain ⟨hs, hafter, -⟩ | ⟨hs, hafter, -⟩ | ⟨name, iri, hs, -, hafter, -⟩ := t.after_cases s
  · rw [hafter, or_iff_left hs]
  · rw [hafter]
    exact iff_of_true rfl (.inr hs)
  · rw [hafter, or_iff_left (by rw [hs]; nofun)]

/-- A prefix stands for what a step declares for it, and else for what it stood for before. -/
theorem resolve_after (t : Namespaces) (s : Step) (name : String) :
    (t.after s).resolve name = (findField (t.declared? s).toList name).or (t.resolve name) := by
  obtain ⟨-, hafter, hdeclared⟩ | ⟨-, hafter, hdeclared⟩ | ⟨key, iri, -, -, hafter, hdeclared⟩ := t.after_cases s
  · rw [hafter, hdeclared]
    rfl
  · rw [hafter, hdeclared]
    rfl
  · rw [hafter, hdeclared, resolve, findField_putField, Option.toList_some, findField_cons]
    split_ifs <;> rfl

theorem isKept_empty (capacity : Nat) : (empty capacity).IsKept capacity :=
  ⟨rfl, Nat.zero_le _, List.nodup_nil⟩

theorem IsKept.afterAll (h : t.IsKept capacity) (steps : List Step) : (t.afterAll steps).IsKept capacity := by
  induction steps generalizing t with
  | nil => exact h
  | cons s steps ih => exact ih (h.after s)

theorem isFrozen_afterAll (t : Namespaces) (steps : List Step) :
    (t.afterAll steps).isFrozen = true ↔ t.isFrozen = true ∨ .freeze ∈ steps := by
  induction steps generalizing t with
  | nil => simp [afterAll]
  | cons s steps ih =>
    change ((t.after s).afterAll steps).isFrozen = true ↔ _
    rw [ih, isFrozen_after, List.mem_cons, or_assoc, @eq_comm _ s]

theorem resolve_afterAll (t : Namespaces) (steps : List Step) (name : String) :
    (t.afterAll steps).resolve name = (findField (t.declarations steps).reverse name).or (t.resolve name) := by
  induction steps generalizing t with
  | nil => rfl
  | cons s steps ih =>
    have hone : (t.declared? s).toList.reverse = (t.declared? s).toList := by
      cases t.declared? s <;> rfl
    change ((t.after s).afterAll steps).resolve name = _
    rw [ih, resolve_after, declarations, List.reverse_append, findField_append, hone, Option.or_assoc]

def Covers (t : Namespaces) (iri name start : String) : Prop :=
  t.resolve name = some start ∧ start.toList <+: iri.toList ∧ start ≠ iri

/-- A prefix with the longest namespace that an IRI starts with, and the least of those. -/
def Chooses (t : Namespaces) (iri name start : String) : Prop :=
  t.Covers iri name start ∧ ∀ name' start', t.Covers iri name' start' →
    start'.length < start.length ∨ start'.length = start.length ∧ name ≤ name'

theorem prefix_iff_exists_append {start iri : String} :
    start.toList <+: iri.toList ↔ ∃ rest, iri = start ++ rest := by
  constructor
  · rintro ⟨tail, htail⟩
    exact ⟨String.ofList tail, by rw [← String.toList_inj, String.toList_append, String.toList_ofList, htail]⟩
  · rintro ⟨rest, rfl⟩
    rw [String.toList_append]
    exact List.prefix_append _ _

theorem localName?_eq_some_iff {start iri rest : String} :
    localName? start iri = some rest ↔ iri = start ++ rest ∧ start ≠ iri := by
  have hshorter {rest : String} (hne : start ≠ start ++ rest) : start.length < (start ++ rest).length := by
    refine lt_of_le_of_ne (by rw [String.length_append]; exact Nat.le_add_right _ _) fun hlength => hne ?_
    have hbegins : start.toList <+: (start ++ rest).toList := prefix_iff_exists_append.2 ⟨rest, rfl⟩
    exact String.toList_inj.1 (hbegins.eq_of_length (by rwa [String.length_toList, String.length_toList]))
  rw [localName?]
  split_ifs with h
  · rw [Bool.and_eq_true, List.isPrefixOf_iff_prefix, decide_eq_true_eq] at h
    obtain ⟨tail, rfl⟩ := prefix_iff_exists_append.1 h.1
    have hne : start ≠ start ++ tail := fun heq => absurd (congrArg String.length heq) h.2.ne
    rw [String.toList_append, ← String.length_toList, List.drop_left, String.ofList_toList, Option.some_inj,
      String.append_right_inj]
    exact (and_iff_left hne).symm
  · refine iff_of_false nofun ?_
    rintro ⟨rfl, hne⟩
    rw [Bool.and_eq_true, List.isPrefixOf_iff_prefix, decide_eq_true_eq] at h
    exact h ⟨prefix_iff_exists_append.2 ⟨rest, rfl⟩, hshorter hne⟩

/-- A candidate that is not before another one comes after it, or is its equal. -/
theorem isBefore_eq_false_iff {a b : Candidate} :
    a.isBefore b = false ↔ a.namespaceLength < b.namespaceLength ∨
      a.namespaceLength = b.namespaceLength ∧ b.label ≤ a.label := by
  rw [Candidate.isBefore, Bool.or_eq_false_iff, Bool.and_eq_false_iff, decide_eq_false_iff_not, beq_eq_false_iff_ne,
    decide_eq_false_iff_not, String.not_lt]
  constructor
  · rintro ⟨hle, hne | hlabel⟩
    · exact .inl (by omega)
    · exact (lt_or_eq_of_le (not_lt.1 hle)).imp_right fun heq => ⟨heq, hlabel⟩
  · rintro (hlt | ⟨heq, hlabel⟩)
    · exact ⟨by omega, .inl hlt.ne⟩
    · exact ⟨by omega, .inr hlabel⟩

theorem isBefore_asymm {a b : Candidate} (h : a.isBefore b = true) : b.isBefore a = false := by
  have hnot := mt isBefore_eq_false_iff.2 (by rw [h]; nofun : ¬a.isBefore b = false)
  rw [not_or, not_lt] at hnot
  refine isBefore_eq_false_iff.2 ((lt_or_eq_of_le hnot.1).imp_right fun heq => ⟨heq, ?_⟩)
  exact (String.le_total _ _).resolve_right fun hle => hnot.2 ⟨heq.symm, hle⟩

theorem isBefore_eq_false_trans {a b c : Candidate} (hab : a.isBefore b = false) (hbc : b.isBefore c = false) :
    a.isBefore c = false := by
  rw [isBefore_eq_false_iff] at hab hbc ⊢
  obtain hab | ⟨hab, hlabel⟩ := hab
  · exact .inl (by omega)
  · obtain hbc | ⟨hbc, hlabel'⟩ := hbc
    · exact .inl (by omega)
    · exact .inr ⟨hab.trans hbc, String.le_trans hlabel' hlabel⟩

theorem bestCandidate_eq_none_iff {cs : List Candidate} : bestCandidate cs = none ↔ cs = [] := by
  cases cs with
  | nil => exact iff_of_true rfl rfl
  | cons c cs =>
    refine iff_of_false ?_ nofun
    rw [bestCandidate]
    split
    · nofun
    · split_ifs <;> nofun

/-- The best candidate is one of the candidates, and no other one comes before it. -/
theorem bestCandidate_spec {cs : List Candidate} {c : Candidate} (h : bestCandidate cs = some c) :
    c ∈ cs ∧ ∀ d ∈ cs, d.isBefore c = false := by
  have hrefl (c : Candidate) : c.isBefore c = false := isBefore_eq_false_iff.2 (.inr ⟨rfl, String.le_refl _⟩)
  induction cs generalizing c with
  | nil => cases h
  | cons first rest ih =>
    rw [bestCandidate] at h
    split at h
    · next hnone =>
      cases h
      rw [bestCandidate_eq_none_iff.1 hnone]
      exact ⟨List.mem_cons_self, List.forall_mem_singleton.2 (hrefl _)⟩
    · next d hbest =>
      obtain ⟨hmem, hfirst⟩ := ih hbest
      split_ifs at h with hbefore
      · cases h
        refine ⟨List.mem_cons_of_mem _ hmem, List.forall_mem_cons.2 ⟨?_, hfirst⟩⟩
        exact isBefore_asymm hbefore
      · cases h
        refine ⟨List.mem_cons_self, List.forall_mem_cons.2 ⟨hrefl _, fun e he => ?_⟩⟩
        exact isBefore_eq_false_trans (hfirst e he) (Bool.eq_false_iff.2 hbefore)

theorem mem_candidates_iff (h : t.IsKept capacity) {iri : String} {c : Candidate} : c ∈ t.candidates iri ↔
    ∃ start, t.Covers iri c.label start ∧ c.namespaceLength = start.length ∧ iri = start ++ c.rest := by
  simp only [candidates, List.mem_filterMap, Option.map_eq_some_iff, localName?_eq_some_iff]
  constructor
  · rintro ⟨⟨name, start⟩, hentry, rest, ⟨rfl, hne⟩, rfl⟩
    have hresolve := Turtle.findField_eq_some h.nodup _ hentry
    exact ⟨start, ⟨hresolve, prefix_iff_exists_append.2 ⟨rest, rfl⟩, hne⟩, rfl, rfl⟩
  · rintro ⟨start, ⟨hresolve, -, hne⟩, hlength, hiri⟩
    refine ⟨(c.label, start), Turtle.mem_of_findField_eq_some hresolve, c.rest, ⟨hiri, hne⟩, ?_⟩
    rw [← hlength]

theorem Covers.exists_mem_candidates (h : t.IsKept capacity) {name start : String} (hcovers : t.Covers iri name start) :
    ∃ rest, ⟨start.length, name, rest⟩ ∈ t.candidates iri := by
  obtain ⟨rest, hiri⟩ := prefix_iff_exists_append.1 hcovers.2.1
  exact ⟨rest, (mem_candidates_iff h).2 ⟨start, hcovers, rfl, hiri⟩⟩

theorem compact_eq_none_iff (h : t.IsKept capacity) (iri : String) :
    t.compact iri = none ↔ ∀ name start, ¬t.Covers iri name start := by
  rw [compact, Option.map_eq_none_iff, bestCandidate_eq_none_iff, List.eq_nil_iff_forall_not_mem]
  constructor
  · intro hnone name start hcovers
    obtain ⟨rest, hmem⟩ := hcovers.exists_mem_candidates h
    exact hnone _ hmem
  · intro hnone c hc
    obtain ⟨start, hcovers, -⟩ := (mem_candidates_iff h).1 hc
    exact hnone _ _ hcovers

theorem Chooses.unique {name start name' start' : String} (h : t.Chooses iri name start)
    (h' : t.Chooses iri name' start') : name' = name ∧ start' = start := by
  have hless := h.2 _ _ h'.1
  have hless' := h'.2 _ _ h.1
  obtain ⟨hlength, hle⟩ := hless.resolve_left (by omega)
  obtain ⟨-, hle'⟩ := hless'.resolve_left (by omega)
  refine ⟨String.le_antisymm hle' hle, String.toList_inj.1 ?_⟩
  have hbegins := List.prefix_of_prefix_length_le h'.1.2.1 h.1.2.1
    (by rw [String.length_toList, String.length_toList, hlength])
  exact hbegins.eq_of_length (by rw [String.length_toList, String.length_toList, hlength])

theorem compact_eq_some_iff (h : t.IsKept capacity) {text : String} : t.compact iri = some text ↔
    ∃ name start rest, t.Chooses iri name start ∧ iri = start ++ rest ∧ text = name ++ ":" ++ rest := by
  have hfound {text : String} (htext : t.compact iri = some text) :
      ∃ name start rest, t.Chooses iri name start ∧ iri = start ++ rest ∧ text = name ++ ":" ++ rest := by
    rw [compact, Option.map_eq_some_iff] at htext
    obtain ⟨c, hbest, rfl⟩ := htext
    obtain ⟨hmem, hfirst⟩ := bestCandidate_spec hbest
    obtain ⟨start, hcovers, hlength, hiri⟩ := (mem_candidates_iff h).1 hmem
    refine ⟨c.label, start, c.rest, ⟨hcovers, fun name' start' hcovers' => ?_⟩, hiri, rfl⟩
    obtain ⟨rest', hmem'⟩ := hcovers'.exists_mem_candidates h
    have hbefore := isBefore_eq_false_iff.1 (hfirst _ hmem')
    rwa [hlength] at hbefore
  refine ⟨hfound, ?_⟩
  rintro ⟨name, start, rest, hchooses, hiri, rfl⟩
  obtain ⟨text, htext⟩ := Option.ne_none_iff_exists'.1 fun hnone =>
    (compact_eq_none_iff h iri).1 hnone name start hchooses.1
  obtain ⟨name', start', rest', hchooses', hiri', rfl⟩ := hfound htext
  obtain ⟨rfl, rfl⟩ := hchooses.unique hchooses'
  rw [hiri, String.append_right_inj] at hiri'
  rw [htext, hiri']

/-- A short form is read back as the IRI, where no prefix holds a colon. -/
theorem expand_compact (h : t.IsKept capacity) (hcolon : ∀ name start, t.resolve name = some start → ':' ∉ name.toList)
    {text : String} (htext : t.compact iri = some text) : t.expand text = some iri := by
  obtain ⟨name, start, rest, hchooses, rfl, rfl⟩ := (compact_eq_some_iff h).1 htext
  have hresolve := hchooses.1.1
  rw [expand, Turtle.splitName_of_not_mem (hcolon name start hresolve)]
  dsimp only
  rw [hresolve]
  rfl

/-- The short form depends on what the prefixes stand for, and not on their order. -/
theorem compact_congr {t' : Namespaces} {capacity' : Nat} (h : t.IsKept capacity) (h' : t'.IsKept capacity')
    (hresolve : ∀ name, t'.resolve name = t.resolve name) (iri : String) : t'.compact iri = t.compact iri := by
  have hcovers : t'.Covers = t.Covers := by
    funext iri name start
    rw [Covers, Covers, hresolve]
  have hchooses : t'.Chooses = t.Chooses := by
    funext iri name start
    rw [Chooses, Chooses, hcovers]
  refine Option.ext fun text => ?_
  rw [compact_eq_some_iff h, compact_eq_some_iff h', hchooses]

/-- A declaration fails if the table is frozen, or if the prefix is new and there is no room for it. Nothing else
fails. -/
theorem perform_eq_error_iff (h : t.IsKept capacity) (s : Step) : (∃ e, t.perform s = .error e) ↔
    ∃ name iri, s = .declare name iri ∧ (t.isFrozen = true ∨ t.resolve name = none ∧ t.size = capacity) := by
  cases s with
  | declare name iri =>
    have hfull : t.capacity ≤ t.size ↔ t.size = capacity := by
      rw [h.capacity_eq]
      exact ⟨h.size_le.antisymm, Eq.ge⟩
    obtain ⟨hcause, e, he⟩ | ⟨hroom, hok⟩ := t.declare_cases name iri
    · rw [hfull] at hcause
      exact iff_of_true ⟨e, by rw [perform, he]; rfl⟩ ⟨name, iri, rfl, hcause⟩
    · refine iff_of_false (by rw [perform, hok]; nofun) ?_
      rintro ⟨_, _, ⟨⟩, hfrozen | ⟨hnew, hsize⟩⟩
      · exact absurd hfrozen (by rw [hroom.1]; nofun)
      · exact absurd (hroom.2 hnew) (not_lt.2 (hfull.2 hsize))
  | _ => exact iff_of_false nofun nofun

end

/-- Whatever is done with an empty table, it keeps within its capacity; a step that fails declares a prefix in a
frozen table or a new one in a full table, and leaves the table as it is; a prefix stands for what was declared for
it last; and the short form of an IRI is by the longest namespace and the least prefix, is read back as the IRI,
and does not depend on the order of the declarations. -/
theorem afterAll_empty (capacity : Nat) (steps : List Step) :
    let t := (empty capacity).afterAll steps
    t.size ≤ capacity ∧
    (∀ s, (∃ e, t.perform s = .error e) ↔ ∃ name iri, s = .declare name iri ∧
      (.freeze ∈ steps ∨ t.resolve name = none ∧ t.size = capacity)) ∧
    (∀ s e, t.perform s = .error e → t.after s = t) ∧
    (∀ name, t.resolve name = findField ((empty capacity).declarations steps).reverse name) ∧
    ∀ iri,
      (t.compact iri = none ↔ ∀ name start, ¬t.Covers iri name start) ∧
      (∀ text, t.compact iri = some text ↔
        ∃ name start rest, t.Chooses iri name start ∧ iri = start ++ rest ∧ text = name ++ ":" ++ rest) ∧
      ((∀ name start, t.resolve name = some start → ':' ∉ name.toList) →
        ∀ text, t.compact iri = some text → t.expand text = some iri) ∧
      ∀ capacity' steps', (∀ name, ((empty capacity').afterAll steps').resolve name = t.resolve name) →
        ((empty capacity').afterAll steps').compact iri = t.compact iri := by
  intro t
  have hkept : t.IsKept capacity := (isKept_empty capacity).afterAll steps
  have hfrozen : t.isFrozen = true ↔ .freeze ∈ steps := by
    rw [isFrozen_afterAll]
    exact or_iff_right nofun
  refine ⟨hkept.size_le, fun s => ?_, fun s e he => ?_, fun name => ?_, fun iri => ⟨compact_eq_none_iff hkept iri,
    fun text => compact_eq_some_iff hkept, fun hcolon text => expand_compact hkept hcolon, fun capacity' steps' h =>
    compact_congr hkept ((isKept_empty capacity').afterAll steps') h iri⟩⟩
  · rw [perform_eq_error_iff hkept, hfrozen]
  · rw [after, he]
  · rw [resolve_afterAll]
    exact Option.or_none

/-- The longest namespace is taken, whenever it was declared. -/
example :
    let t := (empty 2).afterAll [.declare "ex" "urn:a", .declare "ac" "urn:a#", .freeze, .declare "no" "urn:a#b"]
    t.compact "urn:a#bc" = some "ac:bc" ∧ t.expand "ac:bc" = some "urn:a#bc" := by
  decide

end Namespaces

end CommandOntology
