import CommandOntology.Proofs.RecordedStatements

set_option autoImplicit false

namespace CommandOntology

/-- What is kept of a list stands in the order in which it first occurs there. -/
theorem pairwise_idxOf_distinctByFrom {α : Type} [DecidableEq α] (seen xs : List α) :
    (distinctByFrom id seen xs).Pairwise fun a b => xs.idxOf a < xs.idxOf b := by
  induction xs generalizing seen with
  | nil => exact .nil
  | cons x xs ih =>
    have hshift (seen : List α) (hx : x ∈ seen) :
        (distinctByFrom id seen xs).Pairwise fun a b => (x :: xs).idxOf a < (x :: xs).idxOf b := by
      refine (ih seen).imp_of_mem fun {a b} ha hb hab => ?_
      have hne {y : α} (hy : y ∈ distinctByFrom id seen xs) : x ≠ y := by
        rintro rfl
        exact ((mem_distinctByFrom_id x seen xs).1 hy).2 hx
      rw [List.idxOf_cons_ne _ (hne ha), List.idxOf_cons_ne _ (hne hb)]
      exact Nat.succ_lt_succ hab
    by_cases hx : x ∈ seen
    · simpa [distinctByFrom, hx] using hshift seen hx
    · rw [distinctByFrom, if_neg (by simpa using hx)]
      refine .cons (fun y hy => ?_) (hshift (x :: seen) List.mem_cons_self)
      have hne : x ≠ y := by
        rintro rfl
        exact ((mem_distinctByFrom_id x _ xs).1 hy).2 List.mem_cons_self
      rw [List.idxOf_cons_self, List.idxOf_cons_ne _ hne]
      exact Nat.succ_pos _

theorem pairwise_idxOf_distinct {α : Type} [DecidableEq α] (xs : List α) :
    (distinct xs).Pairwise fun a b => xs.idxOf a < xs.idxOf b :=
  pairwise_idxOf_distinctByFrom [] xs

namespace Turtle

variable {control : Control} {scope : Scope} {token : Token} {e : ParseError}

inductive Scope.Refuses (s : Scope) : ParseError → Prop
  | reference {e : ParseError} (reference : String) (line : Nat) (h : s.resolveReference reference line = .error e) :
    s.Refuses e
  | name {e : ParseError} (label rest : String) (p : Position) (h : s.resolveName label rest p = .error e) :
    s.Refuses e
  | declaration {e : ParseError} (label iri : String) (line : Nat) (h : s.declare label iri line = .error e) :
    s.Refuses e

theorem refuses_of_map {f : String → Control × Scope}
    (h : ((scope.resolveIri? token).map fun iri => iri.map f) = some (.error e)) : scope.Refuses e := by
  obtain ⟨resolved, hr, he⟩ := Option.map_eq_some_iff.1 h
  rw [map_eq_error_iff] at he
  subst he
  unfold Scope.resolveIri? at hr
  split at hr
  · exact .reference _ _ (Option.some.inj hr)
  · exact .name _ _ _ (Option.some.inj hr)
  · cases hr

theorem refuses_of_takeNode {use : Use} (h : takeNode scope token use = some (.error e)) : scope.Refuses e := by
  unfold takeNode at h
  split at h
  · cases h
  · cases h
  · cases h
  · exact refuses_of_map h

theorem refuses_of_takeObject {use : Use} (h : takeObject scope token use = some (.error e)) :
    scope.Refuses e := by
  unfold takeObject at h
  split at h
  · cases h
  · cases h
  · split_ifs at h
    cases h
  · exact refuses_of_takeNode h

theorem refuses_of_takePredicate {subject : Term} {context : Context}
    (h : takePredicate scope token subject context = some (.error e)) : scope.Refuses e := by
  unfold takePredicate at h
  split at h
  · split_ifs at h
    cases h
  · exact refuses_of_map h

theorem refuses_of_takeStatement (h : takeStatement scope token = some (.error e)) : scope.Refuses e := by
  unfold takeStatement at h
  split at h
  · cases h
  · obtain ⟨d, -, hd⟩ := Option.map_eq_some_iff.1 h
    cases hd
  · exact refuses_of_takeNode h

theorem refuses_of_take (h : take control scope token = some (.error e)) : scope.Refuses e := by
  revert h
  fun_cases take control scope token with
  | case1 => exact refuses_of_takeStatement
  | case3 line isClosed directiveLine label reference hl =>
    intro h
    obtain hr | ⟨iri, -, hd⟩ := (bind_eq_error_iff _ _ _).1 (Option.some.inj h)
    · exact .reference _ _ hr
    · obtain hd | ⟨scope', -, hr⟩ := (bind_eq_error_iff _ _ _).1 hd
      · exact .declaration _ _ _ hd
      · cases hr
  | case4 line isClosed reference hl =>
    intro h
    obtain hr | ⟨iri, -, hd⟩ := (bind_eq_error_iff _ _ _).1 (Option.some.inj h)
    · exact .reference _ _ hr
    · cases hd
  | case7 => exact refuses_of_takePredicate
  | case9 => exact refuses_of_takePredicate
  | case10 => exact refuses_of_takePredicate
  | case11 => exact refuses_of_takeObject
  | case15 => exact refuses_of_takePredicate
  | case19 => exact refuses_of_takeObject
  | case22 => exact refuses_of_map
  | _ => exact fun h => by cases h

def ParseError.IsConflict : ParseError → Prop
  | .conflict .. => True
  | _ => False

theorem Scope.Refuses.not_isConflict (h : scope.Refuses e) : ¬e.IsConflict := by
  cases h with
  | reference reference line h =>
    unfold Scope.resolveReference at h
    split at h
    · cases h
      exact id
    · split_ifs at h
      split at h
      · cases h
        exact id
      · next base _ =>
        cases hr : Iri.resolve base reference <;> rw [hr] at h <;> cases h
        exact id
  | name label rest p h =>
    unfold Scope.resolveName at h
    split at h <;> cases h
    exact id
  | declaration label iri line h =>
    unfold Scope.declare at h
    split at h <;> cases h <;> exact id

theorem not_isConflict_of_run {stop : Position} {tokens : List Token} (h : (run stop control scope tokens).2 = some e) :
    ¬e.IsConflict := by
  induction tokens generalizing control scope with
  | nil =>
    unfold run finish at h
    dsimp only at h
    split at h <;> cases h
    exact id
  | cons token tokens ih =>
    rw [run] at h
    cases hs : step control scope token with
    | mk scope₁ outcome =>
      rw [hs] at h
      cases outcome with
      | ok state => exact ih h
      | error e' =>
        cases h
        unfold step at hs
        dsimp only at hs
        split at hs
        · next ht =>
          cases hs
          exact (refuses_of_take ht).not_isConflict
        · cases hs
          exact id

/-- The first statement of a sequence that disagrees with one before it, and the first one that has its subject and
its predicate. -/
def IsFirstConflict (functional : List String) (emissions : List Emission) (first conflicting : Emission) : Prop :=
  ∃ before after, emissions = before ++ conflicting :: after ∧ IsSingleValued functional (before.map (·.triple)) ∧
    (before.find? fun e => e.triple.subject = conflicting.triple.subject &&
      e.triple.predicate = conflicting.triple.predicate) = some first ∧
    isFunctional functional conflicting.triple.predicate = true ∧ first.triple.object ≠ conflicting.triple.object

variable {functional : List String}

/-- The value that a statement is in conflict with is that of the first statement of its subject and predicate. -/
theorem exists_of_conflicting? {before : List Emission} {recorded : List Triple} {t : Triple} {existing : Term}
    (hrecorded : ∀ u, u ∈ recorded ↔ u ∈ before.map (·.triple))
    (hsingle : IsSingleValued functional (before.map (·.triple)))
    (h : conflicting? functional recorded t = some existing) :
    isFunctional functional t.predicate = true ∧ existing ≠ t.object ∧ ∃ first,
      (before.find? fun e => e.triple.subject = t.subject && e.triple.predicate = t.predicate) = some first ∧
        first.triple.object = existing := by
  unfold conflicting? at h
  split_ifs at h with hf
  obtain ⟨r, hr, rfl⟩ := Option.map_eq_some_iff.1 h
  have hmem := (hrecorded r).1 (List.mem_of_find?_eq_some hr)
  have hr := List.find?_some hr
  simp only [ne_eq, Bool.and_eq_true, decide_eq_true_eq] at hr
  obtain ⟨⟨hsubject, hpredicate⟩, hobject⟩ := hr
  obtain ⟨e, he, rfl⟩ := List.mem_map.1 hmem
  obtain ⟨first, hfirst⟩ : ∃ first, (before.find? fun e =>
      e.triple.subject = t.subject && e.triple.predicate = t.predicate) = some first := by
    refine Option.isSome_iff_exists.1 (List.find?_isSome.2 ⟨e, he, ?_⟩)
    simp [hsubject, hpredicate]
  have hfirst' := List.find?_some hfirst
  simp only [Bool.and_eq_true, decide_eq_true_eq] at hfirst'
  have hagree := hsingle _ (List.mem_map_of_mem (List.mem_of_find?_eq_some hfirst)) _ hmem
  exact ⟨hf, hobject, first, hfirst,
    hagree (hfirst'.2 ▸ hf) (hfirst'.1.trans hsubject.symm) (hfirst'.2.trans hpredicate.symm)⟩

def conflictError (first conflicting : Emission) : ParseError :=
  .conflict conflicting.triple.subject conflicting.triple.predicate.text first.triple.object
    conflicting.triple.object conflicting.line

theorem exists_of_record_error {before rest : List Emission} {recorded : List Triple}
    (hrecorded : ∀ t, t ∈ recorded ↔ t ∈ before.map (·.triple))
    (hsingle : IsSingleValued functional (before.map (·.triple)))
    (h : record functional recorded rest = .error e) :
    ∃ first conflicting, IsFirstConflict functional (before ++ rest) first conflicting ∧
      e = conflictError first conflicting := by
  -- What is recorded are the statements before, without repetitions, and they agree.
  induction rest generalizing before recorded with
  | nil => cases h
  | cons next rest ih =>
    rw [record] at h
    cases hc : conflicting? functional recorded next.triple with
    | some existing =>
      rw [hc] at h
      cases h
      obtain ⟨hf, hobject, first, hfirst, rfl⟩ := exists_of_conflicting? hrecorded hsingle hc
      exact ⟨first, next, ⟨before, rest, rfl, hsingle, hfirst, hf, hobject⟩, rfl⟩
    | none =>
      rw [hc] at h
      dsimp only at h
      have hagree := (conflicting?_eq_none_iff recorded next.triple).1 hc
      have hsingle' : IsSingleValued functional ((before ++ [next]).map (·.triple)) := by
        have hcons : IsSingleValued functional (next.triple :: before.map (·.triple)) :=
          (isSingleValued_cons _ _).2 ⟨fun u hu => (hagree u ((hrecorded u).2 hu)).symm, hsingle⟩
        exact (isSingleValued_congr (by simp [or_comm])).2 hcons
      have hrest {recorded' : List Triple} (hrecorded' : ∀ t, t ∈ recorded' ↔ t = next.triple ∨ t ∈ recorded)
          (h : record functional recorded' rest = .error e) :
          ∃ first conflicting, IsFirstConflict functional (before ++ next :: rest) first conflicting ∧
            e = conflictError first conflicting := by
        have hmem (t : Triple) : t ∈ recorded' ↔ t ∈ (before ++ [next]).map (·.triple) := by
          rw [hrecorded', hrecorded]
          simp [or_comm]
        have hfound := ih hmem hsingle' h
        rwa [List.append_assoc, List.singleton_append] at hfound
      split_ifs at h with hcontains
      · refine hrest (fun t => ⟨.inr, ?_⟩) h
        rintro (rfl | ht)
        · simpa using hcontains
        · exact ht
      · exact hrest (fun t => List.mem_cons) h

theorem IsFirstConflict.not_isSingleValued {emissions : List Emission} {first conflicting : Emission}
    (h : IsFirstConflict functional emissions first conflicting) :
    ¬IsSingleValued functional (emissions.map (·.triple)) := by
  obtain ⟨before, after, rfl, -, hfirst, hf, hobject⟩ := h
  have hmem := List.mem_of_find?_eq_some hfirst
  have hsame := List.find?_some hfirst
  simp only [Bool.and_eq_true, decide_eq_true_eq] at hsame
  intro hsingle
  refine hobject (hsingle _ ?_ _ ?_ (hsame.2 ▸ hf) hsame.1 hsame.2)
  · exact List.mem_map_of_mem (List.mem_append_left _ hmem)
  · exact List.mem_map_of_mem (List.mem_append_right _ List.mem_cons_self)

theorem IsFirstConflict.unique {emissions : List Emission} {first conflicting first' conflicting' : Emission}
    (h : IsFirstConflict functional emissions first conflicting)
    (h' : IsFirstConflict functional emissions first' conflicting') :
    first = first' ∧ conflicting = conflicting' := by
  obtain ⟨before, after, rfl, hsingle, hfirst, hf, hobject⟩ := h
  obtain ⟨before', after', hsplit, hsingle', hfirst', hf', hobject'⟩ := h'
  obtain ⟨more, rfl, hmore⟩ | ⟨more, rfl, hmore⟩ := List.append_eq_append_iff.1 hsplit
  · cases more with
    | nil =>
      cases hmore
      rw [List.append_nil] at hfirst'
      exact ⟨Option.some.inj (hfirst.symm.trans hfirst'), rfl⟩
    | cons _ more =>
      cases hmore
      exact absurd hsingle' (IsFirstConflict.not_isSingleValued ⟨before, more, rfl, hsingle, hfirst, hf, hobject⟩)
  · cases more with
    | nil =>
      cases hmore
      rw [List.append_nil] at hfirst
      exact ⟨Option.some.inj (hfirst.symm.trans hfirst'), rfl⟩
    | cons _ more =>
      cases hmore
      exact absurd hsingle (IsFirstConflict.not_isSingleValued ⟨before', more, rfl, hsingle', hfirst', hf', hobject'⟩)

/-- Recording fails at the first conflict, if there is one. -/
theorem record_nil_eq_error_iff (emissions : List Emission) : record functional [] emissions = .error e ↔
    ∃ first conflicting, IsFirstConflict functional emissions first conflicting ∧
      e = conflictError first conflicting := by
  have hforward {e : ParseError} (h : record functional [] emissions = .error e) :
      ∃ first conflicting, IsFirstConflict functional ([] ++ emissions) first conflicting ∧
        e = conflictError first conflicting :=
    exists_of_record_error (by simp) (by simp [IsSingleValued]) h
  refine ⟨hforward, ?_⟩
  rintro ⟨first, conflicting, hfirst, rfl⟩
  cases h : record functional [] emissions with
  | ok ts => exact absurd ((record_nil_eq_ok_iff emissions ts).1 h).1 hfirst.not_isSingleValued
  | error e =>
    obtain ⟨first', conflicting', hfirst', rfl⟩ := hforward h
    obtain ⟨rfl, rfl⟩ := hfirst.unique hfirst'
    rfl

/-- What the machine gives out for the tokens of a document, where no predicate is functional. -/
def emissions (options : ParserOptions) (tokens : Tokens) : List Emission :=
  (documentRun { options with functional := [] } tokens).1.emitted.reverse

/-- What the tokens of a document come to is settled by recording what the machine gives out, if that fails. -/
theorem parseTokens_eq_conflict_iff (options : ParserOptions) (size : Nat) (tokens : Tokens)
    (hconflict : e.IsConflict) :
    parseTokens options size tokens = .error e ↔
      record options.functional [] (emissions options tokens) = .error e := by
  constructor
  · intro h
    refine (parseTokens_error h).resolve_right fun hstopped => ?_
    exact not_isConflict_of_run hstopped hconflict
  · intro h
    rw [emissions, documentRun] at h
    rw [parseTokens]
    dsimp only at h ⊢
    rw [h]

/-- A document holds each statement that is given out, in the order in which they come first, and has one value at
most for a subject under a functional predicate. It is refused for a conflict just if statements that are given out
disagree, and then for the first that disagrees with one before it. -/
theorem parseTokens_functional (options : ParserOptions) (size : Nat) (tokens : Tokens) :
    (∀ d, parseTokens options size tokens = .ok d →
      d.triples.Nodup ∧ (∀ t, t ∈ d.triples ↔ t ∈ (emissions options tokens).map (·.triple)) ∧
      (d.triples.Pairwise fun t u => ((emissions options tokens).map (·.triple)).idxOf t <
        ((emissions options tokens).map (·.triple)).idxOf u) ∧
      IsSingleValued options.functional d.triples) ∧
    ((∃ e, parseTokens options size tokens = .error e ∧ e.IsConflict) ↔
      ¬IsSingleValued options.functional ((emissions options tokens).map (·.triple))) ∧
    ∀ subject predicate existing conflicting line,
      parseTokens options size tokens = .error (.conflict subject predicate existing conflicting line) ↔
        ∃ first next, IsFirstConflict options.functional (emissions options tokens) first next ∧
          subject = next.triple.subject ∧ predicate = next.triple.predicate.text ∧
          existing = first.triple.object ∧ conflicting = next.triple.object ∧ line = next.line := by
  refine ⟨fun d h => ?_, ?_, fun subject predicate existing conflicting line => ?_⟩
  · obtain ⟨-, triples, hrecord, rfl⟩ := parseTokens_ok h
    obtain ⟨hsingle, rfl⟩ := (record_nil_eq_ok_iff _ _).1 hrecord
    exact ⟨nodup_distinct _, fun t => mem_distinct t _, pairwise_idxOf_distinct _,
      (isSingleValued_congr fun t => mem_distinct t _).2 hsingle⟩
  · constructor
    · rintro ⟨e, h, hconflict⟩
      obtain ⟨first, next, hfirst, -⟩ :=
        (record_nil_eq_error_iff _).1 ((parseTokens_eq_conflict_iff options size tokens hconflict).1 h)
      exact hfirst.not_isSingleValued
    · intro hnot
      cases h : record options.functional [] (emissions options tokens) with
      | ok ts => exact absurd ((record_nil_eq_ok_iff _ _).1 h).1 hnot
      | error e =>
        obtain ⟨first, next, -, rfl⟩ := (record_nil_eq_error_iff _).1 h
        have hconflict : (conflictError first next).IsConflict := trivial
        exact ⟨_, (parseTokens_eq_conflict_iff options size tokens hconflict).2 h, hconflict⟩
  · have hconflict : (ParseError.conflict subject predicate existing conflicting line).IsConflict := trivial
    rw [parseTokens_eq_conflict_iff options size tokens hconflict, record_nil_eq_error_iff]
    simp only [conflictError, ParseError.conflict.injEq]

/-- `<a:s> <a:p> 1 , 1 , [ <a:p> 2 ] .` -/
def twoValueTokens : Tokens :=
  ⟨[⟨.iri "a:s", 1, 1⟩, ⟨.iri "a:p", 1, 7⟩, ⟨.number .integer "1", 1, 13⟩, ⟨.mark .comma, 1, 15⟩,
    ⟨.number .integer "1", 1, 17⟩, ⟨.mark .comma, 1, 19⟩, ⟨.mark .openBracket, 1, 21⟩, ⟨.iri "a:p", 1, 23⟩,
    ⟨.number .integer "2", 1, 29⟩, ⟨.mark .closeBracket, 1, 31⟩, ⟨.mark .dot, 1, 33⟩], 1, 34⟩

/-- The brackets give their own statement out before they are a second value of the subject. -/
theorem parseTokens_functional_twoValues :
    let options : ParserOptions := { functional := ["a:p"] }
    let one : Emission := ⟨⟨.iri "a:s", .iri "a:p", .typed "1" Xsd.integer⟩, 1⟩
    let brackets : Emission := ⟨⟨.iri "a:s", .iri "a:p", .blank "g1"⟩, 1⟩
    IsFirstConflict options.functional (emissions options twoValueTokens) one brackets ∧
      parseTokens options 0 twoValueTokens =
        .error (.conflict (.iri "a:s") "a:p" (.typed "1" Xsd.integer) (.blank "g1") 1) := by
  intro options one brackets
  have hsingle : IsSingleValued options.functional
      ([one, one, ⟨⟨.blank "g1", .iri "a:p", .typed "2" Xsd.integer⟩, 1⟩].map (·.triple)) := by
    simp [IsSingleValued, Agree, one]
  have hfirst : IsFirstConflict options.functional (emissions options twoValueTokens) one brackets :=
    ⟨_, [], by decide, hsingle, rfl, rfl, by simp [one, brackets, Term.typed]⟩
  exact ⟨hfirst, ((parseTokens_functional options 0 twoValueTokens).2.2 _ _ _ _ _).2
    ⟨one, brackets, hfirst, rfl, rfl, rfl, rfl, rfl⟩⟩

end Turtle

end CommandOntology
