import CommandOntology.Proofs.JoinSolutions
import CommandOntology.Proofs.ReadQueries

set_option autoImplicit false

/-!
# Errors of queries that are reported

Which errors a query may end with. All are reported by the stage but four: an escape that writes a number
beyond the last code point, a reference that cannot be resolved, a count whose digits are no number, and
a pattern that is refused for another reason than its form. Evaluation adds none but the last, and
ordering adds none at all.
-/

namespace CommandOntology.Query

/-- An obstacle that evaluation can meet: a pattern among them is refused for another reason than its
form. -/
def Obstacle.IsGenuine : Obstacle → Prop
  | .noValue => True
  | .unusablePattern error => IsUnusable error

/-- An outcome of evaluating a condition: a value, or an obstacle that evaluation can meet. -/
def Evaluates {α : Type} : Except Obstacle α → Prop
  | .ok _ => True
  | .error obstacle => obstacle.IsGenuine

section

variable {α β : Type}

theorem Evaluates.bind {x : Except Obstacle α} {f : α → Except Obstacle β} (hx : Evaluates x)
    (hf : ∀ a, Evaluates (f a)) : Evaluates (x >>= f) := by
  cases x with
  | ok a => exact hf a
  | error e => exact hx

theorem Evaluates.map {x : Except Obstacle α} (hx : Evaluates x) (f : α → β) : Evaluates (x.map f) := by
  cases x with
  | ok a => trivial
  | error e => exact hx

theorem evaluates_mapError (x : Except NumberError α) :
    Evaluates (x.mapError fun _ => Obstacle.noValue) := by
  cases x <;> trivial

end

theorem evaluates_ofLiteral (lexical : String) (datatype : Option String) :
    Evaluates (Comparand.ofLiteral lexical datatype) := by
  unfold Comparand.ofLiteral
  split_ifs
  · exact (evaluates_mapError _).map _
  · exact (evaluates_mapError _).map _
  · trivial
  · trivial

theorem evaluates_ofAnswer (a : Answer) : Evaluates (Comparand.ofAnswer a) := by
  unfold Comparand.ofAnswer
  split
  · trivial
  · exact evaluates_ofLiteral _ _
  · trivial

theorem evaluates_truth? (a : Answer) : Evaluates a.truth? := by
  unfold Answer.truth?
  split
  · trivial
  · exact (evaluates_ofLiteral _ _).map _
  · trivial

theorem evaluates_string? (a : Answer) : Evaluates a.string? := by
  unfold Answer.string?
  split
  · split_ifs <;> trivial
  · trivial

theorem evaluates_equalTerms (a b : Term) : Evaluates (Answer.equalTerms a b) := by
  unfold Answer.equalTerms
  split
  · refine (evaluates_ofLiteral _ _).bind fun left => (evaluates_ofLiteral _ _).bind fun right => ?_
    split
    · trivial
    · split_ifs <;> trivial
  · trivial

theorem evaluates_comparison (op : Comparison) (a b : Answer) : Evaluates (op.apply a b) := by
  have hequal : Evaluates (Answer.equal a b) := by
    unfold Answer.equal
    split
    · exact evaluates_equalTerms _ _
    · exact (evaluates_ofAnswer a).bind fun _ => (evaluates_ofAnswer b).bind fun _ => trivial
  have horder : Evaluates (Answer.order? a b) := by
    refine (evaluates_ofAnswer a).bind fun x => (evaluates_ofAnswer b).bind fun y => ?_
    cases Comparand.order? x y <;> trivial
  unfold Comparison.apply
  split
  · exact hequal
  · exact hequal.map _
  · exact horder.map _

theorem evaluates_textFunction (function : TextFunction) (a : Answer) :
    Evaluates (function.apply a) := by
  unfold TextFunction.apply
  split
  · unfold textOf
    split <;> trivial
  · exact (evaluates_string? a).map _
  · exact (evaluates_string? a).map _

theorem evaluates_regexMode (flags : List Char) : Evaluates (regexMode flags) := by
  unfold regexMode
  generalize ({} : Regex.Mode) = mode
  induction flags generalizing mode with
  | nil => trivial
  | cons c flags ih =>
    rw [List.foldlM_cons]
    refine Evaluates.bind ?_ ih
    split <;> trivial

theorem evaluates_regexPattern (mode : Regex.Mode) (pattern : String) :
    Evaluates (regexPattern mode pattern) := by
  unfold regexPattern
  cases hparse : Regex.parse mode pattern with
  | ok compiled => trivial
  | error e =>
    rw [Except.mapError]
    split_ifs with hmalformed
    · trivial
    · exact ⟨Bool.eq_false_iff.2 hmalformed, mode, pattern, hparse⟩

theorem evaluates_regexTest (text pattern : Answer) (flags : String) :
    Evaluates (regexTest text pattern flags) :=
  (evaluates_string? pattern).bind fun source => (evaluates_regexMode _).bind fun mode =>
    (evaluates_regexPattern mode source).bind fun _ => (evaluates_string? text).bind fun _ => trivial

theorem Evaluates.conjunction {left right : Except Obstacle Bool} (hl : Evaluates left)
    (hr : Evaluates right) : Evaluates (conjunction left right) := by
  unfold Query.conjunction
  split
  · exact hr
  · trivial
  · exact hl

theorem Evaluates.disjunction {left right : Except Obstacle Bool} (hl : Evaluates left)
    (hr : Evaluates right) : Evaluates (disjunction left right) := by
  unfold Query.disjunction
  split
  · trivial
  · exact hr
  · split
    · trivial
    · trivial
    · exact hr
  · exact hl

theorem evaluates_eval (binding : Binding) (e : Expression) : Evaluates (e.eval binding) := by
  induction e with
  | var name =>
    unfold Expression.eval
    split <;> trivial
  | constant value => trivial
  | not operand ih => exact ih.bind fun a => (evaluates_truth? a).bind fun _ => trivial
  | compare op left right ihl ihr =>
    exact ihl.bind fun a => ihr.bind fun b => (evaluates_comparison op a b).bind fun _ => trivial
  | and left right ihl ihr =>
    exact ((ihl.bind evaluates_truth?).conjunction (ihr.bind evaluates_truth?)).map _
  | or left right ihl ihr =>
    exact ((ihl.bind evaluates_truth?).disjunction (ihr.bind evaluates_truth?)).map _
  | bound name => trivial
  | apply function operand ih =>
    exact ih.bind fun a => (evaluates_textFunction function a).bind fun _ => trivial
  | test kind text part iht ihp =>
    exact iht.bind fun a => ihp.bind fun b => (evaluates_string? a).bind fun _ =>
      (evaluates_string? b).bind fun _ => trivial
  | regex text pattern iht ihp =>
    exact iht.bind fun a => ihp.bind fun b => (evaluates_regexTest a b "").bind fun _ => trivial
  | regexFlags text pattern flags iht ihp ihf =>
    exact iht.bind fun a => ihp.bind fun b => ihf.bind fun c => (evaluates_string? c).bind fun s =>
      (evaluates_regexTest a b s).bind fun _ => trivial

section

variable {α β : Type} {text : List Char}

abbrev Completes (text : List Char) (w : Work α) : Prop :=
  Reads text (fun _ => True) w.outcome

theorem Completes.bind {w : Work α} {f : α → Work β} (hw : Completes text w)
    (hf : ∀ a, Completes text (f a)) : Completes text (w >>= f) := by
  rw [Completes, Work.outcome_bind]
  exact Reads.bind hw fun a _ => hf a

theorem reads_holdsFor (binding : Binding) (e : Expression) :
    Reads text (fun _ => True) (holdsFor binding e) := by
  have heval := (evaluates_eval binding e).bind evaluates_truth?
  unfold holdsFor Expression.passes
  split
  · trivial
  · trivial
  next hunusable =>
    rw [hunusable] at heval
    exact heval

theorem reads_passesAll (binding : Binding) (filters : List Expression) :
    Reads text (fun _ => True) (passesAll binding filters) := by
  induction filters with
  | nil => trivial
  | cons e rest ih =>
    refine (reads_holdsFor binding e).bind fun holds _ => ?_
    split_ifs
    · exact ih
    · trivial

theorem reads_keepPassingAll (filters : List Expression) (bindings : List Binding) :
    Reads text (fun _ => True) (keepPassingAll filters bindings) := by
  induction bindings with
  | nil => trivial
  | cons binding rest ih =>
    exact (reads_passesAll binding filters).bind fun _ _ => ih.bind fun _ _ => trivial

theorem completes_joinAll (store : Store) (bindings : List Binding) (patterns : List Pattern) :
    Completes text (joinAll store bindings patterns) := by
  rw [Completes, joinAll_outcome_eq]
  trivial

theorem completes_leftJoin (store : Store) (group : OptionalGroup) (bindings : List Binding) :
    Completes text (leftJoin store group bindings) := by
  induction bindings with
  | nil => trivial
  | cons binding rest ih =>
    exact (completes_joinAll store [binding] group.patterns).bind fun joined =>
      (show Completes text (Work.ofExcept _) from reads_keepPassingAll group.filters joined).bind fun _ =>
        ih.bind fun _ => trivial

theorem completes_leftJoinAll (store : Store) (bindings : List Binding) (groups : List OptionalGroup) :
    Completes text (leftJoinAll store bindings groups) := by
  induction groups generalizing bindings with
  | nil => trivial
  | cons group rest ih => exact (completes_leftJoin store group bindings).bind ih

theorem completes_filter (e : Expression) (bindings : List Binding) :
    Completes text (filter e bindings) := by
  induction bindings with
  | nil => trivial
  | cons binding rest ih =>
    exact (show Completes text Work.check from trivial).bind fun _ =>
      (show Completes text (Work.ofExcept _) from reads_holdsFor binding e).bind fun _ =>
        ih.bind fun _ => trivial

theorem completes_filterAll (bindings : List Binding) (filters : List Expression) :
    Completes text (filterAll bindings filters) := by
  induction filters generalizing bindings with
  | nil => trivial
  | cons e rest ih => exact (completes_filter e bindings).bind ih

theorem completes_solutions (q : SelectQuery) (store : Store) : Completes text (q.solutions store) :=
  (completes_joinAll store [[]] q.patterns).bind fun required =>
    (completes_leftJoinAll store required q.optionals).bind fun extended =>
      completes_filterAll extended q.filters

theorem completes_run (q : SelectQuery) (store : Store) : Completes text (q.run store) :=
  (completes_solutions q store).bind fun _ => (show Completes text Work.check from trivial).bind fun _ => trivial

end

theorem completes_execute (store : Store) (namespaces : Namespaces) (base : Option String)
    (text : String) : Completes text.toList (execute store namespaces base text) := by
  have hparse := reads_parse namespaces.entries base text
  have hread : Completes text.toList (Work.ofExcept (parse namespaces.entries base text)) := by
    rw [Completes, Work.ofExcept]
    cases hp : parse namespaces.entries base text with
    | ok q => trivial
    | error e => rwa [hp] at hparse
  exact hread.bind fun q => completes_run q store

def documentedCodes : List String :=
  ["syntax_error", "unknown_variable", "timeout"]

def QueryError.IsReported (e : QueryError) : Prop :=
  ∃ d, e.diagnosis = .ok d ∧ d.stage = "query" ∧ d.code ∈ documentedCodes

/-- Every error of a query is reported by the stage, unless its text writes a number beyond the last code
point, has a reference that cannot be resolved or digits that are no count, or a pattern is refused for
another reason than its form. -/
theorem execute_error_contained (store : Store) (namespaces : Namespaces) (base : Option String)
    (text : String) (clock : Clock) (budget : Option Binary64) (e : QueryError)
    (h : (execute store namespaces base text).timed clock budget = .error e) :
    e.IsReported ∨
      (∃ value, e = .codePointTooLarge value ∧ WritesTooLarge value text.toList) ∨
      (∃ fault, e = .unresolvable fault ∧ WritesUnresolvable fault text.toList) ∨
      (∃ error, e = .uncountable error ∧ WritesUncountable error text.toList) ∨
      ∃ error, e = .unusablePattern error ∧ IsUnusable error := by
  have htimed : (∃ limit elapsed, e = .timeout limit elapsed) ∨
      (execute store namespaces base text).outcome = .error e := by
    unfold Work.timed at h
    split at h
    · exact .inr ((map_eq_error_iff _ _ _).1 h)
    next limit =>
      split at h
      next elapsed _ =>
        cases h
        exact .inl ⟨limit, elapsed, rfl⟩
      · exact .inr ((map_eq_error_iff _ _ _).1 h)
  obtain ⟨limit, elapsed, rfl⟩ | houtcome := htimed
  · exact .inl ⟨_, rfl, rfl, by simp [documentedCodes]⟩
  · have hreason := completes_execute store namespaces base text
    rw [Completes, houtcome] at hreason
    cases e with
    | malformed => exact .inl ⟨_, rfl, rfl, by simp [documentedCodes]⟩
    | unknownVariable => exact .inl ⟨_, rfl, rfl, by simp [documentedCodes]⟩
    | timeout => exact hreason.elim
    | codePointTooLarge value => exact .inr (.inl ⟨value, rfl, hreason⟩)
    | unresolvable fault => exact .inr (.inr (.inl ⟨fault, rfl, hreason⟩))
    | uncountable error => exact .inr (.inr (.inr (.inl ⟨error, rfl, hreason⟩)))
    | unusablePattern error => exact .inr (.inr (.inr (.inr ⟨error, rfl, hreason⟩)))

theorem execute_outcome_of_parse {namespaces : Namespaces} {base : Option String} {text : String}
    {e : QueryError} (h : parse namespaces.entries base text = .error e) (store : Store) :
    (execute store namespaces base text).outcome = .error e := by
  simp only [execute, bind, Work.bind, Work.ofExcept, h]

theorem execute_error_contained_unbound :
    (execute (.ofList .memory []) (.empty 1) none "SELECT ?x WHERE \x7b\x7d").timed
        (fun _ => .zero false) none = .error (.unknownVariable "x" .select) ∧
      (QueryError.unknownVariable "x" .select).IsReported := by
  have hparse : parse (Namespaces.empty 1).entries none "SELECT ?x WHERE \x7b\x7d" =
      .error (.unknownVariable "x" .select) := by
    decide +kernel
  have herror : (execute (.ofList .memory []) (.empty 1) none "SELECT ?x WHERE \x7b\x7d").timed
      (fun _ => .zero false) none = .error (.unknownVariable "x" .select) := by
    rw [Work.timed, execute_outcome_of_parse hparse]
    rfl
  refine ⟨herror, ?_⟩
  obtain h | ⟨value, h, -⟩ | ⟨fault, h, -⟩ | ⟨error, h, -⟩ | ⟨error, h, -⟩ :=
    execute_error_contained (.ofList .memory []) (.empty 1) none "SELECT ?x WHERE \x7b\x7d"
      (fun _ => .zero false) none _ herror
  · exact h
  · cases h
  · cases h
  · cases h
  · cases h

/-- An escape beyond the last code point is not reported. -/
theorem execute_codePointTooLarge :
    (execute (.ofList .memory [⟨.iri "a:a", .iri "a:p", .typed "5" Xsd.integer⟩]) (.empty 1) none
        "SELECT ?x WHERE \x7b ?x ?p \"\\U00110000\" \x7d").outcome =
          .error (.codePointTooLarge 0x110000) ∧
      ¬(QueryError.codePointTooLarge 0x110000).IsReported := by
  constructor
  · exact execute_outcome_of_parse (by decide +kernel) _
  · rintro ⟨d, hd, -⟩
    cases hd

end CommandOntology.Query
