import Mathlib.Tactic.SplitIfs
import CommandOntology.Turtle.Document

set_option autoImplicit false

/-!
# Documents without places

What a document holds, and why it cannot be read, does not depend on where its tokens stand. The machine takes
tokens without places for what it takes the tokens themselves for, and only the lines and columns that its errors
report are lost.
-/

namespace CommandOntology.Turtle

def Position.nowhere : Position :=
  ⟨0, 0⟩

def Token.unplaced (t : Token) : Token :=
  { t with position := .nowhere }

def ParseError.unplaced : ParseError → ParseError
  | .lexical fault _ => .lexical fault .nowhere
  | .unexpected expected found _ => .unexpected expected found .nowhere
  | .undefinedLabel label _ => .undefinedLabel label .nowhere
  | .invalidIri iri fault _ => .invalidIri iri fault 0
  | .conflict subject predicate existing conflicting _ => .conflict subject predicate existing conflicting 0
  | .tooManyNamespaces label capacity _ => .tooManyNamespaces label capacity 0
  | e => e

def Emission.unplaced (e : Emission) : Emission :=
  { e with line := 0 }

def Scope.unplaced (s : Scope) : Scope :=
  { s with emitted := s.emitted.map Emission.unplaced }

mutual

def Context.unplaced : Context → Context
  | .statement => .statement
  | .brackets node use => .brackets node use.unplaced

def Use.unplaced : Use → Use
  | .subject => .subject
  | .object subject predicate _ context => .object subject predicate 0 context.unplaced
  | .item items use => .item items use.unplaced

end

def Control.unplaced : Control → Control
  | .statement => .statement
  | .namespaceLabel isClosed _ => .namespaceLabel isClosed 0
  | .namespaceIri isClosed _ label => .namespaceIri isClosed 0 label
  | .baseIri isClosed => .baseIri isClosed
  | .directiveEnd => .directiveEnd
  | .predicateOrEnd subject => .predicateOrEnd subject
  | .bracketStart node use => .bracketStart node use.unplaced
  | .predicate subject context => .predicate subject context.unplaced
  | .object subject relation context => .object subject relation context.unplaced
  | .objectEnd subject relation context => .objectEnd subject relation context.unplaced
  | .semicolon subject context => .semicolon subject context.unplaced
  | .contextEnd context => .contextEnd context.unplaced
  | .item items use => .item items use.unplaced
  | .literalMark value use => .literalMark value use.unplaced
  | .datatype value use => .datatype value use.unplaced

def unplacedResult {α : Type} (f : α → α) (x : Except ParseError α) : Except ParseError α :=
  (x.map f).mapError ParseError.unplaced

def unplacedState (r : Control × Scope) : Control × Scope :=
  (r.1.unplaced, r.2.unplaced)

section

variable (s : Scope) (line : Nat)

theorem Scope.unplaced_resolveReference (reference : String) :
    s.unplaced.resolveReference reference 0 =
      (s.resolveReference reference line).mapError ParseError.unplaced := by
  have hbase : s.unplaced.base = s.base := rfl
  unfold Scope.resolveReference
  rw [hbase]
  split
  · rfl
  · split_ifs
    · rfl
    · split
      · rfl
      · next base _ => cases Iri.resolve base reference <;> rfl

theorem Scope.unplaced_resolveIri? (t : Token) :
    s.unplaced.resolveIri? t.unplaced = (s.resolveIri? t).map (·.mapError ParseError.unplaced) := by
  unfold Scope.resolveIri?
  have hlexeme : t.unplaced.lexeme = t.lexeme := rfl
  rw [hlexeme]
  split
  · exact congrArg some (s.unplaced_resolveReference _ _)
  · next label rest _ =>
    have hnamespaces : s.unplaced.namespaces = s.namespaces := rfl
    simp only [Scope.resolveName, hnamespaces, Option.map_some]
    cases s.namespaces.resolve label <;> rfl
  · rfl

theorem Scope.unplaced_declare (label iri : String) :
    s.unplaced.declare label iri 0 = unplacedResult Scope.unplaced (s.declare label iri line) := by
  have hnamespaces : s.unplaced.namespaces = s.namespaces := rfl
  unfold Scope.declare
  rw [hnamespaces]
  cases s.namespaces.declare label iri with
  | ok namespaces => rfl
  | error e => cases e <;> rfl

theorem Scope.unplaced_emitChain (node : Term) (items : List Term) :
    (s.emitChain line node items).unplaced = s.unplaced.emitChain 0 node items := by
  fun_induction Scope.emitChain s line node items with
  | case1 => rfl
  | case2 => rfl
  | case3 s node x y rest next s' hfresh ih =>
    cases hfresh
    exact ih

theorem Scope.unplaced_emitCollection (items : List Term) :
    s.unplaced.emitCollection 0 items =
      ((s.emitCollection line items).1, (s.emitCollection line items).2.unplaced) := by
  unfold Scope.emitCollection
  split_ifs
  · rfl
  · exact congrArg (Prod.mk _) (Scope.unplaced_emitChain s.freshNode.2 line _ items).symm

end

section

variable (scope : Scope) (token : Token) (node : Term) (use : Use)

theorem unplaced_deliver : deliver scope.unplaced node use.unplaced = unplacedState (deliver scope node use) := by
  cases use <;> rfl

theorem unplaced_deliverBrackets :
    deliverBrackets scope.unplaced node use.unplaced = unplacedState (deliverBrackets scope node use) := by
  cases use <;> rfl

theorem unplaced_settle (control : Control) (next : Option Lexeme) :
    settle control.unplaced scope.unplaced next = unplacedState (settle control scope next) := by
  have hlist (control : Control) : settleList control.unplaced next = (settleList control next).unplaced := by
    cases control with
    | objectEnd subject predicate context =>
      simp only [settleList, Control.unplaced]
      split_ifs <;> rfl
    | semicolon subject context =>
      simp only [settleList, Control.unplaced]
      split_ifs <;> rfl
    | _ => rfl
  have hliteral : settleLiteral control.unplaced scope.unplaced next =
      unplacedState (settleLiteral control scope next) := by
    cases control with
    | literalMark value use =>
      simp only [settleLiteral, Control.unplaced]
      split_ifs
      · rfl
      · exact unplaced_deliver scope _ use
    | _ => rfl
  rw [settle, hliteral, settle]
  exact congrArg (·, _) (hlist _)

def unplacedTaking (x : Option (Except ParseError (Control × Scope))) : Option (Except ParseError (Control × Scope)) :=
  x.map (unplacedResult unplacedState)

theorem unplaced_map_resolveIri? (f g : String → Control × Scope) (h : ∀ iri, g iri = unplacedState (f iri)) :
    (scope.unplaced.resolveIri? token.unplaced).map (fun iri => iri.map g) =
      unplacedTaking ((scope.resolveIri? token).map fun iri => iri.map f) := by
  rw [Scope.unplaced_resolveIri?, unplacedTaking, Option.map_map, Option.map_map]
  congr 1
  funext x
  cases x with
  | error e => rfl
  | ok iri => exact congrArg Except.ok (h iri)

theorem unplaced_takeNode :
    takeNode scope.unplaced token.unplaced use.unplaced = unplacedTaking (takeNode scope token use) := by
  unfold takeNode
  have hlexeme : token.unplaced.lexeme = token.lexeme := rfl
  rw [hlexeme]
  split
  · exact congrArg (some ∘ Except.ok) (unplaced_deliver scope _ use)
  · rfl
  · rfl
  · exact unplaced_map_resolveIri? scope token _ _ fun iri => unplaced_deliver scope _ use

theorem unplaced_takeObject :
    takeObject scope.unplaced token.unplaced use.unplaced = unplacedTaking (takeObject scope token use) := by
  unfold takeObject
  have hlexeme : token.unplaced.lexeme = token.lexeme := rfl
  rw [hlexeme]
  split
  · rfl
  · exact congrArg (some ∘ Except.ok) (unplaced_deliver scope _ use)
  · split_ifs
    · exact congrArg (some ∘ Except.ok) (unplaced_deliver scope _ use)
    · rfl
  · exact unplaced_takeNode scope token use

theorem unplaced_takePredicate (subject : Term) (context : Context) :
    takePredicate scope.unplaced token.unplaced subject context.unplaced =
      unplacedTaking (takePredicate scope token subject context) := by
  unfold takePredicate
  have hlexeme : token.unplaced.lexeme = token.lexeme := rfl
  rw [hlexeme]
  split
  · split_ifs <;> rfl
  · exact unplaced_map_resolveIri? scope token _ _ fun _ => rfl

theorem unplaced_takeStatement :
    takeStatement scope.unplaced token.unplaced = unplacedTaking (takeStatement scope token) := by
  unfold takeStatement
  have hlexeme : token.unplaced.lexeme = token.lexeme := rfl
  rw [hlexeme]
  split
  · next d _ => cases d <;> rfl
  · next word _ =>
    cases wordDirective? word with
    | none => rfl
    | some d => cases d <;> rfl
  · exact unplaced_takeNode scope token .subject

theorem unplaced_declaration (reference : String) (line : Nat) (f g : String → Except ParseError (Control × Scope))
    (h : ∀ iri, g iri = unplacedResult unplacedState (f iri)) :
    (scope.unplaced.resolveReference reference 0 >>= g) =
      unplacedResult unplacedState (scope.resolveReference reference line >>= f) := by
  rw [Scope.unplaced_resolveReference scope line]
  cases scope.resolveReference reference line with
  | error e => rfl
  | ok iri => exact h iri

theorem unplaced_take_namespaceLabel (isClosed : Bool) (line : Nat) :
    take (.namespaceLabel isClosed 0) scope.unplaced token.unplaced =
      unplacedTaking (take (.namespaceLabel isClosed line) scope token) := by
  have hlexeme : token.unplaced.lexeme = token.lexeme := rfl
  unfold take
  rw [hlexeme]
  cases token.lexeme with
  | name label rest =>
    by_cases hrest : rest = ""
    · subst hrest
      rfl
    · simp [hrest, unplacedTaking]
  | _ => rfl

theorem unplaced_take_namespaceIri (isClosed : Bool) (line : Nat) (label : String) :
    take (.namespaceIri isClosed 0 label) scope.unplaced token.unplaced =
      unplacedTaking (take (.namespaceIri isClosed line label) scope token) := by
  have hlexeme : token.unplaced.lexeme = token.lexeme := rfl
  unfold take
  rw [hlexeme]
  cases token.lexeme with
  | iri reference =>
    refine congrArg some (unplaced_declaration scope reference _ _ _ fun iri => ?_)
    rw [Scope.unplaced_declare scope line]
    cases scope.declare label iri line with
    | error e => rfl
    | ok scope => cases isClosed <;> rfl
  | _ => rfl

theorem unplaced_take_baseIri (isClosed : Bool) :
    take (.baseIri isClosed) scope.unplaced token.unplaced = unplacedTaking (take (.baseIri isClosed) scope token) := by
  have hlexeme : token.unplaced.lexeme = token.lexeme := rfl
  unfold take
  rw [hlexeme]
  cases token.lexeme with
  | iri reference =>
    refine congrArg some (unplaced_declaration scope reference _ _ _ fun iri => ?_)
    cases isClosed <;> rfl
  | _ => rfl

theorem unplaced_take_predicateOrEnd (subject : Term) :
    take (.predicateOrEnd subject) scope.unplaced token.unplaced =
      unplacedTaking (take (.predicateOrEnd subject) scope token) := by
  have hlexeme : token.unplaced.lexeme = token.lexeme := rfl
  have hpredicate := unplaced_takePredicate scope token subject .statement
  unfold take
  rw [hlexeme]
  cases token.lexeme with
  | mark m =>
    cases m with
    | dot => rfl
    | _ => exact hpredicate
  | _ => exact hpredicate

theorem unplaced_take_bracketStart :
    take (.bracketStart node use.unplaced) scope.unplaced token.unplaced =
      unplacedTaking (take (.bracketStart node use) scope token) := by
  have hlexeme : token.unplaced.lexeme = token.lexeme := rfl
  have hpredicate := unplaced_takePredicate scope token node (.brackets node use)
  unfold take
  rw [hlexeme]
  cases token.lexeme with
  | mark m =>
    cases m with
    | closeBracket => exact congrArg (some ∘ Except.ok) (unplaced_deliverBrackets scope node use)
    | _ => exact hpredicate
  | _ => exact hpredicate

theorem unplaced_take_objectEnd (subject relation : Term) (context : Context) :
    take (.objectEnd subject relation context.unplaced) scope.unplaced token.unplaced =
      unplacedTaking (take (.objectEnd subject relation context) scope token) := by
  have hlexeme : token.unplaced.lexeme = token.lexeme := rfl
  unfold take
  rw [hlexeme]
  cases token.lexeme with
  | mark m => cases m <;> rfl
  | _ => rfl

theorem unplaced_take_semicolon (subject : Term) (context : Context) :
    take (.semicolon subject context.unplaced) scope.unplaced token.unplaced =
      unplacedTaking (take (.semicolon subject context) scope token) := by
  have hlexeme : token.unplaced.lexeme = token.lexeme := rfl
  have hpredicate := unplaced_takePredicate scope token subject context
  unfold take
  rw [hlexeme]
  cases token.lexeme with
  | mark m =>
    cases m with
    | semicolon => rfl
    | _ => exact hpredicate
  | _ => exact hpredicate

theorem unplaced_take_contextEnd (context : Context) :
    take (.contextEnd context.unplaced) scope.unplaced token.unplaced =
      unplacedTaking (take (.contextEnd context) scope token) := by
  have hlexeme : token.unplaced.lexeme = token.lexeme := rfl
  unfold take
  rw [hlexeme]
  cases context with
  | statement =>
    cases token.lexeme with
    | mark m => cases m <;> rfl
    | _ => rfl
  | brackets node use =>
    cases token.lexeme with
    | mark m =>
      cases m with
      | closeBracket => exact congrArg (some ∘ Except.ok) (unplaced_deliverBrackets scope node use)
      | _ => rfl
    | _ => rfl

theorem unplaced_take_item (items : List Term) :
    take (.item items use.unplaced) scope.unplaced token.unplaced =
      unplacedTaking (take (.item items use) scope token) := by
  have hlexeme : token.unplaced.lexeme = token.lexeme := rfl
  have hobject := unplaced_takeObject scope token (.item items use)
  unfold take
  rw [hlexeme]
  cases token.lexeme with
  | mark m =>
    cases m with
    | closeParenthesis =>
      change some (Except.ok (deliver (scope.unplaced.emitCollection 0 items.reverse).2
        (scope.unplaced.emitCollection 0 items.reverse).1 use.unplaced)) = _
      rw [Scope.unplaced_emitCollection scope token.position.line]
      exact congrArg (some ∘ Except.ok) (unplaced_deliver _ _ use)
    | _ => exact hobject
  | _ => exact hobject

theorem unplaced_take_literalMark (value : String) :
    take (.literalMark value use.unplaced) scope.unplaced token.unplaced =
      unplacedTaking (take (.literalMark value use) scope token) := by
  have hlexeme : token.unplaced.lexeme = token.lexeme := rfl
  unfold take
  rw [hlexeme]
  cases token.lexeme with
  | languageTag tag => exact congrArg (some ∘ Except.ok) (unplaced_deliver scope _ use)
  | mark m => cases m <;> rfl
  | _ => rfl

/-- What is taken depends on the control and the lexeme, and neither is changed. Only what comes of it holds places. -/
theorem unplaced_take (control : Control) :
    take control.unplaced scope.unplaced token.unplaced = unplacedTaking (take control scope token) := by
  cases control with
  | statement => exact unplaced_takeStatement scope token
  | namespaceLabel isClosed line => exact unplaced_take_namespaceLabel scope token isClosed line
  | namespaceIri isClosed line label => exact unplaced_take_namespaceIri scope token isClosed line label
  | baseIri isClosed => exact unplaced_take_baseIri scope token isClosed
  | directiveEnd =>
    unfold take Control.unplaced
    have hlexeme : token.unplaced.lexeme = token.lexeme := rfl
    rw [hlexeme]
    cases token.lexeme with
    | mark m => cases m <;> rfl
    | _ => rfl
  | predicateOrEnd subject => exact unplaced_take_predicateOrEnd scope token subject
  | bracketStart node use => exact unplaced_take_bracketStart scope token node use
  | predicate subject context => exact unplaced_takePredicate scope token subject context
  | object subject relation context =>
    exact unplaced_takeObject scope token (.object subject relation token.position.line context)
  | objectEnd subject relation context => exact unplaced_take_objectEnd scope token subject relation context
  | semicolon subject context => exact unplaced_take_semicolon scope token subject context
  | contextEnd context => exact unplaced_take_contextEnd scope token context
  | item items use => exact unplaced_take_item scope token use items
  | literalMark value use => exact unplaced_take_literalMark scope token use value
  | datatype value use =>
    exact unplaced_map_resolveIri? scope token _ _ fun _ => unplaced_deliver scope _ use

theorem unplaced_expectation (control : Control) (found : Option Lexeme) :
    control.unplaced.expectation found = control.expectation found := by
  cases control with
  | contextEnd context => cases context <;> rfl
  | item items use => cases found <;> rfl
  | _ => rfl

/-- A step without places is the step with them, without its places. -/
theorem unplaced_step (control : Control) :
    step control.unplaced scope.unplaced token.unplaced =
      ((step control scope token).1.unplaced, unplacedResult unplacedState (step control scope token).2) := by
  unfold step
  have hlexeme : token.unplaced.lexeme = token.lexeme := rfl
  rw [hlexeme, unplaced_settle]
  obtain ⟨control, scope⟩ := settle control scope (some token.lexeme)
  dsimp only [unplacedState]
  rw [unplaced_take scope token control]
  cases take control scope token with
  | some result => rfl
  | none =>
    dsimp only [unplacedTaking, Option.map_none]
    rw [unplaced_expectation]
    rfl

theorem unplaced_finish (control : Control) (stop : Position) :
    finish control.unplaced scope.unplaced .nowhere =
      ((finish control scope stop).1.unplaced, (finish control scope stop).2.map ParseError.unplaced) := by
  unfold finish
  rw [unplaced_settle]
  obtain ⟨control, scope⟩ := settle control scope none
  have hexpectation := unplaced_expectation control none
  cases control with
  | statement => rfl
  | contextEnd context => cases context <;> rfl
  | _ => rfl

end

theorem unplaced_run (stop : Position) (tokens : List Token) (control : Control) (scope : Scope) :
    run .nowhere control.unplaced scope.unplaced (tokens.map Token.unplaced) =
      ((run stop control scope tokens).1.unplaced, (run stop control scope tokens).2.map ParseError.unplaced) := by
  induction tokens generalizing control scope with
  | nil => exact unplaced_finish scope control stop
  | cons token rest ih =>
    rw [List.map_cons, run, unplaced_step, run]
    obtain ⟨scope, _ | ⟨control, scope⟩⟩ := step control scope token
    · rfl
    · exact ih control scope

theorem unplaced_record (functional : List String) (emissions : List Emission) (recorded : List Triple) :
    record functional recorded (emissions.map Emission.unplaced) =
      (record functional recorded emissions).mapError ParseError.unplaced := by
  induction emissions generalizing recorded with
  | nil => rfl
  | cons e rest ih =>
    rw [List.map_cons, record, record]
    have htriple : e.unplaced.triple = e.triple := rfl
    rw [htriple]
    split
    · rfl
    · split_ifs
      · exact ih recorded
      · exact ih (e.triple :: recorded)

def Document.unsized (d : Document) : Document :=
  { d with size := 0 }

theorem unplaced_parseTokens (options : ParserOptions) (size : Nat) (tokens : Tokens) :
    parseTokens options 0 ⟨tokens.tokens.map Token.unplaced, .nowhere⟩ =
      unplacedResult Document.unsized (parseTokens options size tokens) := by
  have hrun : run .nowhere .statement (.initial options.capacity.toNat options.base)
      (tokens.tokens.map Token.unplaced) = _ :=
    unplaced_run tokens.stop tokens.tokens .statement (.initial options.capacity.toNat options.base)
  unfold parseTokens
  dsimp only
  rw [hrun]
  obtain ⟨scope, stopped⟩ := run tokens.stop .statement (.initial options.capacity.toNat options.base) tokens.tokens
  have hemitted : scope.unplaced.emitted.reverse = scope.emitted.reverse.map Emission.unplaced := by
    rw [List.map_reverse]
    rfl
  dsimp only
  rw [hemitted, unplaced_record]
  cases record options.functional [] scope.emitted.reverse with
  | error e => rfl
  | ok triples => cases stopped <;> rfl

/-- Tokens with the same lexemes are read as the same document, or for the same error. -/
theorem parseTokens_unplaced_eq {tokens tokens' : Tokens}
    (h : tokens'.tokens.map (·.lexeme) = tokens.tokens.map (·.lexeme)) (options : ParserOptions) (size size' : Nat) :
    unplacedResult Document.unsized (parseTokens options size' tokens') =
      unplacedResult Document.unsized (parseTokens options size tokens) := by
  have hunplaced (tokens : List Token) :
      tokens.map Token.unplaced = (tokens.map (·.lexeme)).map fun l => ⟨l, .nowhere⟩ := by
    rw [List.map_map]
    rfl
  rw [← unplaced_parseTokens, ← unplaced_parseTokens, hunplaced, h, ← hunplaced]

end CommandOntology.Turtle
