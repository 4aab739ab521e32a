import CommandOntology.Proofs.Outcomes
import CommandOntology.Proofs.PrefixTables
import CommandOntology.Turtle.Document
import Mathlib.Tactic.SplitIfs

set_option autoImplicit false

namespace CommandOntology

def Term.AllIris (P : String → Prop) : Term → Prop
  | .iri value => P value
  | .blank _ => True
  | .literal _ datatype _ => ∀ type ∈ datatype, P type

def Triple.AllIris (P : String → Prop) (t : Triple) : Prop :=
  t.subject.AllIris P ∧ t.predicate.AllIris P ∧ t.object.AllIris P

theorem Term.allIris_iri {P : String → Prop} {value : String} (h : P value) : (iri value).AllIris P := h

theorem Term.allIris_blank (P : String → Prop) (label : String) : (blank label).AllIris P := trivial

theorem Term.allIris_literal (P : String → Prop) (lexical : String) (language : Option String) :
    (Term.literal lexical none language).AllIris P :=
  fun _ h => by cases h

theorem Term.allIris_typed {P : String → Prop} (lexical : String) {datatype : String}
    (h : P datatype) : (Term.typed lexical datatype).AllIris P :=
  fun _ ht => by
    cases ht
    exact h

theorem mem_putField {α : Type} {fields : List (String × α)} {key : String} {value : α}
    {field : String × α} (h : field ∈ putField fields key value) :
    field = (key, value) ∨ field ∈ fields := by
  induction fields with
  | nil => exact .inl (by simpa [putField] using h)
  | cons first fields ih =>
    unfold putField at h
    split_ifs at h with hk
    · obtain rfl | h := List.mem_cons.1 h
      · exact .inl (by rw [hk])
      · exact .inr (List.mem_cons_of_mem _ h)
    · obtain rfl | h := List.mem_cons.1 h
      · exact .inr List.mem_cons_self
      · exact (ih h).imp_right (List.mem_cons_of_mem _)

namespace Turtle

def builtInIris : List String :=
  [Rdf.type, Rdf.first, Rdf.rest, Rdf.nil, Xsd.boolean, Xsd.integer, Xsd.decimal, Xsd.double]

/-- Every IRI of a scope has the property `P`, and the base has `Q`. Prefixes can still be declared. -/
structure Scope.AllIris (P Q : String → Prop) (s : Scope) : Prop where
  isOpen : s.namespaces.isFrozen = false
  namespaces : ∀ entry ∈ s.namespaces.entries, P entry.2
  base : ∀ iri ∈ s.base, Q iri
  emitted : ∀ e ∈ s.emitted, e.triple.AllIris P

mutual

def Context.AllIris (P : String → Prop) : Context → Prop
  | .statement => True
  | .brackets node use => node.AllIris P ∧ use.AllIris P

def Use.AllIris (P : String → Prop) : Use → Prop
  | .subject => True
  | .object subject predicate _ context =>
    subject.AllIris P ∧ predicate.AllIris P ∧ context.AllIris P
  | .item items use => (∀ x ∈ items, x.AllIris P) ∧ use.AllIris P

end

/-- Every IRI that a control holds has a property. `B` is what is known where the control wants the base
of what follows. -/
def Control.AllIris (P : String → Prop) (B : Prop) : Control → Prop
  | .statement => True
  | .namespaceLabel _ _ => True
  | .namespaceIri _ _ _ => True
  | .baseIri _ => B
  | .directiveEnd => True
  | .predicateOrEnd subject => subject.AllIris P
  | .bracketStart node use => node.AllIris P ∧ use.AllIris P
  | .predicate subject context => subject.AllIris P ∧ context.AllIris P
  | .object subject verb context => subject.AllIris P ∧ verb.AllIris P ∧ context.AllIris P
  | .objectEnd subject verb context => subject.AllIris P ∧ verb.AllIris P ∧ context.AllIris P
  | .semicolon subject context => subject.AllIris P ∧ context.AllIris P
  | .contextEnd context => context.AllIris P
  | .item items use => (∀ x ∈ items, x.AllIris P) ∧ use.AllIris P
  | .literalMark _ use => use.AllIris P
  | .datatype _ use => use.AllIris P

def StateAllIris (P Q : String → Prop) (B : Prop) (state : Control × Scope) : Prop :=
  state.1.AllIris P B ∧ state.2.AllIris P Q

def ParseError.IsDenotational : ParseError → Prop
  | .undefinedLabel .. => True
  | .invalidIri .. => True
  | .conflict .. => True
  | .tooManyNamespaces .. => True
  | .unresolvable fault => ∃ base reference, Iri.resolve base reference = .error fault
  | _ => False

/-- What may come of a token: a state whose IRIs have the properties, or an error about what the
document denotes. -/
def Keeps (P Q : String → Prop) (B : Prop) : Except ParseError (Control × Scope) → Prop
  | .ok state => StateAllIris P Q B state
  | .error e => e.IsDenotational

/-- Properties that pass from references to what they are resolved to: `P` is that of every IRI, `Q`
that of the bases, and `A` that of the references that are declared as bases. -/
structure Inherited (P Q A : String → Prop) : Prop where
  append {iri : String} (rest : String) (h : P iri) : P (iri ++ rest)
  builtIn : ∀ iri ∈ builtInIris, P iri
  resolve {s : Scope} (hs : ∀ base ∈ s.base, Q base) {reference : String} {line : Nat} {iri : String}
    (h : s.resolveReference reference line = .ok iri) : P iri
  resolveBase {s : Scope} (hs : ∀ base ∈ s.base, Q base) {reference : String} {line : Nat}
    {iri : String} (ha : A reference) (h : s.resolveReference reference line = .ok iri) : Q iri

variable {P Q A : String → Prop} {B : Prop} {scope : Scope}

theorem Scope.allIris_initial (capacity : Nat) (base : Option String) (hbase : ∀ iri ∈ base, Q iri) :
    (Scope.initial capacity base).AllIris P Q where
  isOpen := rfl
  namespaces := by simp [Scope.initial, Namespaces.empty]
  base := hbase
  emitted := by simp [Scope.initial]

theorem resolveReference_error {reference : String} {line : Nat} {e : ParseError}
    (h : scope.resolveReference reference line = .error e) : e.IsDenotational := by
  unfold Scope.resolveReference at h
  split at h
  · cases h
    trivial
  · split_ifs at h
    split at h
    · cases h
      trivial
    · next base _ =>
      cases hr : Iri.resolve base reference with
      | ok iri =>
        rw [hr] at h
        cases h
      | error fault =>
        rw [hr] at h
        cases h
        exact ⟨base, reference, hr⟩

theorem resolveIri?_error {token : Token} {e : ParseError}
    (h : scope.resolveIri? token = some (.error e)) : e.IsDenotational := by
  unfold Scope.resolveIri? at h
  split at h
  · exact resolveReference_error (Option.some.inj h)
  · have hname := Option.some.inj h
    unfold Scope.resolveName at hname
    split at hname <;> cases hname
    trivial
  · cases h

namespace Scope.AllIris

theorem emit (h : scope.AllIris P Q) {subject predicate object : Term} (line : Nat)
    (ht : Triple.AllIris P ⟨subject, predicate, object⟩) :
    (scope.emit subject predicate object line).AllIris P Q :=
  { h with
    emitted := by
      intro e he
      obtain rfl | he := List.mem_cons.1 he
      · exact ht
      · exact h.emitted e he }

theorem freshNode (h : scope.AllIris P Q) : scope.freshNode.2.AllIris P Q :=
  { h with }

theorem emitChain (hp : Inherited P Q A) (line : Nat) (items : List Term) (h : scope.AllIris P Q)
    (node : Term) (hn : node.AllIris P) (hitems : ∀ x ∈ items, x.AllIris P) :
    (scope.emitChain line node items).AllIris P Q := by
  have hfirst : Term.AllIris P (.iri Rdf.first) := hp.builtIn _ (by simp [builtInIris])
  have hrest : Term.AllIris P (.iri Rdf.rest) := hp.builtIn _ (by simp [builtInIris])
  induction items generalizing scope node with
  | nil => exact h
  | cons x items ih =>
    have hx := h.emit line ⟨hn, hfirst, hitems x List.mem_cons_self⟩
    cases items with
    | nil => exact hx.emit line ⟨hn, hrest, hp.builtIn _ (by simp [builtInIris])⟩
    | cons y items =>
      have hnext : Term.AllIris P (scope.emit node (.iri Rdf.first) x line).freshNode.1 := trivial
      exact ih (hx.freshNode.emit line ⟨hn, hrest, hnext⟩) _ hnext
        fun z hz => hitems z (List.mem_cons_of_mem x hz)

theorem emitCollection (hp : Inherited P Q A) (h : scope.AllIris P Q) (line : Nat) (items : List Term)
    (hitems : ∀ x ∈ items, x.AllIris P) :
    (scope.emitCollection line items).1.AllIris P ∧ (scope.emitCollection line items).2.AllIris P Q := by
  unfold Scope.emitCollection
  split_ifs with hempty
  · exact ⟨hp.builtIn _ (by simp [builtInIris]), h⟩
  · exact ⟨trivial, h.freshNode.emitChain hp line items _ trivial hitems⟩

theorem declare_error (h : scope.AllIris P Q) {label iri : String} {line : Nat} {e : ParseError}
    (hd : scope.declare label iri line = .error e) : e.IsDenotational := by
  rw [Scope.declare, Namespaces.declare, h.isOpen, if_neg Bool.false_ne_true] at hd
  split_ifs at hd with hfull
  cases hd
  trivial

theorem declare (h : scope.AllIris P Q) {label iri : String} {line : Nat} {scope' : Scope} (hi : P iri)
    (hd : scope.declare label iri line = .ok scope') : scope'.AllIris P Q := by
  rw [Scope.declare, Namespaces.declare, h.isOpen, if_neg Bool.false_ne_true] at hd
  split_ifs at hd with hfull
  cases hd
  exact { h with
    isOpen := rfl
    namespaces := by
      intro entry he
      obtain rfl | he := mem_putField he
      · exact hi
      · exact h.namespaces entry he }

theorem resolveName (hp : Inherited P Q A) (h : scope.AllIris P Q) {label rest : String} {p : Position}
    {iri : String} (hr : scope.resolveName label rest p = .ok iri) : P iri := by
  unfold Scope.resolveName at hr
  split at hr
  · next found hf =>
    cases hr
    exact hp.append rest (h.namespaces _ (mem_of_findField_eq_some hf))
  · cases hr

theorem resolveIri? (hp : Inherited P Q A) (h : scope.AllIris P Q) {token : Token} {iri : String}
    (hr : scope.resolveIri? token = some (.ok iri)) : P iri := by
  unfold Scope.resolveIri? at hr
  split at hr
  · exact hp.resolve h.base (Option.some.inj hr)
  · exact h.resolveName hp (Option.some.inj hr)
  · cases hr

end Scope.AllIris

theorem deliver_allIris (h : scope.AllIris P Q) {node : Term} (hn : node.AllIris P) {use : Use}
    (hu : use.AllIris P) : StateAllIris P Q B (deliver scope node use) := by
  cases use with
  | subject => exact ⟨⟨hn, trivial⟩, h⟩
  | object subject predicate line context =>
    exact ⟨hu, h.emit line ⟨hu.1, hu.2.1, hn⟩⟩
  | item items use =>
    refine ⟨⟨fun x hx => ?_, hu.2⟩, h⟩
    obtain rfl | hx := List.mem_cons.1 hx
    · exact hn
    · exact hu.1 x hx

theorem deliverBrackets_allIris (h : scope.AllIris P Q) {node : Term} (hn : node.AllIris P) {use : Use}
    (hu : use.AllIris P) : StateAllIris P Q B (deliverBrackets scope node use) := by
  cases use with
  | subject => exact ⟨hn, h⟩
  | object subject predicate line context => exact deliver_allIris h hn hu
  | item items use => exact deliver_allIris h hn hu

theorem settleLiteral_allIris {control : Control} (hc : control.AllIris P B) (h : scope.AllIris P Q)
    (next : Option Lexeme) : StateAllIris P Q B (settleLiteral control scope next) := by
  unfold settleLiteral
  split
  · split_ifs
    · exact ⟨hc, h⟩
    · exact deliver_allIris h (Term.allIris_literal P _ none) hc
  · exact ⟨hc, h⟩

theorem settleList_allIris {control : Control} (hc : control.AllIris P B) (next : Option Lexeme) :
    (settleList control next).AllIris P B := by
  unfold settleList
  split
  · split_ifs
    · exact hc
    · exact hc.2.2
  · split_ifs
    · exact hc.2
    · exact hc
  · exact hc

theorem settle_allIris {control : Control} (hc : control.AllIris P B) (h : scope.AllIris P Q)
    (next : Option Lexeme) : StateAllIris P Q B (settle control scope next) :=
  have hliteral := settleLiteral_allIris hc h next
  ⟨settleList_allIris hliteral.1 next, hliteral.2⟩

theorem keeps_none : ∀ outcome ∈ (none : Option (Except ParseError (Control × Scope))),
    Keeps P Q B outcome :=
  fun _ h => by cases h

theorem keeps_ok {state : Control × Scope} (h : StateAllIris P Q B state) :
    ∀ outcome ∈ some (.ok state), Keeps P Q B outcome :=
  fun _ ho => by
    cases ho
    exact h

theorem keeps_bind {α : Type} {x : Except ParseError α} {f : α → Except ParseError (Control × Scope)}
    (herror : ∀ e, x = .error e → e.IsDenotational) (hok : ∀ a, x = .ok a → Keeps P Q B (f a)) :
    Keeps P Q B (x >>= f) := by
  cases x with
  | error e => exact herror e rfl
  | ok a => exact hok a rfl

theorem keeps_resolveIri? (hp : Inherited P Q A) (h : scope.AllIris P Q) (token : Token)
    (f : String → Control × Scope) (hf : ∀ iri, P iri → StateAllIris P Q B (f iri)) :
    ∀ outcome ∈ (scope.resolveIri? token).map fun iri => iri.map f, Keeps P Q B outcome := by
  intro outcome ho
  obtain ⟨resolved, hr, rfl⟩ := Option.map_eq_some_iff.1 ho
  cases resolved with
  | ok iri => exact hf iri (h.resolveIri? hp hr)
  | error e => exact resolveIri?_error hr

theorem takeNode_keeps (hp : Inherited P Q A) (h : scope.AllIris P Q) (token : Token) {use : Use}
    (hu : use.AllIris P) : ∀ outcome ∈ takeNode scope token use, Keeps P Q B outcome := by
  unfold takeNode
  split
  · exact keeps_ok (deliver_allIris h (Term.allIris_blank P _) hu)
  · exact keeps_ok ⟨⟨trivial, hu⟩, h.freshNode⟩
  · exact keeps_ok ⟨⟨by simp, hu⟩, h⟩
  · exact keeps_resolveIri? hp h token _ fun iri hi => deliver_allIris h (Term.allIris_iri hi) hu

theorem takeObject_keeps (hp : Inherited P Q A) (h : scope.AllIris P Q) (token : Token) {use : Use}
    (hu : use.AllIris P) : ∀ outcome ∈ takeObject scope token use, Keeps P Q B outcome := by
  unfold takeObject
  split
  · exact keeps_ok ⟨hu, h⟩
  · next kind digits _ =>
    have hkind : P kind.datatype :=
      hp.builtIn _ (by cases kind <;> simp [builtInIris, NumberKind.datatype])
    exact keeps_ok (deliver_allIris h (Term.allIris_typed digits hkind) hu)
  · split_ifs
    · have hboolean : P Xsd.boolean := hp.builtIn _ (by simp [builtInIris])
      exact keeps_ok (deliver_allIris h (Term.allIris_typed _ hboolean) hu)
    · exact keeps_none
  · exact takeNode_keeps hp h token hu

theorem takePredicate_keeps (hp : Inherited P Q A) (h : scope.AllIris P Q) (token : Token)
    {subject : Term} (hs : subject.AllIris P) {context : Context} (hc : context.AllIris P) :
    ∀ outcome ∈ takePredicate scope token subject context, Keeps P Q B outcome := by
  unfold takePredicate
  split
  · split_ifs
    · exact keeps_ok ⟨⟨hs, hp.builtIn _ (by simp [builtInIris]), hc⟩, h⟩
    · exact keeps_none
  · exact keeps_resolveIri? hp h token _ fun iri hi => ⟨⟨hs, hi, hc⟩, h⟩

def Lexeme.DeclaresBase : Lexeme → Prop
  | .directive d => d = .base
  | .word w => wordDirective? w = some .base
  | _ => False

theorem afterDirective_allIris (d : Directive) (isClosed : Bool) (line : Nat) (h : d = .base → B) :
    (afterDirective d isClosed line).AllIris P B := by
  cases d with
  | namespaceLabel => trivial
  | base => exact h rfl

theorem afterDeclaration_allIris (isClosed : Bool) : (afterDeclaration isClosed).AllIris P B := by
  cases isClosed <;> trivial

theorem takeStatement_keeps (hp : Inherited P Q A) (h : scope.AllIris P Q) (token : Token) :
    ∀ outcome ∈ takeStatement scope token, Keeps P Q token.lexeme.DeclaresBase outcome := by
  unfold takeStatement
  split
  · next d hl => exact keeps_ok ⟨afterDirective_allIris d _ _ (hl ▸ id), h⟩
  · next word hl =>
    cases hd : wordDirective? word with
    | none => exact keeps_none
    | some d =>
      refine keeps_ok ⟨afterDirective_allIris d _ _ fun he => ?_, h⟩
      rw [hl, Lexeme.DeclaresBase, hd, he]
  · exact takeNode_keeps hp h token (show Use.subject.AllIris P from trivial)

/-- What comes of a token keeps the properties, if the references that are declared as bases have
theirs. -/
theorem take_keeps (hp : Inherited P Q A) (control : Control) (token : Token)
    (hc : control.AllIris P (∀ reference, token.lexeme = .iri reference → A reference))
    (h : scope.AllIris P Q) :
    ∀ outcome ∈ take control scope token, Keeps P Q token.lexeme.DeclaresBase outcome := by
  fun_cases take control scope token with
  | case1 => exact takeStatement_keeps hp h token
  | case2 => exact keeps_ok ⟨trivial, h⟩
  | case3 line isClosed directiveLine label reference hl =>
    intro outcome ho
    cases ho
    refine keeps_bind (fun e => resolveReference_error) fun iri hi => ?_
    refine keeps_bind (fun e => h.declare_error) fun scope' hd => ?_
    exact ⟨afterDeclaration_allIris _, h.declare (hp.resolve h.base hi) hd⟩
  | case4 line isClosed reference hl =>
    intro outcome ho
    cases ho
    refine keeps_bind (fun e => resolveReference_error) fun iri hi => ?_
    refine ⟨afterDeclaration_allIris _, { h with base := fun base hb => ?_ }⟩
    cases hb
    exact hp.resolveBase h.base (hc reference hl) hi
  | case5 => exact keeps_ok ⟨trivial, h⟩
  | case6 => exact keeps_ok ⟨trivial, h⟩
  | case7 subject => exact takePredicate_keeps hp h token hc trivial
  | case8 node use => exact keeps_ok (deliverBrackets_allIris h hc.1 hc.2)
  | case9 node use => exact takePredicate_keeps hp h token hc.1 hc
  | case10 subject context => exact takePredicate_keeps hp h token hc.1 hc.2
  | case11 line subject predicate context => exact takeObject_keeps hp h token hc
  | case12 subject predicate context => exact keeps_ok ⟨hc, h⟩
  | case13 subject predicate context => exact keeps_ok ⟨⟨hc.1, hc.2.2⟩, h⟩
  | case14 subject context => exact keeps_ok ⟨hc, h⟩
  | case15 subject context => exact takePredicate_keeps hp h token hc.1 hc.2
  | case16 => exact keeps_ok ⟨trivial, h⟩
  | case17 node use => exact keeps_ok (deliverBrackets_allIris h hc.1 hc.2)
  | case18 line items use hl head scope' hcollection =>
    have hall := h.emitCollection hp line items.reverse fun x hx => hc.1 x (List.mem_reverse.1 hx)
    rw [hcollection] at hall
    exact keeps_ok (deliver_allIris hall.2 hall.1 hc.2)
  | case19 items use => exact takeObject_keeps hp h token hc
  | case20 value use => exact keeps_ok (deliver_allIris h (Term.allIris_literal P _ _) hc)
  | case21 value use => exact keeps_ok ⟨hc, h⟩
  | case22 value use =>
    refine keeps_resolveIri? hp h token _ fun iri hi => deliver_allIris h ?_ hc
    unfold typedLiteral
    split_ifs
    · exact Term.allIris_literal P value none
    · exact Term.allIris_typed value hi
  | case23 => exact keeps_none

/-- Whether an error says that a token does not fit the grammar. -/
def ParseError.IsGrammatical : ParseError → Prop
  | .unexpected .. => True
  | _ => False

/-- Every reference of a list of lexemes that is declared as a base has a property. -/
def DeclaredBases (A : String → Prop) (lexemes : List Lexeme) : Prop :=
  ∀ l reference, [l, .iri reference] <:+: lexemes → l.DeclaresBase → A reference

theorem declaredBases_nil : DeclaredBases A [] :=
  fun _ _ hi => by simp at hi

theorem declaredBases_cons (l : Lexeme) (ls : List Lexeme) : DeclaredBases A (l :: ls) ↔
    (∀ reference, ls.head? = some (.iri reference) → l.DeclaresBase → A reference) ∧
      DeclaredBases A ls := by
  constructor
  · refine fun h => ⟨fun reference hr hl => h l reference ?_ hl, fun l' reference hi => ?_⟩
    · obtain ⟨rest, rfl⟩ := List.head?_eq_some_iff.1 hr
      exact ⟨[], rest, rfl⟩
    · exact h l' reference (hi.trans (List.suffix_cons l ls).isInfix)
  · rintro ⟨hhead, htail⟩ l' reference hi hl
    obtain hprefix | hi := List.infix_cons_iff.1 hi
    · obtain ⟨rfl, rest, rfl⟩ := List.cons_prefix_cons.1 hprefix
      exact hhead reference rfl hl
    · exact htail l' reference hi hl

theorem Control.AllIris.mono {control : Control} {B' : Prop} (hb : B → B') (h : control.AllIris P B) :
    control.AllIris P B' := by
  cases control with
  | baseIri isClosed => exact hb h
  | _ => exact h

theorem step_keeps (hp : Inherited P Q A) (control : Control) (token : Token)
    (hc : control.AllIris P (∀ reference, token.lexeme = .iri reference → A reference))
    (h : scope.AllIris P Q) :
    (step control scope token).1.AllIris P Q ∧
      ((∃ e, (step control scope token).2 = .error e ∧ e.IsGrammatical) ∨
        Keeps P Q token.lexeme.DeclaresBase (step control scope token).2) := by
  have hs := settle_allIris hc h (some token.lexeme)
  have htake := take_keeps hp _ token hs.1 hs.2
  unfold step
  dsimp only
  cases ht : take (settle control scope (some token.lexeme)).1
      (settle control scope (some token.lexeme)).2 token with
  | some outcome => exact ⟨hs.2, .inr (htake outcome ht)⟩
  | none => exact ⟨hs.2, .inl ⟨_, rfl, trivial⟩⟩

/-- Whatever a run comes to, its scope keeps the properties. An error that stops it is about the grammar
or about what the document denotes. -/
theorem run_keeps (hp : Inherited P Q A) (stop : Position) (tokens : List Token) (control : Control)
    (hc : control.AllIris P (∀ t ∈ tokens.head?, ∀ reference, t.lexeme = .iri reference → A reference))
    (h : scope.AllIris P Q) (hbases : DeclaredBases A (tokens.map (·.lexeme))) :
    (run stop control scope tokens).1.AllIris P Q ∧
      ∀ e ∈ (run stop control scope tokens).2, e.IsGrammatical ∨ e.IsDenotational := by
  induction tokens generalizing control scope with
  | nil =>
    have hs := settle_allIris hc h none
    unfold run finish
    dsimp only
    split
    · exact ⟨hs.2, by simp⟩
    · refine ⟨hs.2, fun e he => .inl ?_⟩
      cases he
      trivial
  | cons token tokens ih =>
    have hc' : control.AllIris P (∀ reference, token.lexeme = .iri reference → A reference) :=
      hc.mono fun hb => hb token rfl
    obtain ⟨hscope, hout⟩ := step_keeps hp control token hc' h
    unfold run
    cases hstep : step control scope token with
    | mk scope₁ outcome =>
      rw [hstep] at hscope hout
      cases outcome with
      | ok state =>
        obtain ⟨e, he, -⟩ | hstate := hout
        · cases he
        · obtain ⟨hhead, htail⟩ := (declaredBases_cons _ _).1 hbases
          refine ih state.1 (hstate.1.mono fun hd t ht reference hl => ?_) hstate.2 htail
          refine hhead reference ?_ hd
          rw [List.head?_map, ht, Option.map_some, hl]
      | error e =>
        refine ⟨hscope, fun e' he => ?_⟩
        cases he
        obtain ⟨e, he, hg⟩ | hd := hout
        · cases he
          exact .inl hg
        · exact .inr hd

theorem mem_of_record {functional : List String} {recorded triples : List Triple}
    {emissions : List Emission} (h : record functional recorded emissions = .ok triples) (t : Triple)
    (ht : t ∈ triples) : t ∈ recorded ∨ ∃ e ∈ emissions, e.triple = t := by
  induction emissions generalizing recorded with
  | nil =>
    cases h
    exact .inl (List.mem_reverse.1 ht)
  | cons e emissions ih =>
    unfold record at h
    split at h
    · cases h
    · split_ifs at h
      · exact (ih h).imp_right fun ⟨e', he, het⟩ => ⟨e', List.mem_cons_of_mem e he, het⟩
      · obtain hr | ⟨e', he, het⟩ := ih h
        · obtain rfl | hr := List.mem_cons.1 hr
          · exact .inr ⟨e, List.mem_cons_self, rfl⟩
          · exact .inl hr
        · exact .inr ⟨e', List.mem_cons_of_mem e he, het⟩

theorem record_error {functional : List String} {recorded : List Triple} {emissions : List Emission}
    {e : ParseError} (h : record functional recorded emissions = .error e) : e.IsDenotational := by
  induction emissions generalizing recorded with
  | nil => cases h
  | cons emission emissions ih =>
    unfold record at h
    split at h
    · cases h
      trivial
    · split_ifs at h
      · exact ih h
      · exact ih h

variable {options : ParserOptions} {size : Nat} {tokens : Tokens}

def documentRun (options : ParserOptions) (tokens : Tokens) : Scope × Option ParseError :=
  run tokens.stop .statement (.initial options.capacity.toNat options.base) tokens.tokens

theorem parseTokens_ok {d : Document} (h : parseTokens options size tokens = .ok d) :
    (documentRun options tokens).2 = none ∧
      ∃ triples,
        record options.functional [] (documentRun options tokens).1.emitted.reverse = .ok triples ∧
        d = ⟨triples, (documentRun options tokens).1.namespaces.freeze,
          (documentRun options tokens).1.base, size⟩ := by
  unfold parseTokens at h
  split at h
  next scope stopped hrun =>
  rw [documentRun, hrun]
  split at h
  · cases h
  · next triples hrecord =>
    split at h
    · cases h
    · cases h
      exact ⟨rfl, triples, hrecord, rfl⟩

theorem parseTokens_eq_ok (size : Nat) (hrun : (documentRun options tokens).2 = none)
    {triples : List Triple}
    (hrecord : record options.functional [] (documentRun options tokens).1.emitted.reverse = .ok triples) :
    parseTokens options size tokens = .ok ⟨triples, (documentRun options tokens).1.namespaces.freeze,
      (documentRun options tokens).1.base, size⟩ := by
  rw [parseTokens]
  rw [documentRun] at hrun hrecord ⊢
  cases hstate : run tokens.stop .statement (.initial options.capacity.toNat options.base)
      tokens.tokens with
  | mk scope stopped =>
    rw [hstate] at hrun hrecord
    cases hrun
    dsimp only at hrecord ⊢
    rw [hrecord]

theorem parseTokens_error {e : ParseError} (h : parseTokens options size tokens = .error e) :
    record options.functional [] (documentRun options tokens).1.emitted.reverse = .error e ∨
      (documentRun options tokens).2 = some e := by
  unfold parseTokens at h
  split at h
  next scope stopped hrun =>
  rw [documentRun, hrun]
  split at h
  · next hrecord =>
    cases h
    exact .inl hrecord
  · split at h
    · cases h
      exact .inr rfl
    · cases h

structure Document.AllIris (P Q : String → Prop) (d : Document) : Prop where
  triples : ∀ t ∈ d.triples, t.AllIris P
  namespaces : ∀ entry ∈ d.namespaces.entries, P entry.2
  base : ∀ iri ∈ d.base, Q iri

theorem documentRun_keeps (hp : Inherited P Q A) (hbase : ∀ iri ∈ options.base, Q iri)
    (hbases : DeclaredBases A (tokens.tokens.map (·.lexeme))) :
    (documentRun options tokens).1.AllIris P Q ∧
      ∀ e ∈ (documentRun options tokens).2, e.IsGrammatical ∨ e.IsDenotational :=
  run_keeps hp tokens.stop tokens.tokens .statement trivial
    (Scope.allIris_initial options.capacity.toNat options.base hbase) hbases

theorem parseTokens_allIris (hp : Inherited P Q A) (hbase : ∀ iri ∈ options.base, Q iri)
    (hbases : DeclaredBases A (tokens.tokens.map (·.lexeme))) {d : Document}
    (h : parseTokens options size tokens = .ok d) : d.AllIris P Q := by
  have hscope := (documentRun_keeps hp hbase hbases).1
  obtain ⟨-, triples, hrecord, rfl⟩ := parseTokens_ok h
  refine ⟨fun t ht => ?_, hscope.namespaces, hscope.base⟩
  obtain ht | ⟨e, he, rfl⟩ := mem_of_record hrecord t ht
  · cases ht
  · exact hscope.emitted e (List.mem_reverse.1 he)

theorem inherited_true : Inherited (fun _ => True) (fun _ => True) fun _ => True where
  append _ _ := trivial
  builtIn _ _ := trivial
  resolve _ _ _ _ _ := trivial
  resolveBase _ _ _ _ _ _ := trivial

/-- The errors that tokens may lead to. A table of namespaces that can still be filled is none of
them. -/
theorem parseTokens_error_kind {e : ParseError} (h : parseTokens options size tokens = .error e) :
    e.IsGrammatical ∨ e.IsDenotational := by
  obtain hrecord | hrun := parseTokens_error h
  · exact .inr (record_error hrecord)
  · exact (documentRun_keeps inherited_true (fun _ _ => trivial) fun _ _ _ _ => trivial).2 e hrun

end Turtle

end CommandOntology
