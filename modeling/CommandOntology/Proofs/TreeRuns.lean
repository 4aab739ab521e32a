import CommandOntology.Proofs.AcceptedDocuments
import CommandOntology.Proofs.GroundStatements
import CommandOntology.Proofs.SyntaxTrees

set_option autoImplicit false

namespace CommandOntology.Turtle

open CommandOntology.Text

section

variable {control : Control} {scope : Scope} {l : Lexeme} {ls ls' : List Lexeme}
  {mid post : Control → Scope → Prop}

/-- A run that ends well is in a certain state behind certain lexemes, whatever comes after them. No mark of a text
comes there. -/
def Reads (control : Control) (scope : Scope) (ls : List Lexeme) (post : Control → Scope → Prop) : Prop :=
  ∀ (stop : Position) (tokens : List Token) (after : List Lexeme), tokens.map (·.lexeme) = ls ++ after →
    continuesLiteral after.head? = false → (run stop control scope tokens).2 = none →
      ∃ control' scope', post control' scope' ∧ GoesOn stop control scope tokens after control' scope'

theorem Reads.nil (h : post control scope) : Reads control scope [] post :=
  fun _ tokens _ ht _ _ => ⟨control, scope, h, tokens, ht, rfl⟩

theorem Reads.append (h : Reads control scope ls mid) (hstart : continuesLiteral ls'.head? = false)
    (h' : ∀ control' scope', mid control' scope' → Reads control' scope' ls' post) :
    Reads control scope (ls ++ ls') post := by
  intro stop tokens after ht hafter hrun
  have hnext : continuesLiteral (ls' ++ after).head? = false := by
    cases ls' with
    | nil => exact hafter
    | cons l ls' => exact hstart
  obtain ⟨control', scope', hmid, hgoes⟩ := h stop tokens _ (ht.trans (List.append_assoc _ _ _)) hnext hrun
  obtain ⟨rest, hrest, hcompletes, heq⟩ := hgoes.completes hrun
  obtain ⟨control'', scope'', hpost, hgoes'⟩ := h' control' scope' hmid stop rest after hrest hafter hcompletes
  exact ⟨control'', scope'', hpost, hgoes'.of_run heq⟩

theorem Reads.cons (h : ∀ p control' scope', (step control scope ⟨l, p⟩).2 = .ok (control', scope') →
    Reads control' scope' ls post) : Reads control scope (l :: ls) post := by
  intro stop tokens after ht hafter hrun
  obtain ⟨p, state, hstep, hgoes⟩ := exists_step hrun ht
  obtain ⟨rest, hrest, hcompletes, heq⟩ := hgoes.completes hrun
  obtain ⟨control', scope', hpost, hgoes'⟩ := h p state.1 state.2 hstep stop rest after hrest hafter hcompletes
  exact ⟨control', scope', hpost, hgoes'.of_run heq⟩

theorem Reads.mono (h : Reads control scope ls mid) (hpost : ∀ control' scope', mid control' scope' →
    post control' scope') : Reads control scope ls post := by
  intro stop tokens after ht hafter hrun
  obtain ⟨control', scope', hmid, hgoes⟩ := h stop tokens after ht hafter hrun
  exact ⟨control', scope', hpost control' scope' hmid, hgoes⟩

theorem take_of_step {token : Token} {state : Control × Scope} (h : (step control scope token).2 = .ok state) :
    take (settle control scope (some token.lexeme)).1 (settle control scope (some token.lexeme)).2 token =
      some (.ok state) := by
  unfold step at h
  dsimp only at h
  split at h
  · next ht =>
    rw [ht]
    exact congrArg some h
  · cases h

theorem eq_of_some_ok {state state' : Control × Scope} {outcome : Option (Except ParseError (Control × Scope))}
    (h : outcome = some (.ok state)) (h' : outcome = some (.ok state')) : state = state' :=
  Except.ok.inj (Option.some.inj (h.symm.trans h'))

/-- Runs go on alike from states that settle alike. -/
theorem run_eq_of_settle {control' : Control} {scope' : Scope} {stop : Position} {tokens : List Token}
    (h : settle control scope (tokens.map (·.lexeme)).head? = settle control' scope' (tokens.map (·.lexeme)).head?) :
    run stop control scope tokens = run stop control' scope' tokens := by
  cases tokens with
  | nil =>
    change settle control scope none = settle control' scope' none at h
    rw [run, run, finish, finish, h]
  | cons token tokens =>
    change settle control scope (some token.lexeme) = settle control' scope' (some token.lexeme) at h
    rw [run, run, step, step, h]

theorem settleLiteral_deliver (node : Term) (use : Use) (next : Option Lexeme) :
    settleLiteral (deliver scope node use).1 (deliver scope node use).2 next = deliver scope node use := by
  cases use <;> rfl

theorem continuesLiteral_head?_lexemes (node : Tree.Node) (ls : List Lexeme) :
    continuesLiteral (node.lexemes ++ ls).head? = false := by
  cases node with
  | iri iri => cases iri <;> rfl
  | literal literal => cases literal <;> rfl
  | _ => rfl

theorem continuesLiteral_head?_properties (properties : Tree.Properties) (ls : List Lexeme) :
    continuesLiteral (properties.lexemes ++ ls).head? = false := by
  have hverb (verb : Tree.Verb) (ls : List Lexeme) : continuesLiteral (verb.lexeme :: ls).head? = false := by
    cases verb with
    | type => rfl
    | iri iri => cases iri <;> rfl
  cases properties with
  | last property n =>
    cases property
    exact hverb _ _
  | more property n properties =>
    cases property
    exact hverb _ _

theorem reads_unmarked (value : String) (use : Use) : Reads (.literalMark value use) scope [] fun control' scope' =>
    (control', scope') = deliver scope (.plain value) use := by
  intro stop tokens after ht hafter hrun
  refine ⟨(deliver scope (.plain value) use).1, (deliver scope (.plain value) use).2, rfl, tokens, ht,
    run_eq_of_settle ?_⟩
  rw [ht, List.nil_append, settle, settle, settleLiteral_deliver, settleLiteral, hafter]
  rfl

end

/-- The machine has come to what a reading says. -/
structure Scope.Holds (s : Scope) (r : Reading) : Prop where
  namespaces : s.namespaces = r.namespaces
  base : s.base = r.base
  nodeCount : s.nodeCount = r.nodeCount
  triples : s.emitted.reverse.map (·.triple) = r.triples

theorem Scope.emitChain_cons (scope : Scope) (line : Nat) (node value : Term) (values : List Term) :
    (scope.emitChain line node (value :: values)).namespaces = scope.namespaces ∧
    (scope.emitChain line node (value :: values)).base = scope.base ∧
    (scope.emitChain line node (value :: values)).nodeCount = scope.nodeCount + values.length ∧
    (scope.emitChain line node (value :: values)).emitted.reverse.map (·.triple) =
      scope.emitted.reverse.map (·.triple) ++
        chain (node :: freshNodes scope.nodeCount values.length) (value :: values) := by
  induction values generalizing scope node value with
  | nil => simp [Scope.emitChain, Scope.emit, chain, freshNodes]
  | cons next values ih =>
    rw [Scope.emitChain]
    obtain ⟨hnamespaces, hbase, hcount, htriples⟩ := ih
      (((scope.emit node (.iri Rdf.first) value line).freshNode.2.emit node (.iri Rdf.rest)
        (scope.emit node (.iri Rdf.first) value line).freshNode.1 line))
      (scope.emit node (.iri Rdf.first) value line).freshNode.1 next
    refine ⟨hnamespaces, hbase, ?_, ?_⟩
    · rw [hcount]
      simp [Scope.emit, Scope.freshNode]
      omega
    · rw [htriples]
      simp [Scope.emit, Scope.freshNode, chain, freshNodes_succ]

namespace Scope.Holds

variable {scope : Scope} {r : Reading}

theorem emit (h : scope.Holds r) (subject object : Term) (predicate : String) (line : Nat) :
    (scope.emit subject (.iri predicate) object line).Holds (r.state subject predicate object) where
  namespaces := h.namespaces
  base := h.base
  nodeCount := h.nodeCount
  triples := by simp [Scope.emit, Reading.state, ← h.triples]

theorem label (h : scope.Holds r) (label : String) : scope.Holds (r.label label).2 :=
  ⟨h.namespaces, h.base, h.nodeCount, h.triples⟩

theorem freshNode_fst (h : scope.Holds r) : scope.freshNode.1 = r.openBrackets.1 := by
  rw [Scope.freshNode, Reading.openBrackets, h.nodeCount]

theorem freshNode (h : scope.Holds r) : scope.freshNode.2.Holds r.openBrackets.2 where
  namespaces := h.namespaces
  base := h.base
  nodeCount := congrArg (· + 1) h.nodeCount
  triples := h.triples

theorem emitCollection (h : scope.Holds r) (line : Nat) (values : List Term) :
    (scope.emitCollection line values).1 = (r.collect values).1 ∧
      (scope.emitCollection line values).2.Holds (r.collect values).2 := by
  cases values with
  | nil =>
    refine ⟨rfl, h.namespaces, h.base, h.nodeCount, ?_⟩
    simp [Scope.emitCollection, Reading.collect, h.triples, chain]
  | cons value values =>
    obtain ⟨hnamespaces, hbase, hcount, htriples⟩ :=
      scope.freshNode.2.emitChain_cons line scope.freshNode.1 value values
    have hcells : freshNodes r.nodeCount (value :: values).length =
        scope.freshNode.1 :: freshNodes scope.freshNode.2.nodeCount values.length := by
      rw [List.length_cons, freshNodes_succ, h.freshNode_fst, h.freshNode.nodeCount]
      rfl
    refine ⟨?_, hnamespaces.trans h.namespaces, hbase.trans h.base, ?_, ?_⟩
    · rw [Reading.collect, hcells]
      rfl
    · calc
        _ = scope.freshNode.2.nodeCount + values.length := hcount
        _ = r.nodeCount + 1 + values.length := congrArg (· + values.length) h.freshNode.nodeCount
        _ = r.nodeCount + (values.length + 1) := by omega
    · rw [Reading.collect, hcells]
      exact htriples.trans (congrArg (· ++ _) h.triples)

theorem resolveIri? (h : scope.Holds r) (token : Token) : scope.resolveIri? token = r.scope.resolveIri? token := by
  unfold Scope.resolveIri? Scope.resolveReference Scope.resolveName
  rw [h.base, h.namespaces]
  rfl

theorem iri (h : scope.Holds r) {iri : Tree.Iri} {p : Position} {value : String}
    (hi : scope.resolveIri? ⟨iri.lexeme, p⟩ = some (.ok value)) : r.iri iri = value := by
  have hnames := names_of_resolveIri? hi .start
  rw [h.resolveIri?] at hnames
  rw [Reading.iri, hnames]

end Scope.Holds

/-- A control that reads a node, and who the node is read for if it starts at a line. -/
inductive Control.Awaits : Control → (Nat → Use) → Prop
  | subject : Awaits .statement fun _ => .subject
  | object (subject predicate : Term) (context : Context) :
    Awaits (.object subject predicate context) fun line => .object subject predicate line context
  | item (items : List Term) (use : Use) : Awaits (.item items use) fun _ => .item items use

inductive Control.AwaitsProperties (subject : Term) : Context → Control → Prop
  | subject (context : Context) : AwaitsProperties subject context (.predicate subject context)
  | brackets : AwaitsProperties subject .statement (.predicateOrEnd subject)
  | bracketStart (use : Use) : AwaitsProperties subject (.brackets subject use) (.bracketStart subject use)
  | semicolon (context : Context) : AwaitsProperties subject context (.semicolon subject context)

inductive Control.HasRead (subject : Term) (context : Context) : Control → Prop
  | objects (predicate : Term) : HasRead subject context (.objectEnd subject predicate context)
  | semicolon : HasRead subject context (.semicolon subject context)

def Tree.Node.handOver (node : Tree.Node) (scope : Scope) (value : Term) (use : Use) : Control × Scope :=
  if node.isBrackets then deliverBrackets scope value use else deliver scope value use

section

variable {control : Control} {scope : Scope} {r : Reading} {use : Nat → Use} {subject : Term} {context : Context}
  {p : Position} {state : Control × Scope}

inductive Lexeme.StartsNode : Lexeme → Prop
  | iri (reference : String) : StartsNode (.iri reference)
  | name (label rest : String) : StartsNode (.name label rest)
  | blankNode (label : String) : StartsNode (.blankNode label)
  | openBracket : StartsNode (.mark .openBracket)
  | openParenthesis : StartsNode (.mark .openParenthesis)

theorem Control.Awaits.takeNode {l : Lexeme} (hc : control.Awaits use)
    (h : (step control scope ⟨l, p⟩).2 = .ok state) (hl : l.StartsNode) :
    takeNode scope ⟨l, p⟩ (use p.line) = some (.ok state) := by
  have ht := take_of_step h
  cases hl <;> cases hc <;> exact ht

theorem Control.Awaits.takeObject {l : Lexeme} (hc : control.Awaits use)
    (h : (step control scope ⟨l, p⟩).2 = .ok state) (hs : control ≠ .statement)
    (hl : l ≠ .mark .closeParenthesis) :
    takeObject scope ⟨l, p⟩ (use p.line) = some (.ok state) := by
  have ht := take_of_step h
  cases hc with
  | subject => exact absurd rfl hs
  | object => exact ht
  | item =>
    cases l with
    | mark m =>
      cases m with
      | closeParenthesis => exact absurd rfl hl
      | _ => exact ht
    | _ => exact ht

theorem Control.Awaits.openBracket (hc : control.Awaits use) (hr : scope.Holds r)
    (h : (step control scope ⟨.mark .openBracket, p⟩).2 = .ok state) :
    state = (.bracketStart r.openBrackets.1 (use p.line), scope.freshNode.2) := by
  rw [← hr.freshNode_fst]
  exact eq_of_some_ok (hc.takeNode h .openBracket) rfl

theorem exists_of_resolveIri?_map {token : Token} {f : String → Control × Scope}
    (h : ((scope.resolveIri? token).map fun iri => iri.map f) = some (.ok state)) :
    ∃ iri, scope.resolveIri? token = some (.ok iri) ∧ f iri = state := by
  obtain ⟨resolved, hr, hstate⟩ := Option.map_eq_some_iff.1 h
  obtain ⟨iri, rfl, hf⟩ := (map_eq_ok_iff _ _ _).1 hstate
  exact ⟨iri, hr, hf⟩

theorem reads_literal (literal : Tree.Literal) (hc : control.Awaits use) (hs : control ≠ .statement)
    (hr : scope.Holds r) : Reads control scope literal.lexemes fun control' scope' =>
      ∃ line, (control', scope') = deliver scope (r.literal literal) (use line) := by
  cases literal with
  | text value =>
    refine .cons fun p control' scope' h => ?_
    cases hc.takeObject h hs (by simp)
    exact (reads_unmarked value _).mono fun _ _ heq => ⟨p.line, heq⟩
  | taggedText value tag =>
    refine .cons fun p control' scope' h => ?_
    cases hc.takeObject h hs (by simp)
    refine .cons fun q control' scope' h => .nil ⟨p.line, ?_⟩
    exact eq_of_some_ok (take_of_step h) rfl
  | typedText value datatype =>
    refine .cons fun p control' scope' h => ?_
    cases hc.takeObject h hs (by simp)
    refine .cons fun q control' scope' h => ?_
    cases take_of_step h
    refine .cons fun q control' scope' h => .nil ⟨p.line, ?_⟩
    obtain ⟨iri, hiri, hstate⟩ := exists_of_resolveIri?_map (take_of_step h)
    rw [← hstate, Reading.literal, hr.iri hiri]
    rfl
  | number kind digits =>
    refine .cons fun p control' scope' h => .nil ⟨p.line, ?_⟩
    exact eq_of_some_ok (hc.takeObject h hs (by simp)) rfl
  | truth value =>
    refine .cons fun p control' scope' h => .nil ⟨p.line, ?_⟩
    have ht := hc.takeObject h hs (by simp)
    cases value <;> exact eq_of_some_ok ht rfl

theorem reads_semicolons (n : Nat) : Reads (.semicolon subject context) scope (.replicate n (.mark .semicolon))
    fun control' scope' => control' = .semicolon subject context ∧ scope' = scope := by
  induction n with
  | zero => exact .nil ⟨rfl, rfl⟩
  | succ n ih =>
    refine .cons fun p control' scope' h => ?_
    cases take_of_step h
    exact ih

theorem Control.AwaitsProperties.verb (hc : control.AwaitsProperties subject context) {verb : Tree.Verb}
    (hr : scope.Holds r) (h : (step control scope ⟨verb.lexeme, p⟩).2 = .ok state) :
    state = (.object subject (.iri (r.verb verb)) context, scope) := by
  have ht : takePredicate scope ⟨verb.lexeme, p⟩ subject context = some (.ok state) := by
    have ht := take_of_step h
    cases verb with
    | type => cases hc <;> exact ht
    | iri iri => cases iri <;> cases hc <;> exact ht
  cases verb with
  | type =>
    cases ht
    rfl
  | iri iri =>
    have ht' : ((scope.resolveIri? ⟨iri.lexeme, p⟩).map fun value => value.map fun value =>
        (Control.object subject (.iri value) context, scope)) = some (.ok state) := by
      cases iri <;> exact ht
    obtain ⟨value, hvalue, rfl⟩ := exists_of_resolveIri?_map ht'
    rw [Reading.verb, hr.iri hvalue]

theorem Tree.Node.handOver_item (node : Tree.Node) (value : Term) (items : List Term) (use : Use) :
    node.handOver scope value (.item items use) = (.item (value :: items) use, scope) :=
  ite_self _

theorem Tree.Node.handOver_object (node : Tree.Node) (value predicate : Term) (line : Nat) :
    node.handOver scope value (.object subject predicate line context) =
      (.objectEnd subject predicate context, scope.emit subject predicate value line) :=
  ite_self _

theorem Control.HasRead.closeBracket {use : Use} (hc : control.HasRead subject (.brackets subject use))
    (h : (step control scope ⟨.mark .closeBracket, p⟩).2 = .ok state) :
    state = deliverBrackets scope subject use := by
  have ht := take_of_step h
  cases hc <;> exact eq_of_some_ok ht rfl

theorem Control.HasRead.dot (hc : control.HasRead subject .statement)
    (h : (step control scope ⟨.mark .dot, p⟩).2 = .ok state) : state = (.statement, scope) := by
  have ht := take_of_step h
  cases hc <;> exact eq_of_some_ok ht rfl

theorem Control.HasRead.semicolon_of_step (hc : control.HasRead subject context)
    (h : (step control scope ⟨.mark .semicolon, p⟩).2 = .ok state) : state = (.semicolon subject context, scope) := by
  have ht := take_of_step h
  cases hc <;> exact eq_of_some_ok ht rfl

end

mutual

theorem Tree.Node.reads (node : Tree.Node) {control : Control} {use : Nat → Use} (hc : control.Awaits use)
    (hs : control = .statement → node.isResource = true) {scope : Scope} {r : Reading} (hr : scope.Holds r) :
    Reads control scope node.lexemes fun control' scope' => ∃ line scope₁, scope₁.Holds (node.read r).2 ∧
      (control', scope') = node.handOver scope₁ (node.read r).1 (use line) := by
  cases node with
  | iri iri =>
    refine .cons fun p control' scope' h => .nil ⟨p.line, scope, hr, ?_⟩
    have ht : ((scope.resolveIri? ⟨iri.lexeme, p⟩).map fun value => value.map fun value =>
        deliver scope (.iri value) (use p.line)) = some (.ok (control', scope')) := by
      cases iri with
      | reference reference => exact hc.takeNode h (.iri reference)
      | name label rest => exact hc.takeNode h (.name label rest)
    obtain ⟨value, hvalue, hstate⟩ := exists_of_resolveIri?_map ht
    rw [← hstate, Tree.Node.read, hr.iri hvalue]
    rfl
  | blankNode label =>
    refine .cons fun p control' scope' h => .nil ⟨p.line, scope, hr.label label, ?_⟩
    exact eq_of_some_ok (hc.takeNode h (.blankNode label)) rfl
  | literal literal =>
    have hs' : control ≠ .statement := fun h => by cases hs h
    exact (reads_literal literal hc hs' hr).mono fun _ _ ⟨line, h⟩ => ⟨line, scope, hr, h⟩
  | emptyBrackets =>
    refine .cons fun p control' scope' h => ?_
    cases hc.openBracket hr h
    refine .cons fun q control' scope' h => .nil ⟨p.line, scope.freshNode.2, hr.freshNode, ?_⟩
    exact eq_of_some_ok (take_of_step h) rfl
  | brackets properties =>
    refine .cons fun p control' scope' h => ?_
    cases hc.openBracket hr h
    refine (properties.reads (.bracketStart (use p.line)) hr.freshNode).append rfl fun control₁ scope₁ hmid => ?_
    exact .cons fun q control' scope' h => .nil ⟨p.line, scope₁, hmid.2, hmid.1.closeBracket h⟩
  | collection items =>
    refine .cons fun p control' scope' h => ?_
    cases hc.takeNode h .openParenthesis
    refine (items.readsItems hr).append rfl fun control₁ scope₁ ⟨hcontrol, hholds⟩ => ?_
    subst hcontrol
    refine .cons fun q control' scope' h => .nil ?_
    obtain ⟨hhead, hholds'⟩ := hholds.emitCollection q.line (items.read r).1
    refine ⟨p.line, _, hholds', ?_⟩
    have ht := eq_of_some_ok (take_of_step h) rfl
    rw [List.append_nil, List.reverse_reverse] at ht
    rw [ht, Tree.Node.read, ← hhead]
    rfl

theorem Tree.Nodes.readsItems (nodes : Tree.Nodes) {items : List Term} {use : Use} {scope : Scope} {r : Reading}
    (hr : scope.Holds r) : Reads (.item items use) scope nodes.lexemes fun control' scope' =>
      control' = .item ((nodes.read r).1.reverse ++ items) use ∧ scope'.Holds (nodes.read r).2 := by
  cases nodes with
  | nil => exact .nil ⟨rfl, hr⟩
  | cons node nodes =>
    have hstart : continuesLiteral nodes.lexemes.head? = false := by
      cases nodes with
      | nil => rfl
      | cons next nodes => exact continuesLiteral_head?_lexemes next nodes.lexemes
    refine (node.reads (.item items use) (by simp) hr).append hstart
      fun control₁ scope₁ ⟨line, scope₂, hholds, heq⟩ => ?_
    rw [node.handOver_item] at heq
    cases heq
    refine (nodes.readsItems hholds).mono fun control' scope' ⟨hcontrol, hholds'⟩ => ⟨?_, hholds'⟩
    rw [hcontrol, Tree.Nodes.read, List.reverse_cons, List.append_assoc]
    rfl

theorem Tree.Nodes.readsObjects (nodes : Tree.Nodes) {subject : Term} {predicate : String} {context : Context}
    {scope : Scope} {r : Reading} (hr : scope.Holds r) :
    Reads (.objectEnd subject (.iri predicate) context) scope nodes.objectLexemes fun control' scope' =>
      control' = .objectEnd subject (.iri predicate) context ∧ scope'.Holds (nodes.state subject predicate r) := by
  cases nodes with
  | nil => exact .nil ⟨rfl, hr⟩
  | cons node nodes =>
    refine .cons fun p control' scope' h => ?_
    cases take_of_step h
    have hstart : continuesLiteral nodes.objectLexemes.head? = false := by cases nodes <;> rfl
    refine (node.reads (.object subject (.iri predicate) context) (by simp) hr).append hstart
      fun control₁ scope₁ ⟨line, scope₂, hholds, heq⟩ => ?_
    rw [node.handOver_object] at heq
    cases heq
    exact nodes.readsObjects (hholds.emit subject _ predicate line)

theorem Tree.Property.reads (property : Tree.Property) {control : Control} {subject : Term} {context : Context}
    (hc : control.AwaitsProperties subject context) {scope : Scope} {r : Reading} (hr : scope.Holds r) :
    Reads control scope property.lexemes fun control' scope' =>
      control'.HasRead subject context ∧ scope'.Holds (property.read subject r) := by
  cases property with
  | objects verb first others =>
    refine .cons fun p control' scope' h => ?_
    cases hc.verb hr h
    have hstart : continuesLiteral others.objectLexemes.head? = false := by cases others <;> rfl
    refine (first.reads (.object subject (.iri (r.verb verb)) context) (by simp) hr).append hstart
      fun control₁ scope₁ ⟨line, scope₂, hholds, heq⟩ => ?_
    rw [first.handOver_object] at heq
    cases heq
    refine (others.readsObjects (hholds.emit subject _ (r.verb verb) line)).mono
      fun control' scope' ⟨hcontrol, hholds'⟩ => ⟨?_, hholds'⟩
    rw [hcontrol]
    exact .objects _

theorem Tree.Properties.reads (properties : Tree.Properties) {control : Control} {subject : Term} {context : Context}
    (hc : control.AwaitsProperties subject context) {scope : Scope} {r : Reading} (hr : scope.Holds r) :
    Reads control scope properties.lexemes fun control' scope' =>
      control'.HasRead subject context ∧ scope'.Holds (properties.read subject r) := by
  cases properties with
  | last property semicolons =>
    have hstart : continuesLiteral (List.replicate semicolons (Lexeme.mark .semicolon)).head? = false := by
      cases semicolons <;> rfl
    refine (property.reads hc hr).append hstart fun control₁ scope₁ ⟨hread, hholds⟩ => ?_
    cases semicolons with
    | zero => exact .nil ⟨hread, hholds⟩
    | succ n =>
      refine .cons fun p control' scope' h => ?_
      cases hread.semicolon_of_step h
      exact (reads_semicolons n).mono fun _ _ ⟨hcontrol, hscope⟩ => ⟨hcontrol ▸ .semicolon, hscope ▸ hholds⟩
  | more property semicolons properties =>
    refine (property.reads hc hr).append rfl fun control₁ scope₁ ⟨hread, hholds⟩ => ?_
    refine .cons fun p control' scope' h => ?_
    cases hread.semicolon_of_step h
    have hstart := continuesLiteral_head?_properties properties []
    rw [List.append_nil] at hstart
    refine (reads_semicolons semicolons).append hstart fun control₂ scope₂ ⟨hcontrol, hscope⟩ => ?_
    subst hcontrol hscope
    exact properties.reads (.semicolon context) hholds

end

section

variable {scope : Scope} {r : Reading} {p : Position} {state : Control × Scope}

theorem Scope.Holds.reference (h : scope.Holds r) {reference value : String} {line : Nat}
    (hi : scope.resolveReference reference line = .ok value) : r.iri (.reference reference) = value := by
  have ht : scope.resolveIri? ⟨(Tree.Iri.reference reference).lexeme, ⟨line, 1⟩⟩ = some (.ok value) := congrArg some hi
  exact h.iri ht

theorem holds_of_namespaceIri {isClosed : Bool} {line : Nat} {label reference : String} (hr : scope.Holds r)
    (h : (step (.namespaceIri isClosed line label) scope ⟨.iri reference, p⟩).2 = .ok state) :
    state.1 = afterDeclaration isClosed ∧ state.2.Holds (r.declare label (r.iri (.reference reference))) := by
  obtain ⟨value, hvalue, h⟩ := (bind_eq_ok_iff _ _ _).1 (Option.some.inj (take_of_step h))
  obtain ⟨scope', hdeclare, hstate⟩ := (bind_eq_ok_iff _ _ _).1 h
  cases hstate
  refine ⟨rfl, ?_⟩
  change scope.declare label value line = .ok scope' at hdeclare
  rw [hr.reference hvalue, Reading.declare, ← hr.namespaces]
  unfold Scope.declare at hdeclare
  split at hdeclare
  · next namespaces hnamespaces =>
    cases hdeclare
    rw [hnamespaces]
    exact ⟨rfl, hr.base, hr.nodeCount, hr.triples⟩
  · cases hdeclare
  · cases hdeclare

theorem holds_of_baseIri {isClosed : Bool} {reference : String} (hr : scope.Holds r)
    (h : (step (.baseIri isClosed) scope ⟨.iri reference, p⟩).2 = .ok state) :
    state.1 = afterDeclaration isClosed ∧ state.2.Holds (r.rebase (r.iri (.reference reference))) := by
  obtain ⟨value, hvalue, hstate⟩ := (bind_eq_ok_iff _ _ _).1 (Option.some.inj (take_of_step h))
  cases hstate
  rw [hr.reference hvalue]
  exact ⟨rfl, hr.namespaces, rfl, hr.nodeCount, hr.triples⟩

theorem reads_namespaceLabel (isClosed : Bool) (line : Nat) (label iri : String) (hr : scope.Holds r) :
    Reads (.namespaceLabel isClosed line) scope [.name label "", .iri iri] fun control' scope' =>
      control' = afterDeclaration isClosed ∧ scope'.Holds (r.declare label (r.iri (.reference iri))) := by
  refine .cons fun p control' scope' h => ?_
  cases take_of_step h
  exact .cons fun p control' scope' h => .nil (holds_of_namespaceIri hr h)

theorem reads_baseIri (isClosed : Bool) (iri : String) (hr : scope.Holds r) :
    Reads (.baseIri isClosed) scope [.iri iri] fun control' scope' =>
      control' = afterDeclaration isClosed ∧ scope'.Holds (r.rebase (r.iri (.reference iri))) :=
  .cons fun _ _ _ h => .nil (holds_of_baseIri hr h)

theorem reads_directiveEnd (hr : scope.Holds r) : Reads .directiveEnd scope [.mark .dot] fun control' scope' =>
    control' = .statement ∧ scope'.Holds r := by
  refine .cons fun p control' scope' h => .nil ?_
  cases take_of_step h
  exact ⟨rfl, hr⟩

theorem state_of_directiveWord {word : String} {d : Directive} (hw : wordDirective? word = some d)
    (h : (step .statement scope ⟨.word word, p⟩).2 = .ok state) :
    state = (afterDirective d false p.line, scope) := by
  have ht : (wordDirective? word).map (fun d => Except.ok (afterDirective d false p.line, scope)) =
      some (.ok state) := take_of_step h
  rw [hw] at ht
  exact eq_of_some_ok ht rfl

theorem Tree.Node.awaitsProperties_handOver (node : Tree.Node) (scope : Scope) (value : Term) :
    (node.handOver scope value .subject).1.AwaitsProperties value .statement ∧
      (node.handOver scope value .subject).2 = scope := by
  unfold Tree.Node.handOver
  split_ifs
  · exact ⟨.brackets, rfl⟩
  · exact ⟨.subject _, rfl⟩

theorem Tree.Statement.reads (statement : Tree.Statement) (hr : scope.Holds r) :
    Reads .statement scope statement.lexemes fun control' scope' =>
      control' = .statement ∧ scope'.Holds (statement.read r) := by
  cases statement with
  | namespaceLabel label iri =>
    refine .cons fun p control' scope' h => ?_
    cases take_of_step h
    refine (reads_namespaceLabel true p.line label iri hr).append rfl fun control₁ scope₁ ⟨hcontrol, hholds⟩ => ?_
    subst hcontrol
    exact reads_directiveEnd hholds
  | base iri =>
    refine .cons fun p control' scope' h => ?_
    cases take_of_step h
    refine (reads_baseIri true iri hr).append rfl fun control₁ scope₁ ⟨hcontrol, hholds⟩ => ?_
    subst hcontrol
    exact reads_directiveEnd hholds
  | namespaceLabelWord word label iri hw =>
    refine .cons fun p control' scope' h => ?_
    cases state_of_directiveWord ((wordDirective?_eq_some_iff word .namespaceLabel).2 hw) h
    exact reads_namespaceLabel false p.line label iri hr
  | baseWord word iri hw =>
    refine .cons fun p control' scope' h => ?_
    cases state_of_directiveWord ((wordDirective?_eq_some_iff word .base).2 hw) h
    exact reads_baseIri false iri hr
  | brackets node hb =>
    refine (node.reads .subject (fun _ => node.isResource_of_isBrackets hb) hr).append rfl
      fun control₁ scope₁ ⟨line, scope₂, hholds, heq⟩ => ?_
    rw [Tree.Node.handOver, if_pos hb] at heq
    cases heq
    refine .cons fun p control' scope' h => .nil ?_
    cases take_of_step h
    exact ⟨rfl, hholds⟩
  | triples subject properties hs =>
    refine (subject.reads .subject (fun _ => hs) hr).append (continuesLiteral_head?_properties properties _)
      fun control₁ scope₁ ⟨line, scope₂, hholds, heq⟩ => ?_
    obtain ⟨hawaits, hscope⟩ := subject.awaitsProperties_handOver scope₂ (subject.read r).1
    rw [← heq] at hawaits hscope
    dsimp only at hawaits hscope
    subst hscope
    refine (properties.reads hawaits hholds).append rfl fun control₃ scope₃ ⟨hread, hholds'⟩ => ?_
    refine .cons fun p control' scope' h => .nil ?_
    cases hread.dot h
    exact ⟨rfl, hholds'⟩

end

theorem Tree.continuesLiteral_head?_documentLexemes (statements : List Tree.Statement) :
    continuesLiteral (documentLexemes statements).head? = false := by
  cases statements with
  | nil => rfl
  | cons statement statements =>
    cases statement with
    | brackets node hb =>
      rw [documentLexemes, List.flatMap_cons, Statement.lexemes, List.append_assoc]
      exact continuesLiteral_head?_lexemes node _
    | triples subject properties hs =>
      rw [documentLexemes, List.flatMap_cons, Statement.lexemes, List.append_assoc]
      exact continuesLiteral_head?_lexemes subject _
    | _ => rfl

theorem Tree.reads_document (statements : List Tree.Statement) {scope : Scope} {r : Reading} (hr : scope.Holds r) :
    Reads .statement scope (documentLexemes statements) fun control' scope' =>
      control' = .statement ∧ scope'.Holds (statements.foldl (fun r statement => statement.read r) r) := by
  induction statements generalizing scope r with
  | nil => exact .nil ⟨rfl, hr⟩
  | cons statement statements ih =>
    refine (statement.reads hr).append (continuesLiteral_head?_documentLexemes statements)
      fun control₁ scope₁ ⟨hcontrol, hholds⟩ => ?_
    subst hcontrol
    exact ih hholds

/-- Tokens that are read as a document are those of a list of statements, and whatever statements they are the tokens
of, the document holds what these are read as. -/
theorem documentReading_of_parseTokens {options : ParserOptions} {size : Nat} {tokens : Tokens} {d : Document}
    (h : parseTokens options size tokens = .ok d) :
    (∃ statements, Tree.documentLexemes statements = tokens.tokens.map (·.lexeme)) ∧
    ∀ statements, Tree.documentLexemes statements = tokens.tokens.map (·.lexeme) →
      d.triples = distinct (Tree.documentReading options statements).triples := by
  obtain ⟨hrun, triples, hrecord, rfl⟩ := parseTokens_ok h
  refine ⟨?_, fun statements hs => ?_⟩
  · have hdemands := documentRun_demands options tokens
    rw [hrun] at hdemands
    exact Grammar.Document.exists_trees hdemands
  · have hinitial : (Scope.initial options.capacity.toNat options.base).Holds (.initial options) :=
      ⟨rfl, rfl, rfl, rfl⟩
    obtain ⟨control, scope, ⟨rfl, hholds⟩, rest, hrest, heq⟩ := Tree.reads_document statements hinitial tokens.stop
      tokens.tokens [] (hs.symm.trans (List.append_nil _).symm) rfl hrun
    obtain rfl := List.map_eq_nil_iff.1 hrest
    have hscope : (documentRun options tokens).1 = scope := congrArg Prod.fst heq
    rw [hscope] at hrecord
    obtain ⟨-, rfl⟩ := (record_nil_eq_ok_iff _ _).1 hrecord
    exact congrArg distinct hholds.triples

end CommandOntology.Turtle
