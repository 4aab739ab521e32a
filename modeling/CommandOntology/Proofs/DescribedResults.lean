import CommandOntology.Proofs.DenotedTerms
import Std.Data.String.ToNat

set_option autoImplicit false

namespace CommandOntology

open Query

namespace Graph

def objects (g : Graph) (subject predicate : Term) : List Term :=
  (g.statements.filter (TriplePattern.holds ⟨some subject, some predicate, none⟩)).map (·.object)

def nodesWith (g : Graph) (predicate object : Term) : List Term :=
  (g.statements.filter (TriplePattern.holds ⟨none, some predicate, some object⟩)).map (·.subject)

variable {g : Graph} {subject predicate object : Term}

theorem mem_objects_iff : object ∈ g.objects subject predicate ↔ ⟨subject, predicate, object⟩ ∈ g.statements := by
  simp only [objects, List.mem_map, List.mem_filter, TriplePattern.holds_iff, TriplePattern.admits_some]
  constructor
  · rintro ⟨⟨s, p, o⟩, ⟨ht, rfl, rfl, -⟩, rfl⟩
    exact ht
  · exact fun h => ⟨_, ⟨h, rfl, rfl, rfl⟩, rfl⟩

theorem mem_nodesWith_iff :
    subject ∈ g.nodesWith predicate object ↔ ⟨subject, predicate, object⟩ ∈ g.statements := by
  simp only [nodesWith, List.mem_map, List.mem_filter, TriplePattern.holds_iff, TriplePattern.admits_some]
  constructor
  · rintro ⟨⟨s, p, o⟩, ⟨ht, -, rfl, rfl⟩, rfl⟩
    exact ht
  · exact fun h => ⟨_, ⟨h, rfl, rfl, rfl⟩, rfl⟩

theorem nodup_objects (h : g.statements.Nodup) (subject predicate : Term) : (g.objects subject predicate).Nodup := by
  refine (List.nodup_map_iff_inj_on (h.filter _)).2 fun t ht u hu hobject => ?_
  simp only [List.mem_filter, TriplePattern.holds_iff, TriplePattern.admits_some] at ht hu
  obtain ⟨-, hts, htp, -⟩ := ht
  obtain ⟨-, hus, hup, -⟩ := hu
  cases t
  cases u
  simp_all

theorem nodup_nodesWith (h : g.statements.Nodup) (predicate object : Term) :
    (g.nodesWith predicate object).Nodup := by
  refine (List.nodup_map_iff_inj_on (h.filter _)).2 fun t ht u hu hsubject => ?_
  simp only [List.mem_filter, TriplePattern.holds_iff, TriplePattern.admits_some] at ht hu
  obtain ⟨-, -, htp, hto⟩ := ht
  obtain ⟨-, -, hup, huo⟩ := hu
  cases t
  cases u
  simp_all

end Graph

def only? {α : Type} : List α → Option α
  | [x] => some x
  | _ => none

def Term.plainText? : Term → Option String
  | .literal text none none => some text
  | _ => none

def Term.number? : Term → Option Nat
  | .literal text (some datatype) none => if datatype = Xsd.integer then text.toNat? else none
  | _ => none

namespace Query

structure ToldResults where
  varNames : List String
  solutions : List (Nat × Row)

end Query

namespace Graph

def binding? (g : Graph) (node : Term) : Option (String × Term) := do
  let name ← only? (g.objects node (ResultSet.iri "variable"))
  let value ← only? (g.objects node (ResultSet.iri "value"))
  return (← name.plainText?, value)

def solution? (g : Graph) (node : Term) : Option (Nat × Row) := do
  let number ← only? (g.objects node (ResultSet.iri "index"))
  return (← number.number?, (g.objects node (ResultSet.iri "binding")).filterMap g.binding?)

/-- The result that a graph describes, if it describes one; its rows in the order of their numbers. -/
def told? (g : Graph) : Option ToldResults := do
  let node ← only? (g.nodesWith (.iri Rdf.type) (ResultSet.iri "ResultSet"))
  let solutions := (g.objects node (ResultSet.iri "solution")).filterMap g.solution?
  return {
    varNames := (g.objects node (ResultSet.iri "resultVariable")).filterMap Term.plainText?
    solutions := sortByKey (fun m n => decide (m ≤ n)) (·.1) solutions }

end Graph

namespace Query

/-- The variables of a result are told in some order, and its rows by number, each with its bindings in some order. -/
structure ToldResults.Tells (told : ToldResults) (r : Results) : Prop where
  varNames : told.varNames.Perm r.varNames
  solutions : List.Forall₂ (fun solution row => solution.1 = row.2 ∧ solution.2.Perm row.1) told.solutions
    (r.rows.zipIdx 1)

/-- The nodes of a description: that of the result, those of its solutions, and those of their bindings. -/
inductive DescriptionNode
  | result
  | solution (number : Nat)
  | binding (number : Nat) (name : String)
  deriving DecidableEq, Repr

namespace DescriptionNode

def label : DescriptionNode → String
  | result => "resultset"
  | solution number => "solution" ++ toString number
  | binding number name => "solution" ++ toString number ++ "_" ++ name

def term (node : DescriptionNode) : Term :=
  .blank node.label

/-- No two nodes share a label, whatever the variables are called. -/
theorem label_injective : Function.Injective label := by
  have hresult (rest : String) : "resultset" ≠ "solution" ++ rest := by
    intro h
    have hhead := congrArg (fun s : String => s.toList.head?) h
    simp at hhead
  have hbinding (m n : Nat) (name : String) :
      "solution" ++ toString m ≠ "solution" ++ toString n ++ "_" ++ name := by
    intro h
    have hin : '_' ∈ ("solution" ++ toString m).toList := by
      rw [h]
      simp
    simp at hin
  intro a b h
  cases a with
  | result =>
    cases b with
    | result => rfl
    | solution n => exact absurd h (hresult _)
    | binding n name =>
      simp only [label, String.append_assoc] at h
      exact absurd h (hresult _)
  | solution m =>
    cases b with
    | result => exact absurd h.symm (hresult _)
    | solution n => rw [Nat.repr_injective ((String.append_right_inj "solution").1 h)]
    | binding n name => exact absurd h (hbinding m n name)
  | binding m name =>
    cases b with
    | result =>
      simp only [label, String.append_assoc] at h
      exact absurd h.symm (hresult _)
    | solution n => exact absurd h.symm (hbinding n m name)
    | binding n other =>
      -- The number ends at the first underscore, as digits hold none.
      have hparts (k : Nat) (text : String) :
          Text.partitionAt '_' ((toString k).toList ++ '_' :: text.toList) = ((toString k).toList, some text.toList) :=
        (Iri.partitionAt_eq_some_iff _ _ _ _).2 ⟨rfl, by simp⟩
      simp only [label, String.append_assoc, String.append_right_inj] at h
      have hlist := congrArg (fun s : String => Text.partitionAt '_' s.toList) h
      simp only [String.toList_append] at hlist
      have hpair := (hparts m name).symm.trans (hlist.trans (hparts n other))
      obtain ⟨hnumber, hname⟩ := Prod.mk.inj hpair
      rw [Nat.repr_injective (String.toList_inj.1 hnumber), String.toList_inj.1 (Option.some.inj hname)]

theorem term_injective : Function.Injective term :=
  fun _ _ h => label_injective (Term.blank.inj h)

theorem not_isDenoted (node : DescriptionNode) : ¬node.term.IsDenoted := by
  have hhead : node.label.toList.head? ≠ some 'u' ∧ node.label.toList.head? ≠ some 'g' := by
    cases node <;> simp [label]
  rintro (⟨written, h⟩ | ⟨n, h⟩)
  · exact hhead.1 (by rw [h]; simp [Turtle.Scope.writtenLabel])
  · exact hhead.2 (by rw [h]; simp [Turtle.Scope.generatedLabel])

end DescriptionNode

inductive DescriptionField
  | kind | resultVariable | solution | index | binding | boundName | boundValue
  deriving DecidableEq, Repr

namespace DescriptionField

def iri : DescriptionField → Term
  | kind => .iri Rdf.type
  | resultVariable => ResultSet.iri "resultVariable"
  | solution => ResultSet.iri "solution"
  | index => ResultSet.iri "index"
  | binding => ResultSet.iri "binding"
  | boundName => ResultSet.iri "variable"
  | boundValue => ResultSet.iri "value"

theorem iri_injective : Function.Injective iri := by
  intro a b h
  cases a <;> cases b <;> first
    | rfl
    | exact absurd h (by decide)

end DescriptionField

inductive Describes (r : Results) : DescriptionNode → DescriptionField → Term → Prop
  | kind : Describes r .result .kind (ResultSet.iri "ResultSet")
  | resultVariable {name : String} (h : name ∈ r.varNames) : Describes r .result .resultVariable (.plain name)
  | solution {row : Row} {n : Nat} (h : (row, n) ∈ r.rows.zipIdx 1) :
    Describes r .result .solution (DescriptionNode.solution n).term
  | index {row : Row} {n : Nat} (h : (row, n) ∈ r.rows.zipIdx 1) :
    Describes r (.solution n) .index (.typed (toString n) Xsd.integer)
  | binding {row : Row} {n : Nat} (h : (row, n) ∈ r.rows.zipIdx 1) {name : String} {value : Term}
    (hb : (name, value) ∈ row) : Describes r (.solution n) .binding (DescriptionNode.binding n name).term
  | boundName {row : Row} {n : Nat} (h : (row, n) ∈ r.rows.zipIdx 1) {name : String} {value : Term}
    (hb : (name, value) ∈ row) : Describes r (.binding n name) .boundName (.plain name)
  | boundValue {row : Row} {n : Nat} (h : (row, n) ∈ r.rows.zipIdx 1) {name : String} {value : Term}
    (hb : (name, value) ∈ row) : Describes r (.binding n name) .boundValue value

theorem mem_project_iff (names : List String) (b : Binding) (name : String) (value : Term) :
    (name, value) ∈ project names b ↔ name ∈ names ∧ findField (project names b) name = some value := by
  rw [findField_project, project, List.mem_filterMap]
  constructor
  · rintro ⟨other, hother, h⟩
    obtain ⟨t, ht, he⟩ := Option.map_eq_some_iff.1 h
    obtain ⟨rfl, rfl⟩ := Prod.mk.inj he
    exact ⟨hother, by rw [if_pos hother, ht]⟩
  · rintro ⟨hname, h⟩
    rw [if_pos hname] at h
    exact ⟨name, hname, by rw [h]; rfl⟩

theorem mem_describeSolutions_iff (names : List String) (root : Term) (number : Nat) (rows : List Row) (t : Triple) :
    t ∈ Results.describeSolutions names root number rows ↔
      ∃ row n, (row, n) ∈ rows.zipIdx number ∧ t ∈ Results.describeSolution names root n row := by
  induction rows generalizing number with
  | nil => simp [Results.describeSolutions]
  | cons row rows ih => simp [Results.describeSolutions, ih, List.zipIdx_cons, or_and_right, exists_or]

section

variable {r : Results}

/-- What is said of a binding is among the statements about its solution. -/
theorem mem_describeSolution {names : List String} {b : Binding} {name : String} {value : Term}
    (h : (name, value) ∈ project names b) (root : Term) (n : Nat) {t : Triple}
    (ht : t = ⟨(DescriptionNode.solution n).term, DescriptionField.binding.iri, (DescriptionNode.binding n name).term⟩ ∨
      t = ⟨(DescriptionNode.binding n name).term, DescriptionField.boundName.iri, .plain name⟩ ∨
      t = ⟨(DescriptionNode.binding n name).term, DescriptionField.boundValue.iri, value⟩) :
    t ∈ Results.describeSolution names root n (project names b) := by
  obtain ⟨hname, hvalue⟩ := (mem_project_iff names b name value).1 h
  refine List.mem_append_right _ (List.mem_flatMap.2 ⟨name, hname, ?_⟩)
  rw [hvalue]
  simp only [List.mem_cons, List.not_mem_nil, or_false]
  exact ht

theorem exists_describes_of_mem_describeSolution {b : Binding} {n : Nat}
    (h : (project r.varNames b, n) ∈ r.rows.zipIdx 1) {t : Triple}
    (ht : t ∈ Results.describeSolution r.varNames DescriptionNode.result.term n (project r.varNames b)) :
    ∃ node field x, Describes r node field x ∧ t = ⟨node.term, field.iri, x⟩ := by
  obtain ht | ht := List.mem_append.1 ht
  · simp only [List.mem_cons, List.not_mem_nil, or_false] at ht
    obtain rfl | rfl := ht
    · exact ⟨_, _, _, .solution h, rfl⟩
    · exact ⟨_, _, _, .index h, rfl⟩
  · obtain ⟨name, hname, ht⟩ := List.mem_flatMap.1 ht
    cases hvalue : findField (project r.varNames b) name with
    | none =>
      rw [hvalue] at ht
      cases ht
    | some value =>
      have hb := (mem_project_iff r.varNames b name value).2 ⟨hname, hvalue⟩
      rw [hvalue] at ht
      simp only [List.mem_cons, List.not_mem_nil, or_false] at ht
      obtain rfl | rfl | rfl := ht
      · exact ⟨_, _, _, .binding h hb, rfl⟩
      · exact ⟨_, _, _, .boundName h hb, rfl⟩
      · exact ⟨_, _, _, .boundValue h hb, rfl⟩

/-- The statements of a description are those that the result says of its nodes. -/
theorem mem_description_iff (hr : r.IsProjected) (t : Triple) :
    t ∈ r.description ↔ ∃ node field x, Describes r node field x ∧ t = ⟨node.term, field.iri, x⟩ := by
  have hrow {row : Row} {n : Nat} (h : (row, n) ∈ r.rows.zipIdx 1) : ∃ b, row = project r.varNames b :=
    hr.projected row (List.fst_mem_of_mem_zipIdx h)
  constructor
  · intro ht
    obtain ht | ht := List.mem_append.1 ht
    · obtain ht | ht := List.mem_append.1 ht
      · exact ⟨_, _, _, .kind, List.mem_singleton.1 ht⟩
      · obtain ⟨name, hname, rfl⟩ := List.mem_map.1 ht
        exact ⟨_, _, _, .resultVariable hname, rfl⟩
    · obtain ⟨row, n, h, ht⟩ := (mem_describeSolutions_iff _ _ _ _ _).1 ht
      obtain ⟨b, rfl⟩ := hrow h
      exact exists_describes_of_mem_describeSolution h ht
  · rintro ⟨node, field, x, h, rfl⟩
    have hsolution {row : Row} {n : Nat} (h : (row, n) ∈ r.rows.zipIdx 1) {t : Triple}
        (ht : t ∈ Results.describeSolution r.varNames DescriptionNode.result.term n row) : t ∈ r.description :=
      List.mem_append_right _ ((mem_describeSolutions_iff _ _ _ _ _).2 ⟨row, n, h, ht⟩)
    cases h with
    | kind => exact List.mem_append_left _ (List.mem_append_left _ (List.mem_singleton.2 rfl))
    | resultVariable h =>
      exact List.mem_append_left _ (List.mem_append_right _ (List.mem_map.2 ⟨_, h, rfl⟩))
    | solution h => exact hsolution h (List.mem_append_left _ List.mem_cons_self)
    | index h => exact hsolution h (List.mem_append_left _ (List.mem_cons_of_mem _ List.mem_cons_self))
    | binding h hb =>
      obtain ⟨b, rfl⟩ := hrow h
      exact hsolution h (mem_describeSolution hb _ _ (.inl rfl))
    | boundName h hb =>
      obtain ⟨b, rfl⟩ := hrow h
      exact hsolution h (mem_describeSolution hb _ _ (.inr (.inl rfl)))
    | boundValue h hb =>
      obtain ⟨b, rfl⟩ := hrow h
      exact hsolution h (mem_describeSolution hb _ _ (.inr (.inr rfl)))

/-- What is said of a node is a term of the result, or one that a graph keeps. -/
theorem Describes.object_cases {node : DescriptionNode} {field : DescriptionField} {x : Term}
    (h : Describes r node field x) : x ∈ r.terms ∨ x.IsSettled ∧ x.faultyTag? = none := by
  cases h with
  | kind => exact .inr ⟨Term.isSettled_of_isResource _ rfl, rfl⟩
  | resultVariable h => exact .inr ⟨Term.isSettled_plain _, rfl⟩
  | solution h => exact .inr ⟨Term.isSettled_of_isResource _ rfl, rfl⟩
  | index h => exact .inr ⟨Term.isSettled_typed (by decide) (by decide) rfl, rfl⟩
  | binding h hb => exact .inr ⟨Term.isSettled_of_isResource _ rfl, rfl⟩
  | boundName h hb => exact .inr ⟨Term.isSettled_plain _, rfl⟩
  | boundValue h hb =>
    exact .inl (List.mem_flatMap.2 ⟨_, List.fst_mem_of_mem_zipIdx h, List.mem_map.2 ⟨_, hb, rfl⟩⟩)

def nodeRow (row : Row) : Row :=
  row.map fun field => (field.1, field.2.node)

def Results.asNodes (r : Results) : Results :=
  ⟨r.varNames, r.rows.map nodeRow⟩

theorem map_fst_nodeRow (row : Row) : (nodeRow row).map Prod.fst = row.map Prod.fst := by
  rw [nodeRow, List.map_map]
  rfl

theorem mem_zipIdx_asNodes_iff {row : Row} {n : Nat} :
    (row, n) ∈ r.asNodes.rows.zipIdx 1 ↔ ∃ row', (row', n) ∈ r.rows.zipIdx 1 ∧ nodeRow row' = row := by
  simp [Results.asNodes, List.zipIdx_map]

theorem mem_nodeRow_iff {row : Row} {name : String} {x : Term} :
    (name, x) ∈ nodeRow row ↔ ∃ value, (name, value) ∈ row ∧ value.node = x := by
  simp [nodeRow]

theorem describes_asNodes_iff {node : DescriptionNode} {field : DescriptionField} {x : Term} :
    Describes r.asNodes node field x ↔ ∃ y, Describes r node field y ∧ y.node = x := by
  constructor
  · intro h
    cases h with
    | kind => exact ⟨_, .kind, rfl⟩
    | resultVariable h => exact ⟨_, .resultVariable h, rfl⟩
    | solution h =>
      obtain ⟨row, h, -⟩ := mem_zipIdx_asNodes_iff.1 h
      exact ⟨_, .solution h, rfl⟩
    | index h =>
      obtain ⟨row, h, -⟩ := mem_zipIdx_asNodes_iff.1 h
      exact ⟨_, .index h, rfl⟩
    | binding h hb =>
      obtain ⟨row, hrow, rfl⟩ := mem_zipIdx_asNodes_iff.1 h
      obtain ⟨value, hvalue, -⟩ := mem_nodeRow_iff.1 hb
      exact ⟨_, .binding hrow hvalue, rfl⟩
    | boundName h hb =>
      obtain ⟨row, hrow, rfl⟩ := mem_zipIdx_asNodes_iff.1 h
      obtain ⟨value, hvalue, -⟩ := mem_nodeRow_iff.1 hb
      exact ⟨_, .boundName hrow hvalue, rfl⟩
    | boundValue h hb =>
      obtain ⟨row, hrow, rfl⟩ := mem_zipIdx_asNodes_iff.1 h
      obtain ⟨value, hvalue, hnode⟩ := mem_nodeRow_iff.1 hb
      exact ⟨value, .boundValue hrow hvalue, hnode⟩
  · rintro ⟨y, h, rfl⟩
    have hrow {row : Row} {n : Nat} (h : (row, n) ∈ r.rows.zipIdx 1) : (nodeRow row, n) ∈ r.asNodes.rows.zipIdx 1 :=
      mem_zipIdx_asNodes_iff.2 ⟨row, h, rfl⟩
    have hfield {row : Row} {name : String} {value : Term} (hb : (name, value) ∈ row) :
        (name, value.node) ∈ nodeRow row :=
      mem_nodeRow_iff.2 ⟨value, hb, rfl⟩
    cases h with
    | kind => exact .kind
    | resultVariable h => exact .resultVariable h
    | solution h => exact .solution (hrow h)
    | index h => exact .index (hrow h)
    | binding h hb => exact .binding (hrow h) (hfield hb)
    | boundName h hb => exact .boundName (hrow h) (hfield hb)
    | boundValue h hb => exact .boundValue (hrow h) (hfield hb)

/-- A graph that states once what a result says of the nodes of its description, and nothing else. -/
structure IsDescription (g : Graph) (r : Results) : Prop where
  nodup : g.statements.Nodup
  mem_iff : ∀ t, t ∈ g.statements ↔ ∃ node field x, Describes r node field x ∧ t = ⟨node.term, field.iri, x⟩

theorem areGivenOut_description (hr : r.IsProjected) (hterms : ∀ x ∈ r.terms, x.IsGivenOut) :
    AreGivenOut r.description := by
  intro t ht x hx
  obtain ⟨node, field, y, h, rfl⟩ := (mem_description_iff hr t).1 ht
  simp only [Triple.terms, List.mem_cons, List.not_mem_nil, or_false] at hx
  obtain rfl | rfl | rfl := hx
  · exact (Term.isSettled_of_isResource _ rfl).isGivenOut
  · refine (Term.isSettled_of_isResource _ ?_).isGivenOut
    cases field <;> rfl
  · exact h.object_cases.elim (hterms _) fun h => h.1.isGivenOut

theorem isDescription_asNodes (hr : r.IsProjected) (hterms : ∀ x ∈ r.terms, x.IsGivenOut) {g : Graph}
    (hg : g.statements.Perm (Graph.ofList r.description).statements) : IsDescription g r.asNodes := by
  have hstatements : (Graph.ofList r.description).statements = distinct (nodeTriples r.description) :=
    SortedStore.statements_nodeTriples (areGivenOut_description hr hterms)
  rw [hstatements] at hg
  have hfield (field : DescriptionField) : field.iri.node = field.iri := by
    cases field <;> rfl
  refine ⟨hg.nodup_iff.2 (nodup_distinct _), fun t => ?_⟩
  rw [hg.mem_iff, mem_distinct, nodeTriples, List.mem_map]
  constructor
  · rintro ⟨u, hu, rfl⟩
    obtain ⟨node, field, x, h, rfl⟩ := (mem_description_iff hr u).1 hu
    exact ⟨node, field, x.node, describes_asNodes_iff.2 ⟨x, h, rfl⟩, by rw [Triple.mapTerms, hfield]; rfl⟩
  · rintro ⟨node, field, x, h, rfl⟩
    obtain ⟨y, hy, rfl⟩ := describes_asNodes_iff.1 h
    exact ⟨_, (mem_description_iff hr _).2 ⟨node, field, y, hy, rfl⟩, by rw [Triple.mapTerms, hfield]; rfl⟩

end

namespace IsDescription

variable {g : Graph} {r : Results} (hg : IsDescription g r)

include hg

theorem mem_statements_iff {node : DescriptionNode} {field : DescriptionField} {x : Term} :
    ⟨node.term, field.iri, x⟩ ∈ g.statements ↔ Describes r node field x := by
  rw [hg.mem_iff]
  constructor
  · rintro ⟨node', field', x', h, he⟩
    obtain ⟨hnode, hfield, rfl⟩ := Triple.mk.inj he
    rwa [DescriptionNode.term_injective hnode, DescriptionField.iri_injective hfield]
  · exact fun h => ⟨node, field, x, h, rfl⟩

theorem objects_perm {node : DescriptionNode} {field : DescriptionField} {xs : List Term} (hxs : xs.Nodup)
    (hmem : ∀ x, Describes r node field x ↔ x ∈ xs) : (g.objects node.term field.iri).Perm xs :=
  (List.perm_ext_iff_of_nodup (Graph.nodup_objects hg.nodup _ _) hxs).2 fun x => by
    rw [Graph.mem_objects_iff, hg.mem_statements_iff, hmem]

theorem objects_eq_singleton {node : DescriptionNode} {field : DescriptionField} {x : Term}
    (hmem : ∀ y, Describes r node field y ↔ y = x) : g.objects node.term field.iri = [x] :=
  List.perm_singleton.1 (hg.objects_perm (List.nodup_singleton x) fun y => by rw [hmem, List.mem_singleton])

theorem nodesWith_kind :
    g.nodesWith (.iri Rdf.type) (ResultSet.iri "ResultSet") = [DescriptionNode.result.term] := by
  refine List.perm_singleton.1 ((List.perm_ext_iff_of_nodup (Graph.nodup_nodesWith hg.nodup _ _)
    (List.nodup_singleton _)).2 fun s => ?_)
  rw [Graph.mem_nodesWith_iff, hg.mem_iff, List.mem_singleton]
  constructor
  · rintro ⟨node, field, x, h, he⟩
    obtain ⟨rfl, hfield, rfl⟩ := Triple.mk.inj he
    have hkind : DescriptionField.kind = field := DescriptionField.iri_injective hfield
    subst hkind
    cases h
    rfl
  · rintro rfl
    exact ⟨_, _, _, .kind, rfl⟩

variable (hnames : r.varNames.Nodup) (hkeys : ∀ row ∈ r.rows, (row.map Prod.fst).Nodup)

omit hg in
theorem row_unique {row row' : Row} {n : Nat} (h : (row, n) ∈ r.rows.zipIdx 1) (h' : (row', n) ∈ r.rows.zipIdx 1) :
    row = row' := by
  have hplace := List.mem_zipIdx_iff_le_and_getElem?_sub.1 h
  have hplace' := List.mem_zipIdx_iff_le_and_getElem?_sub.1 h'
  exact Option.some.inj (hplace.2.symm.trans hplace'.2)

include hkeys

theorem binding?_eq {row : Row} {n : Nat} (h : (row, n) ∈ r.rows.zipIdx 1) {name : String} {value : Term}
    (hb : (name, value) ∈ row) : g.binding? (DescriptionNode.binding n name).term = some (name, value) := by
  have hname : g.objects (DescriptionNode.binding n name).term DescriptionField.boundName.iri = [.plain name] := by
    refine hg.objects_eq_singleton fun y => ⟨fun hy => ?_, fun hy => hy ▸ .boundName h hb⟩
    cases hy
    rfl
  have hvalue : g.objects (DescriptionNode.binding n name).term DescriptionField.boundValue.iri = [value] := by
    refine hg.objects_eq_singleton fun y => ⟨fun hy => ?_, fun hy => hy ▸ .boundValue h hb⟩
    cases hy with
    | boundValue h' hb' =>
      obtain rfl := row_unique h h'
      have hfield := List.inj_on_of_nodup_map (hkeys _ (List.fst_mem_of_mem_zipIdx h)) hb' hb rfl
      exact congrArg Prod.snd hfield
  simp only [DescriptionField.iri] at hname hvalue
  rw [Graph.binding?, hname, hvalue]
  rfl

/-- A solution is read with its number, and with its bindings in some order. -/
theorem exists_solution? {row : Row} {n : Nat} (h : (row, n) ∈ r.rows.zipIdx 1) :
    ∃ fields, g.solution? (DescriptionNode.solution n).term = some (n, fields) ∧ fields.Perm row := by
  have hindex : g.objects (DescriptionNode.solution n).term DescriptionField.index.iri =
      [.typed (toString n) Xsd.integer] := by
    refine hg.objects_eq_singleton fun y => ⟨fun hy => ?_, fun hy => hy ▸ .index h⟩
    cases hy
    rfl
  have hinjective : Function.Injective fun name => (DescriptionNode.binding n name).term := fun _ _ he =>
    (DescriptionNode.binding.inj (DescriptionNode.term_injective he)).2
  have hnodup : (row.map fun field => (DescriptionNode.binding n field.1).term).Nodup := by
    have hmap := (hkeys row (List.fst_mem_of_mem_zipIdx h)).map hinjective
    rwa [List.map_map] at hmap
  have hbindings : (g.objects (DescriptionNode.solution n).term DescriptionField.binding.iri).Perm _ :=
      hg.objects_perm hnodup fun y => by
    rw [List.mem_map]
    constructor
    · intro hy
      cases hy with
      | binding h' hb =>
        obtain rfl := row_unique h h'
        exact ⟨_, hb, rfl⟩
    · rintro ⟨field, hb, rfl⟩
      exact .binding h hb
  have hread : (row.map fun field => (DescriptionNode.binding n field.1).term).filterMap g.binding? = row := by
    rw [List.filterMap_map]
    refine (List.filterMap_congr fun field hfield => ?_).trans List.filterMap_some
    exact hg.binding?_eq hkeys h hfield
  have hnumber : (Term.typed (toString n) Xsd.integer).number? = some n := Nat.toNat?_repr n
  refine ⟨(g.objects (DescriptionNode.solution n).term (ResultSet.iri "binding")).filterMap g.binding?, ?_, ?_⟩
  · simp only [DescriptionField.iri] at hindex
    rw [Graph.solution?, hindex]
    change ((Term.typed (toString n) Xsd.integer).number? >>= fun number => some (number, _)) = _
    rw [hnumber]
    rfl
  · have hperm := hbindings.filterMap g.binding?
    rwa [hread] at hperm

theorem exists_solutions : ∃ fields : Row × Nat → Row, (∀ row ∈ r.rows.zipIdx 1, (fields row).Perm row.1) ∧
    sortByKey (fun m n => decide (m ≤ n)) (·.1)
      ((g.objects DescriptionNode.result.term DescriptionField.solution.iri).filterMap g.solution?) =
        (r.rows.zipIdx 1).map fun row => (row.2, fields row) := by
  choose! fields hfields using fun (row : Row × Nat) (h : row ∈ r.rows.zipIdx 1) =>
    hg.exists_solution? hkeys (h : (row.1, row.2) ∈ r.rows.zipIdx 1)
  let told := (r.rows.zipIdx 1).map fun row => (row.2, fields row)
  have hnumbers : (told.map Prod.fst).Pairwise (· < ·) := by
    rw [List.map_map, Function.comp_def, List.zipIdx_map_snd]
    exact List.pairwise_lt_range'
  have hdistinct : (told.map Prod.fst).Nodup := hnumbers.imp Nat.ne_of_lt
  have hobjects : (g.objects DescriptionNode.result.term DescriptionField.solution.iri).Perm
      ((r.rows.zipIdx 1).map fun row => (DescriptionNode.solution row.2).term) := by
    have hinjective : Function.Injective fun n => (DescriptionNode.solution n).term := fun _ _ he =>
      DescriptionNode.solution.inj (DescriptionNode.term_injective he)
    refine hg.objects_perm ?_ fun y => ?_
    · have hnodup := hdistinct.map hinjective
      rwa [List.map_map, List.map_map] at hnodup
    · rw [List.mem_map]
      constructor
      · intro hy
        cases hy with
        | solution h => exact ⟨_, h, rfl⟩
      · rintro ⟨row, h, rfl⟩
        exact .solution h
  have hread : ((r.rows.zipIdx 1).map fun row => (DescriptionNode.solution row.2).term).filterMap g.solution? =
      told := by
    rw [List.filterMap_map]
    exact (List.filterMap_congr fun row h => (hfields row h).1).trans (congrFun List.filterMap_eq_map _)
  have hperm := hobjects.filterMap g.solution?
  rw [hread] at hperm
  refine ⟨fields, fun row h => (hfields row h).2, ?_⟩
  -- Numbers tell solutions apart, so there is one order in which they ascend.
  have hsort := (sortByKey_perm (fun m n => decide (m ≤ n)) Prod.fst _).trans hperm
  refine hsort.eq_of_pairwise (fun a b ha hb hab hba => ?_)
    (sortByKey_pairwise _ _ (by simpa using fun a b c => Nat.le_trans) (by simpa using Nat.le_total) _)
    ((List.pairwise_map.1 hnumbers).imp fun hlt => by simpa using Nat.le_of_lt hlt)
  rw [decide_eq_true_eq] at hab hba
  exact List.inj_on_of_nodup_map hdistinct (hsort.mem_iff.1 ha) hb (Nat.le_antisymm hab hba)

include hnames

/-- Whatever the order of the statements, a description tells the result that it describes. -/
theorem exists_told? : ∃ told, g.told? = some told ∧ told.Tells r := by
  obtain ⟨fields, hfields, hsolutions⟩ := hg.exists_solutions hkeys
  have hvariables : (g.objects DescriptionNode.result.term DescriptionField.resultVariable.iri).Perm
      (r.varNames.map Term.plain) := by
    refine hg.objects_perm (hnames.map fun _ _ he => (Term.literal.inj he).1) fun y => ?_
    rw [List.mem_map]
    constructor
    · intro hy
      cases hy with
      | resultVariable h => exact ⟨_, h, rfl⟩
    · rintro ⟨name, h, rfl⟩
      exact .resultVariable h
  have hread : (r.varNames.map Term.plain).filterMap Term.plainText? = r.varNames := by
    rw [List.filterMap_map]
    exact List.filterMap_some
  have htold : g.told? = some
      ⟨(g.objects DescriptionNode.result.term DescriptionField.resultVariable.iri).filterMap Term.plainText?,
        (r.rows.zipIdx 1).map fun row => (row.2, fields row)⟩ := by
    rw [Graph.told?, hg.nodesWith_kind, ← hsolutions]
    rfl
  refine ⟨_, htold, ?_, ?_⟩
  · exact hread ▸ hvariables.filterMap Term.plainText?
  · exact List.forall₂_map_left_iff.2 (List.forall₂_same.2 fun row h => ⟨rfl, hfields row h⟩)

end IsDescription

/-- What is told determines the rows by their numbers, up to the order of bindings. -/
theorem ToldResults.Tells.rows_perm {told : ToldResults} {r r' : Results} (h : told.Tells r) (h' : told.Tells r') :
    List.Forall₂ (fun row row' => row.1.Perm row'.1) (r.rows.zipIdx 1) (r'.rows.zipIdx 1) := by
  have hsolutions := h.solutions
  have hsolutions' := h'.solutions
  generalize told.solutions = solutions at hsolutions hsolutions'
  generalize r.rows.zipIdx 1 = rows at hsolutions ⊢
  generalize r'.rows.zipIdx 1 = rows' at hsolutions' ⊢
  induction hsolutions generalizing rows' with
  | nil =>
    cases hsolutions'
    exact .nil
  | cons hfirst _ ih =>
    cases hsolutions' with
    | cons hfirst' hrest => exact .cons (hfirst.2.symm.trans hfirst'.2) (ih _ hrest)

section

variable {r : Results}

theorem nodup_keys (hr : r.IsProjected) : ∀ row ∈ r.rows, (row.map Prod.fst).Nodup := by
  intro row hrow
  obtain ⟨b, rfl⟩ := hr.projected row hrow
  have hbound : (project r.varNames b).map Prod.fst = r.varNames.filter fun name => (findField b name).isSome := by
    rw [project, List.map_filterMap, ← List.filterMap_eq_filter]
    refine List.filterMap_congr fun name _ => ?_
    cases hname : findField b name <;> simp [hname, Option.guard]
  rw [hbound]
  exact hr.nodup.filter _

theorem asNodes_eq_self (h : ∀ t ∈ r.terms, t.node = t) : r.asNodes = r := by
  have hrow (row : Row) (hrow : row ∈ r.rows) : nodeRow row = row := by
    conv_rhs => rw [← List.map_id row]
    exact List.map_congr_left fun field hfield =>
      Prod.ext rfl (h _ (List.mem_flatMap.2 ⟨row, hrow, List.mem_map_of_mem hfield⟩))
  rw [Results.asNodes, List.map_congr_left hrow, List.map_id']

/-- A description that tells the nodes of a result tells the result itself if a graph keeps its terms. -/
theorem tells_iff (hr : r.IsProjected) {told : ToldResults} (h : told.Tells r.asNodes) :
    told.Tells r ↔ ∀ t ∈ r.terms, t.node = t := by
  constructor
  · intro htold t ht
    obtain ⟨row, hrow, ht⟩ := List.mem_flatMap.1 ht
    obtain ⟨⟨name, value⟩, hb, rfl⟩ := List.mem_map.1 ht
    have hrows := htold.rows_perm h
    rw [Results.asNodes, List.zipIdx_map, List.forall₂_map_right_iff, List.forall₂_same] at hrows
    have hnumbered := hrow
    rw [← List.zipIdx_map_fst 1 r.rows] at hnumbered
    obtain ⟨⟨row, n⟩, hn, rfl⟩ := List.mem_map.1 hnumbered
    have hnode : (name, value.node) ∈ row :=
      (hrows _ hn).mem_iff.2 (List.mem_map.2 ⟨(name, value), hb, rfl⟩)
    exact congrArg Prod.snd (List.inj_on_of_nodup_map (nodup_keys hr row hrow) hnode hb rfl)
  · intro hkept
    rwa [asNodes_eq_self hkept] at h

/-- The description of a result tells its nodes, and the result itself if and only if a graph keeps its terms. -/
theorem exists_told?_description (hr : r.IsProjected) (hterms : ∀ x ∈ r.terms, x.IsGivenOut) {g : Graph}
    (hg : g.statements.Perm (Graph.ofList r.description).statements) :
    ∃ told, g.told? = some told ∧ told.Tells r.asNodes ∧ (told.Tells r ↔ ∀ t ∈ r.terms, t.node = t) := by
  have hkeys : ∀ row ∈ r.asNodes.rows, (row.map Prod.fst).Nodup :=
    List.forall_mem_map.2 fun row hrow => by
      rw [map_fst_nodeRow]
      exact nodup_keys hr row hrow
  obtain ⟨told, htold, htells⟩ := (isDescription_asNodes hr hterms hg).exists_told? hr.nodup hkeys
  exact ⟨told, htold, htells, tells_iff hr htells⟩

/-- Every description has a graph, unless a language tag of the result is none. -/
theorem checkTags_description (hr : r.IsProjected) (hterms : ∀ x ∈ r.terms, x.faultyTag? = none) :
    checkTags (r.description.flatMap Triple.terms) = .ok () := by
  refine checkTags_eq_ok fun x hx => ?_
  obtain ⟨t, ht, hx⟩ := List.mem_flatMap.1 hx
  obtain ⟨node, field, y, h, rfl⟩ := (mem_description_iff hr t).1 ht
  simp only [Triple.terms, List.mem_cons, List.not_mem_nil, or_false] at hx
  obtain rfl | rfl | rfl := hx
  · rfl
  · cases field <;> rfl
  · exact h.object_cases.elim (hterms _) And.right

end

/-- The description of a result over a document is a graph, with nodes that are none of the document. From its statements
in any order the variables are read, and every row under its own number, each with the nodes of just its terms. So the
result is read back if and only if a graph keeps its terms. -/
theorem told?_queryOutcome {options : Turtle.ParserOptions} {text : String} {d : Turtle.Document}
    (h : Turtle.parse options text = .ok d) (own : Option Validator) (backend : Backend) (query : String) {r : Results}
    (hr : (Ontology.ofDocument backend own d).queryOutcome query = .ok r) :
    checkTags (r.description.flatMap Triple.terms) = .ok () ∧
      (∀ t ∈ r.description, t.subject ∉ d.triples.flatMap Triple.terms ++ r.terms) ∧
      ∀ g : Graph, g.statements.Perm (Graph.ofList r.description).statements →
        ∃ told, g.told? = some told ∧ told.Tells r.asNodes ∧ (told.Tells r ↔ ∀ t ∈ r.terms, t.node = t) := by
  have hover : r.IsOver d := isOver_of_queryOutcome h hr
  have hdenoted := hover.isDenoted h
  have hgiven : ∀ x ∈ r.terms, x.IsGivenOut := fun x hx => (hover.isWritten h x hx).isGivenOut
  refine ⟨checkTags_description hover.toIsProjected fun x hx => (hdenoted x hx).faultyTag?, fun t ht hin => ?_,
    fun g hg => exists_told?_description hover.toIsProjected hgiven hg⟩
  obtain ⟨node, field, x, -, rfl⟩ := (mem_description_iff hover.toIsProjected t).1 ht
  refine node.not_isDenoted ?_
  obtain hin | hin := List.mem_append.1 hin
  · obtain ⟨u, hu, hin⟩ := List.mem_flatMap.1 hin
    exact Turtle.parse_isDenoted h u hu _ hin
  · exact hdenoted _ hin

/-- Two people have a name, so that two rows are the same. -/
theorem told?_queryOutcome_people :
    ∃ d r, Turtle.parse {} peopleText = .ok d ∧
      (Ontology.ofDocument .memory none d).queryOutcome objectsQuery = .ok r ∧
      r.rows = [[("o", .plain "x")], [("o", .literal "y" none (some "en"))], [("o", .typed "5" Xsd.integer)],
        [("o", .plain "x")]] ∧
      checkTags (r.description.flatMap Triple.terms) = .ok () ∧
      (∀ t ∈ r.description, t.subject ∉ d.triples.flatMap Triple.terms ++ r.terms) ∧
      ∀ g : Graph, g.statements.Perm (Graph.ofList r.description).statements →
        ∃ told, g.told? = some told ∧ told.Tells r.asNodes ∧ (told.Tells r ↔ ∀ t ∈ r.terms, t.node = t) := by
  obtain ⟨d, hparse, hd⟩ := (map_eq_ok_iff _ _ _).1 parse_people.1
  obtain ⟨htriples, hrest⟩ := Prod.mk.inj hd
  obtain ⟨hentries, hbase⟩ := Prod.mk.inj hrest
  have hread : Query.parse d.namespaces.entries d.base objectsQuery = .ok objectsSelect := by
    have hquery : objectsQuery.toList = _ := String.toList_ofList
    rw [hentries, hbase, Query.parse, Query.tokens, hquery]
    decide
  have hresult : (Ontology.ofDocument .memory none d).queryOutcome objectsQuery = _ :=
    queryOutcome_objects hread .memory
  refine ⟨d, _, hparse, hresult, ?_, told?_queryOutcome hparse none .memory objectsQuery hresult⟩
  rw [Store.query_memory, htriples]
  decide

/-- A graph drops an empty datatype, so that what is told is another term. -/
theorem told?_emptyDatatype :
    ∃ d r told, Turtle.parse {} emptyDatatypeText = .ok d ∧
      (Ontology.ofDocument .memory none d).queryOutcome objectsQuery = .ok r ∧
      (Graph.ofList r.description).told? = some told ∧ ¬told.Tells r := by
  obtain ⟨d, hparse, hd⟩ := (map_eq_ok_iff _ _ _).1 parse_emptyDatatype.1
  obtain ⟨htriples, hrest⟩ := Prod.mk.inj hd
  obtain ⟨hentries, hbase⟩ := Prod.mk.inj hrest
  have hread : Query.parse d.namespaces.entries d.base objectsQuery = .ok objectsSelect := by
    rw [hentries, hbase, parse_emptyDatatype.2]
  have hresult : (Ontology.ofDocument .memory none d).queryOutcome objectsQuery = _ :=
    queryOutcome_objects hread .memory
  have hover := isOver_of_queryOutcome hparse hresult
  obtain ⟨told, htold, -, hiff⟩ := exists_told?_description hover.toIsProjected
    (fun x hx => (hover.isWritten hparse x hx).isGivenOut) (.refl _)
  refine ⟨d, _, told, hparse, hresult, htold, fun htells => ?_⟩
  have hkept := hiff.1 htells (.typed "x" "") (by
    rw [Store.query_memory, htriples]
    decide)
  exact absurd hkept (by decide)

end Query

end CommandOntology
