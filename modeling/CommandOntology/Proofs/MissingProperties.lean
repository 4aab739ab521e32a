import Mathlib.Data.String.Basic
import CommandOntology.Proofs.PlannedCommands
import CommandOntology.Proofs.StatementShapes
import CommandOntology.Proofs.ValidatedCommands

set_option autoImplicit false

namespace CommandOntology

open Generation

def HasEmpty (g : List Triple) (command : Term) : Property → Prop
  | .noun => HasPart g command Cnv.hasNoun ""
  | .verb => HasPart g command Cnv.hasVerb ""
  | .handler => ∃ x, Says g command Cnv.handler x ∧ x.text = ""

theorem says_distinct (g : List Triple) : Says (distinct g) = Says g := by
  funext s p x
  exact propext (mem_distinct _ g)

theorem hasEmpty_distinct (g : List Triple) : HasEmpty (distinct g) = HasEmpty g := by
  funext c property
  have hleast : IsLeastValue (distinct g) = IsLeastValue g := by
    funext s p x
    simp only [IsLeastValue, says_distinct]
  have hpart : HasPart (distinct g) = HasPart g := by
    funext c p name
    simp only [HasPart, HasName, says_distinct, hleast]
  cases property <;> simp only [HasEmpty, hpart, says_distinct]

theorem empty_le (text : String) : "" ≤ text := by
  refine not_lt.1 fun h => ?_
  rw [String.lt_iff_toList_lt] at h
  exact List.not_lt_nil _ h

theorem head?_sortTexts_eq_empty_iff {texts : List String} (hne : texts ≠ []) :
    (∀ text ∈ (sortTexts texts).head?, text = "") ↔ "" ∈ texts := by
  have hmem (text : String) : text ∈ sortTexts texts ↔ text ∈ texts := List.mem_mergeSort
  have hsorted : (sortTexts texts).Pairwise fun a b => decide (a ≤ b) = true :=
    List.pairwise_mergeSort textLe_trans textLe_total texts
  cases hsort : sortTexts texts with
  | nil =>
    rw [hsort] at hmem
    exact absurd (List.eq_nil_iff_forall_not_mem.2 fun text ht => List.not_mem_nil ((hmem text).2 ht)) hne
  | cons first rest =>
    rw [hsort] at hmem hsorted
    simp only [List.head?_cons, Option.mem_some_iff, forall_eq']
    constructor
    · rintro rfl
      exact (hmem "").1 List.mem_cons_self
    · intro hempty
      obtain hfirst | hrest := List.mem_cons.1 ((hmem "").2 hempty)
      · exact hfirst.symm
      · have hle := (List.pairwise_cons.1 hsorted).1 "" hrest
        exact String.le_antisymm (of_decide_eq_true hle) (empty_le first)

namespace View

theorem parts_of_buildCommand {v : View} {r : Term} {c : Command} (h : v.buildCommand r = .ok c) :
    v.nounOf r = some c.noun ∧ v.verbOf r = some c.verb ∧
      c.handler = (sortTexts ((v.values r Cnv.handler).map Term.text)).head? ∧ c.iri = some r.text := by
  have hname (name : Option String) (text : String) (h : requireName r name = .ok text) :
      name = some text := by
    cases name <;> cases h
    rfl
  unfold buildCommand at h
  obtain ⟨noun, hnoun, h⟩ := (bind_eq_ok_iff _ _ _).1 h
  obtain ⟨verb, hverb, h⟩ := (bind_eq_ok_iff _ _ _).1 h
  obtain ⟨arguments, -, h⟩ := (bind_eq_ok_iff _ _ _).1 h
  cases h
  exact ⟨hname _ _ hnoun, hname _ _ hverb, rfl, rfl⟩

/-- A command of an accepted graph lacks a property just if the graph has an empty text for it. -/
theorem lacks_iff {v : View} {g : List Triple} (h : v.Reads g) (validator : Validator)
    (hvalid : (validator.report v).isValid = true) {r : Term} (hr : r ∈ v.commands)
    (hresource : r.isResource = true) {c : Command} (hc : v.buildCommand r = .ok c) (property : Property) :
    Lacks c property ↔ HasEmpty g r property := by
  obtain ⟨hreferences, hcardinality, -⟩ := (report_isValid_iff validator v).1 hvalid
  obtain ⟨hnoun, hverb, hhandler, -⟩ := parts_of_buildCommand hc
  obtain ⟨hnounCheck, hverbCheck, -⟩ := (checkCardinality_eq_nil_iff v).1 hcardinality r hr
  have hdeclared (p : String) (hp : p ∈ referencePredicates) (x : Term) (hx : Says g r p x) :=
    isDeclared_of_checkReferences h hreferences r p hp x ((h.mem_values r x p).2 ⟨hresource, hx⟩)
  cases property with
  | noun =>
    have hone := (checkPart_eq_nil_iff h r _ _ hresource (hdeclared _ (by decide))).1 hnounCheck
    rw [HasEmpty, hasPart_iff h r _ "" hresource hone]
    change c.noun = "" ↔ v.nounOf r = some ""
    rw [hnoun, Option.some.injEq]
  | verb =>
    have hone := (checkPart_eq_nil_iff h r _ _ hresource (hdeclared _ (by decide))).1 hverbCheck
    rw [HasEmpty, hasPart_iff h r _ "" hresource hone]
    change c.verb = "" ↔ v.verbOf r = some ""
    rw [hverb, Option.some.injEq]
  | handler =>
    have hsome : (v.values r Cnv.handler).map Term.text ≠ [] := by
      simpa using handlers_of_isValid validator hvalid r hr
    rw [Lacks, HasEmpty, hhandler, head?_sortTexts_eq_empty_iff hsome, List.mem_map]
    simp only [h.mem_values, hresource, true_and]

end View

/-- A module is not generated for want of a property just if a command of the document has an empty text
for it, and the command is named. Where one has, no module is generated. -/
theorem generate_missingProperty {options : Turtle.ParserOptions} {text : String} {d : Turtle.Document}
    (hd : Turtle.parse options text = .ok d) {own validator : Option Validator} {o : ValidatedOntology}
    (ho : (Ontology.ofDocument .memory own d).validate validator = .ok o) (generator : Generator)
    (features : Features) :
    (∀ label property, generator.generate features o.index = .error (.missingProperty label property) →
      ∃ c, IsCommand d.triples c ∧ HasEmpty d.triples c property ∧ (c.text ≠ "" → label = c.text)) ∧
    ∀ c property, IsCommand d.triples c → HasEmpty d.triples c property →
      ∃ e, generator.generate features o.index = .error e := by
  obtain ⟨chosen, -, ho⟩ := (Ontology.validate_eq_ok_iff _ _ _).1 ho
  obtain ⟨hvalid, index, hindex, rfl⟩ := (chosen.validate_eq_ok_iff _ _).1 ho
  have hreads := View.reads_memory d.triples
  have hcommand (r : Term) : r ∈ (View.ofStore (.ofList .memory d.triples)).commands ↔
      IsCommand d.triples r := by
    refine (hreads.mem_instances Cnv.command r).trans ?_
    rw [says_distinct]
    rfl
  have hlacks {r : Term} {c : Command} (hr : IsCommand d.triples r)
      (hc : (View.ofStore (.ofList .memory d.triples)).buildCommand r = .ok c) (property : Property) :
      Lacks c property ↔ HasEmpty d.triples r property := by
    rw [← hasEmpty_distinct]
    exact View.lacks_iff hreads chosen hvalid ((hcommand r).2 hr) (Turtle.parse_isWritten hd _ hr).subject hc
      property
  obtain ⟨commands, hcommands, -, hsort⟩ := View.exists_commands_of_buildIndex _ index hindex
  -- The error tells a command without a text, and a module has a plan for each command, so both directions
  -- go through `hlacks`.
  constructor
  · intro label property h
    obtain h | h | ⟨_, _, _, -, -, h⟩ := generate_error h
    · obtain ⟨c, hc, _, hmissing, he⟩ | h := planCommands_error h
      · cases he
        obtain ⟨r, hr, hbuilt⟩ := (View.buildIndex_eq_ok _ index hindex).2 c hc
        refine ⟨r, (hcommand r).1 hr, (hlacks ((hcommand r).1 hr) hbuilt property).1 hmissing, fun hne => ?_⟩
        rw [commandLabel, (View.parts_of_buildCommand hbuilt).2.2.2]
        simp [Option.filter_some, hne]
      · cases h
    · cases h
    · cases h
  · intro r property hr hempty
    cases h : generator.generate features index with
    | error e => exact ⟨e, rfl⟩
    | ok m =>
      obtain ⟨plans, _, hplans, -⟩ := generate_ok h
      obtain ⟨hall, -⟩ := planCommands_ok hplans
      have hpresent := ((List.forall₂_and_left (p := (missing? · = none)) _ _).1
        (hall.imp fun _ _ h => ⟨h.present, h⟩)).1
      have hbuiltAll := map_eq_map_ok_of_forall₂ _ _ _ (forall₂_of_mapM_ok _ _ _ hcommands)
      obtain ⟨c, hc, hbuilt⟩ := List.mem_map.1 (hbuiltAll ▸ List.mem_map_of_mem ((hcommand r).2 hr))
      have hin : c ∈ index.commands := by
        rw [hsort]
        exact List.mem_mergeSort.2 hc
      exact absurd ((hlacks hr hbuilt.symm property).2 hempty)
        (not_lacks_of_missing? (hpresent c hin) property)

def unboundText : String :=
  "@prefix c: <https://cnv.dev/ontology#> .
<urn:c> a c:Command ; c:hasNoun 'pods' ; c:hasVerb 'list' ; c:handler '' ."

def namelessText : String :=
  "@prefix c: <https://cnv.dev/ontology#> .
<urn:c> a c:Command ; c:hasNoun '' ; c:hasVerb 'list' ; c:handler 'run' ."

set_option maxRecDepth 2000 in
theorem parse_unboundText : (Turtle.parse {} unboundText).map (·.triples) =
    .ok (PlainCommand.triples ⟨"urn:c", "pods", "list", ""⟩) := by
  have hchars : unboundText.toList = _ := String.toList_ofList
  rw [Turtle.parse, hchars]
  decide

set_option maxRecDepth 2000 in
theorem parse_namelessText : (Turtle.parse {} namelessText).map (·.triples) =
    .ok (PlainCommand.triples ⟨"urn:c", "", "list", "run"⟩) := by
  have hchars : namelessText.toList = _ := String.toList_ofList
  rw [Turtle.parse, hchars]
  decide

theorem validate_of_triples_eq {d : Turtle.Document} {c : PlainCommand} (h : d.triples = c.triples) :
    ∃ o, (Ontology.ofDocument .memory (some {}) d).validate none = .ok o ∧
      o.index.commands = [c.command] := by
  obtain ⟨o, ho, hcommands⟩ := @validate_plain [c] (List.nodup_singleton _) (List.nodup_singleton _)
    {} d.namespaces d.base (some {})
  refine ⟨o, ?_, hcommands.trans (List.mergeSort_singleton _)⟩
  rw [List.flatMap_singleton, ← h] at ho
  exact ho

theorem generate_missingProperty_unbound : ∃ d o, Turtle.parse {} unboundText = .ok d ∧
    (Ontology.ofDocument .memory (some {}) d).validate none = .ok o ∧
    IsCommand d.triples (.iri "urn:c") ∧ HasEmpty d.triples (.iri "urn:c") .handler ∧
    ∃ e, (Generator.ofName (.text "pods") "1.0.0").generate .none o.index = .error e := by
  obtain ⟨d, hd, htriples⟩ := (map_eq_ok_iff _ _ _).1 parse_unboundText
  obtain ⟨o, ho, -⟩ := validate_of_triples_eq htriples
  have hcommand : IsCommand d.triples (.iri "urn:c") := by
    rw [htriples]
    exact List.mem_cons_self
  have hempty : HasEmpty d.triples (.iri "urn:c") .handler := by
    rw [htriples]
    exact ⟨.plain "", by simp [Says, PlainCommand.triples, PlainCommand.facts], rfl⟩
  exact ⟨d, o, hd, ho, hcommand, hempty,
    (generate_missingProperty hd ho _ .none).2 _ _ hcommand hempty⟩

/-- A document is accepted, and no module is generated for want of a noun. -/
theorem generate_missingProperty_nameless : ∃ d o, Turtle.parse {} namelessText = .ok d ∧
    (Ontology.ofDocument .memory (some {}) d).validate none = .ok o ∧
    (Generator.ofName (.text "pods") "1.0.0").generate .none o.index =
      .error (.missingProperty "urn:c" .noun) := by
  obtain ⟨d, hd, htriples⟩ := (map_eq_ok_iff _ _ _).1 parse_namelessText
  obtain ⟨o, ho, hcommands⟩ := validate_of_triples_eq htriples
  have hplan : plan .none o.index = .error (.missingProperty "urn:c" .noun) := by
    rw [plan, hcommands]
    rfl
  refine ⟨d, o, hd, ho, ?_⟩
  rw [Generator.generate, hplan]
  rfl

end CommandOntology
