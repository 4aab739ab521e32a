import CommandOntology.Proofs.ExportedView
import CommandOntology.Proofs.TypeTags

set_option autoImplicit false

namespace CommandOntology

open Export

namespace View

theorem buildArgument_eq_ok (v : View) (a : Term) (x : Argument) (h : v.buildArgument a = .ok x) :
    (v.value? a Cnv.name).bind lexical? = some x.name ∧
      x.position = (v.value? a Cnv.position).bind integer? := by
  unfold buildArgument at h
  obtain ⟨name, hname, h⟩ := (bind_eq_ok_iff _ _ _).1 h
  cases h
  refine ⟨?_, rfl⟩
  unfold requireName at hname
  split at hname
  next hsome =>
    cases hname
    exact hsome
  · cases hname

theorem buildCommand_eq_ok (v : View) (c : Term) (x : Command) (h : v.buildCommand c = .ok x) :
    (∃ arguments, (v.arguments c).mapM v.buildArgument = .ok arguments ∧
        x.arguments = Argument.sort arguments) ∧
      x.handlers = sortTexts ((v.values c Cnv.handler).map Term.text) := by
  unfold buildCommand at h
  obtain ⟨noun, -, h⟩ := (bind_eq_ok_iff _ _ _).1 h
  obtain ⟨verb, -, h⟩ := (bind_eq_ok_iff _ _ _).1 h
  obtain ⟨arguments, harguments, h⟩ := (bind_eq_ok_iff _ _ _).1 h
  cases h
  exact ⟨⟨arguments, harguments, rfl⟩, rfl⟩

/-- An index holds the commands that are built, in the order of their keys, which differ. -/
theorem exists_commands_of_buildIndex (v : View) (index : CommandIndex) (h : v.buildIndex = .ok index) :
    ∃ commands, v.commands.mapM v.buildCommand = .ok commands ∧ (commands.map Command.key).Nodup ∧
      index.commands = commands.mergeSort fun a b => CommandKey.le a.key b.key := by
  unfold buildIndex at h
  obtain ⟨commands, hcommands, h⟩ := (bind_eq_ok_iff _ _ _).1 h
  rw [mapError_eq_ok_iff, CommandIndex.ofList_eq_ok_iff] at h
  exact ⟨commands, hcommands, h.1, h.2.1⟩

/-- The commands of an index have different keys, and each is built from a resource. -/
theorem buildIndex_eq_ok (v : View) (index : CommandIndex) (h : v.buildIndex = .ok index) :
    (index.commands.map Command.key).Nodup ∧
      ∀ x ∈ index.commands, ∃ c ∈ v.commands, v.buildCommand c = .ok x := by
  obtain ⟨commands, hcommands, hkeys, hsort⟩ := exists_commands_of_buildIndex v index h
  have hperm : index.commands.Perm commands := by
    rw [hsort]
    exact List.mergeSort_perm _ _
  exact ⟨(hperm.map _).nodup_iff.2 hkeys,
    fun x hx => exists_of_mem_mapM v.buildCommand _ _ hcommands x (hperm.mem_iff.1 hx)⟩

variable {v : View} {g : List Triple}

/-- The arguments of a command of an accepted graph have different names that are not blank. -/
theorem arguments_of_isValid (h : v.Reads g) (validator : Validator)
    (hvalid : (validator.report v).isValid = true) (c : Term) (hc : c ∈ v.commands)
    (arguments : List Argument) (hm : (v.arguments c).mapM v.buildArgument = .ok arguments) :
    (arguments.map Argument.name).Nodup ∧
      ∀ x ∈ arguments, ∃ y ∈ x.name.toList, Text.isBlank y = false := by
  obtain ⟨hreferences, hcardinality, -⟩ := (report_isValid_iff validator v).1 hvalid
  obtain ⟨-, -, -, hcheck⟩ := (checkCardinality_eq_nil_iff v).1 hcardinality c hc
  have hdeclared := isDeclared_of_checkReferences h hreferences c Cnv.hasArgument (by decide)
  obtain ⟨hnamed, hnodup, -⟩ := (checkArguments_eq_nil_iff_named v c [] _ hdeclared).1 hcheck
  obtain ⟨built, hbuilt, hnames⟩ := mapM_ok_of_forall v.buildArgument
    (fun a x => Rule.argumentName? v a = some x.name) (v.arguments c) fun a ha => by
      obtain ⟨-, ⟨name, hname⟩, -⟩ := hnamed a ha
      have hvalue := (Option.filter_eq_some_iff.1 hname).1
      obtain ⟨x, hx⟩ := buildArgument_ok v a name hvalue
      have hsame := hvalue.symm.trans (buildArgument_eq_ok v a x hx).1
      exact ⟨x, hx, hname.trans hsame⟩
  obtain rfl : built = arguments := Except.ok.inj (hbuilt.symm.trans hm)
  refine ⟨by rwa [← filterMap_eq_map_of_forall₂ _ _ hnames], fun x hx => ?_⟩
  obtain ⟨a, -, ha⟩ : ∃ a ∈ v.arguments c, Rule.argumentName? v a = some x.name := by
    have hmem : x.name ∈ (v.arguments c).filterMap (Rule.argumentName? v) := by
      rw [filterMap_eq_map_of_forall₂ _ _ hnames]
      exact List.mem_map_of_mem hx
    exact List.mem_filterMap.1 hmem
  have htrim := (Option.filter_eq_some_iff.1 ha).2
  rw [Bool.not_eq_true', ← Bool.not_eq_true, trim_isEmpty_iff] at htrim
  simpa using htrim

theorem handlers_of_isValid (validator : Validator) (hvalid : (validator.report v).isValid = true)
    (c : Term) (hc : c ∈ v.commands) : v.values c Cnv.handler ≠ [] := by
  obtain ⟨-, hcardinality, -⟩ := (report_isValid_iff validator v).1 hvalid
  obtain ⟨-, -, hhandler, -⟩ := (checkCardinality_eq_nil_iff v).1 hcardinality c hc
  rintro hnil
  simp [Rule.checkHandler, hnil] at hhandler

/-- The position of an argument that is built is read again. -/
theorem position_of_buildArgument (a : Term) (x : Argument) (hx : v.buildArgument a = .ok x) (n : Int)
    (hn : x.position = some n) : Reading.integer (toString n) = .ok n := by
  rw [(buildArgument_eq_ok v a x hx).2, Option.bind_eq_some_iff] at hn
  obtain ⟨value, -, hvalue⟩ := hn
  unfold integer? at hvalue
  split at hvalue
  · split_ifs at hvalue
    next lexical _ _ _ =>
      cases hread : Reading.integer lexical with
      | error e =>
        rw [hread] at hvalue
        cases hvalue
      | ok m =>
        rw [hread] at hvalue
        cases hvalue
        exact Reading.integer_toString_of_integer lexical n hread
  · cases hvalue

/-- The commands of an accepted graph can be exported and are accepted again. -/
theorem buildIndex_isExportable (h : v.Reads g) (validator : Validator)
    (hvalid : (validator.report v).isValid = true) (index : CommandIndex)
    (hindex : v.buildIndex = .ok index) (name : String) :
    IsExportable (.ofIndex index name) ∧ HasNamedArguments (.ofIndex index name) := by
  obtain ⟨hkeys, hbuilt⟩ := buildIndex_eq_ok v index hindex
  have hcommand (c : CommandDefinition) (hc : c ∈ (Definition.ofIndex index name).commands) :
      ∃ x ∈ index.commands, CommandDefinition.ofCommand x = c ∧ ∃ r ∈ v.commands,
        v.buildCommand r = .ok x := by
    obtain ⟨x, hx, rfl⟩ := List.mem_map.1 hc
    exact ⟨x, hx, rfl, hbuilt x hx⟩
  have harguments (c : CommandDefinition) (hc : c ∈ (Definition.ofIndex index name).commands) :
      ∃ r ∈ v.commands, ∃ arguments, (v.arguments r).mapM v.buildArgument = .ok arguments ∧
        c.arguments.Perm arguments := by
    obtain ⟨x, -, rfl, r, hr, hx⟩ := hcommand c hc
    obtain ⟨⟨arguments, hm, hsort⟩, -⟩ := buildCommand_eq_ok v r x hx
    refine ⟨r, hr, arguments, hm, ?_⟩
    rw [CommandDefinition.ofCommand, hsort]
    exact List.mergeSort_perm _ _
  refine ⟨⟨?_, fun c hc => ?_, fun c hc => ?_, fun c hc a ha n hn => ?_⟩, fun c hc a ha => ?_⟩
  · rw [Definition.ofIndex, List.map_map]
    exact hkeys
  · obtain ⟨x, -, rfl, r, hr, hx⟩ := hcommand c hc
    have hhandlers : x.handlers.Perm ((v.values r Cnv.handler).map Term.text) := by
      rw [(buildCommand_eq_ok v r x hx).2]
      exact List.mergeSort_perm _ _
    intro hnil
    change x.handlers = [] at hnil
    rw [hnil] at hhandlers
    exact handlers_of_isValid validator hvalid r hr (List.map_eq_nil_iff.1 (List.nil_perm.1 hhandlers))
  · obtain ⟨r, hr, arguments, hm, hperm⟩ := harguments c hc
    rw [(hperm.map _).nodup_iff]
    exact (arguments_of_isValid h validator hvalid r hr arguments hm).1
  · obtain ⟨r, -, arguments, hm, hperm⟩ := harguments c hc
    obtain ⟨x, -, hx⟩ := exists_of_mem_mapM _ _ _ hm a (hperm.mem_iff.1 ha)
    exact (Reading.integer_toString_eq_ok_iff n).1 (position_of_buildArgument x a hx n hn)
  · obtain ⟨r, hr, arguments, hm, hperm⟩ := harguments c hc
    exact (arguments_of_isValid h validator hvalid r hr arguments hm).2 a (hperm.mem_iff.1 ha)

def HasReadTags (d : Definition) : Prop :=
  ∀ c ∈ d.commands, ∀ a ∈ c.arguments, ∃ raw, a.typeTag = TypeTag.normalize raw

theorem typeTag_of_buildArgument (a : Term) (x : Argument) (hx : v.buildArgument a = .ok x) :
    ∃ raw, x.typeTag = TypeTag.normalize raw := by
  unfold buildArgument at hx
  obtain ⟨name, -, hx⟩ := (bind_eq_ok_iff _ _ _).1 hx
  cases hx
  cases v.value? a Cnv.datatype with
  | none => exact ⟨"string", (TypeTag.normalize_of_mem_datatypeTags "string" (by decide)).symm⟩
  | some datatype => exact ⟨datatype.text, rfl⟩

theorem buildIndex_hasReadTags (index : CommandIndex) (hindex : v.buildIndex = .ok index)
    (name : String) : HasReadTags (.ofIndex index name) := by
  intro c hc a ha
  obtain ⟨x, hx, rfl⟩ := List.mem_map.1 hc
  obtain ⟨r, -, hr⟩ := (buildIndex_eq_ok v index hindex).2 x hx
  obtain ⟨⟨arguments, hm, hsort⟩, -⟩ := buildCommand_eq_ok v r x hr
  have hperm : x.arguments.Perm arguments := by
    rw [hsort]
    exact List.mergeSort_perm _ _
  obtain ⟨t, -, ht⟩ := exists_of_mem_mapM _ _ _ hm a (hperm.mem_iff.1 ha)
  exact typeTag_of_buildArgument t a ht

end View

/-- Validation ends well just if the rules find no error and the index can be built. -/
theorem Validator.validate_eq_ok_iff (validator : Validator) (ontology : Ontology)
    (o : ValidatedOntology) : validator.validate ontology = .ok o ↔
      (validator.report (View.ofStore ontology.store)).isValid = true ∧
        ∃ index, (View.ofStore ontology.store).buildIndex = .ok index ∧
          o = ⟨index, validator.report (View.ofStore ontology.store), ontology.store,
            ontology.namespaces, ontology.base⟩ := by
  simp only [Validator.validate]
  split_ifs with hvalid
  · rw [and_iff_right hvalid, map_eq_ok_iff]
    simp only [eq_comm]
  · simp [hvalid]

theorem Ontology.validate_eq_ok_iff (ontology : Ontology) (validator : Option Validator)
    (o : ValidatedOntology) : ontology.validate validator = .ok o ↔
      ∃ chosen, (validator <|> ontology.validator) = some chosen ∧ chosen.validate ontology = .ok o := by
  unfold Ontology.validate
  cases validator <|> ontology.validator <;> simp

def ValidatedOntology.IsAccepted (o : ValidatedOntology) : Prop :=
  ∃ (validator : Validator) (ontology : Ontology), validator.validate ontology = .ok o

def PlainCommand.command (c : PlainCommand) : Command :=
  { noun := c.noun, verb := c.verb, handler := some c.handler, handlers := [c.handler], iri := some c.iri }

namespace View

section

variable {v : View} {cs : List PlainCommand} (h : v.Reads (distinct (cs.flatMap PlainCommand.triples)))
  (hiris : (cs.map PlainCommand.iri).Nodup)

include hiris

theorem says_distinct_plain {c : PlainCommand} (hc : c ∈ cs) (p : String) (x : Term) :
    Says (distinct (cs.flatMap PlainCommand.triples)) (.iri c.iri) p x ↔ (p, x) ∈ c.facts := by
  rw [Says, mem_distinct]
  exact says_plain_of_mem hiris hc p x

include h

theorem values_plain {c : PlainCommand} (hc : c ∈ cs) (p text : String)
    (hp : ∀ x, (p, x) ∈ c.facts ↔ x = .plain text) : v.values (.iri c.iri) p = [.plain text] :=
  (values_eq_singleton_iff h _ _ p rfl).2 fun x => (says_distinct_plain hiris hc p x).trans (hp x)

theorem values_plain_eq_nil {c : PlainCommand} (hc : c ∈ cs) (p : String)
    (hp : p ∉ [Rdf.type, Cnv.hasNoun, Cnv.hasVerb, Cnv.handler]) : v.values (.iri c.iri) p = [] := by
  refine List.eq_nil_iff_forall_not_mem.2 fun x hx => hp ?_
  have hfact := (says_distinct_plain hiris hc p x).1 ((h.mem_values _ x p).1 hx).2
  exact List.mem_map_of_mem (f := Prod.fst) hfact

theorem buildCommand_plain {c : PlainCommand} (hc : c ∈ cs) :
    v.buildCommand (.iri c.iri) = .ok c.command := by
  have hnoun := values_plain h hiris hc Cnv.hasNoun c.noun fun x => by
    simp [PlainCommand.facts, Rdf.type, Cnv.hasNoun, Cnv.hasVerb, Cnv.handler]
  have hverb := values_plain h hiris hc Cnv.hasVerb c.verb fun x => by
    simp [PlainCommand.facts, Rdf.type, Cnv.hasNoun, Cnv.hasVerb, Cnv.handler]
  have hhandler := values_plain h hiris hc Cnv.handler c.handler fun x => by
    simp [PlainCommand.facts, Rdf.type, Cnv.hasNoun, Cnv.hasVerb, Cnv.handler]
  have harguments := values_plain_eq_nil h hiris hc Cnv.hasArgument (by decide)
  have hcapability := values_plain_eq_nil h hiris hc Cnv.capability (by decide)
  have hhelp : v.helpText (.iri c.iri) = none := by
    refine List.findSome?_eq_none_iff.2 fun p hp => ?_
    have hnone := values_plain_eq_nil h hiris hc p
      (fun hin => (by decide : ∀ p ∈ helpPredicates, p ∉ [Rdf.type, Cnv.hasNoun, Cnv.hasVerb, Cnv.handler])
        p hp hin)
    simp [hnone, helpTexts]
  simp [buildCommand, nounOf, verbOf, arguments, value?, hnoun, hverb, hhandler, harguments, hcapability,
    hhelp, nameOf, requireName, sortTexts, Argument.sort, Term.plain, Term.text, PlainCommand.command]
  rfl

theorem commands_plain : v.commands.Perm (cs.map fun c => .iri c.iri) := by
  have hnodup : (cs.map fun c => Term.iri c.iri).Nodup := by
    have hcomp : cs.map (fun c => Term.iri c.iri) = (cs.map PlainCommand.iri).map Term.iri := by
      rw [List.map_map]
      rfl
    rw [hcomp]
    exact hiris.map fun a b => Term.iri.inj
  refine (List.perm_ext_iff_of_nodup (h.nodup_instances _) hnodup).2 fun x => ?_
  rw [h.mem_instances, List.mem_map, Says, mem_distinct]
  constructor
  · intro hx
    obtain ⟨c, hc, rfl, -⟩ := (says_plain _ _ _).1 hx
    exact ⟨c, hc, rfl⟩
  · rintro ⟨c, hc, rfl⟩
    exact (says_plain_of_mem hiris hc _ _).2 (by simp [PlainCommand.facts])

end

end View

/-- Plain commands are accepted if their keys differ, and are found in the order of their keys. -/
theorem validate_plain {cs : List PlainCommand} (hiris : (cs.map PlainCommand.iri).Nodup)
    (hkeys : (cs.map PlainCommand.key).Nodup) (validator : Validator) (namespaces : Namespaces)
    (base : Option String) (own : Option Validator) :
    ∃ o, validator.validate ⟨.ofList .memory (cs.flatMap PlainCommand.triples), namespaces, base, own⟩ =
        .ok o ∧
      o.index.commands =
        (cs.map PlainCommand.command).mergeSort fun a b => CommandKey.le a.key b.key := by
  obtain ⟨o, ho⟩ := (validate_memory _ isStatement_plain validator namespaces base own).1
    (describesProgram_plain hiris hkeys)
  refine ⟨o, ho, ?_⟩
  obtain ⟨-, index, hindex, rfl⟩ := (validator.validate_eq_ok_iff _ o).1 ho
  have hreads := View.reads_memory (cs.flatMap PlainCommand.triples)
  obtain ⟨commands, hcommands, hdistinct, hsort⟩ := View.exists_commands_of_buildIndex _ index hindex
  obtain ⟨built, hbuilt, hperm⟩ := mapM_perm (View.buildCommand _) _ cs _ PlainCommand.command
    (View.commands_plain hreads hiris) fun c hc => View.buildCommand_plain hreads hiris hc
  obtain rfl : commands = built := Except.ok.inj (hcommands.symm.trans hbuilt)
  exact hsort.trans (sortByCommandKey_eq_of_perm _ _ hperm hdistinct)

end CommandOntology
