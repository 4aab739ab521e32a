import CommandOntology.Proofs.DefinedNames
import CommandOntology.Proofs.Reloading

set_option autoImplicit false

/-!
# Types that are reported and types that are refused

Validation reports the type tag of an argument that it does not know, and no module is generated for a tag
that stands for no type. The tag is normalized a second time before a module is generated. This changes the
verdict just for a short name of a datatype that was not written as one, such as a name in capitals: it is
reported and then taken for the datatype.
-/

namespace CommandOntology

open Generation

namespace TypeTag

def shortNames : List String :=
  datatypeTags.map fun tag => "xsd:" ++ tag.1

theorem normalize_of_mem_shortNames : ∀ tag ∈ shortNames, tag ∉ known ∧ normalize tag ∈ known := by
  decide +kernel

theorem eq_append_of_dropBeginning? {start text rest : List Char}
    (h : Text.dropBeginning? start text = some rest) : text = start ++ rest := by
  induction start generalizing text with
  | nil => exact Option.some.inj h
  | cons a start ih =>
    cases text with
    | nil => cases h
    | cons b text =>
      unfold Text.dropBeginning? at h
      split_ifs at h with hab
      rw [ih h, hab, List.cons_append]

theorem ofLocalName_of_not_mem_shortNames {tag : String} {name : List Char}
    (hname : Text.dropBeginning? "xsd:".toList tag.toList = some name) (h : tag ∉ shortNames) :
    ofLocalName tag name = tag := by
  have htag : tag = "xsd:" ++ String.ofList name := by
    rw [← String.toList_inj, eq_append_of_dropBeginning? hname, String.toList_append]
    simp
  unfold ofLocalName
  cases hfind : datatypeTags.find? fun entry => entry.1 == String.ofList name with
  | none => rfl
  | some entry =>
    have hentry : entry.1 = String.ofList name := by simpa using List.find?_some hfind
    exact absurd (List.mem_map.2 ⟨entry, List.mem_of_find?_eq_some hfind, by rw [hentry, htag]⟩) h

/-- A tag that has been normalized stays unless it is the short name of a datatype. -/
theorem normalize_of_not_mem_shortNames {raw : String} (h : normalize raw ∉ shortNames) :
    normalize (normalize raw) = normalize raw := by
  obtain hstays | hraw := normalize_normalize_of_datatype raw
  · exact hstays
  · generalize normalize raw = tag at hraw h ⊢
    have hsmall : ∀ c ∈ tag.toList, Text.IsSmall c := by
      rw [hraw, Text.lower, String.toList_ofList]
      exact Text.isSmall_of_mem_lowerAfter [] _
    unfold normalize
    split
    next name hname =>
      -- The namespace has capitals, which lower case does not leave.
      have hcapital : 'X' ∈ tag.toList := by
        rw [eq_append_of_dropBeginning? hname]
        exact List.mem_append_left _ (by decide)
      exact absurd (hsmall 'X' hcapital).1 (by decide)
    · split
      next name hname => exact ofLocalName_of_not_mem_shortNames hname h
      · rw [hraw, Text.lower_strip_lower_strip]

/-- Normalizing a tag again makes known just the short names of datatypes. -/
theorem normalize_mem_known_iff (raw : String) : normalize (normalize raw) ∈ known ↔
    normalize raw ∈ known ∨ normalize raw ∈ shortNames := by
  by_cases h : normalize raw ∈ shortNames
  · simp [h, (normalize_of_mem_shortNames _ h).2]
  · simp [h, normalize_of_not_mem_shortNames h]

end TypeTag

namespace Generation

theorem ofTag?_eq_none_iff (tag : String) : ArgumentType.ofTag? tag = none ↔ tag ∉ TypeTag.known := by
  have hperm : (ArgumentType.tags.map (·.1)).Perm TypeTag.known := by decide
  rw [← hperm.mem_iff, ArgumentType.ofTag?, Option.map_eq_none_iff, List.find?_eq_none, List.mem_map]
  simp only [beq_iff_eq, not_exists, not_and]

def RefusesTag (command ident : String) (d : Argument) : Prop :=
  planParameter command d ident = .error (.unknownType (command ++ ": " ++ d.name) d.typeTag)

theorem refusesTag_iff (command ident : String) (d : Argument) :
    RefusesTag command ident d ↔ TypeTag.normalize d.typeTag ∉ TypeTag.known := by
  rw [RefusesTag, ← ofTag?_eq_none_iff]
  unfold planParameter
  dsimp only
  cases htype : ArgumentType.ofTag? (TypeTag.normalize d.typeTag) with
  | none => simp
  | some type =>
    simp only [reduceCtorEq, iff_false]
    intro h
    obtain h | ⟨_, -, h⟩ := (bind_eq_error_iff _ _ _).1 h
    · unfold presence at h
      split at h
      · cases h
      · split at h
        · split at h <;> cases h
        · cases h
    · cases h

end Generation

def Report.NamesTag (r : Report) (resource : Term) (tag : String) : Prop :=
  ∃ f ∈ r.findings, f.rule = .unknownTypeTag ∧ f.identifier = resource.text ∧
    f.details = [("type_tag", .text tag)]

namespace View

theorem typeTag_eq_of_buildArgument {v : View} {a : Term} {d : Argument} (h : v.buildArgument a = .ok d) :
    d.typeTag = ((v.value? a Cnv.datatype).map typeTag).getD "string" := by
  unfold buildArgument at h
  obtain ⟨_, -, h⟩ := (bind_eq_ok_iff _ _ _).1 h
  cases h
  rfl

theorem mem_report {v : View} (validator : Validator) (f : Finding) :
    f ∈ (validator.report v).findings ∧ f.rule = .unknownTypeTag ↔
      f ∈ Rule.checkTypeTags validator.knownTags v := by
  simp only [Validator.report, List.mem_flatMap]
  constructor
  · rintro ⟨⟨rule, -, hf⟩, hrule⟩
    obtain rfl := (rule_of_mem_check _ _ _ _ hf).symm.trans hrule
    exact hf
  · intro hf
    have hrule : f ∈ Rule.check validator.knownTags v .unknownTypeTag := hf
    exact ⟨⟨_, by decide, hrule⟩, rule_of_mem_check _ _ _ _ hrule⟩

theorem namesTag_iff {v : View} {a : Term} {d : Argument} (ha : a ∈ v.describedArguments)
    (hd : v.buildArgument a = .ok d) :
    (({} : Validator).report v).NamesTag a d.typeTag ↔ d.typeTag ∉ TypeTag.known := by
  have htag := typeTag_eq_of_buildArgument hd
  constructor
  · rintro ⟨f, hf, hrule, -, hdetails⟩
    obtain ⟨b, -, hb⟩ := List.mem_filterMap.1 ((mem_report {} f).1 ⟨hf, hrule⟩)
    obtain ⟨datatype, -, hb⟩ := Option.bind_eq_some_iff.1 hb
    dsimp only at hb
    split_ifs at hb with hknown
    cases hb
    obtain ⟨-, htext⟩ := Prod.mk.inj (List.cons.inj hdetails).1
    rw [← Value.text.inj htext]
    simpa using hknown
  · intro hunknown
    cases hvalue : v.value? a Cnv.datatype with
    | none =>
      rw [hvalue] at htag
      exact absurd (htag ▸ by decide) hunknown
    | some datatype =>
      rw [hvalue] at htag
      change d.typeTag = typeTag datatype at htag
      let f : Finding :=
        { rule := .unknownTypeTag
          identifier := a.text
          message := "unknown type tag '" ++ d.typeTag ++ "'"
          details := [("type_tag", .text d.typeTag)] }
      have hf : f ∈ Rule.checkTypeTags ({} : Validator).knownTags v := by
        refine List.mem_filterMap.2 ⟨a, ha, ?_⟩
        rw [hvalue, Option.bind_some, ← htag]
        exact if_neg (by simpa using hunknown)
      exact ⟨f, ((mem_report {} f).2 hf).1, rfl, rfl, rfl⟩

theorem exists_mem_of_mapM_ok {α β ε : Type} {f : α → Except ε β} {xs : List α} {ys : List β}
    (h : xs.mapM f = .ok ys) {x : α} (hx : x ∈ xs) : ∃ y ∈ ys, f x = .ok y := by
  have hmap := map_eq_map_ok_of_forall₂ f xs ys (forall₂_of_mapM_ok f xs ys h)
  obtain ⟨y, hy, he⟩ := List.mem_map.1 (hmap ▸ List.mem_map_of_mem hx)
  exact ⟨y, hy, he.symm⟩

/-- The arguments of the commands of an accepted graph are described, and each is built as an argument of
its command. -/
theorem exists_argument_of_isValid {v : View} {g : List Triple} (h : v.Reads g) (validator : Validator)
    (hvalid : (validator.report v).isValid = true) {index : CommandIndex} (hindex : v.buildIndex = .ok index)
    {c a : Term} (hc : c ∈ v.commands) (ha : a ∈ v.arguments c) :
    a ∈ v.describedArguments ∧ ∃ x ∈ index.commands, x.iri = some c.text ∧ ∃ d ∈ x.arguments,
      v.buildArgument a = .ok d := by
  obtain ⟨hreferences, hcardinality, -⟩ := (report_isValid_iff validator v).1 hvalid
  obtain ⟨-, -, -, hcheck⟩ := (checkCardinality_eq_nil_iff v).1 hcardinality c hc
  have hdeclared := isDeclared_of_checkReferences h hreferences c Cnv.hasArgument (by decide)
  obtain ⟨hgood, -⟩ := (checkArguments_eq_nil_iff_named v c [] _ hdeclared).1 hcheck
  have hresource := (hgood a ha).1
  obtain ⟨commands, hcommands, -, hsort⟩ := exists_commands_of_buildIndex v index hindex
  obtain ⟨x, hx, hbuilt⟩ := exists_mem_of_mapM_ok hcommands hc
  obtain ⟨⟨arguments, harguments, hsorted⟩, -⟩ := buildCommand_eq_ok v c x hbuilt
  obtain ⟨d, hd, hargument⟩ := exists_mem_of_mapM_ok harguments ha
  refine ⟨?_, x, hsort ▸ List.mem_mergeSort.2 hx, (parts_of_buildCommand hbuilt).2.2.2, d,
    hsorted ▸ List.mem_mergeSort.2 hd, hargument⟩
  refine (mem_distinct _ _).2 (List.mem_flatMap.2 ⟨c, hc, List.mem_filter.2 ⟨ha, ?_⟩⟩)
  rw [hresource, hdeclared a ha hresource, Bool.true_and]

end View

/-- The type tag of an argument of an accepted ontology is reported as unknown just if it is refused, or if
it is the short name of a datatype. Such a name is never refused. -/
theorem namesTag_iff_refusesTag (backend : Backend) {triples : List Triple}
    (htriples : ∀ t ∈ triples, t.IsWritten) {namespaces : Namespaces} {base : Option String}
    {own : Option Validator} {o : ValidatedOntology}
    (ho : ({} : Validator).validate ⟨.ofList backend triples, namespaces, base, own⟩ = .ok o) {c a : Term}
    (hc : c ∈ (View.ofStore o.store).commands) (ha : a ∈ (View.ofStore o.store).arguments c) :
    ∃ x ∈ o.index.commands, x.iri = some c.text ∧ ∃ d ∈ x.arguments,
      (View.ofStore o.store).buildArgument a = .ok d ∧ ∀ command ident,
        (o.report.NamesTag a d.typeTag ↔ RefusesTag command ident d ∨ d.typeTag ∈ TypeTag.shortNames) ∧
        ¬(RefusesTag command ident d ∧ d.typeTag ∈ TypeTag.shortNames) := by
  obtain ⟨hvalid, index, hindex, rfl⟩ := (Validator.validate_eq_ok_iff _ _ _).1 ho
  obtain ⟨g, hreads⟩ := View.exists_reads_of_isWritten htriples backend
  obtain ⟨hdescribed, x, hx, hiri, d, hd, hbuilt⟩ :=
    View.exists_argument_of_isValid hreads {} hvalid hindex hc ha
  refine ⟨x, hx, hiri, d, hd, hbuilt, fun command ident => ?_⟩
  obtain ⟨raw, hraw⟩ := View.typeTag_of_buildArgument a d hbuilt
  have hagain := TypeTag.normalize_mem_known_iff raw
  rw [← hraw] at hagain
  rw [View.namesTag_iff hdescribed hbuilt, refusesTag_iff, hagain]
  by_cases hname : d.typeTag ∈ TypeTag.shortNames
  · simp [hname, (TypeTag.normalize_of_mem_shortNames _ hname).1]
  · simp [hname]

def sizeProgram : Definition :=
  { commands := [
      { noun := "pods", verb := "list", handlers := ["run"],
        arguments := [{ name := "size", typeTag := "XSD:integer" }] }] }

def sizeText : String :=
  "@prefix c: <https://cnv.dev/ontology#> .
<u:noun/pods> a c:Noun ; c:name 'pods' . <u:verb/list> a c:Verb ; c:name 'list' .
<u:command/pods/list> a c:Command ; c:hasNoun <u:noun/pods> ; c:hasVerb <u:verb/list> ; c:handler 'run' ;
  c:hasArgument <u:command/pods/list/size> .
<u:command/pods/list/size> a c:Argument ; c:name 'size' ; c:datatype 'XSD:integer' ; c:required false ."

def sizeTriples : List Triple :=
  let noun := Term.iri "u:noun/pods"
  let verb := Term.iri "u:verb/list"
  let command := Term.iri "u:command/pods/list"
  let size := Term.iri "u:command/pods/list/size"
  [⟨noun, .iri Rdf.type, .iri Cnv.noun⟩, ⟨noun, .iri Cnv.name, .plain "pods"⟩,
    ⟨verb, .iri Rdf.type, .iri Cnv.verb⟩, ⟨verb, .iri Cnv.name, .plain "list"⟩,
    ⟨command, .iri Rdf.type, .iri Cnv.command⟩, ⟨command, .iri Cnv.hasNoun, noun⟩,
    ⟨command, .iri Cnv.hasVerb, verb⟩, ⟨command, .iri Cnv.handler, .plain "run"⟩,
    ⟨command, .iri Cnv.hasArgument, size⟩, ⟨size, .iri Rdf.type, .iri Cnv.argument⟩,
    ⟨size, .iri Cnv.name, .plain "size"⟩, ⟨size, .iri Cnv.datatype, .plain "XSD:integer"⟩,
    ⟨size, .iri Cnv.required, .typed "false" Xsd.boolean⟩]

set_option maxRecDepth 4000 in
theorem parse_sizeText : ∃ doc, Turtle.parse {} sizeText = .ok doc ∧ doc.triples = sizeTriples := by
  have hchars : sizeText.toList = _ := String.toList_ofList
  have htriples : (Turtle.parse {} sizeText).map (·.triples) = .ok sizeTriples := by
    rw [Turtle.parse, hchars]
    decide +kernel
  exact (map_eq_ok_iff _ _ _).1 htriples

theorem statements_sizeProgram : Export.statements "u:" sizeProgram = .ok sizeTriples := by
  have hordered : Export.ordered ["run"] = ["run"] := List.mergeSort_singleton _
  have hnone : Export.ordered [] = [] := List.mergeSort_nil
  have hcommands : Export.orderedCommands sizeProgram = sizeProgram.commands :=
    List.mergeSort_singleton _
  have harguments : (sizeProgram.commands.flatMap (·.arguments)).mergeSort
      (fun a b => decide (a.name ≤ b.name)) = sizeProgram.commands.flatMap (·.arguments) :=
    List.mergeSort_singleton _
  have hexportable : Export.IsExportable sizeProgram :=
    ⟨by decide, by decide, by decide, by simp [sizeProgram, Export.HasShortPosition]⟩
  refine (Export.statements_eq_ok_iff _ _ _).2 ⟨hexportable, ?_⟩
  rw [hcommands]
  simp only [sizeProgram, List.flatMap_singleton] at harguments
  simp only [Export.ofCommands, sizeProgram, Export.ofCommand, harguments, Export.ownFacts, hordered, hnone]
  decide +kernel

theorem shows_sizeProgram :
    (View.ofStore (.ofList .memory sizeTriples)).Shows (distinct sizeTriples) "u:" sizeProgram where
  exportable := ((Export.statements_eq_ok_iff _ _ _).1 statements_sizeProgram).1
  reads := View.reads_memory sizeTriples
  mem t := by rw [mem_distinct, Export.mem_statements_iff _ _ _ statements_sizeProgram]

/-- The statements are accepted, and the argument whose type is in capitals is found in them. -/
theorem validate_sizeTriples (namespaces : Namespaces) (base : Option String) (own : Option Validator) :
    ∃ o, ({} : Validator).validate ⟨.ofList .memory sizeTriples, namespaces, base, own⟩ = .ok o ∧
      let v := View.ofStore o.store
      o.report = ({} : Validator).report v ∧ v.Reads (distinct sizeTriples) ∧ v.buildIndex = .ok o.index ∧
        .iri "u:command/pods/list" ∈ v.commands ∧
        .iri "u:command/pods/list/size" ∈ v.arguments (.iri "u:command/pods/list") ∧
        v.buildArgument (.iri "u:command/pods/list/size") =
          .ok { name := "size", typeTag := "xsd:integer" } := by
  have hnamed : View.HasNamedArguments sizeProgram := by
    have hsize : ∃ x ∈ "size".toList, Text.isBlank x = false := ⟨'s', by simp, by decide⟩
    simpa only [View.HasNamedArguments, sizeProgram, List.forall_mem_cons, List.not_mem_nil, false_implies,
      implies_true, and_true] using hsize
  have hsize : ∃ c ∈ sizeProgram.commands, c.key = ⟨"pods", "list"⟩ ∧ ∃ a ∈ c.arguments, a.name = "size" ∧
      normalArgument a = { name := "size", typeTag := "xsd:integer" } := by
    have hnone : Export.ordered [] = [] := List.mergeSort_nil
    have htag : TypeTag.normalize "XSD:integer" = "xsd:integer" := by decide +kernel
    exact ⟨_, .head _, rfl, _, .head _, rfl, congrArg₂
      (fun tag validators => ({ name := "size", typeTag := tag, validators } : Argument)) htag hnone⟩
  obtain ⟨c, hc, hkey, a, ha, hname, hnormal⟩ := hsize
  have hcommand : (Export.Resource.command c.key).node "u:" = .iri "u:command/pods/list" := by
    rw [hkey]
    decide +kernel
  have hargument : (Export.Resource.argument c.key a.name).node "u:" = .iri "u:command/pods/list/size" := by
    rw [hkey, hname]
    decide +kernel
  have hmemCommand := shows_sizeProgram.commands_perm.mem_iff.2 (List.mem_map.2 ⟨c, hc, hcommand⟩)
  have hmemArgument := (shows_sizeProgram.arguments_perm c hc).mem_iff.2 (List.mem_map.2 ⟨a, ha, hargument⟩)
  have hbuilt := shows_sizeProgram.buildArgument_eq c hc a ha
  rw [hargument, hnormal] at hbuilt
  obtain ⟨index, hindex, -⟩ := shows_sizeProgram.buildIndex_eq_ok
  exact ⟨_, (Validator.validate_eq_ok_iff _ _ _).2
      ⟨(shows_sizeProgram.isValid_iff {}).2 hnamed, index, hindex, rfl⟩,
    rfl, shows_sizeProgram.reads, hindex, hmemCommand, hcommand ▸ hmemArgument, hbuilt⟩

theorem namesTag_iff_refusesTag_size : ∃ o,
    ({} : Validator).validate ⟨.ofList .memory sizeTriples, .empty 32, none, none⟩ = .ok o ∧
      ∃ x ∈ o.index.commands, x.iri = some "u:command/pods/list" ∧ ∃ d ∈ x.arguments,
        (View.ofStore o.store).buildArgument (.iri "u:command/pods/list/size") = .ok d ∧
        ∀ command ident, (o.report.NamesTag (.iri "u:command/pods/list/size") d.typeTag ↔
            RefusesTag command ident d ∨ d.typeTag ∈ TypeTag.shortNames) ∧
          ¬(RefusesTag command ident d ∧ d.typeTag ∈ TypeTag.shortNames) := by
  have hwritten : ∀ t ∈ sizeTriples, t.IsWritten := by
    obtain ⟨doc, hdoc, htriples⟩ := parse_sizeText
    exact htriples ▸ Turtle.parse_isWritten hdoc
  obtain ⟨o, ho, -, -, -, hc, ha, -⟩ := validate_sizeTriples (.empty 32) none none
  exact ⟨o, ho, namesTag_iff_refusesTag .memory hwritten ho hc ha⟩

/-- The type that is written in capitals is reported, and a parameter is planned for its argument. -/
theorem namesTag_xsdInteger : ∃ doc o, Turtle.parse {} sizeText = .ok doc ∧
    ({} : Validator).validate (.ofDocument .memory none doc) = .ok o ∧
    .iri "u:command/pods/list" ∈ (View.ofStore o.store).commands ∧
    .iri "u:command/pods/list/size" ∈ (View.ofStore o.store).arguments (.iri "u:command/pods/list") ∧
    ∃ x ∈ o.index.commands, x.iri = some "u:command/pods/list" ∧ ∃ d ∈ x.arguments,
      (View.ofStore o.store).buildArgument (.iri "u:command/pods/list/size") = .ok d ∧
      o.report.NamesTag (.iri "u:command/pods/list/size") d.typeTag ∧
      ∀ command ident, ¬RefusesTag command ident d := by
  obtain ⟨doc, hdoc, htriples⟩ := parse_sizeText
  obtain ⟨o, ho, hreport, hreads, hindex, hc, ha, hsize⟩ := validate_sizeTriples doc.namespaces doc.base none
  have hvalid : o.report.isValid = true := by
    obtain ⟨h, _, _, rfl⟩ := (Validator.validate_eq_ok_iff _ _ _).1 ho
    exact h
  obtain ⟨hdescribed, x, hx, hiri, d, hd, hbuilt⟩ :=
    View.exists_argument_of_isValid hreads {} (hreport ▸ hvalid) hindex hc ha
  obtain rfl : d = { name := "size", typeTag := "xsd:integer" } := Except.ok.inj (hbuilt.symm.trans hsize)
  refine ⟨doc, o, hdoc, by rw [Ontology.ofDocument, htriples, ho], hc, ha, x, hx, hiri, _, hd, hbuilt, ?_, ?_⟩
  · rw [hreport]
    exact (View.namesTag_iff hdescribed hbuilt).2 (by decide)
  · intro command ident
    rw [refusesTag_iff]
    exact not_not_intro (TypeTag.normalize_of_mem_shortNames _ (by decide)).2

end CommandOntology
