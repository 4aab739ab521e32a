import CommandOntology.Proofs.ExportedStatements
import CommandOntology.Proofs.NormalForm
import CommandOntology.Proofs.Validation
import CommandOntology.Proofs.WrittenIntegers

set_option autoImplicit false

/-!
# Reading what was exported

A view of the statements about a definition finds for each resource the facts about it, and builds the
commands of the definition in normal form.
-/

namespace CommandOntology

open Export

theorem mem_namedFacts (classIri name p : String) (x : Term) : (p, x) ∈ namedFacts classIri name ↔
    p = Rdf.type ∧ x = .iri classIri ∨ p = Cnv.name ∧ x = .plain name := by
  simp [namedFacts]

theorem mem_helpFacts (help : Option String) (p : String) (x : Term) : (p, x) ∈ helpFacts help ↔
    p = Cnv.help ∧ ∃ text, normalHelp help = some text ∧ x = .plain text := by
  change (p, x) ∈ (normalHelp help).toList.map _ ↔ _
  cases normalHelp help <;> simp

theorem mem_argumentFacts (a : Argument) (p : String) (x : Term) : (p, x) ∈ argumentFacts a ↔
    p = Rdf.type ∧ x = .iri Cnv.argument ∨ p = Cnv.name ∧ x = .plain a.name ∨
      p = Cnv.datatype ∧ x = .plain a.typeTag ∨
      p = Cnv.required ∧ x = .typed (if a.required then "true" else "false") Xsd.boolean ∨
      p = Cnv.default ∧ (∃ text, a.default = some text ∧ x = .plain text) ∨
      p = Cnv.position ∧ (∃ n, a.position = some n ∧ x = .typed (toString n) Xsd.integer) ∨
      p = Cnv.validator ∧ (∃ tag ∈ ordered a.validators, x = .plain tag) ∨
      (p, x) ∈ helpFacts a.help := by
  simp only [argumentFacts, namedFacts, List.mem_append, List.mem_cons, List.not_mem_nil, or_false,
    Prod.mk.injEq, List.mem_map, Option.mem_toList, or_assoc]
  simp only [eq_comm, ← exists_and_left, and_left_comm]

theorem mem_commandFacts (base : String) (c : CommandDefinition) (p : String) (x : Term) :
    (p, x) ∈ commandFacts base c ↔
      p = Rdf.type ∧ x = .iri Cnv.command ∨
      p = Cnv.hasNoun ∧ x = (Resource.noun c.noun).node base ∨
      p = Cnv.hasVerb ∧ x = (Resource.verb c.verb).node base ∨
      p = Cnv.handler ∧ (∃ text ∈ ordered c.handlers, x = .plain text) ∨
      p = Cnv.capability ∧ (∃ text ∈ ordered c.capabilities, x = .plain text) ∨
      (p, x) ∈ helpFacts c.help ∨
      p = Cnv.hasArgument ∧ ∃ a ∈ c.arguments, x = (Resource.argument c.key a.name).node base := by
  simp only [commandFacts, ownFacts, List.mem_append, List.mem_cons, List.not_mem_nil, or_false,
    Prod.mk.injEq, List.mem_map, or_assoc]
  simp only [eq_comm, ← exists_and_left, and_left_comm]

theorem argumentFacts_iff (a : Argument) :
    (∀ x, (Cnv.name, x) ∈ argumentFacts a ↔ x = .plain a.name) ∧
    (∀ x, (Cnv.datatype, x) ∈ argumentFacts a ↔ x = .plain a.typeTag) ∧
    (∀ x, (Cnv.required, x) ∈ argumentFacts a ↔
      x = .typed (if a.required then "true" else "false") Xsd.boolean) ∧
    (∀ x, (Cnv.default, x) ∈ argumentFacts a ↔ ∃ text, a.default = some text ∧ x = .plain text) ∧
    (∀ x, (Cnv.position, x) ∈ argumentFacts a ↔
      ∃ n, a.position = some n ∧ x = .typed (toString n) Xsd.integer) ∧
    (∀ x, (Cnv.validator, x) ∈ argumentFacts a ↔ ∃ tag ∈ ordered a.validators, x = .plain tag) ∧
    ∀ p ∈ helpPredicates, ∀ x, (p, x) ∈ argumentFacts a ↔ (p, x) ∈ helpFacts a.help := by
  simp only [mem_argumentFacts, mem_helpFacts]
  refine ⟨?_, ?_, ?_, ?_, ?_, ?_, ?_⟩
  · simp [Rdf.type, Cnv.name, Cnv.datatype, Cnv.required, Cnv.default, Cnv.position, Cnv.validator, Cnv.help]
  · simp [Rdf.type, Cnv.name, Cnv.datatype, Cnv.required, Cnv.default, Cnv.position, Cnv.validator, Cnv.help]
  · simp [Rdf.type, Cnv.name, Cnv.datatype, Cnv.required, Cnv.default, Cnv.position, Cnv.validator, Cnv.help]
  · simp [Rdf.type, Cnv.name, Cnv.datatype, Cnv.required, Cnv.default, Cnv.position, Cnv.validator, Cnv.help]
  · simp [Rdf.type, Cnv.name, Cnv.datatype, Cnv.required, Cnv.default, Cnv.position, Cnv.validator, Cnv.help]
  · simp [Rdf.type, Cnv.name, Cnv.datatype, Cnv.required, Cnv.default, Cnv.position, Cnv.validator, Cnv.help]
  · simp [helpPredicates, Rdfs.comment, Rdfs.label, Rdf.type, Cnv.name, Cnv.datatype, Cnv.required, Cnv.default,
      Cnv.position, Cnv.validator, Cnv.help]

theorem commandFacts_iff (base : String) (c : CommandDefinition) :
    (∀ x, (Cnv.hasNoun, x) ∈ commandFacts base c ↔ x = (Resource.noun c.noun).node base) ∧
    (∀ x, (Cnv.hasVerb, x) ∈ commandFacts base c ↔ x = (Resource.verb c.verb).node base) ∧
    (∀ x, (Cnv.handler, x) ∈ commandFacts base c ↔ ∃ text ∈ ordered c.handlers, x = .plain text) ∧
    (∀ x, (Cnv.capability, x) ∈ commandFacts base c ↔
      ∃ text ∈ ordered c.capabilities, x = .plain text) ∧
    (∀ x, (Cnv.hasArgument, x) ∈ commandFacts base c ↔
      ∃ a ∈ c.arguments, x = (Resource.argument c.key a.name).node base) ∧
    ∀ p ∈ helpPredicates, ∀ x, (p, x) ∈ commandFacts base c ↔ (p, x) ∈ helpFacts c.help := by
  simp only [mem_commandFacts, mem_helpFacts]
  refine ⟨?_, ?_, ?_, ?_, ?_, ?_⟩
  · simp [Rdf.type, Cnv.hasNoun, Cnv.hasVerb, Cnv.handler, Cnv.capability, Cnv.hasArgument, Cnv.help]
  · simp [Rdf.type, Cnv.hasNoun, Cnv.hasVerb, Cnv.handler, Cnv.capability, Cnv.hasArgument, Cnv.help]
  · simp [Rdf.type, Cnv.hasNoun, Cnv.hasVerb, Cnv.handler, Cnv.capability, Cnv.hasArgument, Cnv.help]
  · simp [Rdf.type, Cnv.hasNoun, Cnv.hasVerb, Cnv.handler, Cnv.capability, Cnv.hasArgument, Cnv.help]
  · simp [Rdf.type, Cnv.hasNoun, Cnv.hasVerb, Cnv.handler, Cnv.capability, Cnv.hasArgument, Cnv.help]
  · simp [helpPredicates, Rdfs.comment, Rdfs.label, Rdf.type, Cnv.hasNoun, Cnv.hasVerb, Cnv.handler, Cnv.capability,
      Cnv.hasArgument, Cnv.help]

structure View.Shows (v : View) (g : List Triple) (base : String) (d : Definition) : Prop where
  exportable : IsExportable d
  reads : v.Reads g
  mem : ∀ t, t ∈ g ↔
    ∃ r facts, Describes base d r facts ∧ ∃ f ∈ facts, t = statement (r.node base) f

namespace Export

theorem Describes.unique {base : String} {d : Definition} (hd : IsExportable d) {r : Resource}
    {facts facts' : List (String × Term)} (h : Describes base d r facts)
    (h' : Describes base d r facts') : facts = facts' := by
  have hcommand (c c' : CommandDefinition) (hc : c ∈ d.commands) (hc' : c' ∈ d.commands)
      (hk : c.key = c'.key) : c = c' :=
    List.inj_on_of_nodup_map hd.keys hc hc' hk
  generalize hr : r = r' at h'
  cases h with
  | noun c hc => cases h' with
    | noun c' hc' => rw [(Resource.noun.inj hr : c.noun = c'.noun)]
    | _ => cases hr
  | verb c hc => cases h' with
    | verb c' hc' => rw [(Resource.verb.inj hr : c.verb = c'.verb)]
    | _ => cases hr
  | command c hc => cases h' with
    | command c' hc' => rw [hcommand c c' hc hc' (Resource.command.inj hr)]
    | _ => cases hr
  | argument c hc a ha => cases h' with
    | argument c' hc' a' ha' =>
      obtain ⟨hk, hn⟩ := Resource.argument.inj hr
      obtain rfl := hcommand c c' hc hc' hk
      rw [List.inj_on_of_nodup_map (hd.names c hc) ha ha' hn]
    | _ => cases hr

end Export

namespace View

theorem mem_name_namedFacts (classIri name : String) (y : Term) :
    (Cnv.name, y) ∈ namedFacts classIri name ↔ y = .plain name := by
  simp [mem_namedFacts, Rdf.type, Cnv.name]

section

variable {v : View} {g : List Triple} {base : String} {d : Definition} (h : v.Shows g base d)

include h

theorem Shows.says_iff {r : Resource} {facts : List (String × Term)}
    (hr : Describes base d r facts) (p : String) (x : Term) :
    Says g (r.node base) p x ↔ (p, x) ∈ facts := by
  rw [Says, h.mem]
  constructor
  · rintro ⟨r', facts', hr', ⟨q, y⟩, hf, he⟩
    simp only [statement, Triple.mk.injEq, Term.iri.injEq] at he
    obtain ⟨hnode, rfl, rfl⟩ := he
    obtain rfl := Resource.node_inj base r r' hnode
    rwa [hr.unique h.exportable hr']
  · exact fun hf => ⟨r, facts, hr, (p, x), hf, rfl⟩

theorem Shows.values_perm {r : Resource} {facts : List (String × Term)}
    (hr : Describes base d r facts) (p : String) (xs : List Term) (hn : xs.Nodup)
    (hx : ∀ x, x ∈ xs ↔ (p, x) ∈ facts) : (v.values (r.node base) p).Perm xs := by
  refine (List.perm_ext_iff_of_nodup (h.reads.nodup_values _ _) hn).2 fun x => ?_
  rw [h.reads.mem_values, hx, h.says_iff hr]
  exact and_iff_right rfl

theorem Shows.values_eq_singleton {r : Resource} {facts : List (String × Term)}
    (hr : Describes base d r facts) (p : String) (x : Term) (hx : ∀ y, (p, y) ∈ facts ↔ y = x) :
    v.values (r.node base) p = [x] :=
  List.perm_singleton.1 (h.values_perm hr p [x] (List.nodup_singleton x) fun y => by simp [hx])

theorem Shows.values_eq_nil {r : Resource} {facts : List (String × Term)}
    (hr : Describes base d r facts) (p : String) (hx : ∀ y, (p, y) ∉ facts) :
    v.values (r.node base) p = [] :=
  List.perm_nil.1 (h.values_perm hr p [] List.nodup_nil fun y => by simp [hx])

theorem Shows.value?_eq_some {r : Resource} {facts : List (String × Term)}
    (hr : Describes base d r facts) (p : String) (x : Term) (hx : ∀ y, (p, y) ∈ facts ↔ y = x) :
    v.value? (r.node base) p = some x := by
  rw [value?, h.values_eq_singleton hr p x hx, List.head?_cons]

theorem Shows.value?_eq_none {r : Resource} {facts : List (String × Term)}
    (hr : Describes base d r facts) (p : String) (hx : ∀ y, (p, y) ∉ facts) :
    v.value? (r.node base) p = none := by
  rw [value?, h.values_eq_nil hr p hx, List.head?_nil]

theorem Shows.sortTexts_values {r : Resource} {facts : List (String × Term)}
    (hr : Describes base d r facts) (p : String) (texts : List String)
    (hx : ∀ x, (p, x) ∈ facts ↔ ∃ text ∈ ordered texts, x = .plain text) :
    sortTexts ((v.values (r.node base) p).map Term.text) = ordered texts := by
  have hinj (a b : String) (hab : Term.plain a = Term.plain b) : a = b := (Term.literal.inj hab).1
  have hperm := h.values_perm hr p ((ordered texts).map Term.plain)
    ((nodup_ordered texts).map hinj) fun x => by
      rw [hx, List.mem_map]
      simp only [eq_comm]
  have htexts : ((ordered texts).map Term.plain).map Term.text = ordered texts := by
    rw [List.map_map]
    exact List.map_id (ordered texts)
  rw [sortTexts_eq_of_perm _ _ (hperm.map Term.text), htexts, sortTexts_ordered]

theorem Shows.helpText_eq {r : Resource} {facts : List (String × Term)}
    (hr : Describes base d r facts) (help : Option String)
    (hx : ∀ p ∈ helpPredicates, ∀ x, (p, x) ∈ facts ↔ (p, x) ∈ helpFacts help) :
    v.helpText (r.node base) = normalHelp help := by
  have hnone (p : String) (hp : p ∈ helpPredicates) (hne : p ≠ Cnv.help) :
      v.values (r.node base) p = [] :=
    h.values_eq_nil hr p fun x => by
      rw [hx p hp, mem_helpFacts]
      exact fun hin => hne hin.1
  have hcomment := hnone Rdfs.comment (by decide) (by decide)
  have hlabel := hnone Rdfs.label (by decide) (by decide)
  cases hh : normalHelp help with
  | none =>
    have hvalues : v.values (r.node base) Cnv.help = [] := h.values_eq_nil hr _ fun x => by
      simp [hx Cnv.help (by decide), mem_helpFacts, hh]
    simp [helpText, helpPredicates, hvalues, hcomment, hlabel, helpTexts]
  | some text =>
    have hvalues : v.values (r.node base) Cnv.help = [.plain text] :=
      h.values_eq_singleton hr _ _ fun x => by
        simp [hx Cnv.help (by decide), mem_helpFacts, hh]
    simp [helpText, helpPredicates, hvalues, helpTexts, Term.plain]

/-- An argument is read in its normal form. -/
theorem Shows.buildArgument_eq (c : CommandDefinition) (hc : c ∈ d.commands) (a : Argument)
    (ha : a ∈ c.arguments) :
    v.buildArgument ((Resource.argument c.key a.name).node base) = .ok (normalArgument a) := by
  have hr : Describes base d (.argument c.key a.name) (argumentFacts a) := .argument c hc a ha
  obtain ⟨hname, hdatatype, hrequired, hdefault, hposition, hvalidator, hhelp⟩ := argumentFacts_iff a
  have hdefaultValue : (v.value? ((Resource.argument c.key a.name).node base) Cnv.default).map
      Term.text = a.default := by
    cases hd : a.default with
    | none => rw [h.value?_eq_none hr _ fun x => by simp [hdefault, hd], Option.map_none]
    | some text =>
      rw [h.value?_eq_some hr _ (.plain text) fun x => by simp [hdefault, hd], Option.map_some]
      rfl
  have hpositionValue : (v.value? ((Resource.argument c.key a.name).node base) Cnv.position).bind
      integer? = a.position := by
    cases hn : a.position with
    | none => rw [h.value?_eq_none hr _ fun x => by simp [hposition, hn], Option.bind_none]
    | some n =>
      rw [h.value?_eq_some hr _ (.typed (toString n) Xsd.integer) fun x => by simp [hposition, hn],
        Option.bind_some]
      have hread : Reading.integer (toString n) = .ok n :=
        (Reading.integer_toString_eq_ok_iff n).2 (h.exportable.positions c hc a ha n hn)
      simp only [integer?, Term.typed, or_true, if_true, hread]
      rfl
  have hrequiredValue : (boolean? (.typed (if a.required then "true" else "false") Xsd.boolean) ==
      some true) = a.required := by
    cases a.required <;> decide
  simp only [buildArgument, h.value?_eq_some hr _ _ hname, h.value?_eq_some hr _ _ hdatatype,
    h.value?_eq_some hr _ _ hrequired, hdefaultValue, hpositionValue,
    h.sortTexts_values hr _ _ hvalidator, h.helpText_eq hr _ hhelp, Option.bind_some, hrequiredValue]
  rfl

theorem Shows.nounOf_eq (c : CommandDefinition) (hc : c ∈ d.commands) :
    v.nounOf ((Resource.command c.key).node base) = some c.noun := by
  have hn : v.value? ((Resource.noun c.noun).node base) Cnv.name = some (.plain c.noun) :=
    h.value?_eq_some (.noun c hc) _ _ fun x => by
      rw [mem_namedFacts]
      simp [Rdf.type, Cnv.name]
  rw [nounOf, h.value?_eq_some (.command c hc) _ _ (commandFacts_iff base c).1]
  change (v.value? ((Resource.noun c.noun).node base) Cnv.name).bind lexical? = _
  rw [hn]
  rfl

theorem Shows.verbOf_eq (c : CommandDefinition) (hc : c ∈ d.commands) :
    v.verbOf ((Resource.command c.key).node base) = some c.verb := by
  have hn : v.value? ((Resource.verb c.verb).node base) Cnv.name = some (.plain c.verb) :=
    h.value?_eq_some (.verb c hc) _ _ fun x => by
      rw [mem_namedFacts]
      simp [Rdf.type, Cnv.name]
  rw [verbOf, h.value?_eq_some (.command c hc) _ _ (commandFacts_iff base c).2.1]
  change (v.value? ((Resource.verb c.verb).node base) Cnv.name).bind lexical? = _
  rw [hn]
  rfl

theorem Shows.arguments_perm (c : CommandDefinition) (hc : c ∈ d.commands) :
    (v.arguments ((Resource.command c.key).node base)).Perm
      (c.arguments.map fun a => (Resource.argument c.key a.name).node base) := by
  refine h.values_perm (.command c hc) _ _ ?_ fun x => ?_
  · have hnames := h.exportable.names c hc
    have hcomp : c.arguments.map (fun a => (Resource.argument c.key a.name).node base) =
        (c.arguments.map Argument.name).map fun name => (Resource.argument c.key name).node base := by
      rw [List.map_map]
      rfl
    rw [hcomp]
    exact hnames.map fun a b hab => (Resource.argument.inj (Resource.node_inj base _ _ hab)).2
  · rw [(commandFacts_iff base c).2.2.2.2.1, List.mem_map]
    simp only [eq_comm]

def placedCommand (base : String) (c : CommandDefinition) : Command :=
  { normalCommand c with iri := some (commandIri base c.key) }

theorem Shows.buildCommand_eq (c : CommandDefinition) (hc : c ∈ d.commands) :
    v.buildCommand ((Resource.command c.key).node base) =
      .ok (placedCommand base c) := by
  obtain ⟨-, -, hhandler, hcapability, -, hhelp⟩ := commandFacts_iff base c
  have hr : Describes base d (.command c.key) (commandFacts base c) := .command c hc
  obtain ⟨arguments, hm, hperm⟩ := mapM_perm v.buildArgument _ c.arguments _ normalArgument
    (h.arguments_perm c hc) (h.buildArgument_eq c hc)
  have hnames : (arguments.map Argument.name).Nodup := by
    rw [(hperm.map Argument.name).nodup_iff, List.map_map]
    exact h.exportable.names c hc
  simp only [buildCommand, h.nounOf_eq c hc, h.verbOf_eq c hc, requireName, hm,
    h.sortTexts_values hr _ _ hhandler, h.sortTexts_values hr _ _ hcapability, h.helpText_eq hr _ hhelp,
    Argument.sort_eq_of_perm _ _ hperm hnames, bind, Except.bind]
  rw [Resource.node_command]
  rfl

theorem Shows.isCommand_iff (x : Term) :
    IsCommand g x ↔ ∃ c ∈ d.commands, x = (Resource.command c.key).node base := by
  rw [IsCommand, Says, h.mem]
  constructor
  · rintro ⟨r, facts, hr, ⟨p, y⟩, hf, he⟩
    simp only [statement, Triple.mk.injEq, Term.iri.injEq] at he
    obtain ⟨rfl, rfl, rfl⟩ := he
    cases hr with
    | noun c hc => simp [mem_namedFacts, Rdf.type, Cnv.name, Cnv.command, Cnv.noun] at hf
    | verb c hc => simp [mem_namedFacts, Rdf.type, Cnv.name, Cnv.command, Cnv.verb] at hf
    | command c hc => exact ⟨c, hc, rfl⟩
    | argument c hc a ha =>
      simp [mem_argumentFacts, mem_helpFacts, Rdf.type, Cnv.command, Cnv.argument, Cnv.name,
        Cnv.datatype, Cnv.required, Cnv.default, Cnv.position, Cnv.validator, Cnv.help] at hf
  · rintro ⟨c, hc, rfl⟩
    refine ⟨_, _, .command c hc, (Rdf.type, .iri Cnv.command), ?_, rfl⟩
    simp [mem_commandFacts]

theorem Shows.commands_perm :
    v.commands.Perm (d.commands.map fun c => (Resource.command c.key).node base) := by
  have hnodup : (d.commands.map fun c => (Resource.command c.key).node base).Nodup := by
    have hcomp : d.commands.map (fun c => (Resource.command c.key).node base) =
        (d.commands.map CommandDefinition.key).map fun key => (Resource.command key).node base := by
      rw [List.map_map]
      rfl
    rw [hcomp]
    exact h.exportable.keys.map fun a b hab => Resource.command.inj (Resource.node_inj base _ _ hab)
  refine (List.perm_ext_iff_of_nodup (h.reads.nodup_instances _) hnodup).2 fun x => ?_
  rw [h.reads.mem_instances, List.mem_map]
  change IsCommand g x ↔ _
  rw [h.isCommand_iff]
  simp only [eq_comm]

/-- The commands of a definition are read in the order of their keys. -/
theorem Shows.buildIndex_eq_ok : ∃ index, v.buildIndex = .ok index ∧
    index.commands =
      (d.commands.map (placedCommand base)).mergeSort fun a b => CommandKey.le a.key b.key := by
  obtain ⟨commands, hm, hperm⟩ := mapM_perm v.buildCommand _ d.commands _ (placedCommand base)
    h.commands_perm h.buildCommand_eq
  have hkeys : (commands.map Command.key).Nodup := by
    rw [(hperm.map Command.key).nodup_iff, List.map_map]
    exact h.exportable.keys
  obtain ⟨index, hindex, hsort⟩ := exists_index commands hkeys
  refine ⟨index, by simp only [buildIndex, hm, hindex, bind, Except.bind]; rfl, ?_⟩
  exact hsort.trans (sortByCommandKey_eq_of_perm _ _ hperm hkeys)

theorem Shows.buildIndex_eq :
    ∃ index, v.buildIndex = .ok index ∧ index.commands.map Command.content = normalCommands d := by
  obtain ⟨index, hindex, hcommands⟩ := h.buildIndex_eq_ok
  refine ⟨index, hindex, ?_⟩
  rw [hcommands, map_content_sortByCommandKey, List.map_map]
  rfl

def HasNamedArguments (d : Definition) : Prop :=
  ∀ c ∈ d.commands, ∀ a ∈ c.arguments, ∃ x ∈ a.name.toList, Text.isBlank x = false

theorem Shows.isStatement (t : Triple) (ht : t ∈ g) : t.IsStatement := by
  obtain ⟨r, facts, hr, ⟨p, x⟩, hf, rfl⟩ := (h.mem t).1 ht
  refine ⟨rfl, ⟨p, rfl⟩, ?_⟩
  change x.IsMarked
  have hplain (text : String) : (Term.plain text).IsMarked := by simp [Term.plain, Term.IsMarked]
  have htyped (text type : String) (h : type ≠ "" ∧ type ≠ Xsd.string) :
      (Term.typed text type).IsMarked := by simp [Term.typed, Term.IsMarked, h]
  have hhelp (help : Option String) (hf : (p, x) ∈ helpFacts help) : x.IsMarked := by
    obtain ⟨-, text, -, rfl⟩ := (mem_helpFacts help p x).1 hf
    exact hplain text
  cases hr with
  | noun c hc =>
    obtain ⟨-, rfl⟩ | ⟨-, rfl⟩ := (mem_namedFacts _ _ p x).1 hf
    exacts [trivial, hplain _]
  | verb c hc =>
    obtain ⟨-, rfl⟩ | ⟨-, rfl⟩ := (mem_namedFacts _ _ p x).1 hf
    exacts [trivial, hplain _]
  | command c hc =>
    obtain ⟨-, rfl⟩ | ⟨-, rfl⟩ | ⟨-, rfl⟩ | ⟨-, _, -, rfl⟩ | ⟨-, _, -, rfl⟩ | hf | ⟨-, _, -, rfl⟩ :=
      (mem_commandFacts base c p x).1 hf
    exacts [trivial, trivial, trivial, hplain _, hplain _, hhelp _ hf, trivial]
  | argument c hc a ha =>
    obtain ⟨-, rfl⟩ | ⟨-, rfl⟩ | ⟨-, rfl⟩ | ⟨-, rfl⟩ | ⟨-, _, -, rfl⟩ | ⟨-, _, -, rfl⟩ |
      ⟨-, _, -, rfl⟩ | hf := (mem_argumentFacts a p x).1 hf
    exacts [trivial, hplain _, hplain _, htyped _ _ (by decide), hplain _, htyped _ _ (by decide),
      hplain _, hhelp _ hf]

theorem Shows.isLeastValue_iff {r : Resource} {facts : List (String × Term)}
    (hr : Describes base d r facts) (p : String) (x : Term) (hx : ∀ y, (p, y) ∈ facts ↔ y = x)
    (y : Term) : IsLeastValue g (r.node base) p y ↔ y = x := by
  simp only [IsLeastValue, h.says_iff hr, hx]
  constructor
  · exact fun hy => hy.1
  · rintro rfl
    exact ⟨rfl, fun z hz => hz ▸ String.le_refl _⟩

theorem Shows.declared (p : String) (hp : p ∈ referencePredicates) (s x : Term) (hs : Says g s p x) :
    ∃ t ∈ g, t.subject = x := by
  have hsubject {r : Resource} {facts : List (String × Term)} (hr : Describes base d r facts)
      (f : String × Term) (hf : f ∈ facts) : ∃ t ∈ g, t.subject = r.node base :=
    ⟨statement (r.node base) f, (h.mem _).2 ⟨r, facts, hr, f, hf, rfl⟩, rfl⟩
  obtain ⟨r, facts, hr, ⟨q, y⟩, hf, he⟩ := (h.mem _).1 hs
  simp only [statement, Triple.mk.injEq, Term.iri.injEq] at he
  obtain ⟨rfl, rfl, rfl⟩ := he
  simp only [referencePredicates, List.mem_cons, List.not_mem_nil, or_false] at hp
  have hnamed (classIri name : String) (hf : (p, x) ∈ namedFacts classIri name) : False := by
    obtain rfl | rfl | rfl := hp <;>
      simp [mem_namedFacts, Rdf.type, Cnv.name, Cnv.hasNoun, Cnv.hasVerb, Cnv.hasArgument] at hf
  cases hr with
  | noun c hc => exact (hnamed _ _ hf).elim
  | verb c hc => exact (hnamed _ _ hf).elim
  | command c hc =>
    obtain ⟨hnoun, hverb, -, -, hargument, -⟩ := commandFacts_iff base c
    obtain rfl | rfl | rfl := hp
    · rw [(hnoun _).1 hf]
      exact hsubject (.noun c hc) (Rdf.type, _) List.mem_cons_self
    · rw [(hverb _).1 hf]
      exact hsubject (.verb c hc) (Rdf.type, _) List.mem_cons_self
    · obtain ⟨a, ha, rfl⟩ := (hargument _).1 hf
      exact hsubject (.argument c hc a ha) (Cnv.name, _) (((argumentFacts_iff a).1 _).2 rfl)
  | argument c hc a ha =>
    obtain rfl | rfl | rfl := hp <;>
      simp [mem_argumentFacts, mem_helpFacts, Rdf.type, Cnv.hasNoun, Cnv.hasVerb, Cnv.hasArgument,
        Cnv.name, Cnv.datatype, Cnv.required, Cnv.default, Cnv.position, Cnv.validator,
        Cnv.help] at hf

theorem Shows.hasName {r : Resource} {facts : List (String × Term)}
    (hr : Describes base d r facts) (name : String) (hx : ∀ y, (Cnv.name, y) ∈ facts ↔ y = .plain name) :
    HasName g (r.node base) name :=
  ⟨none, none, (h.isLeastValue_iff hr _ _ hx _).2 rfl⟩

section

variable (c : CommandDefinition) (hc : c ∈ d.commands)

include hc

theorem Shows.hasNoun :
    HasPart g ((Resource.command c.key).node base) Cnv.hasNoun c.noun :=
  ⟨_, fun x => (h.says_iff (.command c hc) _ x).trans ((commandFacts_iff base c).1 x),
    h.hasName (Describes.noun c hc) _ (mem_name_namedFacts _ _)⟩

theorem Shows.hasVerb :
    HasPart g ((Resource.command c.key).node base) Cnv.hasVerb c.verb :=
  ⟨_, fun x => (h.says_iff (.command c hc) _ x).trans ((commandFacts_iff base c).2.1 x),
    h.hasName (Describes.verb c hc) _ (mem_name_namedFacts _ _)⟩

theorem Shows.exists_handler :
    ∃ x, Says g ((Resource.command c.key).node base) Cnv.handler x := by
  obtain ⟨text, ht⟩ := List.exists_mem_of_ne_nil _ (h.exportable.handlers c hc)
  exact ⟨.plain text, (h.says_iff (.command c hc) _ _).2
    (((commandFacts_iff base c).2.2.1 _).2 ⟨text, (mem_ordered text _).2 ht, rfl⟩)⟩

theorem Shows.exists_argument {x : Term}
    (hx : Says g ((Resource.command c.key).node base) Cnv.hasArgument x) :
    ∃ a ∈ c.arguments, x = (Resource.argument c.key a.name).node base :=
  ((commandFacts_iff base c).2.2.2.2.1 x).1 ((h.says_iff (.command c hc) _ x).1 hx)

theorem Shows.argumentName_eq {a : Argument} (ha : a ∈ c.arguments) {name : String}
    (hin : IsArgumentName g ((Resource.argument c.key a.name).node base) name) : name = a.name := by
  obtain ⟨⟨datatype, language, hleast⟩, -⟩ := hin
  have hvalue := (h.isLeastValue_iff (.argument c hc a ha) _ _ (argumentFacts_iff a).1 _).1 hleast
  exact (Term.literal.inj hvalue).1

theorem Shows.describesArgument (hn : HasNamedArguments d) {a : Argument}
    (ha : a ∈ c.arguments) : DescribesArgument g ((Resource.argument c.key a.name).node base) := by
  have hr : Describes base d (.argument c.key a.name) (argumentFacts a) := .argument c hc a ha
  obtain ⟨hname, -, hrequired, -, hposition, -⟩ := argumentFacts_iff a
  refine ⟨rfl, ⟨a.name, h.hasName hr _ hname, hn c hc a ha⟩, ?_, ?_⟩
  · intro z hz
    obtain rfl := (h.isLeastValue_iff hr _ _ hrequired z).1 hz
    refine ⟨_, _, _, rfl, .inr rfl, ?_⟩
    rw [IsBooleanText]
    cases a.required <;> decide
  · intro z hz
    obtain ⟨m, hm, rfl⟩ := (hposition z).1 ((h.says_iff hr _ z).1 hz.1)
    exact ⟨_, _, _, rfl, .inr rfl, m,
      (Reading.integer_toString_eq_ok_iff m).2 (h.exportable.positions c hc a ha m hm)⟩

theorem Shows.noun_eq_of_hasPart {noun : String}
    (hn : HasPart g ((Resource.command c.key).node base) Cnv.hasNoun noun) : c.noun = noun := by
  have hg := h.isStatement
  exact Option.some.inj ((h.nounOf_eq c hc).symm.trans (nameOf_value?_of_hasPart h.reads _ _ _ rfl hn))

theorem Shows.verb_eq_of_hasPart {verb : String}
    (hn : HasPart g ((Resource.command c.key).node base) Cnv.hasVerb verb) : c.verb = verb := by
  have hg := h.isStatement
  exact Option.some.inj ((h.verbOf_eq c hc).symm.trans (nameOf_value?_of_hasPart h.reads _ _ _ rfl hn))

end

/-- The statements about a definition describe a program if its arguments have names. -/
theorem Shows.describesProgram (hn : HasNamedArguments d) : DescribesProgram g where
  declared p hp s x hx _ := h.declared p hp s x hx
  noun x hx := by
    obtain ⟨c, hc, rfl⟩ := (h.isCommand_iff x).1 hx
    exact ⟨_, h.hasNoun c hc⟩
  verb x hx := by
    obtain ⟨c, hc, rfl⟩ := (h.isCommand_iff x).1 hx
    exact ⟨_, h.hasVerb c hc⟩
  handler x hx := by
    obtain ⟨c, hc, rfl⟩ := (h.isCommand_iff x).1 hx
    exact h.exists_handler c hc
  arguments x y hx hy := by
    obtain ⟨c, hc, rfl⟩ := (h.isCommand_iff x).1 hx
    obtain ⟨a, ha, rfl⟩ := h.exists_argument c hc hy
    exact h.describesArgument c hc hn ha
  argumentNames x y z name hx hy hz hny hnz := by
    obtain ⟨c, hc, rfl⟩ := (h.isCommand_iff x).1 hx
    obtain ⟨a, ha, rfl⟩ := h.exists_argument c hc hy
    obtain ⟨b, hb, rfl⟩ := h.exists_argument c hc hz
    rw [← h.argumentName_eq c hc ha hny, ← h.argumentName_eq c hc hb hnz]
  keys x y noun verb hx hy hxn hyn hxv hyv := by
    obtain ⟨c, hc, rfl⟩ := (h.isCommand_iff x).1 hx
    obtain ⟨c', hc', rfl⟩ := (h.isCommand_iff y).1 hy
    rw [CommandDefinition.key, CommandDefinition.key, h.noun_eq_of_hasPart c hc hxn,
      h.noun_eq_of_hasPart c' hc' hyn, h.verb_eq_of_hasPart c hc hxv, h.verb_eq_of_hasPart c' hc' hyv]

/-- Just the definitions whose arguments have names are valid once exported. -/
theorem Shows.isValid_iff (validator : Validator) :
    (validator.report v).isValid = true ↔ HasNamedArguments d := by
  constructor
  · intro hv
    have hp := describesProgram_of_isValid h.reads h.isStatement validator hv
    intro c hc a ha
    have hargument : DescribesArgument g ((Resource.argument c.key a.name).node base) :=
      hp.arguments _ _ ((h.isCommand_iff _).2 ⟨c, hc, rfl⟩)
        ((h.says_iff (.command c hc) _ _).2 (((commandFacts_iff base c).2.2.2.2.1 _).2 ⟨a, ha, rfl⟩))
    obtain ⟨name, ⟨datatype, language, hleast⟩, hblank⟩ := hargument.named
    have hvalue := (h.isLeastValue_iff (.argument c hc a ha) _ _ (argumentFacts_iff a).1 _).1 hleast
    rwa [← (Term.literal.inj hvalue).1]
  · exact fun hn => isValid_of_describesProgram h.reads h.isStatement validator (h.describesProgram hn)

end

end View

end CommandOntology
