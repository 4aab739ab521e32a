import Mathlib.Algebra.Group.Nat.Defs
import CommandOntology.Application.Tree
import CommandOntology.Proofs.NamespaceRuns
import CommandOntology.Proofs.Reloading

set_option autoImplicit false

namespace CommandOntology

open Export

section

variable {α : Type} (fields : List (String × α))

theorem gatherFields_append_singleton (field : String × α) :
    gatherFields (fields ++ [field]) = putField (gatherFields fields) field.1 field.2 := by
  simp [gatherFields]

/-- Of the values under one key, the last one counts. -/
theorem findField_gatherFields (key : String) :
    findField (gatherFields fields) key = findField fields.reverse key := by
  induction fields using List.reverseRecOn with
  | nil => rfl
  | append_singleton fields field ih =>
    rw [gatherFields_append_singleton, findField_putField, ih, List.reverse_append, List.reverse_singleton,
      List.singleton_append, findField_cons]

theorem nodup_gatherFields : ((gatherFields fields).map (·.1)).Nodup := by
  induction fields using List.reverseRecOn with
  | nil => exact List.nodup_nil
  | append_singleton fields field ih =>
    rw [gatherFields_append_singleton, map_fst_putField]
    split_ifs with hkey
    · exact ih
    · exact ih.append (List.nodup_singleton _) (List.disjoint_singleton.2 hkey)

theorem mem_gatherFields (field : String × α) :
    field ∈ gatherFields fields ↔ findField fields.reverse field.1 = some field.2 := by
  rw [← findField_gatherFields]
  exact ⟨Turtle.findField_eq_some (nodup_gatherFields fields) field, Turtle.mem_of_findField_eq_some⟩

end

namespace Application

/-- The node under a name in a group. Of the children of one name, the last one counts. -/
def child? : AppNode → String → Option AppNode
  | .group _ _ children, name => findField children.reverse name
  | _, _ => none

/-- An application has a command under a noun and a verb: a group of the root is the noun, and a command in it
the verb. -/
def HasCommand (root : AppNode) (noun verb : String) (callback : Option Callback)
    (parameters : List AppParameter) : Prop :=
  ∃ group own help, child? root noun = some group ∧
    child? group verb = some (.command own help callback parameters)

def shown (parameters : List AppParameter) : List AppParameter :=
  parameters.filter fun p => p.isExposed && !p.isHidden

structure AreDescribable (parameters : List AppParameter) : Prop where
  names : ((shown parameters).map AppParameter.name).Nodup
  positions : (shown parameters).countP (·.isArgument) ≤ 10 ^ integerDigitLimit

structure IsDefinitionOf (c : CommandDefinition) (callback : Option Callback)
    (parameters : List AppParameter) : Prop where
  handlers : c.handlers = callback.toList.map binding
  arguments : c.arguments = arguments 0 parameters

theorem mem_ordered (children : List (String × AppNode)) (child : String × AppNode) :
    child ∈ ordered children ↔ findField children.reverse child.1 = some child.2 := by
  rw [ordered, List.mem_mergeSort, mem_gatherFields]

theorem pairwise_ordered (children : List (String × AppNode)) :
    (ordered children).Pairwise fun a b => a.1 ≠ b.1 := by
  have hkeys : ((ordered children).map (·.1)).Nodup :=
    ((List.mergeSort_perm _ _).map _).nodup_iff.2 (nodup_gatherFields children)
  exact List.pairwise_map.1 hkeys

theorem mem_nounDefinitions (noun : String) (group : AppNode) (c : CommandDefinition) :
    c ∈ nounDefinitions noun group ↔
      ∃ verb node, child? group verb = some node ∧ commandDefinition? noun verb node = some c := by
  cases group with
  | group own help children => simp only [nounDefinitions, child?, List.mem_filterMap, Prod.exists, mem_ordered]
  | command => simp [nounDefinitions, child?]
  | other => simp [nounDefinitions, child?]

theorem commandDefinition?_eq_some {noun verb : String} {node : AppNode} {c : CommandDefinition}
    (h : commandDefinition? noun verb node = some c) : c.key = ⟨noun, verb⟩ ∧
      ∃ own help callback parameters, node = .command own help callback parameters ∧
        IsDefinitionOf c callback parameters := by
  cases node with
  | command own help callback parameters =>
    cases h
    exact ⟨rfl, own, help, callback, parameters, rfl, rfl, rfl⟩
  | group => cases h
  | other => cases h

variable {root : AppNode} {name version : Option String} {d : Definition}

theorem mem_definition (h : definition root name version = .ok d) (c : CommandDefinition) :
    c ∈ d.commands ↔ ∃ noun group, child? root noun = some group ∧ c ∈ nounDefinitions noun group := by
  cases root with
  | group own help children =>
    cases h
    simp only [child?, List.mem_flatMap, Prod.exists, mem_ordered]
  | command => cases h
  | other => cases h

theorem hasCommand_of_mem (h : definition root name version = .ok d) (c : CommandDefinition)
    (hc : c ∈ d.commands) : ∃ callback parameters, HasCommand root c.noun c.verb callback parameters ∧
      IsDefinitionOf c callback parameters := by
  obtain ⟨noun, group, hgroup, hc⟩ := (mem_definition h c).1 hc
  obtain ⟨verb, node, hnode, hc⟩ := (mem_nounDefinitions noun group c).1 hc
  obtain ⟨hkey, own, help, callback, parameters, rfl, hdefinition⟩ := commandDefinition?_eq_some hc
  cases hkey
  exact ⟨callback, parameters, ⟨group, own, help, hgroup, hnode⟩, hdefinition⟩

theorem exists_mem_of_hasCommand (h : definition root name version = .ok d) {noun verb : String}
    {callback : Option Callback} {parameters : List AppParameter}
    (hcommand : HasCommand root noun verb callback parameters) :
    ∃ c ∈ d.commands, c.key = ⟨noun, verb⟩ ∧ IsDefinitionOf c callback parameters := by
  obtain ⟨group, own, help, hgroup, hnode⟩ := hcommand
  have hmem := (mem_nounDefinitions noun group _).2 ⟨verb, _, hnode, rfl⟩
  exact ⟨_, (mem_definition h _).2 ⟨noun, group, hgroup, hmem⟩, rfl, rfl, rfl⟩

theorem noun_of_mem_nounDefinitions {noun : String} {group : AppNode} {c : CommandDefinition}
    (hc : c ∈ nounDefinitions noun group) : c.noun = noun := by
  obtain ⟨verb, node, -, hc⟩ := (mem_nounDefinitions noun group c).1 hc
  exact congrArg CommandKey.noun (commandDefinition?_eq_some hc).1

theorem nodup_nounDefinitions (noun : String) (group : AppNode) :
    ((nounDefinitions noun group).map CommandDefinition.key).Nodup := by
  cases group with
  | group own help children =>
    rw [nounDefinitions, List.Nodup, List.pairwise_map, List.pairwise_filterMap]
    refine (pairwise_ordered children).imp fun {a b} hne c hc c' hc' hkey => hne ?_
    rw [(commandDefinition?_eq_some hc).1, (commandDefinition?_eq_some hc').1] at hkey
    exact congrArg CommandKey.verb hkey
  | command => exact List.nodup_nil
  | other => exact List.nodup_nil

theorem nodup_definition (h : definition root name version = .ok d) :
    (d.commands.map CommandDefinition.key).Nodup := by
  cases root with
  | group own help children =>
    cases h
    rw [List.Nodup, List.pairwise_map, List.pairwise_flatMap]
    -- Commands of one group have different verbs, and those of two groups different nouns.
    refine ⟨fun child _ => List.pairwise_map.1 (nodup_nounDefinitions child.1 child.2),
      (pairwise_ordered children).imp fun {a b} hne c hc c' hc' hkey => hne ?_⟩
    rw [← noun_of_mem_nounDefinitions hc, ← noun_of_mem_nounDefinitions hc']
    exact congrArg CommandKey.noun hkey
  | command => cases h
  | other => cases h

theorem shown_cons (p : AppParameter) (parameters : List AppParameter) : shown (p :: parameters) =
    if p.isExposed && !p.isHidden then p :: shown parameters else shown parameters :=
  List.filter_cons

theorem map_name_arguments (position : Nat) (parameters : List AppParameter) :
    (arguments position parameters).map Argument.name = (shown parameters).map AppParameter.name := by
  induction parameters generalizing position with
  | nil => rfl
  | cons p parameters ih =>
    rw [arguments, shown_cons]
    by_cases hshown : (p.isExposed && !p.isHidden) = true
    · rw [if_pos hshown, if_pos hshown, List.map_cons, List.map_cons, ih]
      rfl
    · rw [if_neg hshown, if_neg hshown]
      exact ih position

theorem filterMap_position_arguments (position : Nat) (parameters : List AppParameter) :
    (arguments position parameters).filterMap Argument.position =
      (List.range' position ((shown parameters).countP (·.isArgument))).map Nat.cast := by
  induction parameters generalizing position with
  | nil => rfl
  | cons p parameters ih =>
    rw [arguments, shown_cons]
    by_cases hshown : (p.isExposed && !p.isHidden) = true
    · rw [if_pos hshown, if_pos hshown]
      by_cases hargument : p.isArgument = true
      · have hposition : (argument p position).position = some (position : Int) := if_pos hargument
        rw [List.filterMap_cons_some hposition, if_pos hargument, ih, List.countP_cons_of_pos hargument,
          List.range'_succ, List.map_cons]
      · have hposition : (argument p position).position = none := if_neg hargument
        rw [List.filterMap_cons_none hposition, if_neg hargument, ih, List.countP_cons_of_neg hargument]
    · rw [if_neg hshown, if_neg hshown]
      exact ih position

theorem length_integerDigits_le_iff (n : Nat) :
    (integerDigits n).length ≤ integerDigitLimit ↔ n < 10 ^ integerDigitLimit :=
  Nat.length_toDigits_le_iff (by decide) (by decide)

theorem forall_hasShortPosition_iff (parameters : List AppParameter) :
    (∀ a ∈ arguments 0 parameters, HasShortPosition a) ↔
      (shown parameters).countP (·.isArgument) ≤ 10 ^ integerDigitLimit := by
  have hpositions : (∀ a ∈ arguments 0 parameters, HasShortPosition a) ↔
      ∀ n ∈ (arguments 0 parameters).filterMap Argument.position,
        (integerDigits n).length ≤ integerDigitLimit := by
    simp only [HasShortPosition, List.mem_filterMap, forall_exists_index, and_imp]
    exact ⟨fun h n a ha hn => h a ha n hn, fun h a ha n hn => h n a ha hn⟩
  rw [hpositions, filterMap_position_arguments]
  simp only [List.forall_mem_map, length_integerDigits_le_iff, List.mem_range'_1, Nat.zero_add,
    Nat.zero_le, true_and]
  exact ⟨fun h => Nat.le_of_not_lt fun hmany => Nat.lt_irrefl _ (h _ hmany),
    fun h n hn => Nat.lt_of_lt_of_le hn h⟩

/-- A definition that is read from an application can be exported just if every command calls something and
can be described. -/
theorem isExportable_definition_iff (h : definition root name version = .ok d) :
    IsExportable d ↔ ∀ noun verb callback parameters, HasCommand root noun verb callback parameters →
      callback ≠ none ∧ AreDescribable parameters := by
  constructor
  · intro hd noun verb callback parameters hcommand
    obtain ⟨c, hc, -, hhandlers, harguments⟩ := exists_mem_of_hasCommand h hcommand
    refine ⟨?_, ?_, ?_⟩
    · rintro rfl
      exact hd.handlers c hc hhandlers
    · rw [← map_name_arguments 0, ← harguments]
      exact hd.names c hc
    · rw [← forall_hasShortPosition_iff, ← harguments]
      exact hd.positions c hc
  · intro hall
    have hcommand (c : CommandDefinition) (hc : c ∈ d.commands) : ∃ callback parameters,
        (callback ≠ none ∧ AreDescribable parameters) ∧ IsDefinitionOf c callback parameters := by
      obtain ⟨callback, parameters, hcommand, hdefinition⟩ := hasCommand_of_mem h c hc
      exact ⟨callback, parameters, hall _ _ _ _ hcommand, hdefinition⟩
    refine ⟨nodup_definition h, fun c hc => ?_, fun c hc => ?_, fun c hc => ?_⟩
    · obtain ⟨callback, parameters, ⟨hcallback, -⟩, hhandlers, -⟩ := hcommand c hc
      obtain ⟨called, rfl⟩ := Option.ne_none_iff_exists'.1 hcallback
      rw [hhandlers]
      exact List.cons_ne_nil _ _
    · obtain ⟨callback, parameters, ⟨-, hnames, -⟩, -, harguments⟩ := hcommand c hc
      rwa [harguments, map_name_arguments]
    · obtain ⟨callback, parameters, ⟨-, -, hpositions⟩, -, harguments⟩ := hcommand c hc
      rw [harguments]
      exact (forall_hasShortPosition_iff parameters).2 hpositions

/-- What keeps the definition of an application from being exported: a command that shows two parameters of
one name, or more of those with a position than can be counted. -/
inductive IsObstacle (root : AppNode) : ExportError → Prop
  | twins {noun verb : String} {callback : Option Callback} {parameters : List AppParameter}
    (hcommand : HasCommand root noun verb callback parameters) {name : String}
    (h : 2 ≤ ((shown parameters).map AppParameter.name).count name) :
    IsObstacle root (.duplicateArgument noun verb name)
  | crowd {noun verb : String} {callback : Option Callback} {parameters : List AppParameter}
    (hcommand : HasCommand root noun verb callback parameters)
    (h : 10 ^ integerDigitLimit < (shown parameters).countP (·.isArgument)) :
    IsObstacle root (.longPosition .tooLong)

def IsCalling (root : AppNode) : Prop :=
  ∀ noun verb callback parameters, HasCommand root noun verb callback parameters → callback ≠ none

theorem isObstacle_of_isFault (h : definition root name version = .ok d) (hcalling : IsCalling root)
    {e : ExportError} (hfault : IsFault d e) : IsObstacle root e := by
  cases hfault with
  | duplicateCommand c hc hcount =>
    have honce := List.nodup_iff_count_le_one.1 (nodup_definition h) c.key
    omega
  | noHandler c hc hnone =>
    obtain ⟨callback, parameters, hcommand, hhandlers, -⟩ := hasCommand_of_mem h c hc
    obtain ⟨called, rfl⟩ := Option.ne_none_iff_exists'.1 (hcalling _ _ _ _ hcommand)
    exact absurd (hhandlers.symm.trans hnone) (List.cons_ne_nil _ _)
  | duplicateArgument c hc name hcount =>
    obtain ⟨callback, parameters, hcommand, -, harguments⟩ := hasCommand_of_mem h c hc
    rw [harguments, map_name_arguments] at hcount
    exact .twins hcommand hcount
  | longPosition c hc a ha hlong =>
    obtain ⟨callback, parameters, hcommand, -, harguments⟩ := hasCommand_of_mem h c hc
    refine .crowd hcommand (Nat.lt_of_not_le fun hfew => hlong ?_)
    exact (forall_hasShortPosition_iff parameters).2 hfew a (harguments ▸ ha)

/-- The definition of an application whose commands all call something has just the commands of the
application, each once. It is exported just if their parameters can be described, and otherwise the error
tells an obstacle. -/
theorem definition_exports (root : AppNode) (name version : Option String) (d : Definition)
    (h : definition root name version = .ok d) (hcalling : IsCalling root) :
    (d.commands.map CommandDefinition.key).Nodup ∧
    (∀ noun verb, ⟨noun, verb⟩ ∈ d.commands.map CommandDefinition.key ↔
      ∃ callback parameters, HasCommand root noun verb callback parameters) ∧
    ((∃ document, d.export {} = .ok document) ↔
      ∀ noun verb callback parameters, HasCommand root noun verb callback parameters →
        AreDescribable parameters) ∧
    ∀ e, d.export {} = .error e → IsObstacle root e := by
  have hdefault := ExportOptions.fit_default .turtle
  refine ⟨nodup_definition h, fun noun verb => ?_, ?_, fun e he =>
    isObstacle_of_isFault h hcalling (isFault_of_export hdefault he)⟩
  · rw [List.mem_map]
    constructor
    · rintro ⟨c, hc, hkey⟩
      obtain ⟨callback, parameters, hcommand, -⟩ := hasCommand_of_mem h c hc
      cases hkey
      exact ⟨callback, parameters, hcommand⟩
    · rintro ⟨callback, parameters, hcommand⟩
      obtain ⟨c, hc, hkey, -⟩ := exists_mem_of_hasCommand h hcommand
      exact ⟨c, hc, hkey⟩
  · refine (exists_export_iff hdefault d).trans ((isExportable_definition_iff h).trans ⟨?_, ?_⟩)
    · exact fun hall noun verb callback parameters hcommand => (hall _ _ _ _ hcommand).2
    · exact fun hall noun verb callback parameters hcommand =>
        ⟨hcalling _ _ _ _ hcommand, hall _ _ _ _ hcommand⟩

/-- An application with one command that has a noun and a verb. The group in its group and the command beside it
have none, and only one of its options called `admin` is shown. -/
def userTools : AppNode :=
  .group (some "acme") (some "Acme tools.") [
    ("user", .group (some "user") none [
      ("create", .command (some "create") (some "Create a user.") (some ⟨"acme.users", "create"⟩) [
        { name := "email", isArgument := true, required := true },
        { name := "admin", typeName := "boolean", isArgument := false },
        { name := "admin", isArgument := false, isHidden := true }]),
      ("roles", .group (some "roles") none [
        ("list", .command (some "list") none none [])])]),
    ("version", .command (some "version") none none [])]

theorem hasCommand_userTools {noun verb : String} {callback : Option Callback}
    {parameters : List AppParameter} (h : HasCommand userTools noun verb callback parameters) :
    callback ≠ none ∧ AreDescribable parameters := by
  obtain ⟨group, own, help, hgroup, hnode⟩ := h
  simp only [userTools, child?, List.reverse_cons, List.reverse_nil, List.nil_append, List.cons_append,
    findField_cons] at hgroup
  split_ifs at hgroup
  · cases hgroup
    cases hnode
  · cases hgroup
    simp only [child?, List.reverse_cons, List.reverse_nil, List.nil_append, List.cons_append,
      findField_cons] at hnode
    split_ifs at hnode
    · cases hnode
    · cases hnode
      exact ⟨Option.some_ne_none _, by decide,
        Nat.le_trans (by decide : _ ≤ 1) (Nat.one_le_pow _ _ (by decide))⟩
    · cases hnode
  · cases hgroup

theorem definition_exports_userTools : ∃ d document, definition userTools none none = .ok d ∧
    IsCalling userTools ∧ (d.commands.map CommandDefinition.key).Nodup ∧
      d.export {} = .ok document := by
  have hcalling : IsCalling userTools := fun _ _ _ _ hcommand => (hasCommand_userTools hcommand).1
  obtain ⟨hnodup, -, hexport, -⟩ := definition_exports userTools none none _ rfl hcalling
  obtain ⟨document, hdocument⟩ := hexport.2 fun _ _ _ _ hcommand => (hasCommand_userTools hcommand).2
  exact ⟨_, document, rfl, hcalling, hnodup, hdocument⟩

/-- An application whose one command has two options for one parameter, as switches between its values do. -/
def switchTools : AppNode :=
  .group (some "acme") none [
    ("text", .group (some "text") none [
      ("show", .command (some "show") none (some ⟨"acme.text", "show"⟩) [
        { name := "case", isArgument := false }, { name := "case", isArgument := false }])])]

theorem hasCommand_switchTools {noun verb : String} {callback : Option Callback}
    {parameters : List AppParameter} (h : HasCommand switchTools noun verb callback parameters) :
    noun = "text" ∧ verb = "show" ∧ callback ≠ none ∧
      parameters = [{ name := "case", isArgument := false }, { name := "case", isArgument := false }] := by
  obtain ⟨group, own, help, hgroup, hnode⟩ := h
  simp only [switchTools, child?, List.reverse_singleton, findField_cons] at hgroup
  split_ifs at hgroup with hnoun
  · cases hgroup
    simp only [child?, List.reverse_singleton, findField_cons] at hnode
    split_ifs at hnode with hverb
    · cases hnode
      exact ⟨hnoun.symm, hverb.symm, Option.some_ne_none _, rfl⟩
    · cases hnode
  · cases hgroup

/-- The definition of an application whose commands all call something is not always exported. -/
theorem definition_switchTools : ∃ d, definition switchTools none none = .ok d ∧ IsCalling switchTools ∧
    d.export {} = .error (.duplicateArgument "text" "show" "case") := by
  have hdefault := ExportOptions.fit_default .turtle
  have hcalling : IsCalling switchTools := fun _ _ _ _ hcommand => (hasCommand_switchTools hcommand).2.2.1
  obtain ⟨d, h⟩ : ∃ d, definition switchTools none none = .ok d := ⟨_, rfl⟩
  refine ⟨d, h, hcalling, ?_⟩
  cases he : d.export {} with
  | ok document =>
    have hd := (exists_export_iff hdefault d).1 ⟨document, he⟩
    obtain ⟨-, hnames, -⟩ := (isExportable_definition_iff h).1 hd "text" "show" _ _ ⟨_, _, _, rfl, rfl⟩
    exact absurd hnames (by decide)
  | error e =>
    cases isObstacle_of_isFault h hcalling (isFault_of_export hdefault he) with
    | twins hcommand htwice =>
      obtain ⟨rfl, rfl, -, rfl⟩ := hasCommand_switchTools hcommand
      have hname := List.count_pos_iff.1 (Nat.lt_of_lt_of_le Nat.two_pos htwice)
      obtain rfl : _ = "case" := by simpa [shown] using hname
      rfl
    | crowd hcommand hmany =>
      obtain ⟨-, -, -, rfl⟩ := hasCommand_switchTools hcommand
      exact absurd hmany (Nat.not_lt_zero _)

end Application

end CommandOntology
