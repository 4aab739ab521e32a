import CommandOntology.Proofs.MissingProperties
import CommandOntology.Proofs.StorageOrder

set_option autoImplicit false

/-!
# Names that a module defines

A module defines a class, a handler and a function for each command, and an app for each noun. Names of
two kinds never agree. Names of one kind agree only for commands whose noun and verb, with a space between
them, are the same text. The parameters of a command have different names. All this is said of the names
as they are written: the language compares their normal forms.
-/

namespace CommandOntology.Generation

theorem isSmall_of_mem_toIdentifier (name : String) : ∀ c ∈ (toIdentifier name).toList, Text.IsSmall c := by
  rw [toIdentifier, Text.lower, String.toList_ofList]
  exact Text.isSmall_of_mem_lowerAfter [] _

section

variable {c : Command} {p : CommandPlan} (h : IsPlanOf c p)

include h

theorem IsPlanOf.not_mem_identifiers : 'A' ∉ p.nounIdent.toList ∧ 'A' ∉ p.verbIdent.toList := by
  have hsmall (name : String) : 'A' ∉ (toIdentifier name).toList := fun hin =>
    absurd (isSmall_of_mem_toIdentifier name 'A' hin).1 (by decide)
  rw [h.nounIdent, h.verbIdent]
  exact ⟨hsmall c.noun, hsmall c.verb⟩

/-- Of the names that are defined for a command, that of its class alone has a capital A. -/
theorem IsPlanOf.not_mem_names :
    'A' ∉ p.handlerName.toList ∧ 'A' ∉ p.functionName.toList ∧ 'A' ∉ p.appName.toList := by
  obtain ⟨hnoun, hverb⟩ := h.not_mem_identifiers
  simp [CommandPlan.handlerName, CommandPlan.functionName, CommandPlan.appName, hnoun, hverb]

end

theorem mem_holderName (p : CommandPlan) : 'A' ∈ p.holderName.toList := by
  simp [CommandPlan.holderName, holderName]

theorem head?_names (p : CommandPlan) : p.handlerName.toList.head? = some 'h' ∧
    p.functionName.toList.head? = some 'c' ∧ p.appName.toList.head? = some 'a' := by
  simp [CommandPlan.handlerName, CommandPlan.functionName, CommandPlan.appName]

theorem nodup_of_findField {α : Type} (taken : Taken) (name : α → String) (owner : α → String) (xs : List α)
    (htaken : ∀ x ∈ xs, findField taken (name x) = some (owner x)) (hn : (xs.map owner).Nodup) :
    (xs.map name).Nodup := by
  refine List.Nodup.of_map (findField taken) ?_
  have hmap : (xs.map name).map (findField taken) = (xs.map owner).map some := by
    rw [List.map_map, List.map_map]
    exact List.map_congr_left htaken
  rw [hmap]
  exact hn.map (Option.some_injective _)

theorem owner_eq {taken : Taken} {name name' owner owner' : String}
    (h : findField taken name = some owner) (h' : findField taken name' = some owner')
    (hname : name = name') : owner = owner' := by
  rw [← hname, h] at h'
  exact Option.some.inj h'

def appNames (plans : List CommandPlan) : List String :=
  (nounGroups plans).filterMap fun group => group.2.head?.map (·.appName)

def definedNames (plans : List CommandPlan) : List String :=
  plans.map (·.holderName) ++ plans.map (·.handlerName) ++ plans.map (·.functionName) ++ appNames plans

theorem mem_nounGroups {plans : List CommandPlan} {group : String × List CommandPlan}
    (h : group ∈ nounGroups plans) : group.2 = plans.filter (·.noun == group.1) := by
  obtain ⟨noun, -, rfl⟩ := List.mem_map.1 h
  rfl

theorem nodup_nounGroups (plans : List CommandPlan) : (nounGroups plans).Nodup := by
  refine List.Nodup.of_map Prod.fst ?_
  rw [nounGroups, List.map_map]
  simp only [Function.comp_def, List.map_id']
  exact (List.mergeSort_perm _ _).nodup_iff.2 (nodup_distinct _)

theorem exists_of_mem_appNames {plans : List CommandPlan} {name : String} (h : name ∈ appNames plans) :
    ∃ p ∈ plans, name = p.appName := by
  obtain ⟨group, hgroup, happ⟩ := List.mem_filterMap.1 h
  obtain ⟨p, hp, rfl⟩ := Option.map_eq_some_iff.1 happ
  have hin := List.mem_of_mem_head? (Option.mem_def.2 hp)
  rw [mem_nounGroups hgroup] at hin
  exact ⟨p, (List.mem_filter.1 hin).1, rfl⟩

section

variable {names : Names} {plans : List CommandPlan} (hheld : ∀ p ∈ plans, names.Hold p)

include hheld

theorem nodup_appNames : (appNames plans).Nodup := by
  refine (nodup_filterMap_iff _ _ (nodup_nounGroups plans)).2 fun a ha b hb name hname hname' => ?_
  obtain ⟨p, hp, rfl⟩ := Option.map_eq_some_iff.1 hname
  obtain ⟨q, hq, happ⟩ := Option.map_eq_some_iff.1 hname'
  have hpin := List.mem_of_mem_head? (Option.mem_def.2 hp)
  have hqin := List.mem_of_mem_head? (Option.mem_def.2 hq)
  rw [mem_nounGroups ha, List.mem_filter, beq_iff_eq] at hpin
  rw [mem_nounGroups hb, List.mem_filter, beq_iff_eq] at hqin
  have hident : q.nounIdent = p.nounIdent := by
    simpa [CommandPlan.appName] using happ
  have hnoun : a.1 = b.1 := by
    rw [← hpin.2, ← hqin.2]
    exact owner_eq (hheld p hpin.1).noun (hheld q hqin.1).noun hident.symm
  exact Prod.ext hnoun (by rw [mem_nounGroups ha, mem_nounGroups hb, hnoun])

/-- Commands have different names if they are called differently. -/
theorem nodup_definedNames {commands : List Command} (hplans : List.Forall₂ IsPlanOf commands plans)
    (hn : (plans.map (·.qualifiedName)).Nodup) : (definedNames plans).Nodup := by
  have hholders := nodup_of_findField names.holders CommandPlan.holderName _ plans
    (fun p hp => (hheld p hp).holder) hn
  have hhandlers := nodup_of_findField names.handlers CommandPlan.handlerName _ plans
    (fun p hp => (hheld p hp).handler) hn
  have hfunctions : (plans.map (·.functionName)).Nodup := by
    refine List.Nodup.map_on (fun p hp q hq h => ?_) (List.Nodup.of_map _ hhandlers)
    refine List.inj_on_of_nodup_map hhandlers hp hq ?_
    simpa [CommandPlan.handlerName, CommandPlan.functionName, String.append_assoc] using h
  have hcapital {name : String} (h : name ∈ plans.map (·.holderName)) : 'A' ∈ name.toList := by
    obtain ⟨p, -, rfl⟩ := List.mem_map.1 h
    exact mem_holderName p
  have hhandler {name : String} (h : name ∈ plans.map (·.handlerName)) :
      'A' ∉ name.toList ∧ name.toList.head? = some 'h' := by
    obtain ⟨p, hp, rfl⟩ := List.mem_map.1 h
    obtain ⟨c, -, hc⟩ := exists_of_forall₂ hplans hp
    exact ⟨hc.not_mem_names.1, (head?_names p).1⟩
  have hfunction {name : String} (h : name ∈ plans.map (·.functionName)) :
      'A' ∉ name.toList ∧ name.toList.head? = some 'c' := by
    obtain ⟨p, hp, rfl⟩ := List.mem_map.1 h
    obtain ⟨c, -, hc⟩ := exists_of_forall₂ hplans hp
    exact ⟨hc.not_mem_names.2.1, (head?_names p).2.1⟩
  have happ {name : String} (h : name ∈ appNames plans) :
      'A' ∉ name.toList ∧ name.toList.head? = some 'a' := by
    obtain ⟨p, hp, rfl⟩ := exists_of_mem_appNames h
    obtain ⟨c, -, hc⟩ := exists_of_forall₂ hplans hp
    exact ⟨hc.not_mem_names.2.2, (head?_names p).2.2⟩
  -- Names of different kinds differ: those of classes alone have a capital, and the others start with
  -- different letters.
  rw [definedNames, List.nodup_append, List.nodup_append, List.nodup_append]
  refine ⟨⟨⟨hholders, hhandlers, ?_⟩, hfunctions, ?_⟩, nodup_appNames hheld, ?_⟩
  · rintro a ha _ hb rfl
    exact (hhandler hb).1 (hcapital ha)
  · rintro a ha _ hb rfl
    obtain ha | ha := List.mem_append.1 ha
    · exact (hfunction hb).1 (hcapital ha)
    · simpa [(hfunction hb).2] using (hhandler ha).2
  · rintro a ha _ hb rfl
    obtain ha | ha := List.mem_append.1 ha
    · obtain ha | ha := List.mem_append.1 ha
      · exact (happ hb).1 (hcapital ha)
      · simpa [(happ hb).2] using (hhandler ha).2
    · simpa [(happ hb).2] using (hfunction ha).2

end

def Line.parameter? : Line → Option String
  | parameter ident _ => some ident
  | _ => none

def declared (block : Block) : List String :=
  block.filterMap Line.parameter?

@[simp] theorem declared_nil : declared [] = [] :=
  rfl

@[simp] theorem declared_append (a b : Block) : declared (a ++ b) = declared a ++ declared b :=
  List.filterMap_append

@[simp] theorem declared_lines (texts : List String) : declared (lines texts) = [] := by
  simp [declared, lines, Line.parameter?]

@[simp] theorem declared_linesIf (condition : Bool) (texts : List String) :
    declared (linesIf condition texts) = [] := by
  cases condition
  · rfl
  · exact declared_lines texts

theorem declared_wiring (s : Setting) (app : String) (c : CommandPlan) :
    declared (wiring s app c) = c.parameters.map (·.ident) := by
  simp only [wiring, declared_append, apply_ite declared, declared_lines, declared_linesIf, List.append_nil,
    List.nil_append, declared_nil, ite_self]
  rw [declared, List.filterMap_map]
  exact congrFun List.filterMap_eq_map c.parameters

/-- The blocks of a module declare the parameters of the planned commands. -/
theorem declared_of_mem_blocks {s : Setting} {plans : List CommandPlan} {block : Block}
    (h : block ∈ blocks s plans) :
    declared block = [] ∨ ∃ p ∈ plans, declared block = p.parameters.map (·.ident) := by
  have hholder (p : CommandPlan) : declared (holder s p) = [] := by
    simp only [holder, declared_append, declared_lines, declared_linesIf, List.nil_append, List.append_nil]
    simp [declared, Line.parameter?]
  have hhandler (p : CommandPlan) : declared (handler s p) = [] := by
    simp [handler]
  simp only [blocks, List.mem_append, List.mem_flatMap, List.mem_cons, List.not_mem_nil, or_false] at h
  obtain ((((rfl | ⟨p, -, rfl | rfl⟩) | rfl | rfl) | ⟨group, hgroup, h⟩) | h) | rfl := h
  · exact .inl (by simp [header])
  · exact .inl (hholder p)
  · exact .inl (hhandler p)
  · exact .inl (declared_lines _)
  · exact .inl (by simp [rootApp])
  · cases hplans : group.2 with
    | nil =>
      rw [hplans] at h
      cases h
    | cons c rest =>
      rw [hplans] at h
      obtain rfl | h := List.mem_cons.1 h
      · exact .inl (by simp [nounApp])
      · obtain ⟨p, hp, rfl⟩ := List.mem_map.1 h
        rw [← hplans, mem_nounGroups hgroup] at hp
        exact .inr ⟨p, (List.mem_filter.1 hp).1, declared_wiring s _ p⟩
  · split at h
    · rw [List.mem_singleton.1 h]
      exact .inl (by simp [manualCommand])
    · cases h
  · exact .inl (declared_lines _)

/-- A parameter is declared twice where two of one block have the same normal form. -/
theorem repeatedParameter?_eq_none_iff {seen : List String} {line : Nat} {block : Block} :
    repeatedParameter? seen line block = none ↔ ((declared block).map Text.normalize).Nodup ∧
      ∀ name ∈ (declared block).map Text.normalize, name ∉ seen := by
  fun_induction repeatedParameter? seen line block with
  | case1 => simp
  | case2 seen line ident text rest name hin =>
    refine iff_of_false (by simp) fun h => ?_
    exact h.2 name (by simp [declared, Line.parameter?, name]) (List.contains_iff_mem.1 hin)
  | case3 seen line ident text rest name hin ih =>
    have hcons : (declared (.parameter ident text :: rest)).map Text.normalize =
        name :: (declared rest).map Text.normalize := rfl
    have hname : name ∉ seen := fun h => hin (List.contains_iff_mem.2 h)
    rw [ih, hcons, List.nodup_cons, List.forall_mem_cons]
    constructor
    · rintro ⟨hn, hseen⟩
      exact ⟨⟨fun h => hseen name h List.mem_cons_self, hn⟩, hname,
        fun other h hother => hseen other h (List.mem_cons_of_mem _ hother)⟩
    · rintro ⟨⟨hout, hn⟩, -, hseen⟩
      refine ⟨hn, fun other h hother => ?_⟩
      obtain rfl | hother := List.mem_cons.1 hother
      · exact hout h
      · exact hseen other h hother
  | case4 seen line other rest hother ih =>
    have hnone : other.parameter? = none := by
      cases other with
      | parameter ident text => exact absurd rfl (hother ident text)
      | plain | field => rfl
    have hrest : declared (other :: rest) = declared rest := List.filterMap_cons_none hnone
    rw [ih, hrest]

theorem firstRepeated?_eq_none_iff {line : Nat} {bs : List Block} :
    firstRepeated? line bs = none ↔ ∀ block ∈ bs, ((declared block).map Text.normalize).Nodup := by
  induction bs generalizing line with
  | nil => simp [firstRepeated?]
  | cons block rest ih =>
    have hblock : repeatedParameter? [] line block = none ↔ ((declared block).map Text.normalize).Nodup := by
      simp [repeatedParameter?_eq_none_iff]
    rw [firstRepeated?, List.forall_mem_cons, ← hblock]
    cases repeatedParameter? [] line block with
    | some found => simp
    | none => simp [ih]

/-- The parameters of a command have different names if its arguments have. -/
theorem nodup_parameters {c : Command} {p : CommandPlan} (h : IsPlanOf c p)
    (hn : (c.arguments.map Argument.name).Nodup) : (p.parameters.map (·.ident)).Nodup := by
  obtain ⟨taken, hall⟩ := h.parameters
  have hsorted : ((Argument.sort c.arguments).map Argument.name).Nodup :=
    ((List.mergeSort_perm _ _).map _).nodup_iff.2 hn
  have howners : (p.parameters.map (·.ident)).map (findField taken) =
      ((Argument.sort c.arguments).map Argument.name).map some := by
    generalize Argument.sort c.arguments = arguments at hall
    generalize p.parameters = parameters at hall
    induction hall with
    | nil => rfl
    | cons hregisters _ ih => exact congrArg₂ List.cons hregisters.taken ih
  refine List.Nodup.of_map (findField taken) ?_
  rw [howners]
  exact hsorted.map (Option.some_injective _)

/-- What holds of the names of planned commands: a name stands for one noun or for one full name, and the
parameters of a command differ. -/
structure HaveOwnNames (plans : List CommandPlan) : Prop where
  nouns : ∀ p ∈ plans, ∀ q ∈ plans, p.nounIdent = q.nounIdent → p.noun = q.noun
  handlers : ∀ p ∈ plans, ∀ q ∈ plans, p.handlerName = q.handlerName → p.qualifiedName = q.qualifiedName
  holders : ∀ p ∈ plans, ∀ q ∈ plans, p.holderName = q.holderName → p.qualifiedName = q.qualifiedName
  defined : (plans.map (·.qualifiedName)).Nodup → (definedNames plans).Nodup
  parameters : ∀ p ∈ plans, (p.parameters.map (·.ident)).Nodup

theorem haveOwnNames {names : Names} {commands : List Command} {plans : List CommandPlan}
    (hheld : ∀ p ∈ plans, names.Hold p) (hplans : List.Forall₂ IsPlanOf commands plans)
    (harguments : ∀ c ∈ commands, (c.arguments.map Argument.name).Nodup) : HaveOwnNames plans where
  nouns p hp q hq := owner_eq (hheld p hp).noun (hheld q hq).noun
  handlers p hp q hq := owner_eq (hheld p hp).handler (hheld q hq).handler
  holders p hp q hq := owner_eq (hheld p hp).holder (hheld q hq).holder
  defined := nodup_definedNames hheld hplans
  parameters p hp := by
    obtain ⟨c, hc, hof⟩ := exists_of_forall₂ hplans hp
    exact nodup_parameters hof (harguments c hc)

/-- A module whose parameters have different normal forms is not refused for its parameters. -/
theorem moduleFault?_ne_repeatedParameter {s : Setting} {plans : List CommandPlan}
    (hn : ∀ p ∈ plans, (p.parameters.map fun a => Text.normalize a.ident).Nodup) (ident : String)
    (line : Nat) : moduleFault? (blocks s plans) ≠ some (.repeatedParameter ident line) := by
  have hblocks (block : Block) (hb : block ∈ blocks s plans) :
      ((declared block).map Text.normalize).Nodup := by
    obtain hnone | ⟨p, hp, hsome⟩ := declared_of_mem_blocks hb
    · rw [hnone]
      exact List.nodup_nil
    · rw [hsome, List.map_map]
      exact hn p hp
  unfold moduleFault?
  rw [firstRepeated?_eq_none_iff.2 hblocks]
  split
  · simp
  · cases debugField? 1 (blocks s plans).flatten <;> simp

end CommandOntology.Generation

namespace CommandOntology

open Generation

theorem View.exists_reads {options : Turtle.ParserOptions} {text : String} {d : Turtle.Document}
    (hd : Turtle.parse options text = .ok d) (backend : Backend) :
    ∃ g, (View.ofStore (.ofList backend d.triples)).Reads g :=
  View.exists_reads_of_isWritten (Turtle.parse_isWritten hd) backend

/-- Commands of a validated ontology have names of their own, or else no module is written since their
names clash or something else is wrong with them. If the commands are called differently and the names
are their own normal forms, these differ, and no parameter is declared twice. -/
theorem generate_definedNames {options : Turtle.ParserOptions} {text : String} {d : Turtle.Document}
    (hd : Turtle.parse options text = .ok d) {backend : Backend} {own validator : Option Validator}
    {o : ValidatedOntology} (ho : (Ontology.ofDocument backend own d).validate validator = .ok o)
    (generator : Generator) (features : Features) :
    (∃ e, generator.generate features o.index = .error e ∧
      (e.IsStructural ∨ ∃ label property, e = .missingProperty label property)) ∨
    ∃ plans, plan features o.index = .ok plans ∧ HaveOwnNames plans ∧
      (∀ m, generator.generate features o.index = .ok m → m.commands = plans.map .ofPlan) ∧
      ((o.index.commands.map Command.qualifiedName).Nodup →
        (∀ name ∈ definedNames plans, Text.normalize name = name) →
        ((definedNames plans).map Text.normalize).Nodup) ∧
      ((∀ p ∈ plans, ∀ a ∈ p.parameters, Text.normalize a.ident = a.ident) →
        (∀ p ∈ plans, (p.parameters.map fun a => Text.normalize a.ident).Nodup) ∧
        ∀ ident line, generator.generate features o.index ≠
          .error (.invalidModule (.repeatedParameter ident line))) := by
  obtain ⟨chosen, -, ho⟩ := (Ontology.validate_eq_ok_iff _ _ _).1 ho
  obtain ⟨hvalid, index, hindex, rfl⟩ := (chosen.validate_eq_ok_iff _ _).1 ho
  obtain ⟨g, hreads⟩ := View.exists_reads hd backend
  have harguments := (View.buildIndex_isExportable hreads chosen hvalid index hindex "").1.names
  -- Without plans the names are at fault. With plans the names are their own, and the module is refused
  -- for another reason if at all.
  cases hplan : plan features index with
  | error e =>
    refine .inl ⟨e, by rw [Generator.generate, hplan]; rfl, ?_⟩
    obtain ⟨c, -, property, -, he⟩ | he := planCommands_error hplan
    · exact .inr ⟨_, property, he⟩
    · exact .inl he
  | ok plans =>
    have hsame (plans' : List CommandPlan) (h : plan features index = .ok plans') : plans = plans' :=
      Except.ok.inj (hplan.symm.trans h)
    obtain ⟨hplans, names, -, hheld⟩ := planCommands_ok hplan
    have hown := haveOwnNames hheld hplans fun c hc =>
      harguments (.ofCommand c) (List.mem_map_of_mem hc)
    refine .inr ⟨plans, rfl, hown, fun m hm => ?_, fun hcalled hnormal => ?_, fun hnormal => ?_⟩
    · obtain ⟨plans', _, hplan', -, -, -, hcommands⟩ := generate_ok hm
      rw [hsame plans' hplan']
      exact hcommands
    · rw [List.map_congr_left hnormal, List.map_id']
      exact hown.defined (qualifiedName_of_plans hplans ▸ hcalled)
    · have hparameters (p : CommandPlan) (hp : p ∈ plans) :
          (p.parameters.map fun a => Text.normalize a.ident).Nodup := by
        rw [List.map_congr_left (hnormal p hp)]
        exact hown.parameters p hp
      refine ⟨hparameters, fun ident line herror => ?_⟩
      obtain h | h | ⟨plans', name, fault, hplan', hfault, h⟩ := generate_error herror
      · rw [hplan] at h
        cases h
      · cases h
      · cases h
        rw [← hsame plans' hplan'] at hfault
        exact moduleFault?_ne_repeatedParameter hparameters ident line hfault

def podsCommands : List PlainCommand :=
  [⟨"urn:g", "pods", "get", "m:g"⟩, ⟨"urn:l", "pods", "list", "m:l"⟩]

def podsCommandsText : String :=
  "@prefix c: <https://cnv.dev/ontology#> .
<urn:g> a c:Command ; c:hasNoun 'pods' ; c:hasVerb 'get' ; c:handler 'm:g' .
<urn:l> a c:Command ; c:hasNoun 'pods' ; c:hasVerb 'list' ; c:handler 'm:l' ."

def twinCommands : List PlainCommand :=
  [⟨"urn:d", "a", "b c", "y"⟩, ⟨"urn:c", "a b", "c", "x"⟩]

def twinCommandsText : String :=
  "@prefix c: <https://cnv.dev/ontology#> .
<urn:d> a c:Command ; c:hasNoun 'a' ; c:hasVerb 'b c' ; c:handler 'y' .
<urn:c> a c:Command ; c:hasNoun 'a b' ; c:hasVerb 'c' ; c:handler 'x' ."

set_option maxRecDepth 2000 in
theorem parse_podsCommandsText : (Turtle.parse {} podsCommandsText).map (·.triples) =
    .ok (podsCommands.flatMap PlainCommand.triples) := by
  have hchars : podsCommandsText.toList = _ := String.toList_ofList
  rw [Turtle.parse, hchars]
  decide

set_option maxRecDepth 2000 in
theorem parse_twinCommandsText : (Turtle.parse {} twinCommandsText).map (·.triples) =
    .ok (twinCommands.flatMap PlainCommand.triples) := by
  have hchars : twinCommandsText.toList = _ := String.toList_ofList
  rw [Turtle.parse, hchars]
  decide

theorem validate_of_sorted {d : Turtle.Document} {cs : List PlainCommand}
    (h : d.triples = cs.flatMap PlainCommand.triples) (hiris : (cs.map PlainCommand.iri).Nodup)
    (hkeys : (cs.map PlainCommand.key).Nodup)
    (hsorted : (cs.map PlainCommand.command).Pairwise fun a b => CommandKey.le a.key b.key = true) :
    ∃ o, (Ontology.ofDocument .memory (some {}) d).validate none = .ok o ∧
      o.index.commands = cs.map PlainCommand.command := by
  obtain ⟨o, ho, hcommands⟩ := validate_plain hiris hkeys {} d.namespaces d.base (some {})
  refine ⟨o, ?_, hcommands.trans (List.mergeSort_of_pairwise hsorted)⟩
  rw [← h] at ho
  exact ho

theorem argumentSort_nil : Argument.sort [] = [] :=
  List.mergeSort_nil

def podsPlans : List CommandPlan :=
  [⟨"pods", "get", "pods", "get", "m:g", "Get pods.", []⟩,
    ⟨"pods", "list", "pods", "list", "m:l", "List pods.", []⟩]

theorem planCommands_podsCommands :
    planCommands .none ⟨[], [], []⟩ (podsCommands.map PlainCommand.command) = .ok podsPlans := by
  simp only [podsCommands, List.map_cons, List.map_nil, planCommands, planCommand, PlainCommand.command,
    argumentSort_nil]
  decide

theorem definedNames_podsPlans : definedNames podsPlans =
    ["PodsGetArgs", "PodsListArgs", "handle_pods_get", "handle_pods_list", "cmd_pods_get", "cmd_pods_list",
      "app_pods"] := by
  have hnouns : distinct (podsPlans.map (·.noun)) = ["pods"] := by decide
  rw [definedNames, appNames, nounGroups, hnouns, List.mergeSort_singleton]
  decide

theorem generate_definedNames_pods : ∃ d o, Turtle.parse {} podsCommandsText = .ok d ∧
    (Ontology.ofDocument .memory (some {}) d).validate none = .ok o ∧
    ∃ plans, plan .none o.index = .ok plans ∧ HaveOwnNames plans ∧
      ((definedNames plans).map Text.normalize).Nodup := by
  obtain ⟨d, hd, htriples⟩ := (map_eq_ok_iff _ _ _).1 parse_podsCommandsText
  obtain ⟨o, ho, hcommands⟩ := validate_of_sorted htriples (by decide) (by decide) (by decide)
  have hplan : plan .none o.index = .ok podsPlans := by
    rw [plan, hcommands]
    exact planCommands_podsCommands
  refine ⟨d, o, hd, ho, ?_⟩
  obtain ⟨e, he, hkind⟩ | ⟨plans, hplans, hown, -, hnormal, -⟩ :=
    generate_definedNames hd ho (.ofName (.text "pods") "1.0.0") .none
  · obtain h | rfl | ⟨_, _, _, -, -, rfl⟩ := generate_error he
    · rw [hplan] at h
      cases h
    all_goals simp [GenerationError.IsStructural] at hkind
  · obtain rfl : podsPlans = plans := Except.ok.inj (hplan.symm.trans hplans)
    refine ⟨_, hplans, hown, hnormal ?_ ?_⟩
    · rw [hcommands]
      decide
    · rw [definedNames_podsPlans]
      decide

/-- Handlers of one name are not found to clash if their commands are called the same. -/
theorem generate_definedNames_twins : ∃ d o plans, Turtle.parse {} twinCommandsText = .ok d ∧
    (Ontology.ofDocument .memory (some {}) d).validate none = .ok o ∧
    plan .none o.index = .ok plans ∧ ¬(plans.map (·.handlerName)).Nodup ∧
    ∀ command fault, (Generator.ofName (.text "twins") "1.0.0").generate .none o.index ≠
      .error (.invalidStructure command fault) := by
  obtain ⟨d, hd, htriples⟩ := (map_eq_ok_iff _ _ _).1 parse_twinCommandsText
  obtain ⟨o, ho, hcommands⟩ := validate_of_sorted htriples (by decide) (by decide) (by decide)
  obtain ⟨plans, hplan, hhandlers⟩ : ∃ plans, plan .none o.index = .ok plans ∧
      plans.map (·.handlerName) = ["handle_a_b_c", "handle_a_b_c"] := by
    rw [← map_eq_ok_iff, plan, hcommands]
    simp only [twinCommands, List.map_cons, List.map_nil, planCommands, planCommand, PlainCommand.command,
      argumentSort_nil]
    decide
  refine ⟨d, o, plans, hd, ho, hplan, by rw [hhandlers]; decide, fun command fault h => ?_⟩
  obtain h | h | ⟨_, _, _, -, -, h⟩ := generate_error h
  · rw [hplan] at h
    cases h
  · cases h
  · cases h

end CommandOntology
