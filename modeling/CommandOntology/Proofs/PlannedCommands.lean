import CommandOntology.Generation.Generator
import CommandOntology.Proofs.Outcomes

set_option autoImplicit false

namespace CommandOntology.Generation

def Lacks (c : Command) : Property → Prop
  | .noun => c.noun = ""
  | .verb => c.verb = ""
  | .handler => ∀ text ∈ c.handler, text = ""

theorem mem_properties (c : Command) (property : Property) (isThere : Bool) :
    (property, isThere) ∈ properties c ↔ (isThere = false ↔ Lacks c property) := by
  cases property <;> cases isThere <;> cases hhandler : c.handler <;> simp [properties, Lacks, hhandler]

theorem lacks_of_missing? {c : Command} {property : Property} (h : missing? c = some property) :
    Lacks c property := by
  obtain ⟨found, hfind, rfl⟩ := Option.map_eq_some_iff.1 h
  obtain ⟨property, isThere⟩ := found
  have hmissing := List.find?_some hfind
  exact ((mem_properties c property isThere).1 (List.mem_of_find?_eq_some hfind)).1 (by simpa using hmissing)

theorem not_lacks_of_missing? {c : Command} (h : missing? c = none) (property : Property) :
    ¬Lacks c property := by
  intro hlacks
  have hmem := (mem_properties c property false).2 (by simp [hlacks])
  simpa using List.find?_eq_none.1 (Option.map_eq_none_iff.1 h) _ hmem

def GenerationError.IsStructural : GenerationError → Prop
  | .invalidStructure _ _ => True
  | .unknownType _ _ => True
  | .invalidDefault _ _ _ => True
  | _ => False

section

variable {features : Features} {names : Names} {c : Command} {e : GenerationError}

theorem identifier_error {name command role : String} (h : identifier name command role = .error e) :
    e.IsStructural := by
  unfold identifier at h
  dsimp only at h
  split_ifs at h
  cases h
  trivial

theorem take_error {taken : Taken} {name holder command : String} {fault : String → StructureFault}
    (h : (take taken name holder).mapError (fun other => .invalidStructure command (fault other)) = .error e) :
    e.IsStructural := by
  cases htake : take taken name holder with
  | ok taken' =>
    rw [htake] at h
    cases h
  | error other =>
    rw [htake] at h
    cases h
    trivial

theorem presence_error {entity : String} {type : ArgumentType} {a : Argument}
    (h : presence entity type a = .error e) : e.IsStructural := by
  unfold presence at h
  split at h
  · cases h
  · split at h
    · split at h
      · cases h
      · cases h
        trivial
    · cases h

theorem planParameter_error {command ident : String} {a : Argument}
    (h : planParameter command a ident = .error e) : e.IsStructural := by
  unfold planParameter at h
  dsimp only at h
  split at h
  · cases h
    trivial
  · obtain h | ⟨_, -, h⟩ := (bind_eq_error_iff _ _ _).1 h
    · exact presence_error h
    · cases h

theorem planParameters_error {command : String} {taken : Taken} {arguments : List Argument}
    (h : planParameters command taken arguments = .error e) : e.IsStructural := by
  induction arguments generalizing taken with
  | nil => cases h
  | cons a rest ih =>
    rw [planParameters] at h
    obtain h | ⟨ident, -, h⟩ := (bind_eq_error_iff _ _ _).1 h
    · exact identifier_error h
    · split_ifs at h
      · cases h
        trivial
      obtain h | ⟨taken', -, h⟩ := (bind_eq_error_iff _ _ _).1 h
      · exact take_error h
      obtain h | ⟨parameter, -, h⟩ := (bind_eq_error_iff _ _ _).1 h
      · exact planParameter_error h
      obtain h | ⟨parameters, -, h⟩ := (bind_eq_error_iff _ _ _).1 h
      · exact ih h
      · cases h

/-- A command has no plan since a property is missing, or since something is wrong with its names or
arguments. -/
theorem planCommand_error (h : planCommand features names c = .error e) :
    (∃ property, missing? c = some property ∧ e = .missingProperty (commandLabel c) property) ∨
      e.IsStructural := by
  unfold planCommand at h
  dsimp only at h
  cases hmissing : missing? c with
  | some property =>
    rw [hmissing] at h
    cases h
    exact .inl ⟨property, rfl, rfl⟩
  | none =>
    rw [hmissing] at h
    refine .inr ?_
    obtain h | ⟨nounIdent, -, h⟩ := (bind_eq_error_iff _ _ _).1 h
    · exact identifier_error h
    obtain h | ⟨verbIdent, -, h⟩ := (bind_eq_error_iff _ _ _).1 h
    · exact identifier_error h
    obtain h | ⟨nouns, -, h⟩ := (bind_eq_error_iff _ _ _).1 h
    · exact take_error h
    split_ifs at h
    · cases h
      trivial
    obtain h | ⟨handlers, -, h⟩ := (bind_eq_error_iff _ _ _).1 h
    · exact take_error h
    obtain h | ⟨holders, -, h⟩ := (bind_eq_error_iff _ _ _).1 h
    · exact take_error h
    obtain h | ⟨parameters, -, h⟩ := (bind_eq_error_iff _ _ _).1 h
    · exact planParameters_error h
    · cases h

theorem planCommands_error {commands : List Command} (h : planCommands features names commands = .error e) :
    (∃ c ∈ commands, ∃ property, Lacks c property ∧ e = .missingProperty (commandLabel c) property) ∨
      e.IsStructural := by
  induction commands generalizing names with
  | nil => cases h
  | cons c rest ih =>
    rw [planCommands] at h
    obtain h | ⟨⟨plan, names'⟩, -, h⟩ := (bind_eq_error_iff _ _ _).1 h
    · obtain ⟨property, hmissing, rfl⟩ | h := planCommand_error h
      · exact .inl ⟨c, List.mem_cons_self, property, lacks_of_missing? hmissing, rfl⟩
      · exact .inr h
    · obtain h | ⟨plans, -, h⟩ := (bind_eq_error_iff _ _ _).1 h
      · obtain ⟨d, hd, hlacks⟩ | h := ih h
        · exact .inl ⟨d, List.mem_cons_of_mem c hd, hlacks⟩
        · exact .inr h
      · cases h

end

theorem take_ok {taken taken' : Taken} {name holder : String} (h : take taken name holder = .ok taken') :
    findField taken' name = some holder ∧
      ∀ other owner, findField taken other = some owner → findField taken' other = some owner := by
  unfold take at h
  split at h
  · next hnone =>
    cases h
    have hfind (other : String) : findField (taken ++ [(name, holder)]) other =
        (findField taken other).or (findField [(name, holder)] other) := by
      simp only [findField, List.find?_append]
      cases taken.find? fun field => field.1 == other <;> rfl
    refine ⟨by rw [hfind, hnone]; simp [findField], fun other owner howner => by rw [hfind, howner]; rfl⟩
  · next owner howner =>
    split_ifs at h with hsame
    cases h
    exact ⟨hsame ▸ howner, fun _ _ h => h⟩

theorem identifier_ok {name command role ident : String} (h : identifier name command role = .ok ident) :
    ident = toIdentifier name ∧ isUsableIdentifier ident = true := by
  unfold identifier at h
  dsimp only at h
  split_ifs at h with husable
  have hident := Except.ok.inj h
  exact ⟨hident.symm, hident ▸ husable⟩

/-- Of the ASCII characters, identifiers hold letters, digits and underscores alone. -/
theorem isAsciiAlphanumeric_of_mem_identifier {ident : String} (h : isUsableIdentifier ident = true) {c : Char}
    (hc : c ∈ ident.toList) (hascii : c.toNat < 128) : (Text.isAsciiAlphanumeric c || c == '_') = true := by
  have hident : Text.isIdentifier ident.toList = true := (Bool.and_eq_true_iff.1 h).1
  unfold Text.isIdentifier at hident
  split at hident
  · cases hident
  · next first rest htext =>
    obtain ⟨hfirst, hrest⟩ := Bool.and_eq_true_iff.1 hident
    rw [htext] at hc
    obtain rfl | hc := List.mem_cons.1 hc
    · rw [Text.isIdentifierStart, if_pos hascii] at hfirst
      rw [Text.isAsciiAlphanumeric]
      grind
    · have hpart := List.all_eq_true.1 hrest c hc
      rwa [Text.isIdentifierPart, if_pos hascii] at hpart

structure IsParameterOf (command : String) (a : Argument) (p : Parameter) : Prop where
  ident : p.ident = toIdentifier a.name
  type : ArgumentType.ofTag? (TypeTag.normalize a.typeTag) = some p.type
  presence : presence (command ++ ": " ++ a.name) p.type a = .ok p.presence
  isPositional : p.isPositional = a.position.isSome
  help : p.help = argumentHelp a (TypeTag.normalize a.typeTag)

theorem planParameter_ok {command ident : String} {a : Argument} {p : Parameter}
    (hident : identifier a.name command Role.argument.text = .ok ident)
    (h : planParameter command a ident = .ok p) : p.ident = ident ∧ IsParameterOf command a p := by
  unfold planParameter at h
  dsimp only at h
  split at h
  · cases h
  · next type htype =>
    obtain ⟨_, hpresence, h⟩ := (bind_eq_ok_iff _ _ _).1 h
    cases h
    exact ⟨rfl, (identifier_ok hident).1, htype, hpresence, rfl, rfl⟩

/-- The parameter of the first argument takes its identifier, and those of the others follow it. -/
theorem planParameters_cons_ok {command : String} {taken : Taken} {a : Argument} {rest : List Argument}
    {parameters : List Parameter} (h : planParameters command taken (a :: rest) = .ok parameters) :
    ∃ p taken' others, parameters = p :: others ∧
      identifier a.name command Role.argument.text = .ok p.ident ∧ p.ident ∉ reservedParameters ∧
      take taken p.ident a.name = .ok taken' ∧ IsParameterOf command a p ∧
      planParameters command taken' rest = .ok others := by
  rw [planParameters] at h
  obtain ⟨ident, hident, h⟩ := (bind_eq_ok_iff _ _ _).1 h
  split_ifs at h with hreserved
  · cases h
  obtain ⟨taken', htake, h⟩ := (bind_eq_ok_iff _ _ _).1 h
  obtain ⟨p, hp, h⟩ := (bind_eq_ok_iff _ _ _).1 h
  obtain ⟨others, hothers, h⟩ := (bind_eq_ok_iff _ _ _).1 h
  cases h
  obtain ⟨rfl, hof⟩ := planParameter_ok hident hp
  exact ⟨p, taken', others, rfl, hident, fun hin => hreserved (List.contains_iff_mem.2 hin),
    (mapError_eq_ok_iff _ _ _).1 htake, hof, hothers⟩

structure Registers (taken : Taken) (a : Argument) (p : Parameter) : Prop where
  ident : p.ident = toIdentifier a.name
  isUsable : isUsableIdentifier p.ident = true
  notReserved : p.ident ∉ reservedParameters
  taken : findField taken p.ident = some a.name

theorem planParameters_ok {command : String} {taken : Taken} {arguments : List Argument}
    {parameters : List Parameter} (h : planParameters command taken arguments = .ok parameters) :
    ∃ taken' : Taken,
      (∀ name owner, findField taken name = some owner → findField taken' name = some owner) ∧
      List.Forall₂ (Registers taken') arguments parameters := by
  induction arguments generalizing taken parameters with
  | nil =>
    cases h
    exact ⟨taken, fun _ _ h => h, .nil⟩
  | cons a rest ih =>
    obtain ⟨p, taken₁, others, rfl, hident, hreserved, htake, -, hothers⟩ := planParameters_cons_ok h
    obtain ⟨hfield, hkept⟩ := take_ok htake
    obtain ⟨taken', hkept', hregisters⟩ := ih hothers
    obtain ⟨hname, husable⟩ := identifier_ok hident
    exact ⟨taken', fun name owner howner => hkept' name owner (hkept name owner howner),
      .cons ⟨hname, husable, hreserved, hkept' p.ident a.name hfield⟩ hregisters⟩

theorem planParameters_isParameterOf {command : String} {taken : Taken} {arguments : List Argument}
    {parameters : List Parameter} (h : planParameters command taken arguments = .ok parameters) :
    List.Forall₂ (IsParameterOf command) arguments parameters := by
  induction arguments generalizing taken parameters with
  | nil =>
    cases h
    exact .nil
  | cons a rest ih =>
    obtain ⟨p, taken', others, rfl, -, -, -, hof, hothers⟩ := planParameters_cons_ok h
    exact .cons hof (ih hothers)

def commandHelp (c : Command) : String :=
  (c.help.filter (· ≠ "")).getD (Text.capitalize c.verb ++ " " ++ c.noun ++ ".")

/-- A plan says of a command what it is called, and has a parameter for each of its arguments. -/
structure IsPlanOf (c : Command) (p : CommandPlan) : Prop where
  present : missing? c = none
  noun : p.noun = c.noun
  verb : p.verb = c.verb
  nounIdent : p.nounIdent = toIdentifier c.noun
  verbIdent : p.verbIdent = toIdentifier c.verb
  isUsableNoun : isUsableIdentifier p.nounIdent = true
  isUsableVerb : isUsableIdentifier p.verbIdent = true
  parameters : ∃ taken, List.Forall₂ (Registers taken) (Argument.sort c.arguments) p.parameters

structure Names.Hold (names : Names) (p : CommandPlan) : Prop where
  noun : findField names.nouns p.nounIdent = some p.noun
  handler : findField names.handlers p.handlerName = some p.qualifiedName
  holder : findField names.holders p.holderName = some p.qualifiedName

structure Names.AreKept (names names' : Names) : Prop where
  nouns : ∀ name owner, findField names.nouns name = some owner → findField names'.nouns name = some owner
  handlers : ∀ name owner, findField names.handlers name = some owner →
    findField names'.handlers name = some owner
  holders : ∀ name owner, findField names.holders name = some owner →
    findField names'.holders name = some owner

theorem Names.AreKept.trans {names names' names'' : Names} (h : names.AreKept names')
    (h' : names'.AreKept names'') : names.AreKept names'' where
  nouns name owner howner := h'.nouns name owner (h.nouns name owner howner)
  handlers name owner howner := h'.handlers name owner (h.handlers name owner howner)
  holders name owner howner := h'.holders name owner (h.holders name owner howner)

theorem Names.Hold.of_areKept {names names' : Names} {p : CommandPlan} (h : names.Hold p)
    (hkept : names.AreKept names') : names'.Hold p where
  noun := hkept.nouns _ _ h.noun
  handler := hkept.handlers _ _ h.handler
  holder := hkept.holders _ _ h.holder

section

variable {features : Features} {names names' : Names}

/-- Planning a command uses its names as identifiers, takes what is called by them and plans its
parameters. -/
theorem planCommand_eq_ok {c : Command} {p : CommandPlan} (h : planCommand features names c = .ok (p, names')) :
    (missing? c = none ∧ p.noun = c.noun ∧ p.verb = c.verb ∧ p.help = commandHelp c) ∧
    (identifier c.noun c.qualifiedName Role.noun.text = .ok p.nounIdent ∧
      identifier c.verb c.qualifiedName Role.verb.text = .ok p.verbIdent) ∧
    (take names.nouns p.nounIdent c.noun = .ok names'.nouns ∧
      take names.handlers p.handlerName c.qualifiedName = .ok names'.handlers ∧
      take names.holders p.holderName c.qualifiedName = .ok names'.holders) ∧
    planParameters c.qualifiedName [] (Argument.sort c.arguments) = .ok p.parameters := by
  unfold planCommand at h
  dsimp only at h
  cases hmissing : missing? c with
  | some property =>
    rw [hmissing] at h
    cases h
  | none =>
    rw [hmissing] at h
    obtain ⟨nounIdent, hnounIdent, h⟩ := (bind_eq_ok_iff _ _ _).1 h
    obtain ⟨verbIdent, hverbIdent, h⟩ := (bind_eq_ok_iff _ _ _).1 h
    obtain ⟨nouns, hnouns, h⟩ := (bind_eq_ok_iff _ _ _).1 h
    split_ifs at h with hmanpage
    · cases h
    obtain ⟨handlers, hhandlers, h⟩ := (bind_eq_ok_iff _ _ _).1 h
    obtain ⟨holders, hholders, h⟩ := (bind_eq_ok_iff _ _ _).1 h
    obtain ⟨parameters, hparameters, h⟩ := (bind_eq_ok_iff _ _ _).1 h
    cases h
    exact ⟨⟨rfl, rfl, rfl, rfl⟩, ⟨hnounIdent, hverbIdent⟩,
      ⟨(mapError_eq_ok_iff _ _ _).1 hnouns, (mapError_eq_ok_iff _ _ _).1 hhandlers,
        (mapError_eq_ok_iff _ _ _).1 hholders⟩, hparameters⟩

theorem planCommand_ok {c : Command} {p : CommandPlan} (h : planCommand features names c = .ok (p, names')) :
    IsPlanOf c p ∧ names'.Hold p ∧ names.AreKept names' := by
  obtain ⟨⟨hmissing, hnoun, hverb, -⟩, ⟨hnounIdent, hverbIdent⟩, ⟨hnouns, hhandlers, hholders⟩, hparameters⟩ :=
    planCommand_eq_ok h
  have hqualified : p.qualifiedName = c.qualifiedName := by
    rw [CommandPlan.qualifiedName, hnoun, hverb]
    rfl
  obtain ⟨hnounHeld, hnounsKept⟩ := take_ok hnouns
  obtain ⟨hhandlerHeld, hhandlersKept⟩ := take_ok hhandlers
  obtain ⟨hholderHeld, hholdersKept⟩ := take_ok hholders
  obtain ⟨hnounName, hnounUsable⟩ := identifier_ok hnounIdent
  obtain ⟨hverbName, hverbUsable⟩ := identifier_ok hverbIdent
  obtain ⟨taken, -, hregisters⟩ := planParameters_ok hparameters
  exact ⟨⟨hmissing, hnoun, hverb, hnounName, hverbName, hnounUsable, hverbUsable, taken, hregisters⟩,
    ⟨hnoun ▸ hnounHeld, hqualified ▸ hhandlerHeld, hqualified ▸ hholderHeld⟩,
    ⟨hnounsKept, hhandlersKept, hholdersKept⟩⟩

/-- What holds of the plan of each command holds of the plans of commands, one by one. -/
theorem planCommands_forall₂ {P : Command → CommandPlan → Prop}
    (hP : ∀ {names names' : Names} {c : Command} {p : CommandPlan},
      planCommand features names c = .ok (p, names') → P c p)
    {commands : List Command} {plans : List CommandPlan}
    (h : planCommands features names commands = .ok plans) : List.Forall₂ P commands plans := by
  induction commands generalizing names plans with
  | nil =>
    cases h
    exact .nil
  | cons c rest ih =>
    rw [planCommands] at h
    obtain ⟨⟨plan, names'⟩, hplan, h⟩ := (bind_eq_ok_iff _ _ _).1 h
    obtain ⟨others, hothers, h⟩ := (bind_eq_ok_iff _ _ _).1 h
    cases h
    exact .cons (hP hplan) (ih hothers)

structure Describes (c : Command) (p : CommandPlan) : Prop where
  noun : p.noun = c.noun
  verb : p.verb = c.verb
  help : p.help = commandHelp c
  parameters : List.Forall₂ (IsParameterOf c.qualifiedName) (Argument.sort c.arguments) p.parameters

/-- Each command is planned with its help text and the parameters of its arguments. -/
theorem planCommands_describes {commands : List Command} {plans : List CommandPlan}
    (h : planCommands features names commands = .ok plans) : List.Forall₂ Describes commands plans := by
  refine planCommands_forall₂ (fun hplan => ?_) h
  obtain ⟨⟨-, hnoun, hverb, hhelp⟩, -, -, hparameters⟩ := planCommand_eq_ok hplan
  exact ⟨hnoun, hverb, hhelp, planParameters_isParameterOf hparameters⟩

theorem planCommands_ok {commands : List Command} {plans : List CommandPlan}
    (h : planCommands features names commands = .ok plans) :
    List.Forall₂ IsPlanOf commands plans ∧
      ∃ names', names.AreKept names' ∧ ∀ p ∈ plans, names'.Hold p := by
  induction commands generalizing names plans with
  | nil =>
    cases h
    exact ⟨.nil, names, ⟨fun _ _ h => h, fun _ _ h => h, fun _ _ h => h⟩, by simp⟩
  | cons c rest ih =>
    rw [planCommands] at h
    obtain ⟨⟨plan, names₁⟩, hplan, h⟩ := (bind_eq_ok_iff _ _ _).1 h
    obtain ⟨others, hothers, h⟩ := (bind_eq_ok_iff _ _ _).1 h
    cases h
    obtain ⟨hof, hheld, hkept⟩ := planCommand_ok hplan
    obtain ⟨hall, names', hkept', hheld'⟩ := ih hothers
    refine ⟨.cons hof hall, names', hkept.trans hkept', fun p hp => ?_⟩
    obtain rfl | hp := List.mem_cons.1 hp
    · exact hheld.of_areKept hkept'
    · exact hheld' p hp

end

theorem qualifiedName_of_plans {commands : List Command} {plans : List CommandPlan}
    (h : List.Forall₂ IsPlanOf commands plans) :
    plans.map (·.qualifiedName) = commands.map (·.qualifiedName) := by
  induction h with
  | nil => rfl
  | cons hof _ ih =>
    rw [List.map_cons, List.map_cons, ih, CommandPlan.qualifiedName, hof.noun, hof.verb]
    rfl

/-- What is related to a list one by one is related to one of its elements. -/
theorem exists_of_forall₂ {α β : Type} {R : α → β → Prop} {xs : List α} {ys : List β}
    (h : List.Forall₂ R xs ys) {y : β} (hy : y ∈ ys) : ∃ x ∈ xs, R x y := by
  induction h with
  | nil => exact absurd hy List.not_mem_nil
  | cons hfirst _ ih =>
    obtain rfl | hy := List.mem_cons.1 hy
    · exact ⟨_, List.mem_cons_self, hfirst⟩
    · obtain ⟨x, hx, hrelated⟩ := ih hy
      exact ⟨x, List.mem_cons_of_mem _ hx, hrelated⟩

theorem exists_right_of_forall₂ {α β : Type} {R : α → β → Prop} {xs : List α} {ys : List β}
    (h : List.Forall₂ R xs ys) {x : α} (hx : x ∈ xs) : ∃ y ∈ ys, R x y :=
  exists_of_forall₂ (List.Forall₂.flip (R := flip R) h) hx

theorem isUsable_of_plan {features : Features} {index : CommandIndex} {plans : List CommandPlan}
    (h : plan features index = .ok plans) :
    ∀ c ∈ plans, ∀ p ∈ c.parameters, isUsableIdentifier p.ident = true := by
  intro c hc p hp
  obtain ⟨_, -, hof⟩ := exists_of_forall₂ (planCommands_ok h).1 hc
  obtain ⟨taken, hregisters⟩ := hof.parameters
  obtain ⟨_, -, hp⟩ := exists_of_forall₂ hregisters hp
  exact hp.isUsable

section

variable {generator : Generator} {features : Features} {index : CommandIndex}

theorem generate_ok {m : GeneratedModule} (h : generator.generate features index = .ok m) :
    ∃ plans name, plan features index = .ok plans ∧ generator.name = .text name ∧
      moduleFault? (blocks ⟨name, generator.version, generator.help, features⟩ plans) = none ∧
      m.text = moduleText (blocks ⟨name, generator.version, generator.help, features⟩ plans) ∧
      m.commands = plans.map .ofPlan := by
  unfold Generator.generate at h
  obtain ⟨plans, hplans, h⟩ := (bind_eq_ok_iff _ _ _).1 h
  split at h
  next name hname =>
    dsimp only at h
    split at h
    · cases h
    next hfault =>
      obtain rfl := Except.ok.inj h
      exact ⟨plans, name, hplans, hname, hfault, by dsimp only, by dsimp only⟩
  · cases h

/-- No module is generated since commands have no plans, the program has no name or the module is not
accepted. -/
theorem generate_error {e : GenerationError} (h : generator.generate features index = .error e) :
    plan features index = .error e ∨ e = .untitled ∨
      ∃ plans name fault, plan features index = .ok plans ∧
        moduleFault? (blocks ⟨name, generator.version, generator.help, features⟩ plans) = some fault ∧
        e = .invalidModule fault := by
  unfold Generator.generate at h
  obtain h | ⟨plans, hplans, h⟩ := (bind_eq_error_iff _ _ _).1 h
  · exact .inl h
  split at h
  next name _ =>
    dsimp only at h
    split at h
    next fault hfault =>
      cases h
      exact .inr (.inr ⟨plans, name, fault, hplans, hfault, rfl⟩)
    · cases h
  · cases h
    exact .inr (.inl rfl)

end

end CommandOntology.Generation
