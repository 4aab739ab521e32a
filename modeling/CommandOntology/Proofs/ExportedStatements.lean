import CommandOntology.Proofs.Distinct
import CommandOntology.Proofs.MintedIris
import CommandOntology.Proofs.Outcomes
import CommandOntology.Proofs.WrittenIntegers

set_option autoImplicit false

namespace CommandOntology.Export

def helpFacts (help : Option String) : List (String × Term) :=
  (help.filter (· ≠ "")).toList.map fun text => (Cnv.help, .plain text)

def namedFacts (classIri name : String) : List (String × Term) :=
  [(Rdf.type, .iri classIri), (Cnv.name, .plain name)]

def argumentFacts (a : Argument) : List (String × Term) :=
  namedFacts Cnv.argument a.name ++
    [(Cnv.datatype, .plain a.typeTag),
      (Cnv.required, .typed (if a.required then "true" else "false") Xsd.boolean)] ++
    a.default.toList.map (fun text => (Cnv.default, .plain text)) ++
    a.position.toList.map (fun n => (Cnv.position, .typed (toString n) Xsd.integer)) ++
    (ordered a.validators).map (fun tag => (Cnv.validator, .plain tag)) ++ helpFacts a.help

def ownFacts (base : String) (c : CommandDefinition) : List (String × Term) :=
  [(Rdf.type, .iri Cnv.command), (Cnv.hasNoun, (Resource.noun c.noun).node base),
      (Cnv.hasVerb, (Resource.verb c.verb).node base)] ++
    (ordered c.handlers).map (fun text => (Cnv.handler, .plain text)) ++
    (ordered c.capabilities).map (fun text => (Cnv.capability, .plain text)) ++ helpFacts c.help

def commandFacts (base : String) (c : CommandDefinition) : List (String × Term) :=
  ownFacts base c ++
    c.arguments.map fun a => (Cnv.hasArgument, (Resource.argument c.key a.name).node base)

inductive Describes (base : String) (d : Definition) : Resource → List (String × Term) → Prop
  | noun (c : CommandDefinition) (hc : c ∈ d.commands) :
    Describes base d (.noun c.noun) (namedFacts Cnv.noun c.noun)
  | verb (c : CommandDefinition) (hc : c ∈ d.commands) :
    Describes base d (.verb c.verb) (namedFacts Cnv.verb c.verb)
  | command (c : CommandDefinition) (hc : c ∈ d.commands) :
    Describes base d (.command c.key) (commandFacts base c)
  | argument (c : CommandDefinition) (hc : c ∈ d.commands) (a : Argument) (ha : a ∈ c.arguments) :
    Describes base d (.argument c.key a.name) (argumentFacts a)

/-- The position of an argument, if it has one, is no longer than what can be written. -/
def HasShortPosition (a : Argument) : Prop :=
  ∀ n, a.position = some n → (integerDigits n).length ≤ integerDigitLimit

structure IsExportable (d : Definition) : Prop where
  keys : (d.commands.map CommandDefinition.key).Nodup
  handlers : ∀ c ∈ d.commands, c.handlers ≠ []
  names : ∀ c ∈ d.commands, (c.arguments.map Argument.name).Nodup
  positions : ∀ c ∈ d.commands, ∀ a ∈ c.arguments, HasShortPosition a

def statement (subject : Term) (fact : String × Term) : Triple :=
  ⟨subject, .iri fact.1, fact.2⟩

theorem helpStatements_eq (subject : Term) (help : Option String) :
    helpStatements subject help = (helpFacts help).map (statement subject) := by
  unfold helpStatements helpFacts
  cases help.filter (· ≠ "") <;> rfl

theorem positionStatements_eq_ok_iff (subject : Term) (a : Argument) (ts : List Triple) :
    positionStatements subject a.position = .ok ts ↔ HasShortPosition a ∧
      ts = a.position.toList.map
        fun n => statement subject (Cnv.position, .typed (toString n) Xsd.integer) := by
  rw [HasShortPosition]
  cases a.position with
  | none => simp [positionStatements, eq_comm]
  | some n =>
    simp only [positionStatements, bind_eq_ok_iff, mapError_eq_ok_iff, integerText_eq_ok_iff,
      Option.some.injEq, forall_eq']
    constructor
    · rintro ⟨_, ⟨hshort, rfl⟩, h⟩
      exact ⟨hshort, (Except.ok.inj h).symm⟩
    · rintro ⟨hshort, rfl⟩
      exact ⟨_, ⟨hshort, rfl⟩, rfl⟩

theorem argumentStatements_eq_ok_iff (subject : Term) (a : Argument) (ts : List Triple) :
    argumentStatements subject a = .ok ts ↔
      HasShortPosition a ∧ ts = (argumentFacts a).map (statement subject) := by
  have hfacts : (argumentFacts a).map (statement subject) =
      namedStatements subject Cnv.argument a.name ++
        [⟨subject, .iri Cnv.datatype, .plain a.typeTag⟩,
          ⟨subject, .iri Cnv.required, .typed (if a.required then "true" else "false") Xsd.boolean⟩] ++
        a.default.toList.map (fun text => ⟨subject, .iri Cnv.default, .plain text⟩) ++
        a.position.toList.map
          (fun n => statement subject (Cnv.position, .typed (toString n) Xsd.integer)) ++
        (ordered a.validators).map (fun tag => ⟨subject, .iri Cnv.validator, .plain tag⟩) ++
        helpStatements subject a.help := by
    simp [argumentFacts, namedStatements, namedFacts, helpStatements_eq, statement, Function.comp_def]
  rw [argumentStatements, bind_eq_ok_iff, hfacts]
  simp only [positionStatements_eq_ok_iff]
  constructor
  · rintro ⟨_, ⟨hshort, rfl⟩, h⟩
    exact ⟨hshort, (Except.ok.inj h).symm⟩
  · rintro ⟨hshort, rfl⟩
    exact ⟨_, ⟨hshort, rfl⟩, rfl⟩

def ofArgument (base : String) (key : CommandKey) (a : Argument) : List Triple :=
  statement (.iri (commandIri base key))
      (Cnv.hasArgument, .iri (commandIri base key ++ "/" ++ Iri.encode a.name)) ::
    (argumentFacts a).map (statement (.iri (commandIri base key ++ "/" ++ Iri.encode a.name)))

theorem argumentsStatements_eq_ok_iff (base : String) (key : CommandKey) (seen : List String)
    (arguments : List Argument) (ts : List Triple) :
    argumentsStatements key (commandIri base key) seen arguments = .ok ts ↔
      ((arguments.map Argument.name).Nodup ∧ (∀ a ∈ arguments, a.name ∉ seen) ∧
          ∀ a ∈ arguments, HasShortPosition a) ∧
        ts = arguments.flatMap (ofArgument base key) := by
  induction arguments generalizing seen ts with
  | nil => simp [argumentsStatements, eq_comm]
  | cons a rest ih =>
    by_cases ha : a.name ∈ seen
    · simp [argumentsStatements, ha, throw, throwThe, MonadExceptOf.throw, bind, Except.bind]
    · simp only [argumentsStatements, List.contains_eq_mem, ha, decide_false, Bool.false_eq_true,
        if_false, bind_eq_ok_iff, argumentStatements_eq_ok_iff, ih, List.map_cons, List.nodup_cons,
        List.mem_cons, forall_eq_or_imp, not_or, List.flatMap_cons, List.mem_map]
      constructor
      · rintro ⟨_, ⟨hshort, rfl⟩, _, ⟨⟨hn, hseen, hall⟩, rfl⟩, h⟩
        cases h
        refine ⟨⟨⟨?_, hn⟩, ⟨not_false, fun b hb => (hseen b hb).2⟩, hshort, hall⟩, rfl⟩
        rintro ⟨b, hb, he⟩
        exact (hseen b hb).1 he
      · rintro ⟨⟨⟨hnot, hn⟩, ⟨-, hseen⟩, hshort, hall⟩, rfl⟩
        exact ⟨_, ⟨hshort, rfl⟩, _, ⟨⟨hn, fun b hb => ⟨fun he => hnot ⟨b, hb, he⟩, hseen b hb⟩, hall⟩,
          rfl⟩, rfl⟩

def ofCommand (base : String) (c : CommandDefinition) : List Triple :=
  (ownFacts base c).map (statement (.iri (commandIri base c.key))) ++
    (c.arguments.mergeSort fun a b => decide (a.name ≤ b.name)).flatMap (ofArgument base c.key)

theorem commandStatements_eq_ok_iff (base : String) (c : CommandDefinition) (ts : List Triple) :
    commandStatements base c = .ok ts ↔
      ((c.arguments.map Argument.name).Nodup ∧ ∀ a ∈ c.arguments, HasShortPosition a) ∧
        ts = ofCommand base c := by
  have hperm := List.mergeSort_perm c.arguments fun a b => decide (a.name ≤ b.name)
  have hown : (ownFacts base c).map (statement (.iri (commandIri base c.key))) =
      [⟨.iri (commandIri base c.key), .iri Rdf.type, .iri Cnv.command⟩,
          ⟨.iri (commandIri base c.key), .iri Cnv.hasNoun, nounIri base c.noun⟩,
          ⟨.iri (commandIri base c.key), .iri Cnv.hasVerb, verbIri base c.verb⟩] ++
        (ordered c.handlers).map
          (fun text => ⟨.iri (commandIri base c.key), .iri Cnv.handler, .plain text⟩) ++
        (ordered c.capabilities).map
          (fun text => ⟨.iri (commandIri base c.key), .iri Cnv.capability, .plain text⟩) ++
        helpStatements (.iri (commandIri base c.key)) c.help := by
    simp [ownFacts, statement, helpStatements_eq, Resource.node_noun, Resource.node_verb,
      Function.comp_def]
  rw [commandStatements, bind_eq_ok_iff]
  simp only [argumentsStatements_eq_ok_iff, List.not_mem_nil, not_false_eq_true, implies_true,
    true_and, (hperm.map Argument.name).nodup_iff, hperm.mem_iff]
  constructor
  · rintro ⟨_, ⟨hn, rfl⟩, h⟩
    cases h
    exact ⟨hn, by rw [ofCommand, hown]⟩
  · rintro ⟨hn, rfl⟩
    exact ⟨_, ⟨hn, rfl⟩, by rw [ofCommand, hown]; rfl⟩

def ofCommands (base : String) (seen : List CommandKey) : List CommandDefinition → List Triple
  | [] => []
  | c :: rest =>
    newStatements (seen.map (·.noun)) c.noun (nounIri base c.noun) Cnv.noun ++
      newStatements (seen.map (·.verb)) c.verb (verbIri base c.verb) Cnv.verb ++
        ofCommand base c ++ ofCommands base (c.key :: seen) rest

theorem commandsStatements_eq_ok_iff (base : String) (seen : List CommandKey)
    (commands : List CommandDefinition) (ts : List Triple) :
    commandsStatements base seen commands = .ok ts ↔
      ((commands.map CommandDefinition.key).Nodup ∧ (∀ c ∈ commands, c.key ∉ seen) ∧
        (∀ c ∈ commands, c.handlers ≠ []) ∧
          ∀ c ∈ commands, (c.arguments.map Argument.name).Nodup ∧
            ∀ a ∈ c.arguments, HasShortPosition a) ∧
        ts = ofCommands base seen commands := by
  induction commands generalizing seen ts with
  | nil => simp [commandsStatements, ofCommands, eq_comm]
  | cons c rest ih =>
    by_cases hs : c.key ∈ seen
    · simp [commandsStatements, hs, throw, throwThe, MonadExceptOf.throw, bind, Except.bind]
    by_cases hh : c.handlers = []
    · simp [commandsStatements, hs, hh, throw, throwThe, MonadExceptOf.throw, bind, Except.bind]
    · simp only [commandsStatements, List.contains_eq_mem, hs, decide_false, Bool.false_eq_true,
        if_false, List.isEmpty_iff, hh, bind_eq_ok_iff, commandStatements_eq_ok_iff, ih,
        List.map_cons, List.nodup_cons, List.mem_cons, forall_eq_or_imp, not_or, List.mem_map]
      constructor
      · rintro ⟨_, ⟨hn, rfl⟩, _, ⟨⟨hk, hseen, hall, hnames⟩, rfl⟩, h⟩
        cases h
        refine ⟨⟨⟨?_, hk⟩, ⟨not_false, fun d hd => (hseen d hd).2⟩, ⟨hh, hall⟩, hn, hnames⟩, rfl⟩
        rintro ⟨d, hd, he⟩
        exact (hseen d hd).1 he
      · rintro ⟨⟨⟨hnot, hk⟩, ⟨-, hseen⟩, ⟨-, hall⟩, hn, hnames⟩, rfl⟩
        exact ⟨_, ⟨hn, rfl⟩, _, ⟨⟨hk, fun d hd => ⟨fun he => hnot ⟨d, hd, he⟩, hseen d hd⟩, hall,
          hnames⟩, rfl⟩, rfl⟩

def orderedCommands (d : Definition) : List CommandDefinition :=
  d.commands.mergeSort fun a b => CommandKey.le a.key b.key

/-- Just the definitions that can be exported have statements. -/
theorem statements_eq_ok_iff (base : String) (d : Definition) (ts : List Triple) :
    statements base d = .ok ts ↔ IsExportable d ∧ ts = ofCommands base [] (orderedCommands d) := by
  have hperm := List.mergeSort_perm d.commands fun a b => CommandKey.le a.key b.key
  rw [statements, commandsStatements_eq_ok_iff]
  simp only [List.not_mem_nil, not_false_eq_true, implies_true, true_and,
    (hperm.map CommandDefinition.key).nodup_iff, hperm.mem_iff]
  refine and_congr_left fun _ => ⟨fun ⟨hkeys, hhandlers, hall⟩ => ?_, fun h => ?_⟩
  · exact ⟨hkeys, hhandlers, fun c hc => (hall c hc).1, fun c hc => (hall c hc).2⟩
  · exact ⟨h.keys, h.handlers, fun c hc => ⟨h.names c hc, h.positions c hc⟩⟩

/-- Why a definition cannot be exported: a key or the name of an argument is there twice, a handler is
missing, or a position is too long. -/
inductive IsFault (d : Definition) : ExportError → Prop
  | duplicateCommand (c : CommandDefinition) (hc : c ∈ d.commands)
    (h : 2 ≤ (d.commands.map CommandDefinition.key).count c.key) :
    IsFault d (.duplicateCommand c.noun c.verb)
  | noHandler (c : CommandDefinition) (hc : c ∈ d.commands) (h : c.handlers = []) :
    IsFault d (.noHandler c.noun c.verb)
  | duplicateArgument (c : CommandDefinition) (hc : c ∈ d.commands) (name : String)
    (h : 2 ≤ (c.arguments.map Argument.name).count name) :
    IsFault d (.duplicateArgument c.noun c.verb name)
  | longPosition (c : CommandDefinition) (hc : c ∈ d.commands) (a : Argument) (ha : a ∈ c.arguments)
    (h : ¬HasShortPosition a) : IsFault d (.longPosition .tooLong)

/-- What is among elements that have been seen and is met again is there twice. -/
theorem two_le_count_append {α : Type} [DecidableEq α] {x : α} {seen xs : List α} (h : x ∈ seen) :
    2 ≤ (seen ++ x :: xs).count x := by
  have hseen := List.count_pos_iff.2 h
  rw [List.count_append, List.count_cons_self]
  omega

theorem count_seen {α : Type} [DecidableEq α] (x y : α) (seen xs : List α) :
    (y :: seen ++ xs).count x = (seen ++ y :: xs).count x :=
  List.perm_middle.symm.count_eq x

theorem argumentStatements_eq_error {subject : Term} {a : Argument} {e : ExportError}
    (h : argumentStatements subject a = .error e) : ¬HasShortPosition a ∧ e = .longPosition .tooLong := by
  have hfails : positionStatements subject a.position = .error e := by
    obtain h | ⟨ts, -, h⟩ := (bind_eq_error_iff _ _ _).1 h
    · exact h
    · cases h
  refine ⟨fun hshort => ?_, ?_⟩
  · have hok := (positionStatements_eq_ok_iff subject a _).2 ⟨hshort, rfl⟩
    cases hfails.symm.trans hok
  · cases hp : a.position with
    | none =>
      rw [hp] at hfails
      cases hfails
    | some n =>
      rw [hp, positionStatements, integerText] at hfails
      split_ifs at hfails
      · exact (Except.error.inj hfails).symm
      · cases hfails

theorem argumentsStatements_eq_error {key : CommandKey} {subject : String} {seen : List String}
    {arguments : List Argument} {e : ExportError}
    (h : argumentsStatements key subject seen arguments = .error e) :
    (∃ name, 2 ≤ (seen ++ arguments.map Argument.name).count name ∧
        e = .duplicateArgument key.noun key.verb name) ∨
      (∃ a ∈ arguments, ¬HasShortPosition a) ∧ e = .longPosition .tooLong := by
  induction arguments generalizing seen with
  | nil => cases h
  | cons a rest ih =>
    rw [argumentsStatements] at h
    by_cases ha : a.name ∈ seen
    · rw [List.contains_eq_mem, if_pos (by simpa using ha)] at h
      exact .inl ⟨a.name, two_le_count_append ha, (Except.error.inj h).symm⟩
    · rw [List.contains_eq_mem, if_neg (by simpa using ha)] at h
      obtain h | ⟨_, -, h⟩ := (bind_eq_error_iff _ _ _).1 h
      · obtain ⟨hlong, he⟩ := argumentStatements_eq_error h
        exact .inr ⟨⟨a, List.mem_cons_self, hlong⟩, he⟩
      obtain h | ⟨_, -, h⟩ := (bind_eq_error_iff _ _ _).1 h
      · obtain ⟨name, hcount, he⟩ | ⟨⟨b, hb, hlong⟩, he⟩ := ih h
        · exact .inl ⟨name, count_seen name a.name seen _ ▸ hcount, he⟩
        · exact .inr ⟨⟨b, List.mem_cons_of_mem a hb, hlong⟩, he⟩
      · cases h

theorem commandStatements_eq_error {base : String} {c : CommandDefinition} {e : ExportError}
    (h : commandStatements base c = .error e) :
    (∃ name, 2 ≤ (c.arguments.map Argument.name).count name ∧
        e = .duplicateArgument c.noun c.verb name) ∨
      (∃ a ∈ c.arguments, ¬HasShortPosition a) ∧ e = .longPosition .tooLong := by
  have hperm := List.mergeSort_perm c.arguments fun a b => decide (a.name ≤ b.name)
  rw [commandStatements] at h
  obtain h | ⟨_, -, h⟩ := (bind_eq_error_iff _ _ _).1 h
  · obtain ⟨name, hcount, he⟩ | ⟨⟨a, ha, hlong⟩, he⟩ := argumentsStatements_eq_error h
    · exact .inl ⟨name, (hperm.map Argument.name).count_eq name ▸ hcount, he⟩
    · exact .inr ⟨⟨a, hperm.mem_iff.1 ha, hlong⟩, he⟩
  · cases h

theorem commandsStatements_eq_error {base : String} {seen : List CommandKey}
    {commands : List CommandDefinition} {e : ExportError}
    (h : commandsStatements base seen commands = .error e) :
    (∃ c ∈ commands, 2 ≤ (seen ++ commands.map CommandDefinition.key).count c.key ∧
        e = .duplicateCommand c.noun c.verb) ∨
      ∃ c ∈ commands, (c.handlers = [] ∧ e = .noHandler c.noun c.verb) ∨
        commandStatements base c = .error e := by
  induction commands generalizing seen with
  | nil => cases h
  | cons c rest ih =>
    rw [commandsStatements] at h
    by_cases hs : c.key ∈ seen
    · rw [List.contains_eq_mem, if_pos (by simpa using hs)] at h
      exact .inl ⟨c, List.mem_cons_self, two_le_count_append hs, (Except.error.inj h).symm⟩
    rw [List.contains_eq_mem, if_neg (by simpa using hs)] at h
    by_cases hh : c.handlers = []
    · rw [hh] at h
      exact .inr ⟨c, List.mem_cons_self, .inl ⟨hh, (Except.error.inj h).symm⟩⟩
    simp only [List.isEmpty_iff, hh, if_false] at h
    obtain h | ⟨_, -, h⟩ := (bind_eq_error_iff _ _ _).1 h
    · exact .inr ⟨c, List.mem_cons_self, .inr h⟩
    obtain h | ⟨_, -, h⟩ := (bind_eq_error_iff _ _ _).1 h
    · obtain ⟨b, hb, hcount, he⟩ | ⟨b, hb, he⟩ := ih h
      · exact .inl ⟨b, List.mem_cons_of_mem c hb, count_seen b.key c.key seen _ ▸ hcount, he⟩
      · exact .inr ⟨b, List.mem_cons_of_mem c hb, he⟩
    · cases h

/-- A definition without statements has the fault that is told. -/
theorem statements_eq_error {base : String} {d : Definition} {e : ExportError}
    (h : statements base d = .error e) : IsFault d e := by
  have hperm := List.mergeSort_perm d.commands fun a b => CommandKey.le a.key b.key
  obtain ⟨c, hc, hcount, rfl⟩ | ⟨c, hc, ⟨hh, rfl⟩ | h⟩ := commandsStatements_eq_error h
  · exact .duplicateCommand c (hperm.mem_iff.1 hc) ((hperm.map CommandDefinition.key).count_eq c.key ▸ hcount)
  · exact .noHandler c (hperm.mem_iff.1 hc) hh
  · obtain ⟨name, hcount, rfl⟩ | ⟨⟨a, ha, hlong⟩, rfl⟩ := commandStatements_eq_error h
    · exact .duplicateArgument c (hperm.mem_iff.1 hc) name hcount
    · exact .longPosition c (hperm.mem_iff.1 hc) a ha hlong

theorem mem_ofArgument (base : String) (key : CommandKey) (a : Argument) (t : Triple) :
    t ∈ ofArgument base key a ↔
      t = statement ((Resource.command key).node base)
        (Cnv.hasArgument, (Resource.argument key a.name).node base) ∨
      ∃ f ∈ argumentFacts a, t = statement ((Resource.argument key a.name).node base) f := by
  rw [ofArgument, List.mem_cons, List.mem_map, Resource.node_command,
    Resource.node_argument]
  simp only [eq_comm]

theorem mem_ofCommand (base : String) (c : CommandDefinition) (t : Triple) :
    t ∈ ofCommand base c ↔
      (∃ f ∈ commandFacts base c, t = statement ((Resource.command c.key).node base) f) ∨
      ∃ a ∈ c.arguments, ∃ f ∈ argumentFacts a,
        t = statement ((Resource.argument c.key a.name).node base) f := by
  simp only [ofCommand, commandFacts, List.mem_append, List.mem_flatMap, List.mem_map,
    (List.mergeSort_perm _ _).mem_iff, mem_ofArgument, ← Resource.node_command]
  constructor
  · rintro (⟨f, hf, rfl⟩ | ⟨a, ha, rfl | hf⟩)
    · exact .inl ⟨f, .inl hf, rfl⟩
    · exact .inl ⟨_, .inr ⟨a, ha, rfl⟩, rfl⟩
    · exact .inr ⟨a, ha, hf⟩
  · rintro (⟨f, hf | ⟨a, ha, rfl⟩, rfl⟩ | ⟨a, ha, hf⟩)
    · exact .inl ⟨f, hf, rfl⟩
    · exact .inr ⟨a, ha, .inl rfl⟩
    · exact .inr ⟨a, ha, .inr hf⟩

theorem mem_newStatements (seen : List String) (name : String) (subject : Term) (classIri : String)
    (t : Triple) : t ∈ newStatements seen name subject classIri ↔
      name ∉ seen ∧ ∃ f ∈ namedFacts classIri name, t = statement subject f := by
  by_cases hs : name ∈ seen
  · simp [newStatements, hs]
  · simp [newStatements, hs, namedStatements, namedFacts, statement]

theorem exists_new_cons_iff {α β : Type} (f : α → β) (P : β → Prop) (seen : List β) (x : α)
    (xs : List α) : (∃ y ∈ x :: xs, f y ∉ seen ∧ P (f y)) ↔
      (f x ∉ seen ∧ P (f x)) ∨ ∃ y ∈ xs, f y ∉ f x :: seen ∧ P (f y) := by
  constructor
  · rintro ⟨y, hy, hnew, hp⟩
    by_cases he : f y = f x
    · exact .inl ⟨he ▸ hnew, he ▸ hp⟩
    · obtain rfl | hin := List.mem_cons.1 hy
      · exact absurd rfl he
      · exact .inr ⟨y, hin, by simp [he, hnew], hp⟩
  · rintro (⟨hnew, hp⟩ | ⟨y, hy, hnew, hp⟩)
    · exact ⟨x, List.mem_cons_self, hnew, hp⟩
    · exact ⟨y, List.mem_cons_of_mem x hy, fun h => hnew (List.mem_cons_of_mem _ h), hp⟩

theorem mem_ofCommands (base : String) (seen : List CommandKey) (commands : List CommandDefinition)
    (t : Triple) : t ∈ ofCommands base seen commands ↔
      (∃ c ∈ commands, c.noun ∉ seen.map (·.noun) ∧ ∃ f ∈ namedFacts Cnv.noun c.noun,
        t = statement ((Resource.noun c.noun).node base) f) ∨
      (∃ c ∈ commands, c.verb ∉ seen.map (·.verb) ∧ ∃ f ∈ namedFacts Cnv.verb c.verb,
        t = statement ((Resource.verb c.verb).node base) f) ∨
      ∃ c ∈ commands, t ∈ ofCommand base c := by
  induction commands generalizing seen with
  | nil => simp [ofCommands]
  | cons c rest ih =>
    rw [exists_new_cons_iff CommandDefinition.noun fun n => ∃ f ∈ namedFacts Cnv.noun n,
        t = statement ((Resource.noun n).node base) f,
      exists_new_cons_iff CommandDefinition.verb fun n => ∃ f ∈ namedFacts Cnv.verb n,
        t = statement ((Resource.verb n).node base) f]
    simp only [ofCommands, List.mem_append, mem_newStatements, ih, List.exists_mem_cons_iff,
      List.map_cons, ← Resource.node_noun, ← Resource.node_verb]
    constructor
    · rintro (((h | h) | h) | h | h | h)
      exacts [.inl (.inl h), .inr (.inl (.inl h)), .inr (.inr (.inl h)), .inl (.inr h),
        .inr (.inl (.inr h)), .inr (.inr (.inr h))]
    · rintro ((h | h) | (h | h) | h | h)
      exacts [.inl (.inl (.inl h)), .inr (.inl h), .inl (.inl (.inr h)), .inr (.inr (.inl h)),
        .inl (.inr h), .inr (.inr (.inr h))]

/-- The statements about a definition are the facts about its resources. -/
theorem mem_statements_iff (base : String) (d : Definition) (ts : List Triple)
    (h : statements base d = .ok ts) (t : Triple) : t ∈ ts ↔
      ∃ r facts, Describes base d r facts ∧ ∃ f ∈ facts, t = statement (r.node base) f := by
  obtain ⟨-, rfl⟩ := (statements_eq_ok_iff base d ts).1 h
  have hmem (c : CommandDefinition) : c ∈ orderedCommands d ↔ c ∈ d.commands :=
    (List.mergeSort_perm _ _).mem_iff
  simp only [mem_ofCommands, hmem, List.map_nil, List.not_mem_nil, not_false_eq_true, true_and,
    mem_ofCommand]
  constructor
  · rintro (⟨c, hc, f, hf, rfl⟩ | ⟨c, hc, f, hf, rfl⟩ | ⟨c, hc, ⟨f, hf, rfl⟩ | ⟨a, ha, f, hf, rfl⟩⟩)
    · exact ⟨_, _, .noun c hc, f, hf, rfl⟩
    · exact ⟨_, _, .verb c hc, f, hf, rfl⟩
    · exact ⟨_, _, .command c hc, f, hf, rfl⟩
    · exact ⟨_, _, .argument c hc a ha, f, hf, rfl⟩
  · rintro ⟨_, _, hd, f, hf, rfl⟩
    cases hd with
    | noun c hc => exact .inl ⟨c, hc, f, hf, rfl⟩
    | verb c hc => exact .inr (.inl ⟨c, hc, f, hf, rfl⟩)
    | command c hc => exact .inr (.inr ⟨c, hc, .inl ⟨f, hf, rfl⟩⟩)
    | argument c hc a ha => exact .inr (.inr ⟨c, hc, .inr ⟨a, ha, f, hf, rfl⟩⟩)

end CommandOntology.Export
