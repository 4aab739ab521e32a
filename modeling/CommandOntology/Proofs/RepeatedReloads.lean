import CommandOntology.Proofs.Reloading

set_option autoImplicit false

namespace CommandOntology

open Export Turtle View

theorem normalHelp_normalHelp (help : Option String) : normalHelp (normalHelp help) = normalHelp help := by
  simp [normalHelp, Option.filter_filter]

theorem normalArgument_normalArgument (a : Argument) (raw : String)
    (h : a.typeTag = TypeTag.normalize raw) : normalArgument (normalArgument a) = normalArgument a := by
  simp only [normalArgument, ordered_ordered, normalHelp_normalHelp, h,
    TypeTag.normalize_normalize_normalize]

theorem normalCommand_normalCommand (c : CommandDefinition) (hn : (c.arguments.map Argument.name).Nodup)
    (ht : ∀ a ∈ c.arguments, ∃ raw, a.typeTag = TypeTag.normalize raw) :
    normalCommand (.ofCommand (normalCommand c)) = normalCommand c := by
  have hperm : ((Argument.sort (c.arguments.map normalArgument)).map normalArgument).Perm
      (c.arguments.map normalArgument) := by
    have hsort := (List.mergeSort_perm (c.arguments.map normalArgument) Argument.le).map normalArgument
    have hsame : (c.arguments.map normalArgument).map normalArgument = c.arguments.map normalArgument := by
      rw [List.map_map]
      refine List.map_congr_left fun a ha => ?_
      obtain ⟨raw, hraw⟩ := ht a ha
      exact normalArgument_normalArgument a raw hraw
    rwa [hsame] at hsort
  have hnames : (((Argument.sort (c.arguments.map normalArgument)).map normalArgument).map
      Argument.name).Nodup := by
    rw [List.map_map]
    exact (names_sort_normalArgument c.arguments).nodup_iff.2 hn
  have harguments := Argument.sort_eq_of_perm _ _ hperm hnames
  simp only [normalCommand, CommandDefinition.ofCommand, ordered_ordered, normalHelp_normalHelp, harguments]

def IsNormalFormOf (d' d : Definition) : Prop :=
  d'.commands = (normalCommands d).map .ofCommand

variable {d d' : Definition} (h : IsNormalFormOf d' d)

include h

theorem IsNormalFormOf.commands_perm :
    d'.commands.Perm (d.commands.map fun c => .ofCommand (normalCommand c)) := by
  have hsort := (List.mergeSort_perm (d.commands.map normalCommand) fun a b =>
    CommandKey.le a.key b.key).map CommandDefinition.ofCommand
  rw [List.map_map] at hsort
  rw [h]
  exact hsort

theorem IsNormalFormOf.mem_commands (c' : CommandDefinition) :
    c' ∈ d'.commands ↔ ∃ c ∈ d.commands, .ofCommand (normalCommand c) = c' := by
  rw [h.commands_perm.mem_iff, List.mem_map]

omit h in
theorem mem_normalArguments (c : CommandDefinition) (a' : Argument) :
    a' ∈ (CommandDefinition.ofCommand (normalCommand c)).arguments ↔
      ∃ a ∈ c.arguments, normalArgument a = a' := by
  change a' ∈ (c.arguments.map normalArgument).mergeSort Argument.le ↔ _
  rw [(List.mergeSort_perm _ _).mem_iff, List.mem_map]

theorem IsNormalFormOf.isExportable (hd : IsExportable d) : IsExportable d' := by
  refine ⟨?_, fun c' hc' => ?_, fun c' hc' => ?_, fun c' hc' a' ha' => ?_⟩
  · have hkeys := h.commands_perm.map CommandDefinition.key
    rw [List.map_map] at hkeys
    exact hkeys.nodup_iff.2 hd.keys
  · obtain ⟨c, hc, rfl⟩ := (h.mem_commands c').1 hc'
    exact mt (ordered_eq_nil_iff c.handlers).1 (hd.handlers c hc)
  · obtain ⟨c, hc, rfl⟩ := (h.mem_commands c').1 hc'
    exact (names_sort_normalArgument c.arguments).nodup_iff.2 (hd.names c hc)
  · obtain ⟨c, hc, rfl⟩ := (h.mem_commands c').1 hc'
    obtain ⟨a, ha, rfl⟩ := (mem_normalArguments c a').1 ha'
    exact hd.positions c hc a ha

theorem IsNormalFormOf.hasNamedArguments (hn : HasNamedArguments d) : HasNamedArguments d' := by
  intro c' hc' a' ha'
  obtain ⟨c, hc, rfl⟩ := (h.mem_commands c').1 hc'
  obtain ⟨a, ha, rfl⟩ := (mem_normalArguments c a').1 ha'
  exact hn c hc a ha

theorem IsNormalFormOf.normalCommands_eq (hd : IsExportable d) (ht : HasReadTags d) :
    normalCommands d' = normalCommands d := by
  have hperm : (d'.commands.map normalCommand).Perm (d.commands.map normalCommand) := by
    have hall := h.commands_perm.map normalCommand
    rw [List.map_map] at hall
    refine hall.trans (List.Perm.of_eq (List.map_congr_left fun c hc => ?_))
    exact normalCommand_normalCommand c (hd.names c hc) (ht c hc)
  refine sortByCommandKey_eq_of_perm _ _ hperm ?_
  rw [List.map_map]
  exact (h.isExportable hd).keys

omit h in
theorem mem_toList_normalHelp {help : Option String} {text : String}
    (hin : text ∈ (normalHelp help).toList) : text ∈ help.toList := by
  rw [Option.mem_toList] at hin ⊢
  exact (Option.mem_filter_iff.1 hin).1

omit h in
theorem texts_normalArgument (a : Argument) (ht : ∃ raw, a.typeTag = TypeTag.normalize raw) (text : String)
    (htext : text ∈ (normalArgument a).texts) :
    text ∈ a.texts ∨ text ∈ TypeTag.datatypeTags.map (·.2) := by
  simp only [Argument.texts, normalArgument, List.mem_cons, List.mem_append, mem_ordered] at htext
  obtain rfl | rfl | (hdefault | hvalidator) | hhelp := htext
  · simp [Argument.texts]
  · obtain ⟨raw, hraw⟩ := ht
    obtain hsame | hnew := TypeTag.normalize_normalize raw
    · rw [hraw, hsame, ← hraw]
      simp [Argument.texts]
    · rw [hraw]
      exact .inr hnew
  · simp [Argument.texts, Option.mem_toList.1 hdefault]
  · simp [Argument.texts, hvalidator]
  · simp [Argument.texts, Option.mem_toList.1 (mem_toList_normalHelp hhelp)]

theorem IsNormalFormOf.texts (ht : HasReadTags d) (text : String) (htext : text ∈ d'.texts) :
    text ∈ d.texts ∨ text ∈ TypeTag.datatypeTags.map (·.2) := by
  obtain ⟨c', hc', htext⟩ := List.mem_flatMap.1 htext
  obtain ⟨c, hc, rfl⟩ := (h.mem_commands c').1 hc'
  have hmem (hin : text ∈ c.texts) : text ∈ d.texts := List.mem_flatMap.2 ⟨c, hc, hin⟩
  rw [CommandDefinition.texts, List.mem_cons, List.mem_cons, List.mem_append, List.mem_append,
    List.mem_append, List.mem_flatMap] at htext
  obtain rfl | rfl | ((hhandler | hcapability) | hhelp) | ⟨a', ha', htext⟩ := htext
  · exact .inl (hmem (by simp [CommandDefinition.texts, CommandDefinition.ofCommand, normalCommand]))
  · exact .inl (hmem (by simp [CommandDefinition.texts, CommandDefinition.ofCommand, normalCommand]))
  · exact .inl (hmem (by simp [CommandDefinition.texts, (mem_ordered text c.handlers).1 hhandler]))
  · exact .inl (hmem (by simp [CommandDefinition.texts, (mem_ordered text c.capabilities).1 hcapability]))
  · exact .inl (hmem (by simp [CommandDefinition.texts, Option.mem_toList.1 (mem_toList_normalHelp hhelp)]))
  · obtain ⟨a, ha, rfl⟩ := (mem_normalArguments c a').1 ha'
    refine (texts_normalArgument a (ht c hc a ha) text htext).imp_left fun hin => hmem ?_
    rw [CommandDefinition.texts]
    exact List.mem_cons_of_mem _ (List.mem_cons_of_mem _
      (List.mem_append_right _ (List.mem_flatMap.2 ⟨a, ha, hin⟩)))

omit h in
theorem mem_argumentFacts_normalArgument (a : Argument) (p : String) (hp : p ≠ Cnv.datatype) (x : Term)
    (hx : (p, x) ∈ argumentFacts (normalArgument a)) : (p, x) ∈ argumentFacts a := by
  rw [mem_argumentFacts, mem_helpFacts] at hx ⊢
  simp only [normalArgument, mem_ordered, normalHelp_normalHelp, hp, false_and, false_or] at hx ⊢
  exact hx

omit h in
theorem mem_commandFacts_normalCommand {base : String} (c : CommandDefinition) (p : String) (x : Term)
    (hx : (p, x) ∈ commandFacts base (.ofCommand (normalCommand c))) : (p, x) ∈ commandFacts base c := by
  rw [mem_commandFacts, mem_helpFacts] at hx ⊢
  simp only [mem_normalArguments] at hx
  simp only [CommandDefinition.ofCommand, normalCommand, mem_ordered, normalHelp_normalHelp,
    exists_exists_and_eq_and] at hx ⊢
  exact hx

/-- What is said of a resource in a normal form is said of it before, but for the types of arguments. -/
theorem IsNormalFormOf.describes {base : String} {r : Resource} {facts' : List (String × Term)}
    (hr : Describes base d' r facts') : ∃ facts, Describes base d r facts ∧
      ∀ p x, p ≠ Cnv.datatype → (p, x) ∈ facts' → (p, x) ∈ facts := by
  cases hr with
  | noun c' hc' =>
    obtain ⟨c, hc, rfl⟩ := (h.mem_commands c').1 hc'
    exact ⟨_, .noun c hc, fun p x _ hx => hx⟩
  | verb c' hc' =>
    obtain ⟨c, hc, rfl⟩ := (h.mem_commands c').1 hc'
    exact ⟨_, .verb c hc, fun p x _ hx => hx⟩
  | command c' hc' =>
    obtain ⟨c, hc, rfl⟩ := (h.mem_commands c').1 hc'
    exact ⟨_, .command c hc, fun p x _ hx => mem_commandFacts_normalCommand c p x hx⟩
  | argument c' hc' a' ha' =>
    obtain ⟨c, hc, rfl⟩ := (h.mem_commands c').1 hc'
    obtain ⟨a, ha, rfl⟩ := (mem_normalArguments c a').1 ha'
    exact ⟨_, .argument c hc a ha, fun p x hp hx => mem_argumentFacts_normalArgument a p hp x hx⟩

/-- A normal form agrees with every choice of predicates with one value that the definition agrees with. -/
theorem IsNormalFormOf.isSingleValued (hd : IsExportable d) {base : String} {ts ts' : List Triple}
    (hts : statements base d = .ok ts) (hts' : statements base d' = .ok ts') {functional : List String}
    (hsingle : IsSingleValued functional ts) : IsSingleValued functional ts' := by
  intro t ht u hu hfunctional hs hp
  obtain ⟨r, facts', hr, f, hf, f', hf', rfl, rfl⟩ :=
    exists_facts_of_subject_eq (h.isExportable hd) hts' t u ht hu hs
  have hpredicate : f.1 = f'.1 := Term.iri.inj hp
  by_cases hdatatype : f.1 = Cnv.datatype
  · exact eq_of_mem_facts hr f.1 (by rw [hdatatype]; decide) f.2 f'.2 hf (hpredicate ▸ hf')
  · obtain ⟨facts, hr, hsub⟩ := h.describes hr
    have hmem := mem_statements_iff base d ts hts
    exact hsingle _ ((hmem _).2 ⟨r, facts, hr, f, hsub _ _ hdatatype hf, rfl⟩) _
      ((hmem _).2 ⟨r, facts, hr, f', hsub _ _ (hpredicate ▸ hdatatype) hf', rfl⟩) hfunctional hs hp

omit h in
theorem keeps_of_mem_datatypeTags (format : DocumentFormat) (tag : String)
    (htag : tag ∈ TypeTag.datatypeTags.map (·.2)) : format.Keeps tag := by
  have hall : ∀ tag ∈ TypeTag.datatypeTags.map (·.2), Lines.IsLine tag := by decide
  cases format with
  | turtle =>
    intro hline
    exact absurd (hall tag htag '\n' hline) (by decide)
  | lines => exact keeps_of_isLine (hall tag htag)

omit h in
/-- What has been exported and read again once is the same when it is exported and read again, if the
format keeps the texts of the commands. -/
theorem Session.reload_reload (s s' : Session) (o after : ValidatedOntology) (told : Bool) (name : String)
    (options : ExportOptions) (format : DocumentFormat) (base label : String)
    (hoptions : options.Fit format base label) (hroom : 2 ≤ s.options.capacity)
    (hs : s.current = .validated o) (ho : o.IsAccepted)
    (hkept : ∀ text ∈ (Definition.ofIndex o.index name).texts, format.Keeps text)
    (hreload : s.reload name options = .ok ((told, after), s')) :
    ∃ after' s'', s'.reload name options = .ok ((true, after'), s'') := by
  obtain ⟨validator, ontology, hvalidate⟩ := ho
  obtain ⟨-, index, hindex, rfl⟩ := (validator.validate_eq_ok_iff ontology o).1 hvalidate
  have htags := buildIndex_hasReadTags index hindex name
  obtain ⟨hok, hresult⟩ := s.reload_spec hs name hoptions hkept hroom
  obtain ⟨hd, hsingle, hnamed⟩ := hok.1 ⟨_, hreload⟩
  obtain ⟨hcontent, -, rfl⟩ := hresult told after s' hreload
  have hnormal : IsNormalFormOf (.ofIndex after.index name) (.ofIndex index name) := by
    rw [IsNormalFormOf, ← hcontent, List.map_map]
    rfl
  have hkept' : ∀ text ∈ (Definition.ofIndex after.index name).texts, format.Keeps text :=
    fun text htext => (hnormal.texts htags text htext).elim (hkept text)
      (keeps_of_mem_datatypeTags format text)
  obtain ⟨hok', hresult'⟩ :=
    reload_spec { s with current := .validated after } rfl name hoptions hkept' hroom
  obtain ⟨ts, hts⟩ : ∃ ts, statements base (.ofIndex index name) = .ok ts :=
    ⟨_, (statements_eq_ok_iff base _ _).2 ⟨hd, rfl⟩⟩
  obtain ⟨⟨⟨told', after'⟩, s''⟩, hagain⟩ := hok'.2 ⟨hnormal.isExportable hd,
    fun ts' hts' => hnormal.isSingleValued hd hts hts' (hsingle ts hts),
    hnormal.hasNamedArguments hnamed⟩
  obtain ⟨hcontent', rfl, -⟩ := hresult' told' after' s'' hagain
  have hsame : after'.index.same after.index = true := by
    rw [CommandIndex.same, hcontent', hnormal.normalCommands_eq hd htags, hcontent]
    exact decide_eq_true rfl
  rw [hsame] at hagain
  exact ⟨after', s'', hagain⟩

omit h in
/-- The document of a program of one command is read, and exported and read twice. -/
theorem Session.reload_reload_podsProgram : ∃ document s o s₁,
    podsProgram.export { format := .text "nt" } = .ok document ∧
      start {} .memory {} true document.document = .ok s ∧ s.validate none = .ok (o, s₁) ∧
        ∃ told after s₂, s₁.reload "cli" { format := .text "nt" } = .ok ((told, after), s₂) ∧
          ∃ after' s₃, s₂.reload "cli" { format := .text "nt" } = .ok ((true, after'), s₃) := by
  obtain ⟨hd, hn, hkept⟩ := podsProgram_spec
  have hfit := ExportOptions.fit_default .lines
  obtain ⟨document, s, o, s₁, hdocument, hstart, hvalid, hcontent⟩ :=
    start_export {} hfit podsProgram hkept hd hn
  have hsame := ofIndex_eq_podsProgram hcontent
  obtain ⟨⟨hcurrent, hparser, haccepted⟩, -⟩ := validated_spec hstart hvalid "cli"
  have hroom : 2 ≤ s₁.options.capacity := by
    rw [hparser]
    decide
  obtain ⟨⟨⟨told, after⟩, s₂⟩, hreload⟩ :=
    (s₁.reload_spec hcurrent "cli" hfit (by rwa [hsame]) hroom).1.2 (by
      rw [hsame, hparser]
      exact ⟨hd, fun ts hts => isSingleValued_statements hd hts, hn⟩)
  exact ⟨document, s, o, s₁, hdocument, hstart, hvalid, told, after, s₂, hreload,
    reload_reload s₁ s₂ o after told "cli" _ _ _ _ hfit hroom hcurrent haccepted (by rwa [hsame]) hreload⟩

end CommandOntology
