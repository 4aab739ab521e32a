import Mathlib.Data.Finset.Card
import CommandOntology.Proofs.RearrangedCommands
import CommandOntology.Proofs.Reloading

set_option autoImplicit false

namespace CommandOntology

open Export

section

variable {α κ : Type} {R : α → α → Prop} {xs ys : List α}

def AreShuffled (R : α → α → Prop) (xs ys : List α) : Prop :=
  ∃ between, xs.Perm between ∧ List.Forall₂ R between ys

theorem AreShuffled.map_perm (h : AreShuffled R xs ys) (f : α → κ) (hf : ∀ a b, R a b → f a = f b) :
    (xs.map f).Perm (ys.map f) := by
  obtain ⟨between, hp, hr⟩ := h
  exact (hp.map f).trans (.of_eq (map_eq_map_of_forall₂ f hf hr))

/-- What related elements have in common holds of all of one list just if it holds of all of the other. -/
theorem AreShuffled.forall_mem_iff (h : AreShuffled R xs ys) (P : α → Prop)
    (hP : ∀ a b, R a b → (P a ↔ P b)) : (∀ x ∈ xs, P x) ↔ ∀ y ∈ ys, P y := by
  have hperm := h.map_perm P fun a b hab => propext (hP a b hab)
  have hall (zs : List α) : (∀ z ∈ zs, P z) ↔ ∀ p ∈ zs.map P, p :=
    (List.forall_mem_map (P := fun p => p)).symm
  rw [hall, hall]
  simp only [hperm.mem_iff]

/-- In the order of keys that related elements share and that occur once, the elements are related one by
one. -/
theorem AreShuffled.mergeSort (h : AreShuffled R xs ys) (key : α → κ) (le : κ → κ → Bool)
    (trans : ∀ a b c, le a b = true → le b c = true → le a c = true)
    (total : ∀ a b, (le a b || le b a) = true) (antisymm : ∀ a b, le a b = true → le b a = true → a = b)
    (hkey : ∀ a b, R a b → key a = key b) (hn : (xs.map key).Nodup) :
    List.Forall₂ R (xs.mergeSort fun a b => le (key a) (key b))
      (ys.mergeSort fun a b => le (key a) (key b)) := by
  obtain ⟨between, hp, hr⟩ := h
  have hsame : (xs.mergeSort fun a b => le (key a) (key b)) =
      between.mergeSort fun a b => le (key a) (key b) :=
    mergeSort_eq_of_perm _ (fun a b c => trans (key a) (key b) (key c))
      (fun a b => total (key a) (key b)) xs between hp fun a ha b hb hab hba =>
        List.inj_on_of_nodup_map hn ha hb (antisymm _ _ hab hba)
  rw [hsame]
  exact forall₂_mergeSort key le hkey hr

end

def Argument.IsRearranged (a a' : Argument) : Prop :=
  ∃ validators, (∀ tag, tag ∈ a.validators ↔ tag ∈ validators) ∧ a' = { a with validators }

def CommandDefinition.IsRearranged (c c' : CommandDefinition) : Prop :=
  ∃ arguments handlers capabilities, AreShuffled Argument.IsRearranged c.arguments arguments ∧
    (∀ text, text ∈ c.handlers ↔ text ∈ handlers) ∧ (∀ text, text ∈ c.capabilities ↔ text ∈ capabilities) ∧
    c' = { c with arguments, handlers, capabilities }

/-- A definition of the same commands in another order, each of which may be rearranged. -/
def Definition.IsRearranged (d d' : Definition) : Prop :=
  AreShuffled CommandDefinition.IsRearranged d.commands d'.commands

namespace Export

theorem ordered_eq_of_mem_iff {texts texts' : List String} (h : ∀ text, text ∈ texts ↔ text ∈ texts') :
    ordered texts = ordered texts' := by
  have hp : (distinct texts).Perm (distinct texts') :=
    (List.perm_ext_iff_of_nodup (nodup_distinct texts) (nodup_distinct texts')).2 (by simpa using h)
  exact sortTexts_eq_of_perm _ _ hp

theorem name_eq_of_isRearranged (a a' : Argument) (h : a.IsRearranged a') : a.name = a'.name := by
  obtain ⟨_, -, rfl⟩ := h
  rfl

theorem key_eq_of_isRearranged (c c' : CommandDefinition) (h : c.IsRearranged c') : c.key = c'.key := by
  obtain ⟨_, _, _, -, -, -, rfl⟩ := h
  rfl

theorem argumentFacts_eq_of_isRearranged (a a' : Argument) (h : a.IsRearranged a') :
    argumentFacts a = argumentFacts a' := by
  obtain ⟨validators, htags, rfl⟩ := h
  simp only [argumentFacts, ordered_eq_of_mem_iff htags]

theorem ofCommand_eq_of_isRearranged (base : String) {c c' : CommandDefinition} (h : c.IsRearranged c')
    (hn : (c.arguments.map Argument.name).Nodup) : ofCommand base c = ofCommand base c' := by
  obtain ⟨arguments, handlers, capabilities, harguments, hhandlers, hcapabilities, rfl⟩ := h
  have hsorted := harguments.mergeSort Argument.name (fun a b => decide (a ≤ b)) textLe_trans textLe_total
    textLe_antisymm name_eq_of_isRearranged hn
  have hstatements := map_eq_map_of_forall₂ (ofArgument base c.key) (fun a a' ha => by
    simp only [ofArgument, name_eq_of_isRearranged a a' ha, argumentFacts_eq_of_isRearranged a a' ha]) hsorted
  simp only [ofCommand, ownFacts, ordered_eq_of_mem_iff hhandlers, ordered_eq_of_mem_iff hcapabilities,
    List.flatMap_def, hstatements]
  rfl

theorem ofCommands_eq_of_isRearranged (base : String) {commands commands' : List CommandDefinition}
    (h : List.Forall₂ CommandDefinition.IsRearranged commands commands')
    (hn : ∀ c ∈ commands, (c.arguments.map Argument.name).Nodup) (seen : List CommandKey) :
    ofCommands base seen commands = ofCommands base seen commands' := by
  induction h generalizing seen with
  | nil => rfl
  | @cons c c' rest rest' hc _ ih =>
    obtain ⟨hfirst, hrest⟩ := List.forall_mem_cons.1 hn
    have hkey := key_eq_of_isRearranged c c' hc
    have hnoun : c.noun = c'.noun := congrArg CommandKey.noun hkey
    have hverb : c.verb = c'.verb := congrArg CommandKey.verb hkey
    rw [ofCommands, ofCommands, hnoun, hverb, hkey, ofCommand_eq_of_isRearranged base hc hfirst,
      ih hrest]

theorem isExportable_iff_of_isRearranged {d d' : Definition} (h : d.IsRearranged d') :
    IsExportable d ↔ IsExportable d' := by
  have hkeys := (h.map_perm CommandDefinition.key key_eq_of_isRearranged).nodup_iff
  have hhandlers := h.forall_mem_iff (fun c => c.handlers ≠ []) fun c c' hc => by
    obtain ⟨_, _, _, -, hsame, -, rfl⟩ := hc
    simp only [ne_eq, List.eq_nil_iff_forall_not_mem, hsame]
  have hnames := h.forall_mem_iff (fun c => (c.arguments.map Argument.name).Nodup) fun c c' hc => by
    obtain ⟨_, _, _, hsame, -, -, rfl⟩ := hc
    exact (hsame.map_perm Argument.name name_eq_of_isRearranged).nodup_iff
  have hpositions := h.forall_mem_iff (fun c => ∀ a ∈ c.arguments, HasShortPosition a) fun c c' hc => by
    obtain ⟨_, _, _, hsame, -, -, rfl⟩ := hc
    refine hsame.forall_mem_iff _ fun a a' ha => ?_
    obtain ⟨_, -, rfl⟩ := ha
    rfl
  constructor
  · exact fun hd => ⟨hkeys.1 hd.keys, hhandlers.1 hd.handlers, hnames.1 hd.names, hpositions.1 hd.positions⟩
  · exact fun hd => ⟨hkeys.2 hd.keys, hhandlers.2 hd.handlers, hnames.2 hd.names, hpositions.2 hd.positions⟩

/-- A rearranged definition has the same statements, or none if the definition has none. -/
theorem statements_eq_ok_iff_of_isRearranged {d d' : Definition} (h : d.IsRearranged d') (base : String)
    (ts : List Triple) : statements base d = .ok ts ↔ statements base d' = .ok ts := by
  rw [statements_eq_ok_iff, statements_eq_ok_iff, ← isExportable_iff_of_isRearranged h]
  refine and_congr_right fun hd => ?_
  have hsorted := h.mergeSort CommandDefinition.key CommandKey.le CommandKey.le_trans CommandKey.le_total
    CommandKey.le_antisymm key_eq_of_isRearranged hd.keys
  have hsame := ofCommands_eq_of_isRearranged base hsorted
    (fun c hc => hd.names c (List.mem_mergeSort.1 hc)) []
  rw [orderedCommands, orderedCommands, hsame]

def groupedFacts (groups : List (String × List Term)) : List (String × Term) :=
  groups.flatMap fun group => group.2.map fun x => (group.1, x)

theorem nodup_groupedFacts {groups : List (String × List Term)} (hkeys : (groups.map (·.1)).Nodup)
    (hvalues : ∀ group ∈ groups, group.2.Nodup) : (groupedFacts groups).Nodup := by
  refine List.nodup_flatMap.2 ⟨fun group hgroup => ?_, ?_⟩
  · exact (hvalues group hgroup).map (Prod.mk_right_injective group.1)
  · refine (List.pairwise_map.1 hkeys).imp fun hne f hf hf' => hne ?_
    obtain ⟨x, -, rfl⟩ := List.mem_map.1 hf
    obtain ⟨y, -, hsame⟩ := List.mem_map.1 hf'
    exact (congrArg Prod.fst hsame).symm

theorem plain_injective : Function.Injective Term.plain :=
  fun _ _ h => congrArg Term.text h

theorem nodup_ordered_plain (texts : List String) : ((ordered texts).map Term.plain).Nodup :=
  (nodup_ordered texts).map plain_injective

theorem nodup_toList {α : Type} (x : Option α) : x.toList.Nodup := by
  cases x <;> simp

theorem nodup_argumentFacts (a : Argument) : (argumentFacts a).Nodup := by
  have hgroups : argumentFacts a = groupedFacts [(Rdf.type, [.iri Cnv.argument]), (Cnv.name, [.plain a.name]),
      (Cnv.datatype, [.plain a.typeTag]),
      (Cnv.required, [.typed (if a.required then "true" else "false") Xsd.boolean]),
      (Cnv.default, a.default.toList.map .plain),
      (Cnv.position, a.position.toList.map fun n => .typed (toString n) Xsd.integer),
      (Cnv.validator, (ordered a.validators).map .plain),
      (Cnv.help, (a.help.filter (· ≠ "")).toList.map .plain)] := by
    simp [argumentFacts, namedFacts, groupedFacts, helpFacts, Function.comp_def]
  rw [hgroups]
  refine nodup_groupedFacts (by simp only [List.map_cons, List.map_nil]; decide) ?_
  simp only [List.forall_mem_cons, List.nodup_singleton, true_and]
  exact ⟨(nodup_toList _).map plain_injective, by cases a.position <;> simp, nodup_ordered_plain _,
    (nodup_toList _).map plain_injective, by simp⟩

theorem nodup_commandFacts (base : String) {c : CommandDefinition}
    (hn : (c.arguments.map Argument.name).Nodup) : (commandFacts base c).Nodup := by
  have hgroups : commandFacts base c = groupedFacts [(Rdf.type, [.iri Cnv.command]),
      (Cnv.hasNoun, [(Resource.noun c.noun).node base]), (Cnv.hasVerb, [(Resource.verb c.verb).node base]),
      (Cnv.handler, (ordered c.handlers).map .plain), (Cnv.capability, (ordered c.capabilities).map .plain),
      (Cnv.help, (c.help.filter (· ≠ "")).toList.map .plain),
      (Cnv.hasArgument, c.arguments.map fun a => (Resource.argument c.key a.name).node base)] := by
    simp [commandFacts, ownFacts, groupedFacts, helpFacts, Function.comp_def]
  have hnodes : (c.arguments.map fun a => (Resource.argument c.key a.name).node base).Nodup := by
    have hmap := hn.map fun name name' h =>
      (Resource.argument.inj (Resource.node_inj base (.argument c.key name) (.argument c.key name') h)).2
    rwa [List.map_map] at hmap
  rw [hgroups]
  refine nodup_groupedFacts (by simp only [List.map_cons, List.map_nil]; decide) ?_
  simp only [List.forall_mem_cons, List.nodup_singleton, true_and]
  exact ⟨nodup_ordered_plain _, nodup_ordered_plain _, (nodup_toList _).map plain_injective, hnodes, by simp⟩

theorem statement_injective (subject : Term) : Function.Injective (statement subject) := by
  rintro ⟨p, x⟩ ⟨q, y⟩ h
  obtain ⟨-, hp, hx⟩ := Triple.mk.inj h
  exact Prod.ext (Term.iri.inj hp) hx

theorem ofCommand_perm (base : String) (c : CommandDefinition) : (ofCommand base c).Perm
    ((commandFacts base c).map (statement ((Resource.command c.key).node base)) ++
      c.arguments.flatMap fun a =>
        (argumentFacts a).map (statement ((Resource.argument c.key a.name).node base))) := by
  let link (a : Argument) : Triple := statement ((Resource.command c.key).node base)
    (Cnv.hasArgument, (Resource.argument c.key a.name).node base)
  let described (a : Argument) : List Triple :=
    (argumentFacts a).map (statement ((Resource.argument c.key a.name).node base))
  have hargument : ofArgument base c.key = fun a => [link a] ++ described a := by
    funext a
    simp only [ofArgument, link, described, Resource.node_command, Resource.node_argument]
    rfl
  have hlinks : (c.arguments.flatMap fun a => [link a]) = c.arguments.map link := List.map_eq_flatMap.symm
  have harguments := (List.mergeSort_perm c.arguments fun a b => decide (a.name ≤ b.name)).flatMap_right
    (ofArgument base c.key)
  have hapart := List.flatMap_append_perm c.arguments (fun a => [link a]) described
  rw [hargument] at harguments
  rw [hlinks] at hapart
  rw [ofCommand, commandFacts, List.map_append, List.map_map, List.append_assoc, Resource.node_command,
    hargument]
  refine .append_left _ ?_
  simpa only [link, described, Resource.node_command, Function.comp_def] using harguments.trans hapart.symm

theorem nodup_ofCommand (base : String) {c : CommandDefinition}
    (hn : (c.arguments.map Argument.name).Nodup) : (ofCommand base c).Nodup := by
  have hnode {r r' : Resource} {f f' : String × Term}
      (h : statement (r.node base) f = statement (r'.node base) f') : r = r' :=
    Resource.node_inj base r r' (congrArg Triple.subject h)
  rw [(ofCommand_perm base c).nodup_iff, List.nodup_append, List.nodup_flatMap]
  refine ⟨(nodup_commandFacts base hn).map (statement_injective _),
    ⟨fun a _ => (nodup_argumentFacts a).map (statement_injective _), ?_⟩, ?_⟩
  · refine (List.pairwise_map.1 hn).imp fun hne t ht ht' => hne ?_
    obtain ⟨f, -, rfl⟩ := List.mem_map.1 ht
    obtain ⟨f', -, hsame⟩ := List.mem_map.1 ht'
    exact (Resource.argument.inj (hnode hsame)).2.symm
  · intro t ht t' ht' hsame
    obtain ⟨f, -, rfl⟩ := List.mem_map.1 ht
    obtain ⟨a, -, ht'⟩ := List.mem_flatMap.1 ht'
    obtain ⟨f', -, rfl⟩ := List.mem_map.1 ht'
    cases hnode hsame

def Resource.key? : Resource → Option CommandKey
  | noun _ => none
  | verb _ => none
  | command key => some key
  | argument key _ => some key

/-- What statements about commands after those of some keys are about: the commands and their arguments, and
nouns and verbs that were not described before. -/
def Resource.IsAmong (seen : List CommandKey) (commands : List CommandDefinition) : Resource → Prop
  | noun name => name ∉ seen.map (·.noun)
  | verb name => name ∉ seen.map (·.verb)
  | command key => key ∈ commands.map CommandDefinition.key
  | argument key _ => key ∈ commands.map CommandDefinition.key

theorem Resource.isAmong_iff_of_key? {r : Resource} {key : CommandKey} (h : r.key? = some key)
    (seen : List CommandKey) (commands : List CommandDefinition) :
    r.IsAmong seen commands ↔ key ∈ commands.map CommandDefinition.key := by
  cases r <;> cases h <;> rfl

theorem exists_key?_of_mem_ofCommand {base : String} {c : CommandDefinition} {t : Triple}
    (h : t ∈ ofCommand base c) : ∃ r : Resource, r.key? = some c.key ∧ t.subject = r.node base := by
  obtain ⟨f, -, rfl⟩ | ⟨a, -, f, -, rfl⟩ := (mem_ofCommand base c t).1 h
  · exact ⟨.command c.key, rfl, rfl⟩
  · exact ⟨.argument c.key a.name, rfl, rfl⟩

theorem exists_isAmong_of_mem_ofCommands {base : String} {seen : List CommandKey}
    {commands : List CommandDefinition} {t : Triple} (h : t ∈ ofCommands base seen commands) :
    ∃ r : Resource, r.IsAmong seen commands ∧ t.subject = r.node base := by
  obtain ⟨c, -, hnew, f, -, rfl⟩ | ⟨c, -, hnew, f, -, rfl⟩ | ⟨c, hc, ht⟩ :=
    (mem_ofCommands base seen commands t).1 h
  · exact ⟨.noun c.noun, hnew, rfl⟩
  · exact ⟨.verb c.verb, hnew, rfl⟩
  · obtain ⟨r, hkey, hr⟩ := exists_key?_of_mem_ofCommand ht
    exact ⟨r, (Resource.isAmong_iff_of_key? hkey seen commands).2 (List.mem_map_of_mem hc), hr⟩

theorem nodup_newStatements (seen : List String) (name : String) (subject : Term) (classIri : String) :
    (newStatements seen name subject classIri).Nodup := by
  rw [newStatements]
  split_ifs
  · exact List.nodup_nil
  · simp [namedStatements, Rdf.type, Cnv.name]

/-- The statements about a command and those about the nouns, verbs and commands after it have different
subjects. -/
theorem nodup_ofCommands (base : String) {seen : List CommandKey} {commands : List CommandDefinition}
    (hkeys : (commands.map CommandDefinition.key).Nodup)
    (hnames : ∀ c ∈ commands, (c.arguments.map Argument.name).Nodup) :
    (ofCommands base seen commands).Nodup := by
  induction commands generalizing seen with
  | nil => exact List.nodup_nil
  | cons c rest ih =>
    obtain ⟨hnew, hkeys⟩ := List.nodup_cons.1 hkeys
    obtain ⟨hfirst, hnames⟩ := List.forall_mem_cons.1 hnames
    have hnoun {t : Triple}
        (ht : t ∈ newStatements (seen.map (·.noun)) c.noun (nounIri base c.noun) Cnv.noun) :
        t.subject = (Resource.noun c.noun).node base := by
      obtain ⟨-, f, -, rfl⟩ := (mem_newStatements _ _ _ _ t).1 ht
      exact (Resource.node_noun base c.noun).symm
    have hverb {t : Triple}
        (ht : t ∈ newStatements (seen.map (·.verb)) c.verb (verbIri base c.verb) Cnv.verb) :
        t.subject = (Resource.verb c.verb).node base := by
      obtain ⟨-, f, -, rfl⟩ := (mem_newStatements _ _ _ _ t).1 ht
      exact (Resource.node_verb base c.verb).symm
    have hsame {r r' : Resource} {t : Triple} (h : t.subject = r.node base)
        (h' : t.subject = r'.node base) : r = r' :=
      Resource.node_inj base r r' (h.symm.trans h')
    rw [ofCommands, List.nodup_append', List.nodup_append', List.nodup_append']
    refine ⟨⟨⟨nodup_newStatements _ _ _ _, nodup_newStatements _ _ _ _, fun t ht ht' => ?_⟩,
      nodup_ofCommand base hfirst, fun t ht ht' => ?_⟩, ih hkeys hnames, fun t ht ht' => ?_⟩
    · cases hsame (hnoun ht) (hverb ht')
    · obtain ⟨r, hkey, hr⟩ := exists_key?_of_mem_ofCommand ht'
      obtain ht | ht := List.mem_append.1 ht
      · obtain rfl := hsame (hnoun ht) hr
        cases hkey
      · obtain rfl := hsame (hverb ht) hr
        cases hkey
    · obtain ⟨r, hamong, hr⟩ := exists_isAmong_of_mem_ofCommands ht'
      obtain ht | ht := List.mem_append.1 ht
      · obtain ht | ht := List.mem_append.1 ht
        · obtain rfl := hsame (hnoun ht) hr
          exact hamong List.mem_cons_self
        · obtain rfl := hsame (hverb ht) hr
          exact hamong List.mem_cons_self
      · obtain ⟨r', hkey, hr'⟩ := exists_key?_of_mem_ofCommand ht
        obtain rfl := hsame hr' hr
        exact hnew ((Resource.isAmong_iff_of_key? hkey _ _).1 hamong)

theorem nodup_statements {base : String} {d : Definition} {ts : List Triple}
    (h : statements base d = .ok ts) : ts.Nodup := by
  obtain ⟨hd, rfl⟩ := (statements_eq_ok_iff base d ts).1 h
  have hperm := List.mergeSort_perm d.commands fun a b => CommandKey.le a.key b.key
  exact nodup_ofCommands base ((hperm.map _).nodup_iff.2 hd.keys) fun c hc =>
    hd.names c (hperm.mem_iff.1 hc)

/-- The number of statements that is given with a document is that of the statements about the definition. -/
theorem tripleCount_of_export {d : Definition} {options : ExportOptions} {document : ExportedDocument}
    (h : d.export options = .ok document) : ∃ base ts, options.base = .text base ∧
      statements base d = .ok ts ∧ document.tripleCount = ts.length := by
  unfold Definition.export at h
  obtain ⟨name, -, h⟩ := (bind_eq_ok_iff _ _ _).1 h
  obtain ⟨format, -, h⟩ := (bind_eq_ok_iff _ _ _).1 h
  obtain ⟨base, hbase, h⟩ := (bind_eq_ok_iff _ _ _).1 h
  split_ifs at h
  · cases h
  obtain ⟨label, -, h⟩ := (bind_eq_ok_iff _ _ _).1 h
  split_ifs at h
  · cases h
  obtain ⟨ts, hts, h⟩ := (bind_eq_ok_iff _ _ _).1 h
  obtain ⟨text, -, h⟩ := (bind_eq_ok_iff _ _ _).1 h
  cases h
  refine ⟨base, ts, ?_, hts, rfl⟩
  cases hvalue : options.base <;> rw [hvalue] at hbase <;> cases hbase
  rfl

/-- Definitions that differ in order and repetition alone have the same statements, or none. No statement is
made twice; the statements are the facts about the nouns, verbs, commands and arguments, each under an IRI
that no other resource has; and an exported document counts each once. -/
theorem statements_rearranged (base : String) (d d' : Definition) (h : d.IsRearranged d') :
    (∀ ts, statements base d = .ok ts ↔ statements base d' = .ok ts) ∧
    Function.Injective (Resource.node base) ∧
    (∀ ts, statements base d = .ok ts → ts.Nodup ∧ ∀ t, t ∈ ts ↔
      ∃ r facts, Describes base d r facts ∧ ∃ f ∈ facts, t = statement (r.node base) f) ∧
    ∀ options document, options.base = .text base → d.export options = .ok document →
      ∃ ts, statements base d = .ok ts ∧ document.tripleCount = ts.toFinset.card := by
  refine ⟨statements_eq_ok_iff_of_isRearranged h base, Resource.node_inj base,
    fun ts hts => ⟨nodup_statements hts, mem_statements_iff base d ts hts⟩,
    fun options document hbase hdocument => ?_⟩
  obtain ⟨base', ts, hbase', hts, hcount⟩ := tripleCount_of_export hdocument
  obtain rfl : base = base' := Value.text.inj (hbase.symm.trans hbase')
  exact ⟨ts, hts, by rw [hcount, List.toFinset_card_of_nodup (nodup_statements hts)]⟩

def jobsProgram : Definition :=
  { commands := [
      { noun := "jobs", verb := "list", handlers := ["b:list", "a:list"],
        arguments := [{ name := "all", typeTag := "bool", validators := ["set", "known"] },
          { name := "to/from", position := some 0 }] },
      { noun := "jobs", verb := "get", handlers := ["a:get"], capabilities := ["read"] }] }

/-- The same program in another order, with handlers, capabilities and validators that are repeated. -/
def shuffledJobsProgram : Definition :=
  { commands := [
      { noun := "jobs", verb := "get", handlers := ["a:get", "a:get"], capabilities := ["read", "read"] },
      { noun := "jobs", verb := "list", handlers := ["a:list", "b:list", "a:list"],
        arguments := [{ name := "to/from", position := some 0 },
          { name := "all", typeTag := "bool", validators := ["known", "set", "known"] }] }] }

theorem isRearranged_jobsProgram : jobsProgram.IsRearranged shuffledJobsProgram := by
  refine ⟨_, .swap _ _ _, .cons ?_ (.cons ?_ .nil)⟩
  · exact ⟨_, _, _, ⟨_, .nil, .nil⟩, by simp, by simp, rfl⟩
  · refine ⟨_, _, _, ⟨_, .swap _ _ _, .cons ?_ (.cons ?_ .nil)⟩, by simp, by simp, rfl⟩
    · exact ⟨_, by simp, rfl⟩
    · exact ⟨_, by simp, rfl⟩

theorem statements_rearranged_jobsProgram : ∃ ts document,
    statements "https://example.org/cli#" jobsProgram = .ok ts ∧
      statements "https://example.org/cli#" shuffledJobsProgram = .ok ts ∧ ts.Nodup ∧
      jobsProgram.export { format := .text "nt" } = .ok document ∧
      document.tripleCount = ts.toFinset.card := by
  have hd : IsExportable jobsProgram := by
    have hshort : ∀ c ∈ jobsProgram.commands, ∀ a ∈ c.arguments,
        a.position = none ∨ a.position = some 0 := by decide
    refine ⟨by decide, by decide, by decide, fun c hc a ha n hn => ?_⟩
    obtain h | h := hshort c hc a ha
    · rw [h] at hn
      cases hn
    · rw [h] at hn
      cases hn
      decide
  have hlines : ∀ text ∈ jobsProgram.texts, Lines.IsLine text := by decide
  obtain ⟨document, ts, hdocument, hts, -⟩ :=
    (export_spec (ExportOptions.fit_default .lines) jobsProgram fun text htext =>
      keeps_of_isLine (hlines text htext)).2 hd
  obtain ⟨hsame, -, hspec, hcount⟩ := statements_rearranged "https://example.org/cli#" _ _
    isRearranged_jobsProgram
  obtain ⟨ts', hts', hcard⟩ := hcount _ document rfl hdocument
  obtain rfl : ts = ts' := Except.ok.inj (hts.symm.trans hts')
  exact ⟨ts, document, hts, (hsame ts).1 hts, (hspec ts hts).1, hdocument, hcard⟩

end Export

end CommandOntology
