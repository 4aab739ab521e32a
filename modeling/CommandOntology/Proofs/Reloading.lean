import CommandOntology.Proofs.ExportedDocuments
import CommandOntology.Proofs.InsertedLayout
import CommandOntology.Proofs.ValidatedCommands
import CommandOntology.Session

set_option autoImplicit false

namespace CommandOntology

open Export Turtle View

section

variable {base : String} {d : Definition} {ts : List Triple}

theorem exists_facts_of_subject_eq (hd : IsExportable d) (hts : statements base d = .ok ts) (t u : Triple)
    (ht : t ∈ ts) (hu : u ∈ ts) (heq : t.subject = u.subject) : ∃ r facts, Describes base d r facts ∧
      ∃ f ∈ facts, ∃ f' ∈ facts, t = statement (r.node base) f ∧ u = statement (r.node base) f' := by
  obtain ⟨r, facts, hr, f, hf, rfl⟩ := (mem_statements_iff base d ts hts t).1 ht
  obtain ⟨r', facts', hr', f', hf', rfl⟩ := (mem_statements_iff base d ts hts u).1 hu
  obtain rfl := Resource.node_inj base r r' heq
  obtain rfl := hr.unique hd hr'
  exact ⟨r, facts, hr, f, hf, f', hf', rfl, rfl⟩

theorem eq_of_mem_commandFacts (c : CommandDefinition) (p : String) (hp : p ∈ functionalPredicates)
    (x y : Term) (hx : (p, x) ∈ commandFacts base c) (hy : (p, y) ∈ commandFacts base c) : x = y := by
  obtain ⟨hnoun, hverb, -⟩ := commandFacts_iff base c
  have hother : ∀ p ∈ [Cnv.name, Cnv.datatype, Cnv.required, Cnv.default, Cnv.position],
      ∀ x, (p, x) ∉ commandFacts base c := by
    simp [mem_commandFacts, mem_helpFacts, Rdf.type, Cnv.name, Cnv.datatype, Cnv.required, Cnv.default,
      Cnv.position, Cnv.hasNoun, Cnv.hasVerb, Cnv.handler, Cnv.capability, Cnv.hasArgument, Cnv.help]
  by_cases hin : p ∈ [Cnv.name, Cnv.datatype, Cnv.required, Cnv.default, Cnv.position]
  · exact absurd hx (hother p hin x)
  · obtain rfl | rfl : p = Cnv.hasNoun ∨ p = Cnv.hasVerb := by
      simp only [functionalPredicates, List.mem_cons, List.not_mem_nil, or_false] at hp hin
      tauto
    · rw [(hnoun x).1 hx, (hnoun y).1 hy]
    · rw [(hverb x).1 hx, (hverb y).1 hy]

theorem eq_of_mem_argumentFacts (a : Argument) (p : String) (hp : p ∈ functionalPredicates)
    (x y : Term) (hx : (p, x) ∈ argumentFacts a) (hy : (p, y) ∈ argumentFacts a) : x = y := by
  obtain ⟨hname, hdatatype, hrequired, hdefault, hposition, -⟩ := argumentFacts_iff a
  have hother : ∀ p ∈ [Cnv.hasNoun, Cnv.hasVerb], ∀ x, (p, x) ∉ argumentFacts a := by
    simp [mem_argumentFacts, mem_helpFacts, Rdf.type, Cnv.name, Cnv.datatype, Cnv.required, Cnv.default,
      Cnv.position, Cnv.validator, Cnv.hasNoun, Cnv.hasVerb, Cnv.help]
  by_cases hin : p ∈ [Cnv.hasNoun, Cnv.hasVerb]
  · exact absurd hx (hother p hin x)
  · obtain rfl | rfl | rfl | rfl | rfl : p = Cnv.name ∨ p = Cnv.datatype ∨ p = Cnv.required ∨
        p = Cnv.default ∨ p = Cnv.position := by
      simp only [functionalPredicates, List.mem_cons, List.not_mem_nil, or_false] at hp hin
      tauto
    · rw [(hname x).1 hx, (hname y).1 hy]
    · rw [(hdatatype x).1 hx, (hdatatype y).1 hy]
    · rw [(hrequired x).1 hx, (hrequired y).1 hy]
    · obtain ⟨text, htext, rfl⟩ := (hdefault x).1 hx
      obtain ⟨text', htext', rfl⟩ := (hdefault y).1 hy
      rw [Option.some.inj (htext.symm.trans htext')]
    · obtain ⟨n, hn, rfl⟩ := (hposition x).1 hx
      obtain ⟨n', hn', rfl⟩ := (hposition y).1 hy
      rw [Option.some.inj (hn.symm.trans hn')]

theorem eq_of_mem_facts {r : Resource} {facts : List (String × Term)} (hr : Describes base d r facts)
    (p : String) (hp : p ∈ functionalPredicates) (x y : Term) (hx : (p, x) ∈ facts)
    (hy : (p, y) ∈ facts) : x = y := by
  have hnamed (classIri name : String) (hx : (p, x) ∈ namedFacts classIri name)
      (hy : (p, y) ∈ namedFacts classIri name) : x = y := by
    have hne : Rdf.type ≠ Cnv.name := by decide
    obtain ⟨rfl, rfl⟩ | ⟨rfl, rfl⟩ := (mem_namedFacts _ _ p x).1 hx <;>
      obtain ⟨hpy, rfl⟩ | ⟨hpy, rfl⟩ := (mem_namedFacts _ _ _ y).1 hy
    · rfl
    · exact absurd hpy hne
    · exact absurd hpy.symm hne
    · rfl
  cases hr with
  | noun c hc => exact hnamed _ _ hx hy
  | verb c hc => exact hnamed _ _ hx hy
  | command c hc => exact eq_of_mem_commandFacts c p hp x y hx hy
  | argument c hc a ha => exact eq_of_mem_argumentFacts a p hp x y hx hy

/-- The statements about a definition give no resource two values of a property that may have one. -/
theorem isSingleValued_statements (hd : IsExportable d) (hts : statements base d = .ok ts) :
    IsSingleValued functionalPredicates ts := by
  intro t ht u hu hfunctional hs hp
  obtain ⟨r, facts, hr, f, hf, f', hf', rfl, rfl⟩ := exists_facts_of_subject_eq hd hts t u ht hu hs
  have hpredicate : f.1 = f'.1 := Term.iri.inj hp
  refine eq_of_mem_facts hr f.1 ?_ f.2 f'.2 hf (hpredicate ▸ hf')
  simpa [isFunctional, statement] using hfunctional

end

/-- Options that name a format, an open base and a prefix of its own, which the format keeps. -/
structure ExportOptions.Fit (options : ExportOptions) (format : DocumentFormat) (base label : String) :
    Prop where
  namesFormat : ∃ name, options.format = .text name ∧ DocumentFormat.ofName name = .ok format
  namesBase : options.base = .text base
  namesLabel : options.label = .text label
  isOpen : endsOpen base = true
  isIdentifier : Text.isIdentifier label.toList = true
  isCanonical : IsCanonicalIri base
  keeps : format.Keeps base
  isOwn : IsOwnPrefix label base

theorem ExportOptions.fit_default (format : DocumentFormat) :
    ExportOptions.Fit { format := .text format.name } format "https://example.org/cli#" "cli" where
  namesFormat := ⟨format.name, rfl, by cases format <;> decide⟩
  namesBase := rfl
  namesLabel := rfl
  isOpen := by decide
  isIdentifier := by decide
  isCanonical := ⟨by decide, by decide⟩
  keeps := by
    cases format with
    | turtle =>
      intro hline
      exact absurd hline (by decide)
    | lines => exact keeps_of_isLine (by decide)
  isOwn := ⟨by decide, by decide⟩

variable {options : ExportOptions} {format : DocumentFormat} {base label : String}

theorem export_eq (h : options.Fit format base label) (d : Definition) : d.export options =
    (statements base d).bind fun ts =>
      (writeTriples (putField standardNamespaces label base) ts format).map fun document =>
        ⟨document, ts.length, format,
          (putField standardNamespaces label base).mergeSort fun a b => decide (a.1 ≤ b.1)⟩ := by
  obtain ⟨name, hname, hformat⟩ := h.namesFormat
  simp only [Definition.export, hname, h.namesBase, h.namesLabel, exportText, hformat, h.isOpen, h.isIdentifier,
    bind, Except.bind, pure, Except.pure, Bool.not_true, Bool.false_eq_true, if_false]
  cases statements base d with
  | error e => rfl
  | ok ts =>
    dsimp only
    cases writeTriples (putField standardNamespaces label base) ts format <;> rfl

theorem exists_export_iff (h : options.Fit format base label) (d : Definition) :
    (∃ document, d.export options = .ok document) ↔ IsExportable d := by
  rw [export_eq h d]
  constructor
  · rintro ⟨document, hdocument⟩
    cases hts : statements base d with
    | error e =>
      rw [hts] at hdocument
      cases hdocument
    | ok ts => exact ((statements_eq_ok_iff base d ts).1 hts).1
  · intro hd
    have hts := (statements_eq_ok_iff base d _).2 ⟨hd, rfl⟩
    obtain ⟨text, htext⟩ := exists_writeTriples h.isCanonical hts (putField standardNamespaces label base) format
    exact ⟨_, by rw [hts, Except.bind, htext]; rfl⟩

theorem isFault_of_export (h : options.Fit format base label) {d : Definition} {e : ExportError}
    (he : d.export options = .error e) : IsFault d e := by
  rw [export_eq h d] at he
  cases hts : statements base d with
  | error e' =>
    rw [hts] at he
    exact statements_eq_error (hts.trans (congrArg Except.error (Except.error.inj he)))
  | ok ts =>
    obtain ⟨text, htext⟩ := exists_writeTriples h.isCanonical hts (putField standardNamespaces label base) format
    rw [hts, Except.bind, htext] at he
    cases he

/-- The document of an exported definition holds the statements about it, if it is read at all. -/
theorem export_spec (h : options.Fit format base label) (d : Definition)
    (hkept : ∀ text ∈ d.texts, format.Keeps text) :
    (∀ document, d.export options = .ok document → IsExportable d) ∧
      (IsExportable d → ∃ document ts, d.export options = .ok document ∧ statements base d = .ok ts ∧
        ∀ options : ParserOptions, 2 ≤ options.capacity →
          ((∃ doc, parse options document.document = .ok doc) ↔
            IsSingleValued options.functional ts) ∧
          ∀ doc, parse options document.document = .ok doc → ∀ t, t ∈ doc.triples ↔ t ∈ ts) := by
  refine ⟨fun document hdocument => (exists_export_iff h d).1 ⟨document, hdocument⟩, fun hd => ?_⟩
  rw [export_eq h d]
  have hts := (statements_eq_ok_iff base d _).2 ⟨hd, rfl⟩
  obtain ⟨text, ls, us, hwrite, hlexemes, hmem, hout⟩ :=
    writeTriples_givesOut h.isOwn h.isCanonical h.isOpen hts format h.keeps hkept
  refine ⟨_, _, by rw [hts, Except.bind, hwrite]; rfl, hts, fun options hroom => ?_⟩
  obtain ⟨hread, hdistinct⟩ := parse_eq_ok_of_givesOut (by omega) hlexemes (hout options hroom)
  refine ⟨hread.trans (isSingleValued_congr hmem), fun doc hdoc t => ?_⟩
  rw [hdistinct doc hdoc, mem_distinct, hmem]

/-- A document in which no escape names a surrogate: where a quoted text is read, the code points that its escapes give
are those of characters. -/
def NamesCharacters (text : List Char) : Prop :=
  ∀ before quote written rest value, text = before ++ quote :: (written ++ rest) →
    IsBoundary before (quote :: (written ++ rest)) →
    scan quote (written ++ rest) = .ok (.text value, written.length) →
    ∀ n ∈ Text.codePoints written, n.isValidChar

theorem namesCharacters_of_not_mem {text : List Char} (h : '\\' ∉ text) : NamesCharacters text := by
  rintro before quote written rest value rfl - - n hn
  have hwritten : '\\' ∉ written := fun hmem => h (by simp [hmem])
  rw [Text.codePoints_eq_nil hwritten] at hn
  cases hn

namespace Session

theorem read_eq_ok_iff (s : Session) (text : String) (o : ValidatedOntology) : s.read text = .ok o ↔
    ∃ doc, parse s.options text = .ok doc ∧
      s.validator.validate (.ofDocument s.backend (some s.validator) doc) = .ok o := by
  rw [read, bind_eq_ok_iff]
  simp only [mapError_eq_ok_iff]
  rfl

/-- Reading the statements about a definition gives its commands in normal form, if its arguments have
names. -/
theorem read_spec (s : Session) {d : Definition} {ts : List Triple} (hd : IsExportable d)
    (hts : statements base d = .ok ts) {text : String} {doc : Document}
    (hdoc : parse s.options text = .ok doc) (hmem : ∀ t, t ∈ doc.triples ↔ t ∈ ts) :
    ((∃ o, s.read text = .ok o) ↔ HasNamedArguments d) ∧
      ∀ o, s.read text = .ok o → o.index.commands.map Command.content = normalCommands d := by
  have hsettled : AreSettled doc.triples := fun t ht =>
    areSettled_statements hts t ((hmem t).1 ht)
  have hshows : (View.ofStore (.ofList s.backend doc.triples)).Shows (distinct doc.triples) base d :=
    ⟨hd, View.reads_ofList s.backend doc.triples hsettled, fun t => by
      rw [mem_distinct, hmem, mem_statements_iff base d ts hts]⟩
  have hvalid := hshows.isValid_iff s.validator
  have hread (o : ValidatedOntology) : s.read text = .ok o ↔
      s.validator.validate (.ofDocument s.backend (some s.validator) doc) = .ok o := by
    rw [read_eq_ok_iff, hdoc]
    exact ⟨fun ⟨_, heq, ho⟩ => Except.ok.inj heq ▸ ho, fun ho => ⟨doc, rfl, ho⟩⟩
  simp only [hread, Validator.validate_eq_ok_iff]
  constructor
  · constructor
    · rintro ⟨o, hok, -⟩
      exact hvalid.1 hok
    · intro hgood
      obtain ⟨index, hindex, -⟩ := hshows.buildIndex_eq
      exact ⟨_, hvalid.2 hgood, index, hindex, rfl⟩
  · rintro o ⟨-, index, hindex, rfl⟩
    obtain ⟨index', hindex', hcontent⟩ := hshows.buildIndex_eq
    cases hindex.symm.trans hindex'
    exact hcontent

/-- A document of the statements about a definition is accepted, if the arguments have names. -/
theorem start_spec (validator : Validator) {d : Definition} {ts : List Triple} (hd : IsExportable d)
    (hn : HasNamedArguments d) (hts : statements base d = .ok ts) {text : String} {doc : Document}
    (hdoc : parse {} text = .ok doc) (hmem : ∀ t, t ∈ doc.triples ↔ t ∈ ts) :
    ∃ s o s', start {} .memory validator true text = .ok s ∧ s.validate none = .ok (o, s') ∧
      o.index.commands.map Command.content = normalCommands d := by
  let s : Session := ⟨{}, .memory, validator, .parsed (.ofDocument .memory (some validator) doc)⟩
  obtain ⟨hread, hcontent⟩ := s.read_spec hd hts hdoc hmem
  obtain ⟨o, ho⟩ := hread.2 hn
  obtain ⟨doc', hdoc', hvalidate⟩ := (s.read_eq_ok_iff _ o).1 ho
  obtain rfl : doc' = doc := Except.ok.inj (hdoc'.symm.trans hdoc)
  have hstart : start {} .memory validator true text = .ok s :=
    (bind_eq_ok_iff _ _ _).2 ⟨doc', hdoc, rfl⟩
  have hvalid : s.validate none = .ok (o, { s with current := .validated o }) :=
    (bind_eq_ok_iff _ _ _).2 ⟨o, (mapError_eq_ok_iff _ _ _).2 hvalidate, rfl⟩
  exact ⟨s, o, _, hstart, hvalid, hcontent o ho⟩

/-- A session can begin with the document of every definition that is kept and accepted. -/
theorem start_export (validator : Validator) (h : options.Fit format base label) (d : Definition)
    (hkept : ∀ text ∈ d.texts, format.Keeps text) (hd : IsExportable d) (hn : HasNamedArguments d) :
    ∃ document s o s', d.export options = .ok document ∧
      start {} .memory validator true document.document = .ok s ∧ s.validate none = .ok (o, s') ∧
        o.index.commands.map Command.content = normalCommands d := by
  obtain ⟨document, ts, hdocument, hts, hall⟩ := (export_spec h d hkept).2 hd
  obtain ⟨hparse, hmem⟩ := hall {} (by decide)
  obtain ⟨doc, hdoc⟩ := hparse.2 (isSingleValued_statements hd hts)
  obtain ⟨s, o, s', hstart, hvalid, hcontent⟩ := start_spec validator hd hn hts hdoc (hmem doc hdoc)
  exact ⟨document, s, o, s', hdocument, hstart, hvalid, hcontent⟩

theorem reload_eq (s : Session) {o : ValidatedOntology} (hs : s.current = .validated o) (name : String)
    (options : ExportOptions) : s.reload name options =
      (((Definition.ofIndex o.index name).export options).mapError SessionError.export).bind fun e =>
        (s.read e.document).map fun after =>
          ((after.index.same o.index, after), { s with current := .validated after }) := by
  have hvalidated : s.requireValidated = .ok o := by rw [requireValidated, hs]
  simp only [reload, exportDocument, hvalidated, bind, Except.bind]
  cases ((Definition.ofIndex o.index name).export options).mapError SessionError.export with
  | error e => rfl
  | ok document =>
    dsimp only
    cases s.read document.document <;> rfl

/-- Exporting and reading again ends well just for commands that can be exported, whose document the
parser admits, and whose arguments have names. It gives them in normal form. -/
theorem reload_spec (s : Session) {o : ValidatedOntology} (hs : s.current = .validated o) (name : String)
    (h : options.Fit format base label)
    (hkept : ∀ text ∈ (Definition.ofIndex o.index name).texts, format.Keeps text)
    (hroom : 2 ≤ s.options.capacity) :
    ((∃ result, s.reload name options = .ok result) ↔
      IsExportable (.ofIndex o.index name) ∧
        (∀ ts, statements base (.ofIndex o.index name) = .ok ts →
          IsSingleValued s.options.functional ts) ∧
        HasNamedArguments (.ofIndex o.index name)) ∧
    ∀ told after s', s.reload name options = .ok ((told, after), s') →
      after.index.commands.map Command.content = normalCommands (.ofIndex o.index name) ∧
        told = after.index.same o.index ∧ s' = { s with current := .validated after } := by
  rw [reload_eq s hs name options]
  obtain ⟨hexportable, hall⟩ := export_spec h (.ofIndex o.index name) hkept
  by_cases hd : IsExportable (.ofIndex o.index name)
  · obtain ⟨e, ts, he, hts, hdocument⟩ := hall hd
    obtain ⟨hparse, hmem⟩ := hdocument s.options hroom
    have hsingle : (∀ ts', statements base (.ofIndex o.index name) = .ok ts' →
        IsSingleValued s.options.functional ts') ↔ IsSingleValued s.options.functional ts := by
      rw [hts]
      exact ⟨fun hsingle => hsingle ts rfl, fun hsingle ts' hts' => Except.ok.inj hts' ▸ hsingle⟩
    rw [he, hsingle, and_iff_right hd, ← hparse]
    simp only [Except.mapError, Except.bind, map_eq_ok_iff]
    cases hdoc : parse s.options e.document with
    | error error =>
      have hfails : s.read e.document = .error (.document error) := by
        rw [read, hdoc]
        rfl
      rw [hfails]
      simp
    | ok doc =>
      obtain ⟨hread, hcontent⟩ := s.read_spec hd hts hdoc (hmem doc hdoc)
      rw [← hread]
      constructor
      · constructor
        · rintro ⟨-, after, hafter, -⟩
          exact ⟨⟨doc, rfl⟩, after, hafter⟩
        · rintro ⟨-, after, hafter⟩
          exact ⟨_, after, hafter, rfl⟩
      · rintro told after s' ⟨after', hafter, heq⟩
        cases heq
        exact ⟨hcontent after hafter, rfl, rfl⟩
  · cases he : (Definition.ofIndex o.index name).export options with
    | ok e => exact absurd (hexportable e he) hd
    | error error => simp [Except.mapError, Except.bind, hd]

/-- The commands of an accepted document can be exported and are accepted again. -/
theorem validated_spec {text : String} {own : Validator} {hasValidator : Bool}
    {validator : Option Validator} {s s' : Session} {o : ValidatedOntology}
    (hstart : start {} .memory own hasValidator text = .ok s) (hvalid : s.validate validator = .ok (o, s'))
    (name : String) : (s'.current = .validated o ∧ s'.options = {} ∧ o.IsAccepted) ∧
      IsExportable (.ofIndex o.index name) ∧ HasNamedArguments (.ofIndex o.index name) := by
  obtain ⟨doc, -, hs⟩ := (bind_eq_ok_iff _ _ _).1 hstart
  cases hs
  obtain ⟨o', hvalidate, hs'⟩ := (bind_eq_ok_iff _ _ _).1 hvalid
  obtain ⟨rfl, hstate⟩ := Prod.mk.inj (Except.ok.inj hs')
  obtain ⟨chosen, -, hvalidate⟩ :=
    (Ontology.validate_eq_ok_iff _ _ _).1 ((mapError_eq_ok_iff _ _ _).1 hvalidate)
  refine ⟨⟨hstate ▸ rfl, hstate ▸ rfl, chosen, _, hvalidate⟩, ?_⟩
  obtain ⟨hreport, index, hindex, rfl⟩ := (chosen.validate_eq_ok_iff _ _).1 hvalidate
  exact buildIndex_isExportable (View.reads_memory doc.triples) chosen hreport index hindex name

/-- The commands of an accepted document are exported and read again in normal form, in every format that
keeps their texts. They are the same just if they have been in normal form. Documents that name surrogates are left
out: what `Text.readEscape` makes of them is not what they say. -/
theorem reload_validated (text : String) (own : Validator) (hasValidator : Bool)
    (validator : Option Validator) (s s' : Session) (o : ValidatedOntology) (_hnames : NamesCharacters text.toList)
    (hstart : start {} .memory own hasValidator text = .ok s) (hvalid : s.validate validator = .ok (o, s'))
    (name : String) (options : ExportOptions) (format : DocumentFormat) (base label : String)
    (hoptions : options.Fit format base label)
    (hkept : ∀ text ∈ (Definition.ofIndex o.index name).texts, format.Keeps text) :
    ∃ told after s'', s'.reload name options = .ok ((told, after), s'') ∧
      after.index.commands.map Command.content = normalCommands (.ofIndex o.index name) ∧
      (told = true ↔ o.index.commands.map Command.content = normalCommands (.ofIndex o.index name)) := by
  obtain ⟨⟨hcurrent, hparser, -⟩, hd, hnamed⟩ := validated_spec hstart hvalid name
  obtain ⟨hok, hresult⟩ := s'.reload_spec hcurrent name hoptions hkept (by rw [hparser]; decide)
  obtain ⟨⟨⟨told, after⟩, s''⟩, hreload⟩ := hok.2 ⟨hd, fun ts hts => by
    rw [hparser]
    exact isSingleValued_statements hd hts, hnamed⟩
  obtain ⟨hcontent, htold, -⟩ := hresult told after s'' hreload
  refine ⟨told, after, s'', hreload, hcontent, ?_⟩
  rw [htold, CommandIndex.same, hcontent, decide_eq_true_iff, eq_comm]

end Session

def podsProgram : Definition :=
  { commands := [{ noun := "pods", verb := "list", handlers := ["app:list"] }] }

theorem podsProgram_spec : IsExportable podsProgram ∧ HasNamedArguments podsProgram ∧
    ∀ text ∈ podsProgram.texts, DocumentFormat.lines.Keeps text := by
  have harguments : ∀ c ∈ podsProgram.commands, c.arguments = [] := by decide
  refine ⟨⟨by decide, by decide, by decide, fun c hc => ?_⟩, fun c hc => ?_,
    fun text htext => keeps_of_isLine ?_⟩
  · simp [harguments c hc]
  · simp [harguments c hc]
  · have hall : ∀ text ∈ podsProgram.texts, Lines.IsLine text := by decide
    exact hall text htext

theorem ofIndex_eq_podsProgram {index : CommandIndex}
    (h : index.commands.map Command.content = normalCommands podsProgram) :
    Definition.ofIndex index "cli" = podsProgram := by
  have hnormal : (normalCommands podsProgram).map .ofCommand = podsProgram.commands := by
    have hordered : ordered ["app:list"] = ["app:list"] := List.mergeSort_singleton _
    have hnone : ordered [] = [] := List.mergeSort_nil
    have hsort : Argument.sort [] = [] := List.mergeSort_nil
    simp only [normalCommands, podsProgram, List.map_cons, List.map_nil, normalCommand, normalHelp,
      Option.filter_none, List.mergeSort_singleton, hordered, hnone, hsort,
      CommandDefinition.ofCommand]
  have hcommands : index.commands.map .ofCommand = podsProgram.commands := by
    rw [← hnormal, ← h, List.map_map]
    rfl
  rw [Definition.ofIndex, hcommands]
  rfl

def podsText : String :=
  "@prefix c: <https://cnv.dev/ontology#> .
<u:noun/pods> a c:Noun ; c:name 'pods' . <u:verb/list> a c:Verb ; c:name 'list' .
<u:command/pods/list> a c:Command ; c:hasNoun <u:noun/pods> ; c:hasVerb <u:verb/list> ; c:handler 'app:list' ."

def podsTriples : List Triple :=
  let noun := Term.iri "u:noun/pods"
  let verb := Term.iri "u:verb/list"
  let command := Term.iri "u:command/pods/list"
  [⟨noun, .iri Rdf.type, .iri Cnv.noun⟩, ⟨noun, .iri Cnv.name, .plain "pods"⟩,
    ⟨verb, .iri Rdf.type, .iri Cnv.verb⟩, ⟨verb, .iri Cnv.name, .plain "list"⟩,
    ⟨command, .iri Rdf.type, .iri Cnv.command⟩, ⟨command, .iri Cnv.hasNoun, noun⟩,
    ⟨command, .iri Cnv.hasVerb, verb⟩, ⟨command, .iri Cnv.handler, .plain "app:list"⟩]

set_option maxRecDepth 4000 in
theorem parse_podsText : ∃ doc, parse {} podsText = .ok doc ∧ doc.triples = podsTriples := by
  have hchars : podsText.toList = _ := String.toList_ofList
  have htriples : (parse {} podsText).map (·.triples) = .ok podsTriples := by
    rw [parse, hchars]
    decide +kernel
  exact (map_eq_ok_iff _ _ _).1 htriples

set_option maxRecDepth 4000 in
theorem namesCharacters_podsText : NamesCharacters podsText.toList := by
  have hchars : podsText.toList = _ := String.toList_ofList
  refine namesCharacters_of_not_mem ?_
  rw [hchars]
  decide

theorem statements_podsProgram : statements "u:" podsProgram = .ok podsTriples := by
  have hhandlers : ordered ["app:list"] = ["app:list"] := List.mergeSort_singleton _
  have hnone : ordered [] = [] := List.mergeSort_nil
  have hcommands : orderedCommands podsProgram = podsProgram.commands := List.mergeSort_singleton _
  refine (statements_eq_ok_iff _ _ _).2 ⟨podsProgram_spec.1, ?_⟩
  rw [hcommands]
  simp only [ofCommands, podsProgram, ofCommand, ownFacts, hhandlers, hnone, List.mergeSort_nil]
  decide

/-- A document of one command is accepted, and exported and read again without a change. -/
theorem Session.reload_validated_podsProgram : NamesCharacters podsText.toList ∧
    ∃ s o s', start {} .memory {} true podsText = .ok s ∧ s.validate none = .ok (o, s') ∧
      ∃ after s'', s'.reload "cli" { format := .text "nt" } = .ok ((true, after), s'') := by
  obtain ⟨hd, hn, hkept⟩ := podsProgram_spec
  obtain ⟨doc, hdoc, htriples⟩ := parse_podsText
  obtain ⟨s, o, s', hstart, hvalid, hcontent⟩ :=
    start_spec {} hd hn statements_podsProgram hdoc fun t => by rw [htriples]
  have hsame := ofIndex_eq_podsProgram hcontent
  obtain ⟨told, after, s'', hreload, -, htold⟩ := reload_validated podsText {} true none s s' o
    namesCharacters_podsText hstart hvalid "cli" _ _ _ _ (ExportOptions.fit_default .lines) (by rwa [hsame])
  rw [hsame, hcontent] at htold
  obtain rfl := htold.2 rfl
  exact ⟨namesCharacters_podsText, s, o, s', hstart, hvalid, after, s'', hreload⟩

end CommandOntology
