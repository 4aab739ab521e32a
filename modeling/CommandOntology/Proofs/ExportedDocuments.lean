import CommandOntology.Export.Document
import CommandOntology.Proofs.UsedPrefixes
import CommandOntology.Proofs.WritableGraphs
import CommandOntology.Proofs.WrittenLines

set_option autoImplicit false

namespace CommandOntology

open Text Turtle

/-- A text that a document of a format keeps. One with line breaks does not end in a backslash and a quote
where it is put between three quotes, and where statements are lines, no other character of it ends a
line. -/
def DocumentFormat.Keeps : DocumentFormat → String → Prop
  | turtle, text => IsQuotable text
  | lines, text => ∀ c ∈ text.toList, Lines.isLineEnd c = true → c = '\n' ∨ c = '\r'

namespace Export

structure IsOwnPrefix (label base : String) : Prop where
  label : ∀ e ∈ coreNamespaces ++ standardNamespaces, e.1 ≠ label
  base : ∀ e ∈ coreNamespaces ++ standardNamespaces, e.2 ≠ base

def namePrefixes : List (String × String) :=
  [(Cnv.label, Cnv.namespaceIri), ("xsd", Xsd.namespaceIri)]

theorem areKnown_namePrefixes : AreKnown namePrefixes where
  isOneToOne := by
    unfold IsOneToOne
    decide
  declarable := by
    simp only [namePrefixes, List.forall_mem_cons]
    refine ⟨⟨⟨'c', ['n', 'v'], rfl, by decide, by decide, by decide⟩, ?_⟩,
      ⟨⟨'x', ['s', 'd'], rfl, by decide, by decide, by decide⟩, ?_⟩, by simp⟩
    · exact ⟨by decide, by decide⟩
    · exact ⟨by decide, by decide⟩
  bare := by decide

def prefixTable (label base : String) : PrefixTable :=
  documentPrefixes (putField standardNamespaces label base)

variable {label base : String}

theorem isOneToOne_own (h : IsOwnPrefix label base) :
    IsOneToOne ((label, base) :: (coreNamespaces ++ standardNamespaces)) := by
  have hstandard : IsOneToOne (coreNamespaces ++ standardNamespaces) := by
    unfold IsOneToOne
    decide
  intro a ha b hb heq
  obtain rfl | ha := List.mem_cons.1 ha <;> obtain rfl | hb := List.mem_cons.1 hb
  · rfl
  · exact heq.elim (fun he => absurd he.symm (h.label b hb)) fun he => absurd he.symm (h.base b hb)
  · exact heq.elim (fun he => absurd he (h.label a ha)) fun he => absurd he (h.base a ha)
  · exact hstandard a ha b hb heq

theorem mem_prefixTable (h : IsOwnPrefix label base) (e : String × String) :
    e ∈ (prefixTable label base).entries ↔
      e = (label, base) ∨ e ∈ coreNamespaces ++ standardNamespaces := by
  have hall := isOneToOne_own h
  have hnew : label ∉ standardNamespaces.map (·.1) := by
    intro hmem
    obtain ⟨e, he, heq⟩ := List.mem_map.1 hmem
    exact h.label e (List.mem_append_right _ he) heq
  have hsorted (e : String × String) :
      e ∈ (putField standardNamespaces label base).mergeSort (fun a b => decide (a.1 ≤ b.1)) ↔
        e ∈ standardNamespaces ∨ e = (label, base) := by
    rw [List.mem_mergeSort, putField_eq_append _ _ _ hnew, List.mem_append, List.mem_singleton]
  have hcore (e : String × String) :
      e ∈ (PrefixTable.empty.bindAll coreNamespaces).entries ↔ e ∈ coreNamespaces := by
    rw [PrefixTable.mem_bindAll coreNamespaces (hall.mono fun x hx => ?_)]
    · simp [PrefixTable.empty]
    · obtain hx | hx := List.mem_append.1 hx
      · exact List.mem_cons_of_mem _ (List.mem_append_left _ hx)
      · cases hx
  rw [prefixTable, documentPrefixes, PrefixTable.mem_bindAll _ (hall.mono fun x hx => ?_), hsorted, hcore,
    List.mem_append]
  · tauto
  · rw [List.mem_append, hsorted, hcore] at hx
    rw [List.mem_cons, List.mem_append]
    tauto

theorem isOneToOne_prefixTable (h : IsOwnPrefix label base) :
    IsOneToOne (prefixTable label base).entries :=
  (isOneToOne_own h).mono fun e he => List.mem_cons.2 ((mem_prefixTable h e).1 he)

theorem length_le_of_isPrefix (h : IsOwnPrefix label base) (hopen : endsOpen base = true)
    (e : String × String) (he : e ∈ namePrefixes) (w : List Char)
    (hw : ∀ x ∈ w, isAsciiLetter x = true) (e' : String × String)
    (he' : e' ∈ (prefixTable label base).entries) (hbefore : e.2.toList <+: e'.2.toList)
    (hafter : e'.2.toList <+: e.2.toList ++ w) : e'.2.toList.length ≤ e.2.toList.length := by
  obtain rfl | he' := (mem_prefixTable h e').1 he'
  · -- An open base does not end in a letter, so nothing of the word belongs to it.
    obtain ⟨x, hx⟩ := hbefore
    rw [← hx, List.prefix_append_right_inj] at hafter
    cases hd : x.getLast? with
    | none =>
      rw [List.getLast?_eq_none_iff.1 hd, List.append_nil] at hx
      rw [hx]
    | some d =>
      have hletter : isAsciiLetter d = true := hw d (hafter.subset (List.mem_of_getLast? hd))
      dsimp only at hx
      simp only [endsOpen, ← hx, List.getLast?_append, hd, Option.some_or, Bool.or_eq_true, beq_iff_eq,
        Option.some.injEq] at hopen
      obtain rfl | rfl := hopen <;> exact absurd hletter (by decide)
  · have hall : ∀ e ∈ namePrefixes, ∀ e' ∈ coreNamespaces ++ standardNamespaces,
        e.2.toList.isPrefixOf e'.2.toList = true → e'.2.toList.length ≤ e.2.toList.length := by
      decide
    exact hall e he e' he' (List.isPrefixOf_iff_prefix.2 hbefore)

theorem hasName_word (h : IsOwnPrefix label base) (hopen : endsOpen base = true) (e : String × String)
    (he : e ∈ namePrefixes) (c : Char) (w : List Char) (hw : ∀ x ∈ c :: w, isAsciiLetter x = true) :
    HasPrefixedName namePrefixes (prefixTable label base) (e.2 ++ String.ofList (c :: w))
      ⟨e.1, e.2, c :: w⟩ := by
  have hletter (x : Char) (hx : isAsciiLetter x = true) :
      isLocalNameStart x = true ∧ Scope.isIllegalInIri x = false := by
    have hlt : x.toNat < 128 := by
      have := (isAsciiLetter_iff x).1 hx
      omega
    exact ⟨by simp [isLocalNameStart, hlt, isAsciiAlphanumeric, hx],
      (isLegal_of_isPathChar x (.inl hx)).1⟩
  have hknown : ∀ e ∈ namePrefixes, e ∈ coreNamespaces ++ standardNamespaces ∧
      e.2.toList.getLast? = some '#' := by decide
  obtain ⟨hstandard, hlast⟩ := hknown e he
  have hentry : e ∈ (prefixTable label base).entries := (mem_prefixTable h e).2 (.inr hstandard)
  have hcanonical := isCanonicalIri_append (areKnown_namePrefixes.declarable e he).namespaceIri (c :: w)
    fun x hx => (hletter x (hw x hx)).2
  refine ⟨fun invents => ?_, he, rfl, hw⟩
  exact PrefixTable.name?_localName (isOneToOne_prefixTable h) e hentry '#' c w hlast (by decide)
    (hletter c (hw c List.mem_cons_self)).1
    (fun x hx => isLocalNameChar_of_isLocalNameStart x (hletter x (hw x (List.mem_cons_of_mem c hx))).1)
    (isWritable_of_isCanonicalIri hcanonical)
    (length_le_of_isPrefix h hopen e he (c :: w) hw) invents

theorem hasName_vocabulary (h : IsOwnPrefix label base) (hopen : endsOpen base = true) {iri : String}
    (hv : IsVocabulary iri) : ∃ name, HasPrefixedName namePrefixes (prefixTable label base) iri name := by
  obtain ⟨c, w, hw, rfl⟩ := hv
  exact ⟨_, hasName_word h hopen (Cnv.label, Cnv.namespaceIri) (by simp [namePrefixes]) c w hw⟩

theorem hasName_datatype (h : IsOwnPrefix label base) (hopen : endsOpen base = true) (c : Char)
    (w : List Char) (hw : ∀ x ∈ c :: w, isAsciiLetter x = true) :
    ∃ name, HasPrefixedName namePrefixes (prefixTable label base) (Xsd.namespaceIri ++ String.ofList (c :: w))
      name :=
  ⟨_, hasName_word h hopen ("xsd", Xsd.namespaceIri) (by simp [namePrefixes]) c w hw⟩

/-- No IRI of a vocabulary goes on behind a base like that of a resource. -/
theorem not_isInfix_kind : ∀ kind ∈ resourceKinds,
    ∀ iri ∈ Rdf.nil :: (coreNamespaces ++ standardNamespaces).map (·.2),
      ¬(kind.toList ++ ['/']) <:+: iri.toList := by
  decide +kernel

/-- The IRI of a resource has no name. -/
theorem hasNoPrefixedName_resource (h : IsOwnPrefix label base) (hb : IsCanonicalIri base)
    (r : Resource) : HasNoPrefixedName (prefixTable label base) (base ++ r.path) := by
  obtain ⟨kind, hkind, rest, hpath⟩ := r.exists_kind
  have hiri : (base ++ r.path).toList = (base.toList ++ kind.toList) ++ '/' :: rest.toList := by
    simp [hpath]
  have hfirst : ∃ d ∈ ((base.toList ++ kind.toList) ++ ['/']).head?, isLocalNameStart d = true := by
    obtain ⟨scheme, after, hchars, hscheme⟩ := (Iri.isAbsolute_iff _).1 hb.isAbsolute
    cases scheme with
    | nil => cases hscheme
    | cons c scheme =>
      have hlt : c.toNat < 128 := by
        have := (isAsciiLetter_iff c).1 hscheme.1
        omega
      exact ⟨c, by simp [hchars], by simp [isLocalNameStart, hlt, isAsciiAlphanumeric, hscheme.1]⟩
  refine PrefixTable.name?_eq_none _ _ '/' hiri (by decide) hfirst fun e he hbegins => ?_
  obtain rfl | he := (mem_prefixTable h e).1 he
  · have hlength := hbegins.length_le
    simp only [List.length_append, List.length_cons, List.length_nil] at hlength
    omega
  · refine not_isInfix_kind kind hkind e.2 (List.mem_cons_of_mem _ (List.mem_map_of_mem he)) ?_
    rw [List.append_assoc] at hbegins
    exact (List.suffix_append _ _).isInfix.trans hbegins.isInfix

theorem ne_nil_of_resource (r : Resource) : base ++ r.path ≠ Rdf.nil := by
  intro heq
  obtain ⟨kind, hkind, rest, hpath⟩ := r.exists_kind
  refine not_isInfix_kind kind hkind Rdf.nil List.mem_cons_self ⟨base.toList, rest.toList, ?_⟩
  rw [← heq, hpath]
  simp

theorem isPlainNode_resource (h : IsOwnPrefix label base) (hb : IsCanonicalIri base) (r : Resource) :
    IsPlainNode namePrefixes (prefixTable label base) (r.node base) :=
  .unnamed (r.isCanonicalIri hb) (ne_nil_of_resource r) (hasNoPrefixedName_resource h hb r)

theorem isPlainStatement_statement (h : IsOwnPrefix label base) (hb : IsCanonicalIri base)
    (hopen : endsOpen base = true) {d : Definition} {f : String × Term} (r : Resource)
    (hf : IsFact base d f) (hquotable : ∀ text ∈ d.texts, IsQuotable text) :
    IsPlainStatement namePrefixes (prefixTable label base) (statement (r.node base) f) := by
  have hnil : Cnv.namespaceIri.toList.isPrefixOf Rdf.nil.toList = false := by decide
  have htype : Cnv.namespaceIri.toList.isPrefixOf Rdf.type.toList = false := by decide
  refine ⟨rfl, isPlainNode_resource h hb r, ?_, ?_⟩
  · refine hf.predicate.imp (congrArg Term.iri) fun hv => ?_
    obtain ⟨name, hname⟩ := hasName_vocabulary h hopen hv
    exact ⟨f.1, name, rfl, hv.ne htype, hv.ne hnil, hname⟩
  · cases hf with
    | type hv =>
      obtain ⟨name, hname⟩ := hasName_vocabulary h hopen hv
      exact .named (hv.ne hnil) hname
    | resource hv r => exact isPlainNode_resource h hb r
    | text hv ht => exact .text (hquotable _ ht)
    | truth hv b =>
      obtain ⟨name, hname⟩ := hasName_datatype h hopen 'b' "oolean".toList (by decide)
      exact .truth b hname
    | position hv n =>
      obtain ⟨name, hname⟩ := hasName_datatype h hopen 'i' "nteger".toList (by decide)
      exact .integer n hname

theorem isLine_quotedText {text : String} (h : DocumentFormat.lines.Keeps text) :
    Lines.IsLine (Lines.quotedText text) := by
  have hletters : ∀ c ∈ ['\\', '"', 'n', 'r'], Lines.isLineEnd c = false := by decide
  simp only [List.forall_mem_cons] at hletters
  rw [Lines.IsLine, Lines.toList_quotedText]
  simp only [List.forall_mem_cons, List.forall_mem_append, List.mem_flatMap]
  refine ⟨hletters.2.1, ?_, hletters.2.1, by simp⟩
  rintro c ⟨d, hd, hc⟩
  unfold Lines.lineChar at hc
  split_ifs at hc with hslash hquote hline hreturn
  all_goals simp only [List.mem_cons, List.not_mem_nil, or_false] at hc
  · obtain rfl | rfl := hc <;> exact hletters.1
  · obtain rfl | rfl := hc
    exacts [hletters.1, hletters.2.1]
  · obtain rfl | rfl := hc
    exacts [hletters.1, hletters.2.2.1]
  · obtain rfl | rfl := hc
    exacts [hletters.1, hletters.2.2.2.1]
  · rw [hc, ← Bool.not_eq_true]
    exact fun hend => (h d hd hend).elim hline hreturn

theorem isLine_toString (n : Int) : Lines.IsLine (toString n) := by
  have hdigit (c : Char) (hc : c ∈ integerDigits n) : Lines.isLineEnd c = false := by
    have hunreserved : Iri.isUnreserved c = true := by
      simp [Iri.isUnreserved, isAsciiAlphanumeric, isAsciiDigit_of_mem_integerDigits n c hc]
    exact (isLegal_of_isPathChar c (.inr (.inl hunreserved))).2
  rw [Lines.IsLine, toList_toString_int]
  split_ifs
  · exact List.forall_mem_cons.2 ⟨by decide, hdigit⟩
  · exact hdigit

theorem keeps_of_isLine {text : String} (h : Lines.IsLine text) : DocumentFormat.lines.Keeps text := by
  intro c hc hend
  rw [h c hc] at hend
  cases hend

theorem isLine_iri {iri : String} (h : Lines.IsLine iri) : Lines.IsLine (Lines.wordText (.iri iri)) :=
  ((by decide : Lines.IsLine "<").append h).append (by decide : Lines.IsLine ">")

theorem isLine_plain {text : String} (h : DocumentFormat.lines.Keeps text) :
    Lines.IsLine (Lines.wordText (.plain text)) := by
  rw [Term.plain, Lines.wordText, Term.literalMark_none, String.append_empty]
  exact isLine_quotedText h

theorem isLine_typed {text datatype : String} (h : Lines.IsLine text) (hd : Lines.IsLine datatype)
    (hne : datatype ≠ "") (hs : datatype ≠ Xsd.string) :
    Lines.IsLine (Lines.wordText (.typed text datatype)) := by
  rw [Term.typed, Lines.wordText, Term.literalMark_type datatype hne hs]
  exact (isLine_quotedText (keeps_of_isLine h)).append
    (((by decide : Lines.IsLine "^^<").append hd).append (by decide : Lines.IsLine ">"))

theorem isLine_node (hb : IsCanonicalIri base) (hbase : DocumentFormat.lines.Keeps base) (r : Resource) :
    Lines.IsLine (Lines.wordText (r.node base)) := by
  refine isLine_iri (Lines.IsLine.append (fun c hc => ?_) fun c hc => ?_)
  · rw [← Bool.not_eq_true]
    intro hend
    have hlegal := hb.isLegal c hc
    obtain rfl | rfl := hbase c hc hend
    · exact absurd hlegal (by decide)
    · exact absurd hlegal (by decide)
  · exact (isLegal_of_isPathChar c (r.isPathChar c hc)).2

theorem isOneLine_statement (hb : IsCanonicalIri base) (hbase : DocumentFormat.lines.Keeps base)
    {d : Definition} {f : String × Term} (r : Resource) (hf : IsFact base d f)
    (hkept : ∀ text ∈ d.texts, DocumentFormat.lines.Keeps text) :
    Lines.IsOneLine (statement (r.node base) f) := by
  have htype : Lines.IsLine Rdf.type := by decide
  have hboolean : Lines.IsLine Xsd.boolean := by decide
  have hinteger : Lines.IsLine Xsd.integer := by decide
  have hpredicate : Lines.IsLine f.1 := by
    obtain hp | hv := hf.predicate
    · rw [hp]
      exact htype
    · exact hv.isOneLine
  have hobject : Lines.IsLine (Lines.wordText f.2) := by
    cases hf with
    | type hv => exact isLine_iri hv.isOneLine
    | resource hv r => exact isLine_node hb hbase r
    | text hv ht => exact isLine_plain (hkept _ ht)
    | truth hv b => exact isLine_typed (by cases b <;> decide) hboolean (by decide) (by decide)
    | position hv n => exact isLine_typed (isLine_toString n) hinteger (by decide) (by decide)
  exact Lines.isOneLine_of_isLine (isLine_node hb hbase r) (isLine_iri hpredicate) hobject

theorem mem_graph {d : Definition} {ts : List Triple} (h : statements base d = .ok ts) (t : Triple) :
    t ∈ (Graph.ofList ts).statements ↔ t ∈ ts := by
  have hstatements : (Graph.ofList ts).statements = distinct ts :=
    SortedStore.statements_ofList (areSettled_statements h)
  rw [hstatements, mem_distinct]

theorem readTriple_statement {d : Definition} {f : String × Term} (r : Resource) (hf : IsFact base d f) :
    readTriple (statement (r.node base) f) = statement (r.node base) f := by
  cases hf <;> rfl

theorem isCanonicalTriple_of_statements (hb : IsCanonicalIri base) {d : Definition} {ts : List Triple}
    (hts : statements base d = .ok ts) (t : Triple) (ht : t ∈ ts) : IsCanonicalTriple t := by
  obtain ⟨r, f, hf, rfl⟩ := exists_fact hts t ht
  exact isCanonicalTriple_statement hb r hf

/-- The statements about a definition can be written, whatever its texts are. -/
theorem exists_writeTriples (hb : IsCanonicalIri base) {d : Definition} {ts : List Triple}
    (hts : statements base d = .ok ts) (namespaces : List (String × String)) (format : DocumentFormat) :
    ∃ text, writeTriples namespaces ts format = .ok text := by
  have hcanonical := isCanonicalTriple_of_statements hb hts
  have hgraph : ∀ t ∈ (Graph.ofList ts).statements, IsCanonicalTriple t :=
    fun t ht => hcanonical t ((mem_graph hts t).1 ht)
  cases format with
  | turtle =>
    have hwritable : IsWritableGraph (Graph.ofList ts) := by
      rintro t ht _ hnode iri rfl
      exact isWritable_of_isCanonicalIri ((hgraph t ht).terms _ hnode)
    obtain ⟨text, htext⟩ := exists_write (documentPrefixes namespaces) hwritable
    exact ⟨text, writeTriples_eq_write_graph namespaces hcanonical htext⟩
  | lines => exact ⟨_, writeTriples_eq_write namespaces hcanonical (Lines.write_eq_join _ hgraph)⟩

/-- The document of a definition in a format gives out the statements about it, if the format keeps the
texts and there is room for two prefixes. -/
theorem writeTriples_givesOut (h : IsOwnPrefix label base) (hb : IsCanonicalIri base)
    (hopen : endsOpen base = true) {d : Definition} {ts : List Triple} (hts : statements base d = .ok ts)
    (format : DocumentFormat) (hbase : format.Keeps base) (hkept : ∀ text ∈ d.texts, format.Keeps text) :
    ∃ text ls us, writeTriples (putField standardNamespaces label base) ts format = .ok text ∧
      lexemes? text.toList = some ls ∧ (∀ t, t ∈ us ↔ t ∈ ts) ∧
      ∀ options : ParserOptions, 2 ≤ options.capacity → GivesOut options ls us := by
  have hfact := exists_fact hts
  have hcanonical := isCanonicalTriple_of_statements hb hts
  cases format with
  | turtle =>
    have hplain : ∀ t ∈ (Graph.ofList ts).statements,
        IsPlainStatement namePrefixes (prefixTable label base) t := by
      intro t ht
      obtain ⟨r, f, hf, rfl⟩ := hfact t ((mem_graph hts t).1 ht)
      exact isPlainStatement_statement h hb hopen r hf hkept
    obtain ⟨hu, -⟩ := Usage.isPlain_ofGraph areKnown_namePrefixes (Graph.ofList ts) fun t ht =>
      (hplain t ht).isNoted
    have hlength : (Usage.ofGraph (prefixTable label base) (Graph.ofList ts)).used.length ≤ 2 :=
      (hu.labels.of_map _).length_le_of_subset hu.used
    obtain ⟨text, ls, us, hwrite, hlexemes, hmem, hout⟩ := write_givesOut (prefixTable label base)
      (Graph.ofList ts) (isDisplayed_ofGraph areKnown_namePrefixes _ hplain)
    exact ⟨text, ls, us, writeTriples_eq_write_graph _ hcanonical hwrite, hlexemes,
      fun t => (hmem t).trans (mem_graph hts t), fun options hroom => hout options (by omega)⟩
  | lines =>
    obtain ⟨us, hperm, hwrite⟩ := Lines.write_eq (Graph.ofList ts) (fun t ht =>
        hcanonical t ((mem_graph hts t).1 ht)) fun t ht => by
      obtain ⟨r, f, hf, rfl⟩ := hfact t ((mem_graph hts t).1 ht)
      exact isOneLine_statement hb hbase r hf hkept
    have hmem (t : Triple) : t ∈ us ↔ t ∈ ts := hperm.mem_iff.trans (mem_graph hts t)
    have hread : us.map readTriple = us := by
      conv_rhs => rw [← List.map_id us]
      refine List.map_congr_left fun t ht => ?_
      obtain ⟨r, f, hf, rfl⟩ := hfact t ((hmem t).1 ht)
      exact readTriple_statement r hf
    have hus : ∀ t ∈ us, IsCanonicalTriple t := fun t ht => hcanonical t ((hmem t).1 ht)
    refine ⟨Lines.document us, us.flatMap tripleLexemes, us, writeTriples_eq_write _ hcanonical hwrite,
      Lines.lexemes?_document us hus, hmem, fun options _ => ?_⟩
    have hout := givesOut_lines options us hus
    rwa [hread] at hout

end Export

end CommandOntology
