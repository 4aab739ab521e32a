import CommandOntology.Proofs.WrittenDocuments

set_option autoImplicit false

namespace CommandOntology.Turtle

open CommandOntology.Text

structure AreKnown (known : List (String × String)) : Prop where
  isOneToOne : IsOneToOne known
  declarable : ∀ e ∈ known, IsDeclarable e
  bare : ∀ e ∈ known, e.1.toList.head? ≠ some '_'

structure HasPrefixedName (known : List (String × String)) (t : PrefixTable) (iri : String)
    (name : QualifiedName) : Prop where
  name? : ∀ invents, t.name? invents iri = (some name, t)
  known : (name.label, name.namespaceIri) ∈ known
  eq : name.namespaceIri ++ String.ofList name.rest = iri
  isWord : ∀ c ∈ name.rest, isAsciiLetter c = true

def HasNoPrefixedName (t : PrefixTable) (iri : String) : Prop :=
  t.name? false iri = (none, t)

def IsNoted (known : List (String × String)) (t : PrefixTable) (invents : Bool) (iri : String) : Prop :=
  (invents = false ∧ HasNoPrefixedName t iri) ∨ ∃ name, HasPrefixedName known t iri name

def namedIris : Term → List String
  | .iri value => [value]
  | .literal _ (some datatype) _ => [datatype]
  | _ => []

/-- The IRIs of a statement whose prefixes are noted, and whether one may be invented. -/
def notedIris (t : Triple) : List (Bool × String) :=
  (namedIris t.subject).map (false, ·) ++
    (match t.predicate with
      | .iri value => if value = Rdf.type then [] else [(true, value)]
      | _ => []) ++
    (namedIris t.object).map (false, ·)

namespace Usage

theorem noteTerm_eq (u : Usage) (t : Term) :
    u.noteTerm t = (namedIris t).foldl (fun u iri => u.noteIri false iri) u := by
  rcases t with value | label | ⟨lexical, _ | datatype, language⟩ <;> rfl

theorem ofGraph_eq (t : PrefixTable) (g : Graph) : ofGraph t g =
    (g.statements.flatMap notedIris).foldl (fun u x => u.noteIri x.1 x.2) ⟨t, [], []⟩ := by
  have hstep (u : Usage) (x : Triple) :
      u.noteTriple x = (notedIris x).foldl (fun u y => u.noteIri y.1 y.2) u := by
    simp only [noteTriple, notedIris, List.foldl_append, List.foldl_map, noteTerm_eq]
    congr 1
    cases x.predicate with
    | iri value =>
      dsimp only
      split_ifs <;> rfl
    | blank label => rfl
    | literal lexical datatype language => rfl
  rw [ofGraph, List.foldl_flatMap]
  exact congrArg (fun f => g.statements.foldl f _) (funext₂ hstep)

structure IsPlain (known : List (String × String)) (t : PrefixTable) (u : Usage) : Prop where
  table : u.table = t
  renamed : u.renamed = []
  used : ∀ e ∈ u.used, e ∈ known
  labels : (u.used.map (·.1)).Nodup

variable {known : List (String × String)} {t : PrefixTable} {u : Usage}

theorem IsPlain.written_eq (hk : AreKnown known) (hu : u.IsPlain known t) {label namespaceIri : String}
    (h : (label, namespaceIri) ∈ known) : u.written label namespaceIri = label := by
  have htaken : (findField u.used label).any (· ≠ namespaceIri) = false := by
    cases hf : findField u.used label with
    | none => rfl
    | some bound =>
      have hmem := hu.used _ (mem_of_findField_eq_some hf)
      have heq := hk.isOneToOne _ hmem _ h (.inl rfl)
      simp [(Prod.mk.inj heq).2]
  have hbare := hk.bare _ h
  rw [written, needsRenaming, htaken, if_neg (by simpa using hbare)]

theorem mem_putField_of_isOneToOne {fields : List (String × String)} {label namespaceIri : String}
    (h : IsOneToOne ((label, namespaceIri) :: fields)) (hn : (fields.map (·.1)).Nodup) :
    ((putField fields label namespaceIri).map (·.1)).Nodup ∧
      ∀ e, e ∈ putField fields label namespaceIri ↔ e = (label, namespaceIri) ∨ e ∈ fields := by
  induction fields with
  | nil => simp [putField]
  | cons field fields ih =>
    rw [List.map_cons, List.nodup_cons] at hn
    by_cases heq : field.1 = label
    · have hfield := h field (by simp) (label, namespaceIri) (by simp) (.inl heq)
      subst hfield
      rw [putField, if_pos rfl]
      exact ⟨by simpa using hn, fun e => by simp⟩
    · obtain ⟨hnodup, hmem⟩ := ih (h.mono fun e he => by
        obtain rfl | he := List.mem_cons.1 he <;> simp [*]) hn.2
      have hnew : field.1 ∉ (putField fields label namespaceIri).map (·.1) := by
        intro hin
        obtain ⟨e, he, hkey⟩ := List.mem_map.1 hin
        obtain rfl | he := (hmem e).1 he
        · exact heq hkey.symm
        · exact hn.1 (hkey ▸ List.mem_map_of_mem he)
      rw [putField, if_neg heq, List.map_cons, List.nodup_cons]
      refine ⟨⟨hnew, hnodup⟩, fun e => ?_⟩
      rw [List.mem_cons, hmem, List.mem_cons, or_left_comm]

theorem IsPlain.noteIri (hk : AreKnown known) (hu : u.IsPlain known t) {invents : Bool} {iri : String}
    (h : IsNoted known t invents iri) : (u.noteIri invents iri).IsPlain known t ∧
      ∀ e, e ∈ (u.noteIri invents iri).used ↔ e ∈ u.used ∨
        ∃ name, HasPrefixedName known t iri name ∧ e = (name.label, name.namespaceIri) := by
  obtain ⟨rfl, hnone⟩ | ⟨name, hname⟩ := h
  · have hsame : u.noteIri false iri = u := by rw [Usage.noteIri, hu.table, hnone]
    rw [hsame]
    refine ⟨hu, fun e => ⟨.inl, fun he => he.elim id ?_⟩⟩
    rintro ⟨name, hname, -⟩
    have hboth := hnone.symm.trans (hname.name? false)
    cases hboth
  · have hdot : name.rest.getLast? ≠ some '.' := by
      intro hlast
      have hletter := hname.isWord _ (List.mem_of_getLast? hlast)
      revert hletter
      decide
    have hnote : u.noteIri invents iri =
        { u with used := putField u.used name.label name.namespaceIri } := by
      have htable : ({ u with table := t } : Usage) = u := by rw [← hu.table]
      rw [Usage.noteIri, hu.table, hname.name? invents]
      dsimp only
      rw [if_neg hdot, htable, note, hu.written_eq hk hname.known, if_pos rfl, hu.table]
    obtain ⟨hnodup, hmem⟩ := mem_putField_of_isOneToOne (hk.isOneToOne.mono fun e he => by
      obtain rfl | he := List.mem_cons.1 he
      · exact hname.known
      · exact hu.used e he) hu.labels
    rw [hnote]
    refine ⟨⟨hu.table, hu.renamed, fun e he => ?_, hnodup⟩, fun e => ?_⟩
    · obtain rfl | he := (hmem e).1 he
      · exact hname.known
      · exact hu.used e he
    · rw [hmem, or_comm]
      refine or_congr_right ⟨fun he => ⟨name, hname, he⟩, ?_⟩
      rintro ⟨name', hname', rfl⟩
      have hsame := (hname.name? false).symm.trans (hname'.name? false)
      cases hsame
      rfl

theorem IsPlain.foldl_noteIri (hk : AreKnown known) (hu : u.IsPlain known t)
    (xs : List (Bool × String)) (h : ∀ x ∈ xs, IsNoted known t x.1 x.2) :
    (xs.foldl (fun u x => u.noteIri x.1 x.2) u).IsPlain known t ∧
      ∀ e, e ∈ (xs.foldl (fun u x => u.noteIri x.1 x.2) u).used ↔ e ∈ u.used ∨
        ∃ x ∈ xs, ∃ name, HasPrefixedName known t x.2 name ∧ e = (name.label, name.namespaceIri) := by
  induction xs generalizing u with
  | nil => exact ⟨hu, fun e => by simp⟩
  | cons x xs ih =>
    obtain ⟨hx, hxs⟩ := List.forall_mem_cons.1 h
    obtain ⟨hplain, hused⟩ := hu.noteIri hk hx
    obtain ⟨hall, hmem⟩ := ih hplain hxs
    refine ⟨hall, fun e => ?_⟩
    rw [List.foldl_cons, hmem, hused, or_assoc]
    simp

theorem isPlain_ofGraph (hk : AreKnown known) (g : Graph)
    (h : ∀ x ∈ g.statements, ∀ y ∈ notedIris x, IsNoted known t y.1 y.2) :
    (ofGraph t g).IsPlain known t ∧ ∀ e, e ∈ (ofGraph t g).used ↔
      ∃ x ∈ g.statements, ∃ y ∈ notedIris x, ∃ name, HasPrefixedName known t y.2 name ∧
        e = (name.label, name.namespaceIri) := by
  have hstart : IsPlain known t ⟨t, [], []⟩ := ⟨rfl, rfl, by simp, by simp⟩
  obtain ⟨hplain, hmem⟩ := hstart.foldl_noteIri hk (g.statements.flatMap notedIris) fun y hy => by
    obtain ⟨x, hx, hy⟩ := List.mem_flatMap.1 hy
    exact h x hx y hy
  rw [ofGraph_eq]
  refine ⟨hplain, fun e => ?_⟩
  rw [hmem]
  simp only [List.not_mem_nil, false_or, List.mem_flatMap]
  constructor
  · rintro ⟨y, ⟨x, hx, hy⟩, hname⟩
    exact ⟨x, hx, y, hy, hname⟩
  · rintro ⟨x, hx, y, hy, hname⟩
    exact ⟨y, ⟨x, hx, hy⟩, hname⟩

end Usage

def PrefixTable.iriLexeme (t : PrefixTable) (iri : String) : Lexeme :=
  match (t.name? false iri).1 with
  | some name => .name name.label (String.ofList name.rest)
  | none => .iri iri

/-- The lexemes of a node in a document with the prefixes of a table. Literals have a datatype only if it
is that of truth values or integers. -/
def PrefixTable.nodeLexemes (t : PrefixTable) : Term → List Lexeme
  | .iri value => [t.iriLexeme value]
  | .blank label => [.blankNode label]
  | .literal lexical (some datatype) _ =>
    if datatype = Xsd.boolean then [.word lexical]
    else if (shorthand? lexical datatype).isSome then [.number .integer lexical]
    else [.text lexical, .mark .datatype, t.iriLexeme datatype]
  | .literal lexical none _ => [.text lexical]

def PrefixTable.spelling (t : PrefixTable) : Spelling where
  node := t.nodeLexemes
  predicate p := if p = .iri Rdf.type then [.word "a"] else t.nodeLexemes p

variable {known : List (String × String)} {t : PrefixTable} {u : Usage}

theorem escapeLocal_eq_self (text : List Char) (h : ∀ c ∈ text, isAsciiLetter c = true) :
    escapeLocal text = text := by
  induction text with
  | nil => rfl
  | cons c text ih =>
    obtain ⟨hc, htext⟩ := List.forall_mem_cons.1 h
    have hne (d : Char) (hd : isAsciiLetter d = false) : c ≠ d := by
      rintro rfl
      rw [hd] at hc
      cases hc
    unfold escapeLocal
    rw [ih htext, if_neg]
    simp [hne '(' (by decide), hne ')' (by decide), hne '%' (by decide)]

theorem isLocalChar_of_isAsciiLetter (c : Char) (h : isAsciiLetter c = true) : isLocalChar c = true := by
  have hlt : c.toNat < 128 := by
    have := (isAsciiLetter_iff c).1 h
    omega
  simp [isLocalChar, isWordChar, isAlphanumeric, hlt, isAsciiAlphanumeric, h]

theorem HasPrefixedName.isRead (hk : AreKnown known) (hu : u.IsPlain known t) {iri : String}
    {name : QualifiedName} (h : HasPrefixedName known t iri name) : ∃ text, u.name? iri = some text ∧
      IsRead text.toList [t.iriLexeme iri] := by
  have hdot : name.rest.getLast? ≠ some '.' := by
    intro hlast
    have hletter := h.isWord _ (List.mem_of_getLast? hlast)
    revert hletter
    decide
  refine ⟨name.label ++ ":" ++ String.ofList name.rest, ?_, fun c rest hc => ?_⟩
  · rw [Usage.name?, hu.table, h.name? false]
    dsimp only [Option.bind_some]
    rw [if_neg hdot, hu.written_eq hk h.known, escapeLocal_eq_self _ h.isWord]
  · have hread := lexemes?_name name.label.toList name.rest (c :: rest) (hk.declarable _ h.known).label
      (fun d hd => isLocalChar_of_isAsciiLetter d (h.isWord d hd)) (localLength_ends c rest hc)
    rw [String.ofList_toList] at hread
    rw [PrefixTable.iriLexeme, h.name? false]
    simpa using hread

theorem HasPrefixedName.spellsIri {iri : String} {name : QualifiedName}
    (h : HasPrefixedName known t iri name) {namespaces : Namespaces}
    (hn : namespaces.resolve name.label = some name.namespaceIri) :
    SpellsIri namespaces (t.iriLexeme iri) iri := by
  rw [PrefixTable.iriLexeme, h.name? false]
  have hspells := SpellsIri.name (String.ofList name.rest) hn
  rwa [h.eq] at hspells

inductive IsPlainNode (known : List (String × String)) (t : PrefixTable) : Term → Prop
  | unnamed {iri : String} (hc : IsCanonicalIri iri) (hnil : iri ≠ Rdf.nil) (h : HasNoPrefixedName t iri) :
    IsPlainNode known t (.iri iri)
  | named {iri : String} {name : QualifiedName} (hnil : iri ≠ Rdf.nil) (h : HasPrefixedName known t iri name) :
    IsPlainNode known t (.iri iri)
  | text {lexical : String} (h : IsQuotable lexical) : IsPlainNode known t (.plain lexical)
  | truth (b : Bool) {name : QualifiedName} (h : HasPrefixedName known t Xsd.boolean name) :
    IsPlainNode known t (.typed (if b then "true" else "false") Xsd.boolean)
  | integer (n : Int) {name : QualifiedName} (h : HasPrefixedName known t Xsd.integer name) :
    IsPlainNode known t (.typed (toString n) Xsd.integer)

theorem IsPlainNode.isNoted {x : Term} (h : IsPlainNode known t x) :
    ∀ iri ∈ namedIris x, IsNoted known t false iri := by
  cases h with
  | unnamed hc hnil h => exact List.forall_mem_singleton.2 (.inl ⟨rfl, h⟩)
  | named hnil h => exact List.forall_mem_singleton.2 (.inr ⟨_, h⟩)
  | text h => exact fun iri hiri => absurd hiri List.not_mem_nil
  | truth b h => exact List.forall_mem_singleton.2 (.inr ⟨_, h⟩)
  | integer n h => exact List.forall_mem_singleton.2 (.inr ⟨_, h⟩)

def UsesNames (known : List (String × String)) (t : PrefixTable) (u : Usage) (iris : List String) : Prop :=
  ∀ iri ∈ iris, ∀ name, HasPrefixedName known t iri name → (name.label, name.namespaceIri) ∈ u.used

theorem isRead_word (word : String) (h : ∀ c ∈ word.toList, isAsciiLetter c = true) (hne : word ≠ "") :
    IsRead word.toList [.word word] := by
  intro c rest hc
  have hchars : word.toList ≠ [] := by simpa using hne
  obtain ⟨d, tail, hd⟩ := List.exists_cons_of_ne_nil hchars
  rw [hd] at h
  obtain ⟨hd', htail⟩ := List.forall_mem_cons.1 h
  have hread := lexemes?_word d c tail rest hd' htail hc
  rw [← hd, String.ofList_toList] at hread
  rw [hd]
  exact hread

theorem displays_named (hk : AreKnown known) (hu : u.IsPlain known t) {iri : String}
    {name : QualifiedName} (h : HasPrefixedName known t iri name) (hnil : iri ≠ Rdf.nil)
    (hused : UsesNames known t u [iri]) : Displays u t.spelling (.iri iri) := by
  obtain ⟨text, htext, hread⟩ := h.isRead hk hu
  refine ⟨rfl, ⟨text, ?_, hread⟩, fun namespaces hn => ?_⟩
  · rw [nodeText, if_neg hnil, htext]
  · exact .iri (h.spellsIri (hn _ (hused iri List.mem_cons_self name h)))

theorem displaysPredicate_named (hk : AreKnown known) (hu : u.IsPlain known t) {iri : String}
    {name : QualifiedName} (h : HasPrefixedName known t iri name) (hne : iri ≠ Rdf.type) (hnil : iri ≠ Rdf.nil)
    (hused : UsesNames known t u [iri]) : DisplaysPredicate u t.spelling (.iri iri) := by
  have hpredicate : Term.iri iri ≠ .iri Rdf.type := by simpa using hne
  have hspelling : t.spelling.predicate (.iri iri) = [t.iriLexeme iri] := by
    rw [PrefixTable.spelling]
    exact if_neg hpredicate
  obtain ⟨text, htext, hread⟩ := h.isRead hk hu
  refine ⟨⟨text, ?_, ?_⟩, fun namespaces hn => ?_⟩
  · rw [predicateText, if_neg hpredicate, nodeText, if_neg hnil, htext]
  · rwa [hspelling]
  · rw [hspelling]
    exact .iri (h.spellsIri (hn _ (hused iri List.mem_cons_self name h)))

theorem displays_unnamed (hu : u.IsPlain known t) {iri : String} (hc : IsCanonicalIri iri)
    (hnil : iri ≠ Rdf.nil) (h : HasNoPrefixedName t iri) : Displays u t.spelling (.iri iri) := by
  have hname : u.name? iri = none := by
    rw [Usage.name?, hu.table, h]
    rfl
  have hlexeme : t.iriLexeme iri = .iri iri := by
    rw [PrefixTable.iriLexeme, h]
  refine ⟨rfl, ⟨"<" ++ iri ++ ">", ?_, fun c rest _ => ?_⟩, fun namespaces _ => ?_⟩
  · rw [nodeText, if_neg hnil, hname]
    exact if_pos (isWritable_of_isCanonicalIri hc)
  · have hread := lexemes?_canonicalIri hc (c :: rest)
    simpa [PrefixTable.spelling, PrefixTable.nodeLexemes, hlexeme] using hread
  · change Spells namespaces [t.iriLexeme iri] _
    rw [hlexeme]
    exact .iri (.reference hc)

theorem isQuotable_toString (n : Int) : IsQuotable (toString n) := by
  intro hline
  rw [toList_toString_int] at hline
  have hdigits : '\n' ∈ integerDigits n := by
    split_ifs at hline
    · simpa using hline
    · exact hline
  exact absurd (isAsciiDigit_of_mem_integerDigits n _ hdigits) (by decide)

theorem displays_integer (hk : AreKnown known) (hu : u.IsPlain known t) (n : Int)
    {name : QualifiedName} (h : HasPrefixedName known t Xsd.integer name)
    (hused : UsesNames known t u [Xsd.integer]) :
    Displays u t.spelling (.typed (toString n) Xsd.integer) := by
  have hboolean : Xsd.integer ≠ Xsd.boolean := by decide
  by_cases hshort : (shorthand? (toString n) Xsd.integer).isSome = true
  · have hspelling : t.spelling.node (.typed (toString n) Xsd.integer) =
        [.number .integer (toString n)] := by
      simp only [PrefixTable.spelling, Term.typed, PrefixTable.nodeLexemes, if_neg hboolean, hshort,
        if_true]
    have hsome : shorthand? (toString n) Xsd.integer = some (toString n) := by
      rw [shorthand?, if_pos rfl, Option.isSome_map] at hshort
      obtain ⟨m, hm⟩ := Option.isSome_iff_exists.1 hshort
      rw [shorthand?, if_pos rfl, hm]
      rfl
    refine ⟨rfl, ⟨toString n, ?_, ?_⟩, fun namespaces _ => ?_⟩
    · rw [Term.typed, nodeText, literalText, hsome]
      rfl
    · rw [hspelling]
      exact fun c rest hc => lexemes?_integer n c rest hc
    · rw [hspelling]
      exact .number .integer (toString n)
  · have hspelling : t.spelling.node (.typed (toString n) Xsd.integer) =
        [.text (toString n), .mark .datatype, t.iriLexeme Xsd.integer] := by
      simp only [PrefixTable.spelling, Term.typed, PrefixTable.nodeLexemes, if_neg hboolean,
        if_neg hshort]
    obtain ⟨text, htext, hread⟩ := h.isRead hk hu
    refine ⟨rfl, ⟨String.ofList (quotedText (toString n)) ++ "^^" ++ text, ?_, fun c rest hc => ?_⟩,
      fun namespaces hn => ?_⟩
    · rw [Term.typed, nodeText, literalText, Option.not_isSome_iff_eq_none.1 hshort, Option.getD_none,
        htext, Option.getD_some, spellSpecial, if_neg (by decide)]
    · have hquoted := lexemes?_quotedText (isQuotable_toString n) ('^' :: '^' :: (text.toList ++ c :: rest)) (by simp)
      rw [lexemes?_datatype, hread c rest hc] at hquoted
      rw [hspelling]
      simpa [Function.comp_def] using hquoted
    · rw [hspelling]
      exact .typed _ (h.spellsIri (hn _ (hused _ List.mem_cons_self name h))) (by decide)

/-- A plain node is written as it is spelled, once the prefixes of its names are used. -/
theorem IsPlainNode.displays (hk : AreKnown known) (hu : u.IsPlain known t) {x : Term}
    (h : IsPlainNode known t x) (hused : UsesNames known t u (namedIris x)) :
    Displays u t.spelling x := by
  cases h with
  | unnamed hc hnil h => exact displays_unnamed hu hc hnil h
  | named hnil h => exact displays_named hk hu h hnil hused
  | @text lexical h =>
    refine ⟨rfl, ⟨String.ofList (quotedText lexical), rfl, ?_⟩, fun namespaces _ => .plain lexical⟩
    rw [String.toList_ofList]
    exact isRead_quotedText h
  | truth b h =>
    refine ⟨rfl, ⟨if b then "true" else "false", rfl, ?_⟩, fun namespaces _ => .truth ?_⟩
    · cases b <;> exact isRead_word _ (by decide) (by decide)
    · cases b <;> simp
  | integer n h => exact displays_integer hk hu n h hused

structure IsPlainStatement (known : List (String × String)) (t : PrefixTable) (x : Triple) : Prop where
  isResource : x.subject.isResource = true
  subject : IsPlainNode known t x.subject
  predicate : x.predicate = .iri Rdf.type ∨ ∃ iri name, x.predicate = .iri iri ∧ iri ≠ Rdf.type ∧
    iri ≠ Rdf.nil ∧ HasPrefixedName known t iri name
  object : IsPlainNode known t x.object

theorem IsPlainStatement.isNoted {x : Triple} (h : IsPlainStatement known t x) :
    ∀ y ∈ notedIris x, IsNoted known t y.1 y.2 := by
  intro y hy
  rw [notedIris, List.mem_append, List.mem_append, List.mem_map, List.mem_map] at hy
  obtain (⟨iri, hiri, rfl⟩ | hy) | ⟨iri, hiri, rfl⟩ := hy
  · exact h.subject.isNoted iri hiri
  · obtain hp | ⟨iri, name, hp, hne, -, hname⟩ := h.predicate
    · simp [hp] at hy
    · simp only [hp, if_neg hne, List.mem_singleton] at hy
      rw [hy]
      exact .inr ⟨name, hname⟩
  · exact h.object.isNoted iri hiri

/-- A graph of plain statements is written as it is spelled. -/
theorem isDisplayed_ofGraph (hk : AreKnown known) (g : Graph)
    (h : ∀ x ∈ g.statements, IsPlainStatement known t x) :
    Source.IsDisplayed ⟨g, Usage.ofGraph t g⟩ t.spelling := by
  obtain ⟨hu, hused⟩ := Usage.isPlain_ofGraph hk g fun x hx => (h x hx).isNoted
  have huses {x : Triple} (hx : x ∈ g.statements) (iris : List String)
      (hiris : ∀ iri ∈ iris, ∃ invents, (invents, iri) ∈ notedIris x) :
      UsesNames known t (Usage.ofGraph t g) iris := by
    intro iri hiri name hname
    obtain ⟨invents, hnoted⟩ := hiris iri hiri
    exact (hused _).2 ⟨x, hx, _, hnoted, name, hname, rfl⟩
  refine ⟨fun e he => hk.declarable e (hu.used e he), hu.labels, fun x hx => (h x hx).isResource,
    fun x hx => ?_, fun x hx => ?_, fun x hx => ?_⟩
  · refine (h x hx).subject.displays hk hu (huses hx _ fun iri hiri => ⟨false, ?_⟩)
    simp [notedIris, hiri]
  · obtain hp | ⟨iri, name, hp, hne, hnil, hname⟩ := (h x hx).predicate
    · rw [hp]
      refine ⟨⟨"a", rfl, isRead_word "a" (by decide) (by decide)⟩, fun namespaces _ => .type⟩
    · rw [hp]
      refine displaysPredicate_named hk hu hname hne hnil (huses hx [iri] fun iri' hiri => ⟨true, ?_⟩)
      rw [List.mem_singleton.1 hiri]
      simp [notedIris, hp, hne]
  · refine (h x hx).object.displays hk hu (huses hx _ fun iri hiri => ⟨false, ?_⟩)
    simp [notedIris, hiri]

end CommandOntology.Turtle
