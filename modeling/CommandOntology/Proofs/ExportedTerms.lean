import CommandOntology.Proofs.AbsoluteIris
import CommandOntology.Proofs.ExportedView
import CommandOntology.Proofs.LineForms
import CommandOntology.Proofs.SortedAnswers

set_option autoImplicit false

namespace CommandOntology

open Text Turtle

def Argument.texts (a : Argument) : List String :=
  a.name :: a.typeTag :: (a.default.toList ++ a.validators ++ a.help.toList)

def CommandDefinition.texts (c : CommandDefinition) : List String :=
  c.noun :: c.verb ::
    (c.handlers ++ c.capabilities ++ c.help.toList ++ c.arguments.flatMap Argument.texts)

def Definition.texts (d : Definition) : List String :=
  d.commands.flatMap CommandDefinition.texts

namespace Export

def IsVocabulary (iri : String) : Prop :=
  ∃ c w, (∀ x ∈ c :: w, isAsciiLetter x = true) ∧ iri = Cnv.namespaceIri ++ String.ofList (c :: w)

def vocabulary : List String :=
  [Cnv.command, Cnv.noun, Cnv.verb, Cnv.argument, Cnv.hasNoun, Cnv.hasVerb, Cnv.hasArgument,
    Cnv.handler, Cnv.capability, Cnv.help, Cnv.name, Cnv.datatype, Cnv.required, Cnv.default,
    Cnv.validator, Cnv.position]

def words : List String :=
  ["Command", "Noun", "Verb", "Argument", "hasNoun", "hasVerb", "hasArgument", "handler", "capability",
    "help", "name", "datatype", "required", "default", "validator", "position"]

theorem isVocabulary_of_mem (iri : String) (h : iri ∈ vocabulary) : IsVocabulary iri := by
  have hwords : vocabulary = words.map (Cnv.namespaceIri ++ ·) := by decide
  have hletters : ∀ word ∈ words, word.toList ≠ [] ∧ ∀ x ∈ word.toList, isAsciiLetter x = true := by
    decide
  rw [hwords, List.mem_map] at h
  obtain ⟨word, hword, rfl⟩ := h
  obtain ⟨hne, hall⟩ := hletters word hword
  obtain ⟨c, w, hw⟩ := List.exists_cons_of_ne_nil hne
  refine ⟨c, w, hw ▸ hall, ?_⟩
  rw [← hw, String.ofList_toList]

theorem isCanonicalIri_append {iri : String} (h : IsCanonicalIri iri) (rest : List Char)
    (hrest : ∀ c ∈ rest, Scope.isIllegalInIri c = false) : IsCanonicalIri (iri ++ String.ofList rest) := by
  refine ⟨?_, fun c hc => ?_⟩
  · rw [String.toList_append]
    exact Iri.isAbsolute_append _ h.isAbsolute
  · rw [String.toList_append, String.toList_ofList, List.mem_append] at hc
    exact hc.elim (h.isLegal c) (hrest c)

/-- A character of a word or a path: no line ends with it, and every IRI may hold it. -/
theorem isLegal_of_isPathChar (c : Char)
    (h : isAsciiLetter c = true ∨ Iri.isUnreserved c = true ∨ c = '%' ∨ c = '/') :
    Scope.isIllegalInIri c = false ∧ Lines.isLineEnd c = false := by
  have hlt : c.toNat < 128 := by
    obtain h | h | rfl | rfl := h
    · have := (isAsciiLetter_iff c).1 h
      omega
    · exact Iri.isUnreserved_lt c h
    · decide
    · decide
  have hall := forall_ascii (fun c => !(isAsciiLetter c || Iri.isUnreserved c || c == '%' || c == '/') ||
    (!Scope.isIllegalInIri c && !Lines.isLineEnd c)) (by decide +kernel) c hlt
  have hclass : (isAsciiLetter c || Iri.isUnreserved c || c == '%' || c == '/') = true := by
    simpa [or_assoc] using h
  simpa [hclass] using hall

theorem IsVocabulary.isCanonicalIri {iri : String} (h : IsVocabulary iri) : IsCanonicalIri iri := by
  have hnamespace : IsCanonicalIri Cnv.namespaceIri := ⟨by decide, by decide +kernel⟩
  obtain ⟨c, w, hletters, rfl⟩ := h
  exact isCanonicalIri_append hnamespace _ fun x hx => (isLegal_of_isPathChar x (.inl (hletters x hx))).1

theorem IsVocabulary.isOneLine {iri : String} (h : IsVocabulary iri) :
    ∀ c ∈ iri.toList, Lines.isLineEnd c = false := by
  have hnamespace : ∀ c ∈ Cnv.namespaceIri.toList, Lines.isLineEnd c = false := by decide
  obtain ⟨c, w, hletters, rfl⟩ := h
  intro x hx
  rw [String.toList_append, String.toList_ofList, List.mem_append] at hx
  exact hx.elim (hnamespace x) fun hx => (isLegal_of_isPathChar x (.inl (hletters x hx))).2

theorem IsVocabulary.ne {iri other : String} (h : IsVocabulary iri)
    (hother : Cnv.namespaceIri.toList.isPrefixOf other.toList = false) : iri ≠ other := by
  rintro rfl
  obtain ⟨c, w, -, rfl⟩ := h
  rw [String.toList_append, ← Bool.not_eq_true, List.isPrefixOf_iff_prefix] at hother
  exact hother (List.prefix_append _ _)

def Resource.path (r : Resource) : String :=
  "/".intercalate r.segments

theorem forall_mem_intercalate {P : Char → Prop} {separator : List Char} (hs : ∀ c ∈ separator, P c)
    (parts : List (List Char)) (hp : ∀ x ∈ parts, ∀ c ∈ x, P c) :
    ∀ c ∈ separator.intercalate parts, P c := by
  induction parts with
  | nil => simp
  | cons part parts ih =>
    obtain ⟨hpart, hparts⟩ := List.forall_mem_cons.1 hp
    cases parts with
    | nil => simpa using hpart
    | cons part' parts =>
      rw [List.intercalate_cons_cons]
      simp only [List.forall_mem_append]
      exact ⟨⟨hpart, hs⟩, ih hparts⟩

theorem Resource.isPathChar (r : Resource) :
    ∀ c ∈ r.path.toList, isAsciiLetter c = true ∨ Iri.isUnreserved c = true ∨ c = '%' ∨ c = '/' := by
  have hsegment : ∀ x ∈ r.segments, ∀ c ∈ x.toList, isAsciiLetter c = true ∨
      Iri.isUnreserved c = true ∨ c = '%' ∨ c = '/' := by
    have hencoded (text : String) (c : Char) (hc : c ∈ (Iri.encode text).toList) :
        isAsciiLetter c = true ∨ Iri.isUnreserved c = true ∨ c = '%' ∨ c = '/' := by
      rw [Iri.encode, String.toList_ofList] at hc
      obtain h | h := Iri.isUnreserved_of_mem_encodeChars _ c hc
      · exact .inr (.inl h)
      · exact .inr (.inr (.inl h))
    have hword (word : String) (h : ∀ c ∈ word.toList, isAsciiLetter c = true) (c : Char)
        (hc : c ∈ word.toList) : isAsciiLetter c = true ∨ Iri.isUnreserved c = true ∨ c = '%' ∨
          c = '/' := .inl (h c hc)
    cases r <;> simp only [segments, List.forall_mem_cons]
    · exact ⟨hword _ (by decide), hencoded _, by simp⟩
    · exact ⟨hword _ (by decide), hencoded _, by simp⟩
    · exact ⟨hword _ (by decide), hencoded _, hencoded _, by simp⟩
    · exact ⟨hword _ (by decide), hencoded _, hencoded _, hencoded _, by simp⟩
  rw [path, String.toList_intercalate]
  exact forall_mem_intercalate (by decide) _ (List.forall_mem_map.2 hsegment)

def resourceKinds : List String :=
  ["noun", "verb", "command"]

theorem Resource.exists_kind (r : Resource) : ∃ kind ∈ resourceKinds, ∃ rest,
    r.path = kind ++ "/" ++ rest := by
  cases r with
  | noun name => exact ⟨"noun", by decide, Iri.encode name, by simp [path, segments]⟩
  | verb name => exact ⟨"verb", by decide, Iri.encode name, by simp [path, segments]⟩
  | command key =>
    exact ⟨"command", by decide, Iri.encode key.noun ++ "/" ++ Iri.encode key.verb,
      by simp [path, segments, String.append_assoc]⟩
  | argument key name =>
    exact ⟨"command", by decide, Iri.encode key.noun ++ "/" ++ Iri.encode key.verb ++ "/" ++ Iri.encode name,
      by simp [path, segments, String.append_assoc]⟩

theorem Resource.isCanonicalIri {base : String} (h : IsCanonicalIri base) (r : Resource) :
    IsCanonicalIri (base ++ r.path) := by
  have hpath := isCanonicalIri_append h r.path.toList fun c hc =>
    (isLegal_of_isPathChar c (r.isPathChar c hc)).1
  rwa [String.ofList_toList] at hpath

inductive IsFact (base : String) (d : Definition) : String × Term → Prop
  | type {classIri : String} (h : IsVocabulary classIri) : IsFact base d (Rdf.type, .iri classIri)
  | resource {p : String} (h : IsVocabulary p) (r : Resource) : IsFact base d (p, r.node base)
  | text {p : String} (h : IsVocabulary p) {text : String} (ht : text ∈ d.texts) :
    IsFact base d (p, .plain text)
  | truth {p : String} (h : IsVocabulary p) (b : Bool) :
    IsFact base d (p, .typed (if b then "true" else "false") Xsd.boolean)
  | position {p : String} (h : IsVocabulary p) (n : Int) :
    IsFact base d (p, .typed (toString n) Xsd.integer)

theorem isFact_of_describes {base : String} {d : Definition} {r : Resource}
    {facts : List (String × Term)} (hr : Describes base d r facts) (f : String × Term) (hf : f ∈ facts) :
    IsFact base d f := by
  obtain ⟨p, x⟩ := f
  have hv {iri : String} (h : iri ∈ vocabulary) : IsVocabulary iri := isVocabulary_of_mem iri h
  have hhelp (help : Option String) (hmem : ∀ text ∈ help, text ∈ d.texts)
      (hf : (p, x) ∈ helpFacts help) : IsFact base d (p, x) := by
    obtain ⟨rfl, text, htext, rfl⟩ := (mem_helpFacts help p x).1 hf
    exact .text (hv (by simp [vocabulary])) (hmem text (Option.mem_filter_iff.1 htext).1)
  cases hr with
  | noun c hc =>
    obtain ⟨rfl, rfl⟩ | ⟨rfl, rfl⟩ := (mem_namedFacts _ _ p x).1 hf
    · exact .type (hv (by simp [vocabulary]))
    · exact .text (hv (by simp [vocabulary])) (List.mem_flatMap.2 ⟨c, hc, by simp [CommandDefinition.texts]⟩)
  | verb c hc =>
    obtain ⟨rfl, rfl⟩ | ⟨rfl, rfl⟩ := (mem_namedFacts _ _ p x).1 hf
    · exact .type (hv (by simp [vocabulary]))
    · exact .text (hv (by simp [vocabulary])) (List.mem_flatMap.2 ⟨c, hc, by simp [CommandDefinition.texts]⟩)
  | command c hc =>
    have hmem {text : String} (h : text ∈ c.texts) : text ∈ d.texts := List.mem_flatMap.2 ⟨c, hc, h⟩
    obtain ⟨rfl, rfl⟩ | ⟨rfl, rfl⟩ | ⟨rfl, rfl⟩ | ⟨rfl, text, ht, rfl⟩ | ⟨rfl, text, ht, rfl⟩ | hf |
      ⟨rfl, a, -, rfl⟩ := (mem_commandFacts base c p x).1 hf
    · exact .type (hv (by simp [vocabulary]))
    · exact .resource (hv (by simp [vocabulary])) _
    · exact .resource (hv (by simp [vocabulary])) _
    · have ht' := (mem_ordered text c.handlers).1 ht
      exact .text (hv (by simp [vocabulary])) (hmem (by simp [CommandDefinition.texts, ht']))
    · have ht' := (mem_ordered text c.capabilities).1 ht
      exact .text (hv (by simp [vocabulary])) (hmem (by simp [CommandDefinition.texts, ht']))
    · refine hhelp c.help (fun text ht => hmem ?_) hf
      simp [CommandDefinition.texts, Option.mem_def.1 ht]
    · exact .resource (hv (by simp [vocabulary])) _
  | argument c hc a ha =>
    have hmem {text : String} (h : text ∈ a.texts) : text ∈ d.texts :=
      List.mem_flatMap.2 ⟨c, hc, by simp [CommandDefinition.texts, -List.mem_flatMap,
        List.mem_flatMap_of_mem ha h]⟩
    obtain ⟨rfl, rfl⟩ | ⟨rfl, rfl⟩ | ⟨rfl, rfl⟩ | ⟨rfl, rfl⟩ | ⟨rfl, text, ht, rfl⟩ |
      ⟨rfl, n, -, rfl⟩ | ⟨rfl, tag, ht, rfl⟩ | hf := (mem_argumentFacts a p x).1 hf
    · exact .type (hv (by simp [vocabulary]))
    · exact .text (hv (by simp [vocabulary])) (hmem (by simp [Argument.texts]))
    · exact .text (hv (by simp [vocabulary])) (hmem (by simp [Argument.texts]))
    · exact .truth (hv (by simp [vocabulary])) a.required
    · exact .text (hv (by simp [vocabulary])) (hmem (by simp [Argument.texts, ht]))
    · exact .position (hv (by simp [vocabulary])) n
    · have ht' := (mem_ordered tag a.validators).1 ht
      exact .text (hv (by simp [vocabulary])) (hmem (by simp [Argument.texts, ht']))
    · refine hhelp a.help (fun text ht => hmem ?_) hf
      simp [Argument.texts, Option.mem_def.1 ht]

/-- Every statement about a definition is a fact about a resource. -/
theorem exists_fact {base : String} {d : Definition} {ts : List Triple} (h : statements base d = .ok ts)
    (t : Triple) (ht : t ∈ ts) : ∃ r f, IsFact base d f ∧ t = statement (Resource.node base r) f := by
  obtain ⟨r, facts, hr, f, hf, rfl⟩ := (mem_statements_iff base d ts h t).1 ht
  exact ⟨r, f, isFact_of_describes hr f hf, rfl⟩

variable {base : String} {d : Definition} {f : String × Term}

theorem IsFact.predicate (h : IsFact base d f) : f.1 = Rdf.type ∨ IsVocabulary f.1 := by
  cases h with
  | type => exact .inl rfl
  | resource h => exact .inr h
  | text h => exact .inr h
  | truth h => exact .inr h
  | position h => exact .inr h

theorem IsFact.isSettled (h : IsFact base d f) : f.2.IsSettled := by
  cases h with
  | type h => exact Term.isSettled_of_isResource _ rfl
  | resource h r => exact Term.isSettled_of_isResource _ rfl
  | text h => exact Term.isSettled_plain _
  | truth h b => exact Term.isSettled_typed (by decide) (by decide) rfl
  | position h n => exact Term.isSettled_typed (by decide) (by decide) rfl

theorem IsFact.isCanonical (hb : IsCanonicalIri base) (h : IsFact base d f) : IsCanonical f.2 := by
  cases h with
  | type h => exact h.isCanonicalIri
  | resource h r => exact r.isCanonicalIri hb
  | text h => trivial
  | truth h b => exact ⟨⟨by decide, by decide +kernel⟩, by decide⟩
  | position h n => exact ⟨⟨by decide, by decide +kernel⟩, by decide⟩

theorem isCanonicalTriple_statement (hb : IsCanonicalIri base) (r : Resource) (h : IsFact base d f) :
    IsCanonicalTriple (statement (r.node base) f) := by
  have htype : IsCanonicalIri Rdf.type := ⟨by decide, by decide +kernel⟩
  refine ⟨rfl, r.isCanonicalIri hb, ⟨f.1, rfl, ?_⟩, h.isCanonical hb⟩
  obtain hp | hp := h.predicate
  · rwa [hp]
  · exact hp.isCanonicalIri

theorem areSettled_statements {ts : List Triple} (h : statements base d = .ok ts) : AreSettled ts := by
  intro t ht
  obtain ⟨r, f, hf, rfl⟩ := exists_fact h t ht
  simp only [Triple.terms, List.forall_mem_cons]
  exact ⟨Term.isSettled_of_isResource _ rfl, Term.isSettled_of_isResource _ rfl, hf.isSettled, by simp⟩

end Export

end CommandOntology
