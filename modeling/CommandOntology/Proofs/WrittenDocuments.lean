import CommandOntology.Proofs.PrefixTables
import CommandOntology.Proofs.QuotedTexts
import CommandOntology.Proofs.SpelledStatements
import CommandOntology.Proofs.StableSorting

set_option autoImplicit false

namespace CommandOntology.Turtle

open CommandOntology.Text

def IsRead (text : List Char) (ls : List Lexeme) : Prop :=
  ∀ c rest, EndsToken c → lexemes? (text ++ c :: rest) = (lexemes? (c :: rest)).map (ls ++ ·)

def IsReadAnyhow (text : List Char) (ls : List Lexeme) : Prop :=
  ∀ rest, lexemes? (text ++ rest) = (lexemes? rest).map (ls ++ ·)

def OpensFreely (text : List Char) : Prop :=
  ∀ c ∈ text.head?, EndsToken c

/-- A text that is read as these lexemes whatever follows, and ends what is before it. -/
structure IsSeparator (text : List Char) (ls : List Lexeme) : Prop where
  isRead : IsReadAnyhow text ls
  opensFreely : OpensFreely text
  nonempty : text ≠ []

theorem IsReadAnyhow.append {a b : List Char} {la lb : List Lexeme} (ha : IsReadAnyhow a la)
    (hb : IsReadAnyhow b lb) : IsReadAnyhow (a ++ b) (la ++ lb) := by
  intro rest
  rw [List.append_assoc, ha, hb]
  simp [Function.comp_def]

theorem isRead_nil : IsRead [] [] := by
  intro c rest _
  simp

theorem IsRead.append {a b : List Char} {la lb : List Lexeme} (ha : IsRead a la) (hb : IsRead b lb)
    (hopens : OpensFreely b) : IsRead (a ++ b) (la ++ lb) := by
  intro c rest hc
  obtain ⟨d, rest', hd, he⟩ : ∃ d rest', EndsToken d ∧ b ++ c :: rest = d :: rest' := by
    cases b with
    | nil => exact ⟨c, rest, hc, rfl⟩
    | cons d b => exact ⟨d, _, hopens d rfl, rfl⟩
  have hrest : lexemes? (d :: rest') = (lexemes? (c :: rest)).map (lb ++ ·) := he ▸ hb c rest hc
  rw [List.append_assoc, he, ha d rest' hd, hrest]
  simp [Function.comp_def]

theorem IsSeparator.append {a b : List Char} {la lb : List Lexeme} (ha : IsSeparator a la)
    (hb : IsRead b lb) : IsRead (a ++ b) (la ++ lb) := by
  intro c rest hc
  rw [List.append_assoc, ha.isRead, hb c rest hc]
  simp [Function.comp_def]

theorem OpensFreely.append {a : List Char} (b : List Char) (ha : OpensFreely a) (hne : a ≠ []) :
    OpensFreely (a ++ b) := by
  cases a with
  | nil => exact absurd rfl hne
  | cons c a => exact ha

theorem isSeparator_layout (c : Char) (layout : List Char) {ls : List Lexeme} (hc : EndsToken c)
    (head : List Char) (hhead : ∀ rest, lexemes? (c :: (head ++ rest)) = (lexemes? rest).map (ls ++ ·))
    (hlayout : ∀ d ∈ layout, isLayout d = true) : IsSeparator (c :: (head ++ layout)) ls := by
  have hskip (rest : List Char) : lexemes? (layout ++ rest) = lexemes? rest := by
    induction layout with
    | nil => rfl
    | cons d layout ih =>
      rw [List.cons_append, lexemes?_layout d _ (hlayout d List.mem_cons_self),
        ih fun e he => hlayout e (List.mem_cons_of_mem d he)]
  refine ⟨fun rest => ?_, fun d hd => ?_, List.cons_ne_nil _ _⟩
  · rw [List.cons_append, List.append_assoc, hhead, hskip]
  · cases hd
    exact hc

theorem isLayout_of_mem_lineAt (depth : Nat) : ∀ c ∈ (lineAt depth).toList, isLayout c = true := by
  intro c hc
  simp only [lineAt, String.toList_append, String.toList_ofList, List.mem_append] at hc
  obtain hc | hc := hc
  · rw [show "\n".toList = ['\n'] from rfl, List.mem_singleton] at hc
    rw [hc]
    decide
  · rw [List.eq_of_mem_replicate hc]
    decide

theorem isSeparator_blank : IsSeparator " ".toList [] :=
  isSeparator_layout ' ' [] (.inl rfl) [] (fun rest => by
    rw [List.nil_append, lexemes?_layout ' ' rest (by decide)]
    simp) (by simp)

theorem isSeparator_comma (depth : Nat) : IsSeparator ("," ++ lineAt depth).toList [.mark .comma] := by
  rw [String.toList_append]
  exact isSeparator_layout ',' (lineAt depth).toList (.inr rfl) []
    (fun rest => lexemes?_mark ',' rest .comma rfl) (isLayout_of_mem_lineAt depth)

theorem isSeparator_semicolon (depth : Nat) :
    IsSeparator (" ;" ++ lineAt depth).toList [.mark .semicolon] := by
  rw [String.toList_append]
  exact isSeparator_layout ' ' (lineAt depth).toList (.inl rfl) [';']
    (fun rest => by
      rw [lexemes?_layout ' ' _ (by decide)]
      exact lexemes?_mark ';' rest .semicolon rfl) (isLayout_of_mem_lineAt depth)

theorem isSeparator_dot : IsSeparator " .\n".toList [.mark .dot] :=
  isSeparator_layout ' ' ['\n'] (.inl rfl) ['.']
    (fun rest => by
      rw [lexemes?_layout ' ' _ (by decide)]
      exact lexemes?_mark '.' rest .dot rfl) (by decide)

/-- A text that can be written between quotes: one with line breaks does not end in a backslash and a
quote. -/
def IsQuotable (text : String) : Prop :=
  '\n' ∈ text.toList → ¬['\\', '"'] <:+ text.toList

theorem lexemes?_quotedText {text : String} (h : IsQuotable text) (rest : List Char)
    (hr : rest.head? ≠ some '"') :
    lexemes? (quotedText text ++ rest) = (lexemes? rest).map (.text text :: ·) := by
  by_cases hline : '\n' ∈ text.toList
  · have hread := lexemes?_longText text.toList rest
    rw [String.ofList_toList, ← List.append_assoc] at hread
    rw [quotedText_long text hline (h hline), hread]
  · have hread := lexemes?_shortText shortChar text.toList rest
      (isEscaping_shortChar text.toList hline) hr
    rw [String.ofList_toList] at hread
    rw [quotedText_short text hline, List.cons_append, List.append_assoc, List.singleton_append, hread]

theorem isRead_quotedText {text : String} (h : IsQuotable text) :
    IsRead (quotedText text) [.text text] := by
  intro c rest hc
  refine lexemes?_quotedText h (c :: rest) ?_
  obtain rfl | rfl := hc <;> simp

def Adds (piece : Writing) (text : String) : Prop :=
  ∀ d : Draft, piece d = .ok { d with text := d.text ++ text }

def Writes (piece : Writing) (ls : List Lexeme) : Prop :=
  ∃ text, Adds piece text ∧ IsRead text.toList ls

def Continues (piece : Writing) (ls : List Lexeme) : Prop :=
  ∃ text, Adds piece text ∧ IsRead text.toList ls ∧ OpensFreely text.toList

theorem adds_add (text : String) : Adds (Draft.add text) text := fun _ => rfl

theorem adds_nil : Adds (Draft.all []) "" := by
  intro d
  change Except.ok d = .ok { d with text := d.text ++ "" }
  rw [String.append_empty]

theorem Adds.cons {piece : Writing} {pieces : List Writing} {a b : String} (ha : Adds piece a)
    (hb : Adds (Draft.all pieces) b) : Adds (Draft.all (piece :: pieces)) (a ++ b) := by
  intro d
  have hrest := hb { d with text := d.text ++ a }
  rw [Draft.all] at hrest ⊢
  rw [List.foldlM_cons, ha d, ← String.append_assoc]
  exact hrest

theorem continues_nil : Continues (Draft.all []) [] :=
  ⟨"", adds_nil, isRead_nil, by simp [OpensFreely]⟩

theorem Writes.cons {piece : Writing} {pieces : List Writing} {la lb : List Lexeme}
    (ha : Writes piece la) (hb : Continues (Draft.all pieces) lb) :
    Writes (Draft.all (piece :: pieces)) (la ++ lb) := by
  obtain ⟨a, ha, hra⟩ := ha
  obtain ⟨b, hb, hrb, hopens⟩ := hb
  exact ⟨a ++ b, ha.cons hb, by rw [String.toList_append]; exact hra.append hrb hopens⟩

theorem IsSeparator.continues {separator : String} {la lb : List Lexeme} {pieces : List Writing}
    (ha : IsSeparator separator.toList la) (hb : Writes (Draft.all pieces) lb) :
    Continues (Draft.all (Draft.add separator :: pieces)) (la ++ lb) := by
  obtain ⟨b, hb, hrb⟩ := hb
  refine ⟨separator ++ b, (adds_add separator).cons hb, ?_, ?_⟩
  · rw [String.toList_append]
    exact ha.append hrb
  · rw [String.toList_append]
    exact ha.opensFreely.append _ ha.nonempty

theorem Continues.singleton {piece : Writing} {ls : List Lexeme} (h : Continues piece ls) :
    Continues (Draft.all [piece]) ls := by
  obtain ⟨text, hadds, hread, hopens⟩ := h
  refine ⟨text ++ "", hadds.cons adds_nil, ?_, ?_⟩
  · rwa [String.append_empty]
  · rwa [String.append_empty]

theorem writes_add {text : String} {ls : List Lexeme} (h : IsRead text.toList ls) :
    Writes (Draft.add text) ls :=
  ⟨text, adds_add text, h⟩

theorem intercalate_cons {α : Type} (separator x : List α) (xs : List (List α)) :
    separator.intercalate (x :: xs) = x ++ xs.flatMap (separator ++ ·) := by
  induction xs generalizing x with
  | nil => simp
  | cons y xs ih => rw [List.intercalate_cons_cons, ih, List.flatMap_cons, List.append_assoc]; simp

/-- Pieces with a separator before each but the first, and a blank before that. -/
theorem continues_list {α : Type} {separator : String} {l : List Lexeme}
    (hseparator : IsSeparator separator.toList l) (piece : α → Writing) (ls : α → List Lexeme) (x : α)
    (xs : List α) (h : ∀ y ∈ x :: xs, Writes (piece y) (ls y)) :
    Continues (Draft.all ([Draft.add " ", piece x] ++ xs.flatMap fun y =>
      [Draft.add separator, piece y])) (l.intercalate ((x :: xs).map ls)) := by
  have htail (xs : List α) (h : ∀ y ∈ xs, Writes (piece y) (ls y)) :
      Continues (Draft.all (xs.flatMap fun y => [Draft.add separator, piece y]))
        (xs.flatMap fun y => l ++ ls y) := by
    induction xs with
    | nil => exact continues_nil
    | cons y xs ih =>
      obtain ⟨hy, hxs⟩ := List.forall_mem_cons.1 h
      have hrest := hseparator.continues (hy.cons (ih hxs))
      simpa [List.flatMap_cons] using hrest
  obtain ⟨hx, hxs⟩ := List.forall_mem_cons.1 h
  have hall := isSeparator_blank.continues (hx.cons (htail xs hxs))
  rw [List.map_cons, intercalate_cons, List.flatMap_map]
  exact hall

theorem mem_listTerms (t : Term) (terms : List Term) : t ∈ listTerms terms ↔ t ∈ terms :=
  (stableSort_perm _ _).mem_iff

namespace Source

variable (s : Source)

theorem mem_about (t : Triple) (subject : Term) :
    t ∈ s.graph.about subject ↔ t ∈ s.graph.statements ∧ t.subject = subject := by
  rw [Graph.about, List.mem_filter, beq_iff_eq]

theorem mem_properties (subject : Term) (entry : Term × List Term) (h : entry ∈ s.properties subject)
    (o : Term) : o ∈ entry.2 ↔ ⟨subject, entry.1, o⟩ ∈ s.graph.statements := by
  simp only [properties, List.mem_map] at h
  obtain ⟨p, -, rfl⟩ := h
  simp only [mem_listTerms, List.mem_map, List.mem_filter, mem_about, beq_iff_eq]
  constructor
  · rintro ⟨t, ⟨⟨ht, rfl⟩, rfl⟩, rfl⟩
    exact ht
  · exact fun ht => ⟨_, ⟨⟨ht, rfl⟩, rfl⟩, rfl⟩

theorem exists_mem_properties (subject p : Term) : (∃ entry ∈ s.properties subject, entry.1 = p) ↔
    ∃ o, ⟨subject, p, o⟩ ∈ s.graph.statements := by
  have hpredicate : p ∈ distinct ((s.graph.about subject).map (·.predicate)) ↔
      ∃ o, ⟨subject, p, o⟩ ∈ s.graph.statements := by
    simp only [mem_distinct, List.mem_map, mem_about]
    constructor
    · rintro ⟨t, ⟨ht, rfl⟩, rfl⟩
      exact ⟨t.object, ht⟩
    · rintro ⟨o, ht⟩
      exact ⟨_, ⟨ht, rfl⟩, rfl⟩
  rw [← hpredicate]
  simp only [properties, List.mem_map, List.mem_append, mem_listTerms, List.mem_filter,
    exists_exists_and_eq_and, exists_eq_right, List.contains_eq_mem, decide_eq_true_eq,
    Bool.not_eq_true', decide_eq_false_iff_not]
  constructor
  · rintro (⟨-, hp⟩ | ⟨hp, -⟩)
    · exact hp
    · exact hp
  · intro hp
    by_cases hfirst : p ∈ [Term.iri Rdf.type, Term.iri Rdfs.label]
    · exact .inl ⟨hfirst, hp⟩
    · exact .inr ⟨hp, fun hboth => hfirst hboth.1⟩

def block (subject : Term) : Block :=
  ⟨subject, s.properties subject⟩

theorem mem_block_triples (subject : Term) (t : Triple) :
    t ∈ (s.block subject).triples ↔ t ∈ s.graph.statements ∧ t.subject = subject := by
  simp only [block, Block.triples, List.mem_flatMap, List.mem_map]
  constructor
  · rintro ⟨entry, hentry, o, ho, rfl⟩
    exact ⟨(s.mem_properties subject entry hentry o).1 ho, rfl⟩
  · rintro ⟨ht, rfl⟩
    obtain ⟨entry, hentry, hp⟩ := (s.exists_mem_properties t.subject t.predicate).2 ⟨t.object, ht⟩
    refine ⟨entry, hentry, t.object, (s.mem_properties _ entry hentry _).2 ?_, ?_⟩
    · rw [hp]
      exact ht
    · rw [hp]

end Source

structure IsDeclarable (entry : String × String) : Prop where
  label : IsLabel entry.1.toList
  namespaceIri : IsCanonicalIri entry.2

/-- Namespaces in which the prefixes that a document uses stand for what it uses them for. -/
def Usage.IsDeclaredIn (u : Usage) (namespaces : Namespaces) : Prop :=
  ∀ entry ∈ u.used, namespaces.resolve entry.1 = some entry.2

/-- A node that is written as its spelling, and is read from it. It is no blank node. -/
structure Displays (usage : Usage) (sp : Spelling) (t : Term) : Prop where
  notBlank : isBlankNode t = false
  written : ∃ text, nodeText usage t = .ok text ∧ IsRead text.toList (sp.node t)
  spelled : ∀ namespaces, usage.IsDeclaredIn namespaces → Spells namespaces (sp.node t) t

structure DisplaysPredicate (usage : Usage) (sp : Spelling) (p : Term) : Prop where
  written : ∃ text, predicateText usage p = .ok text ∧ IsRead text.toList (sp.predicate p)
  spelled : ∀ namespaces, usage.IsDeclaredIn namespaces → SpellsPredicate namespaces (sp.predicate p) p

structure Source.IsDisplayed (s : Source) (sp : Spelling) : Prop where
  declarable : ∀ entry ∈ s.usage.used, IsDeclarable entry
  labels : (s.usage.used.map (·.1)).Nodup
  isResource : ∀ t ∈ s.graph.statements, t.subject.isResource = true
  subject : ∀ t ∈ s.graph.statements, Displays s.usage sp t.subject
  predicate : ∀ t ∈ s.graph.statements, DisplaysPredicate s.usage sp t.predicate
  object : ∀ t ∈ s.graph.statements, Displays s.usage sp t.object

variable {s : Source} {sp : Spelling}

theorem Displays.writes {t : Term} (h : Displays s.usage sp t) (room depth : Nat) :
    Writes (writeObject s room depth t) (sp.node t) := by
  obtain ⟨hblank, ⟨text, htext, hread⟩, -⟩ := h
  have hobject : writeObject s room depth t = Draft.add text := by
    funext d
    have hnested : s.isNested d t = false := by simp [Source.isNested, hblank]
    cases room <;> simp only [writeObject, hnested, htext] <;> rfl
  rw [hobject]
  exact writes_add hread

theorem continues_writeObjects (write : Nat → Term → Writing) (depth : Nat) (os : List Term)
    (hne : os ≠ []) (h : ∀ o ∈ os, Writes (write (depth + 1) o) (sp.node o)) :
    Continues (writeObjects write depth os) (sp.objects os) := by
  obtain ⟨o, rest, rfl⟩ := List.exists_cons_of_ne_nil hne
  exact continues_list (isSeparator_comma (depth + 2)) (write (depth + 1)) sp.node o rest h

theorem continues_writeProperties (hs : s.IsDisplayed sp) (room depth : Nat) (subject : Term)
    (hne : s.properties subject ≠ []) :
    Continues (writeProperties s (writeObject s room) depth subject)
      (sp.properties (s.properties subject)) := by
  obtain ⟨entry, rest, he⟩ := List.exists_cons_of_ne_nil hne
  have hproperty (entry : Term × List Term) (hentry : entry ∈ s.properties subject) :
      Writes (fun d => do
        let name ← predicateText s.usage entry.1
        Draft.all [Draft.add name, writeObjects (writeObject s room) depth entry.2] d)
        (sp.property entry) := by
    have hmem := s.mem_properties subject entry hentry
    obtain ⟨o, ho⟩ := (s.exists_mem_properties subject entry.1).1 ⟨entry, hentry, rfl⟩
    obtain ⟨name, hname, hread⟩ := (hs.predicate _ ho).written
    have hobjects : Continues (writeObjects (writeObject s room) depth entry.2) (sp.objects entry.2) :=
      continues_writeObjects (writeObject s room) depth entry.2 (List.ne_nil_of_mem ((hmem o).2 ho))
        fun x hx => (hs.object _ ((hmem x).1 hx)).writes _ _
    have hname : predicateText s.usage entry.1 = .ok name := hname
    rw [hname]
    exact (writes_add hread).cons hobjects.singleton
  rw [writeProperties, he]
  have hall := continues_list (isSeparator_semicolon (depth + 1)) _ sp.property entry rest
    fun x hx => hproperty x (he ▸ hx)
  exact hall

/-- A subject that is not done with is written with its properties, and done with. -/
theorem writeSubject_eq (hs : s.IsDisplayed sp) (subject : Term)
    (hsubject : ∃ t ∈ s.graph.statements, t.subject = subject) (d : Draft) (hd : subject ∉ d.done) :
    ∃ text, writeSubject s subject d = .ok ⟨d.text ++ text, subject :: d.done⟩ ∧
      IsReadAnyhow text.toList (sp.block (s.block subject)) := by
  obtain ⟨t, ht, rfl⟩ := hsubject
  obtain ⟨hblank, ⟨label, hlabel, hread⟩, -⟩ := hs.subject t ht
  obtain ⟨entry, hentry, -⟩ := (s.exists_mem_properties t.subject t.predicate).2 ⟨t.object, ht⟩
  obtain ⟨properties, hadds, hproperties, hopens⟩ :=
    continues_writeProperties hs (s.graph.size + 1) 0 t.subject (List.ne_nil_of_mem hentry)
  refine ⟨"\n" ++ label ++ properties ++ " .\n", ?_, fun rest => ?_⟩
  · have hpieces : Draft.all [Draft.finish t.subject, Draft.add ("\n" ++ label),
        writeProperties s (writeObject s (s.graph.size + 1)) 0 t.subject, Draft.add " .\n"] d =
          .ok ⟨d.text ++ ("\n" ++ label ++ properties ++ " .\n"), t.subject :: d.done⟩ := by
      simp only [Draft.all, List.foldlM_cons, List.foldlM_nil, Draft.finish, Draft.add, hadds _, bind,
        Except.bind, pure, Except.pure, String.append_assoc]
    rw [writeSubject, if_neg (by simpa using hd), hblank, Bool.false_and, if_neg Bool.false_ne_true,
      hlabel]
    exact hpieces
  · have hbody := hread.append hproperties hopens ' ' ('.' :: '\n' :: rest) (.inl rfl)
    have hdot : lexemes? (' ' :: '.' :: '\n' :: rest) = (lexemes? rest).map ([.mark .dot] ++ ·) :=
      isSeparator_dot.isRead rest
    have hline : lexemes? (("\n" ++ label ++ properties ++ " .\n").toList ++ rest) =
        lexemes? (label.toList ++ properties.toList ++ ' ' :: '.' :: '\n' :: rest) := by
      rw [← lexemes?_layout '\n' (label.toList ++ properties.toList ++ ' ' :: '.' :: '\n' :: rest)
        (by decide)]
      simp
    rw [hline, hbody, hdot]
    simp [Spelling.block, Source.block, Function.comp_def]

theorem writeSubjects_eq (hs : s.IsDisplayed sp) (subjects : List Term)
    (hsubjects : ∀ x ∈ subjects, ∃ t ∈ s.graph.statements, t.subject = x) (d : Draft) :
    ∃ text done, Draft.all (subjects.map (writeSubject s)) d = .ok ⟨d.text ++ text, done⟩ ∧
      IsReadAnyhow text.toList
        (((distinctByFrom id d.done subjects).map s.block).flatMap sp.block) := by
  induction subjects generalizing d with
  | nil => exact ⟨"", d.done, by rw [String.append_empty]; rfl, fun rest => by simp [distinctByFrom]⟩
  | cons x subjects ih =>
    have hrest := ih fun y hy => hsubjects y (List.mem_cons_of_mem x hy)
    by_cases hx : x ∈ d.done
    · have hskip : writeSubject s x d = .ok d := by
        rw [writeSubject, if_pos (by simpa using hx)]
      obtain ⟨text, done, hall, hread⟩ := hrest d
      refine ⟨text, done, ?_, by rwa [distinctByFrom, if_pos (by simpa using hx)]⟩
      rw [List.map_cons, Draft.all, List.foldlM_cons, hskip]
      exact hall
    · obtain ⟨first, hfirst, hreadFirst⟩ :=
        writeSubject_eq hs x (hsubjects x List.mem_cons_self) d hx
      obtain ⟨text, done, hall, hread⟩ := hrest ⟨d.text ++ first, x :: d.done⟩
      refine ⟨first ++ text, done, ?_, ?_⟩
      · rw [List.map_cons, Draft.all, List.foldlM_cons, hfirst, ← String.append_assoc]
        exact hall
      · rw [distinctByFrom, if_neg (by simpa using hx), String.toList_append]
        exact hreadFirst.append hread

theorem mem_orderedSubjects (g : Graph) (x : Term) :
    x ∈ orderedSubjects g ↔ ∃ t ∈ g.statements, t.subject = x := by
  have hsubject (y : Term) : y ∈ g.subjects ↔ ∃ t ∈ g.statements, t.subject = y := by
    simp [Graph.subjects]
  unfold orderedSubjects
  extract_lets isClass classes others
  have hclasses : ∀ y ∈ classes, y ∈ g.subjects := by
    intro y hy
    simp only [classes, mem_listTerms, mem_distinct, List.mem_map, List.mem_filter] at hy
    obtain ⟨t, ⟨ht, -⟩, rfl⟩ := hy
    exact (hsubject _).2 ⟨t, ht, rfl⟩
  have hothers : x ∈ (stableSort subjectBefore others).map (·.2.2) ↔ x ∈ g.subjects ∧ x ∉ classes := by
    simp only [List.mem_map, (stableSort_perm _ _).mem_iff, others, List.mem_filter,
      Bool.not_eq_true', List.contains_eq_mem, decide_eq_false_iff_not]
    constructor
    · rintro ⟨_, ⟨y, hy, rfl⟩, rfl⟩
      exact hy
    · exact fun hx => ⟨_, ⟨x, hx, rfl⟩, rfl⟩
  rw [List.mem_append, hothers, ← hsubject]
  constructor
  · rintro (hx | hx)
    · exact hclasses x hx
    · exact hx.1
  · intro hx
    by_cases hc : x ∈ classes
    · exact .inl hc
    · exact .inr ⟨hx, hc⟩

def Usage.declared (u : Usage) : List (String × String) :=
  u.used.mergeSort fun a b => decide (a.1 ≤ b.1)

theorem isReadAnyhow_declaration (entry : String × String) (h : IsDeclarable entry) :
    IsReadAnyhow ("@prefix " ++ entry.1 ++ ": <" ++ entry.2 ++ "> .\n").toList
      (declarationLexemes entry) := by
  intro rest
  have hdot : lexemes? (' ' :: '.' :: '\n' :: rest) = (lexemes? rest).map ([.mark .dot] ++ ·) :=
    isSeparator_dot.isRead rest
  have hiri := lexemes?_canonicalIri h.namespaceIri (' ' :: '.' :: '\n' :: rest)
  have hname := lexemes?_name entry.1.toList []
    (' ' :: '<' :: (entry.2.toList ++ '>' :: ' ' :: '.' :: '\n' :: rest)) h.label (by simp)
    (localLength_ends ' ' _ (.inl rfl))
  rw [lexemes?_layout ' ' _ (by decide), hiri, hdot] at hname
  have hdirective := lexemes?_prefix (entry.1.toList ++ ':' ::
    (' ' :: '<' :: (entry.2.toList ++ '>' :: ' ' :: '.' :: '\n' :: rest)))
  rw [List.nil_append] at hname
  rw [hname] at hdirective
  simpa [declarationLexemes, Function.comp_def] using hdirective

theorem isReadAnyhow_prefixLines (u : Usage) (h : ∀ entry ∈ u.used, IsDeclarable entry) :
    IsReadAnyhow (prefixLines u).toList (u.declared.flatMap declarationLexemes) := by
  have hall : ∀ entries : List (String × String), (∀ entry ∈ entries, IsDeclarable entry) →
      IsReadAnyhow (String.join (entries.map fun entry =>
        "@prefix " ++ entry.1 ++ ": <" ++ entry.2 ++ "> .\n")).toList
          (entries.flatMap declarationLexemes) := by
    intro entries hentries
    induction entries with
    | nil => exact fun rest => by simp
    | cons entry entries ih =>
      obtain ⟨hentry, hrest⟩ := List.forall_mem_cons.1 hentries
      rw [List.map_cons, String.join_cons, String.toList_append, List.flatMap_cons]
      exact (isReadAnyhow_declaration entry hentry).append (ih hrest)
  exact hall u.declared fun entry hentry => h entry (List.mem_mergeSort.1 hentry)

def Scope.declaring (scope : Scope) (entries : List (String × String)) : Scope :=
  { scope with namespaces :=
      { scope.namespaces with entries := scope.namespaces.entries ++ entries } }

theorem goesOn_declarations {stop : Position} {scope : Scope} {tokens : List Token} {ls : List Lexeme}
    (entries : List (String × String)) (hentries : ∀ entry ∈ entries, IsDeclarable entry)
    (hopen : scope.namespaces.isFrozen = false)
    (hlabels : ((scope.namespaces.entries ++ entries).map (·.1)).Nodup)
    (hroom : (scope.namespaces.entries ++ entries).length ≤ scope.namespaces.capacity)
    (hl : tokens.map (·.lexeme) = entries.flatMap declarationLexemes ++ ls) :
    GoesOn stop .statement scope tokens ls .statement (scope.declaring entries) := by
  induction entries generalizing scope tokens with
  | nil => exact ⟨tokens, hl, by simp [Scope.declaring]⟩
  | cons entry entries ih =>
    obtain ⟨hentry, hrest⟩ := List.forall_mem_cons.1 hentries
    have hnew : entry.1 ∉ scope.namespaces.entries.map (·.1) := by
      rw [List.map_append, List.nodup_append] at hlabels
      exact fun hmem => hlabels.2.2 _ hmem entry.1 (by simp) rfl
    have hfree : ¬scope.namespaces.capacity ≤ scope.namespaces.entries.length := by
      rw [List.length_append, List.length_cons] at hroom
      omega
    have hdeclare : scope.namespaces.declare entry.1 entry.2 =
        .ok (scope.declaring [entry]).namespaces := by
      rw [Namespaces.declare, Namespaces.resolve, findField_eq_none hnew,
        putField_eq_append _ _ _ hnew]
      simp [hfree, hopen, Scope.declaring]
    rw [List.flatMap_cons, List.append_assoc] at hl
    obtain ⟨rest, hrest', hrun⟩ : GoesOn stop .statement scope tokens _ _ _ :=
      goesOn_declaration hentry.namespaceIri hdeclare hl
    have htail : GoesOn stop .statement (scope.declaring [entry]) rest ls .statement
        ((scope.declaring [entry]).declaring entries) :=
      ih hrest hopen (by simpa [Scope.declaring] using hlabels) (by simpa [Scope.declaring] using hroom)
        hrest'
    have hscope : (scope.declaring [entry]).declaring entries = scope.declaring (entry :: entries) := by
      simp [Scope.declaring]
    rw [← hscope]
    exact htail.of_run hrun

theorem readTerm_of_notBlank (t : Term) (h : isBlankNode t = false) : readTerm t = t := by
  cases t with
  | blank label => cases h
  | iri value => rfl
  | literal lexical datatype language => rfl

theorem readTerm_of_spellsPredicate {namespaces : Namespaces} {ls : List Lexeme} {p : Term}
    (h : SpellsPredicate namespaces ls p) : readTerm p = p := by
  cases h <;> rfl

theorem readTriple_of_isDisplayed (hs : s.IsDisplayed sp) (t : Triple) (ht : t ∈ s.graph.statements) :
    readTriple t = t := by
  have hnamespaces : s.usage.IsDeclaredIn ⟨0, s.usage.used, false⟩ := fun entry hentry =>
    findField_eq_some hs.labels entry hentry
  rw [readTriple, readTerm_of_notBlank _ (hs.subject t ht).notBlank,
    readTerm_of_notBlank _ (hs.object t ht).notBlank,
    readTerm_of_spellsPredicate ((hs.predicate t ht).spelled _ hnamespaces)]

theorem isSpelledBlock_block (hs : s.IsDisplayed sp) {namespaces : Namespaces}
    (hn : s.usage.IsDeclaredIn namespaces) (t : Triple) (ht : t ∈ s.graph.statements) :
    IsSpelledBlock namespaces sp (s.block t.subject) := by
  have hnode (x : Term) (hx : Displays s.usage sp x) : Spells namespaces (sp.node x) (readTerm x) := by
    rw [readTerm_of_notBlank x hx.notBlank]
    exact hx.spelled namespaces hn
  obtain ⟨entry, hentry, -⟩ := (s.exists_mem_properties t.subject t.predicate).2 ⟨t.object, ht⟩
  refine ⟨hs.isResource t ht, hnode _ (hs.subject t ht), List.ne_nil_of_mem hentry, fun entry hentry => ?_⟩
  obtain ⟨o, ho⟩ := (s.exists_mem_properties t.subject entry.1).1 ⟨entry, hentry, rfl⟩
  have hmem := s.mem_properties t.subject entry hentry
  have hpredicate := readTerm_of_spellsPredicate ((hs.predicate _ ho).spelled namespaces hn)
  dsimp only at hpredicate
  refine ⟨?_, List.ne_nil_of_mem ((hmem o).2 ho), fun x hx => hnode x (hs.object _ ((hmem x).1 hx))⟩
  rw [hpredicate]
  exact (hs.predicate _ ho).spelled namespaces hn

def Source.blocks (s : Source) : List Block :=
  (distinct (orderedSubjects s.graph)).map s.block

theorem Source.mem_blocks (s : Source) (b : Block) :
    b ∈ s.blocks ↔ ∃ t ∈ s.graph.statements, s.block t.subject = b := by
  simp only [blocks, List.mem_map, mem_distinct, mem_orderedSubjects]
  constructor
  · rintro ⟨_, ⟨t, ht, rfl⟩, rfl⟩
    exact ⟨t, ht, rfl⟩
  · rintro ⟨t, ht, rfl⟩
    exact ⟨_, ⟨t, ht, rfl⟩, rfl⟩

/-- The lexemes of declarations and blocks give out the statements of the graph. -/
theorem givesOut_blocks (hs : s.IsDisplayed sp) (options : ParserOptions)
    (hroom : (s.usage.used.length : Int) ≤ options.capacity) :
    GivesOut options (s.usage.declared.flatMap declarationLexemes ++ s.blocks.flatMap sp.block)
      ((s.blocks.flatMap Block.triples).map readTriple) := by
  intro tokens hl
  have hdeclared := List.mergeSort_perm s.usage.used fun a b => decide (a.1 ≤ b.1)
  have hlabels : (s.usage.declared.map (·.1)).Nodup := (hdeclared.map _).nodup_iff.2 hs.labels
  have hlength : s.usage.declared.length ≤ options.capacity.toNat := by
    rw [Usage.declared, hdeclared.length_eq]
    omega
  let start : Scope := .initial options.capacity.toNat options.base
  obtain ⟨rest, hrest, hrun⟩ : GoesOn tokens.stop .statement start tokens.tokens _ _ _ :=
    goesOn_declarations s.usage.declared
      (fun entry hentry => hs.declarable entry (List.mem_mergeSort.1 hentry)) rfl hlabels hlength hl
  have hnamespaces : s.usage.IsDeclaredIn (start.declaring s.usage.declared).namespaces :=
    fun entry hentry => findField_eq_some hlabels entry (List.mem_mergeSort.2 hentry)
  have hblocks : ∀ b ∈ s.blocks,
      IsSpelledBlock (start.declaring s.usage.declared).namespaces sp b := by
    intro b hb
    obtain ⟨t, ht, rfl⟩ := (s.mem_blocks b).1 hb
    exact isSpelledBlock_block hs hnamespaces t ht
  have hall := run_blocks tokens.stop (start.declaring s.usage.declared) s.blocks hblocks hrest
  rw [← hrun] at hall
  exact hall

/-- A graph is written as a document whose lexemes give out its statements, if there is room for the
prefixes. -/
theorem write_givesOut (table : PrefixTable) (g : Graph)
    (hs : Source.IsDisplayed ⟨g, Usage.ofGraph table g⟩ sp) :
    ∃ text ls ts, write table g = .ok text ∧ lexemes? text.toList = some ls ∧
      (∀ t, t ∈ ts ↔ t ∈ g.statements) ∧
      ∀ options : ParserOptions, ((Usage.ofGraph table g).used.length : Int) ≤ options.capacity →
        GivesOut options ls ts := by
  obtain ⟨text, done, hall, hread⟩ := writeSubjects_eq hs (orderedSubjects g)
    (fun x hx => (mem_orderedSubjects g x).1 hx) ⟨prefixLines (Usage.ofGraph table g), []⟩
  refine ⟨prefixLines (Usage.ofGraph table g) ++ text ++ "\n", _, _, ?_, ?_, ?_,
    fun options hroom => givesOut_blocks hs options hroom⟩
  · rw [write, hall]
    rfl
  · have hlines := isReadAnyhow_prefixLines _ hs.declarable (text.toList ++ ['\n'])
    have hend : lexemes? ['\n'] = some [] := rfl
    rw [hread ['\n'], hend] at hlines
    rw [String.toList_append, String.toList_append, List.append_assoc]
    refine hlines.trans ?_
    simp [Source.blocks, distinct, distinctBy]
  · intro t
    simp only [List.mem_map, List.mem_flatMap, Source.mem_blocks]
    constructor
    · rintro ⟨u, ⟨_, ⟨v, hv, rfl⟩, hu⟩, rfl⟩
      have hmem := ((Source.mem_block_triples _ _ _).1 hu).1
      rwa [readTriple_of_isDisplayed hs u hmem]
    · intro ht
      exact ⟨t, ⟨_, ⟨t, ht, rfl⟩, (Source.mem_block_triples _ _ _).2 ⟨ht, rfl⟩⟩,
        readTriple_of_isDisplayed hs t ht⟩

end CommandOntology.Turtle
