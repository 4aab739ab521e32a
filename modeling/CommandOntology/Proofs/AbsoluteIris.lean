import Mathlib.Data.List.TakeWhile
import CommandOntology.Proofs.Characters
import CommandOntology.Proofs.ScopeContents

set_option autoImplicit false

/-!
# Absolute IRIs

Every IRI of a document starts with a scheme, if the bases in force are hierarchical: what a relative
reference is resolved to under such a base has the scheme of the base. Under other bases a relative
reference stays relative.
-/

namespace CommandOntology.Iri

open CommandOntology.Text

def IsScheme : List Char → Prop
  | [] => False
  | c :: scheme => isAsciiLetter c = true ∧ scheme.all isSchemeChar = true

instance : (scheme : List Char) → Decidable (IsScheme scheme)
  | [] => inferInstanceAs (Decidable False)
  | c :: scheme =>
    inferInstanceAs (Decidable (isAsciiLetter c = true ∧ scheme.all isSchemeChar = true))

theorem IsScheme.char {scheme : List Char} (h : IsScheme scheme) (c : Char) (hc : c ∈ scheme) :
    isSchemeChar c = true := by
  cases scheme with
  | nil => cases hc
  | cons first scheme =>
    obtain rfl | hc := List.mem_cons.1 hc
    · simp [isSchemeChar, isAsciiAlphanumeric, h.1]
    · exact List.all_eq_true.1 h.2 c hc

theorem isSchemeChar_lt {c : Char} (h : isSchemeChar c = true) : c.toNat < 128 := by
  simp only [isSchemeChar, Bool.or_eq_true, beq_iff_eq] at h
  obtain ((h | rfl) | rfl) | rfl := h
  · exact isAsciiAlphanumeric_lt c h
  all_goals decide

/-- What the characters of schemes are not: the colon behind them, and blanks. -/
theorem isSchemeChar_ne {c : Char} (h : isSchemeChar c = true) :
    c ≠ ':' ∧ ¬c.toNat ≤ 0x20 := by
  have htest := forall_ascii (fun c => !isSchemeChar c || (c != ':' && !decide (c.toNat ≤ 0x20)))
    (by decide +kernel) c (isSchemeChar_lt h)
  simpa [h] using htest

theorem partitionAt_eq_some_iff (c : Char) (text before rest : List Char) :
    partitionAt c text = (before, some rest) ↔ text = before ++ c :: rest ∧ c ∉ before := by
  constructor
  · intro h
    obtain ⟨rfl, hrest⟩ := Prod.mk.inj h
    have htext := List.takeWhile_append_dropWhile (p := (· ≠ c)) (l := text)
    have hhead := List.head?_dropWhile_not (· ≠ c) text
    cases hd : text.dropWhile (· ≠ c) with
    | nil =>
      rw [hd] at hrest
      cases hrest
    | cons d ds =>
      rw [hd] at hrest htext hhead
      cases hrest
      have hdc : d = c := by simpa using hhead
      subst hdc
      exact ⟨htext.symm, fun hmem => by simpa using List.mem_takeWhile_imp hmem⟩
  · rintro ⟨rfl, hc⟩
    have hx : ∀ x ∈ before, decide (x ≠ c) = true := by
      intro x hx
      rw [decide_eq_true_eq]
      rintro rfl
      exact hc hx
    rw [partitionAt, List.takeWhile_append_of_pos hx, List.dropWhile_append_of_pos hx]
    simp

theorem splitScheme?_eq_some_iff (text scheme rest : List Char) :
    splitScheme? text = some (scheme, rest) ↔ text = scheme ++ ':' :: rest ∧ IsScheme scheme := by
  unfold splitScheme?
  constructor
  · intro h
    split at h
    · next c scheme' rest' hpartition =>
      split_ifs at h with hscheme
      cases h
      rw [Bool.and_eq_true] at hscheme
      exact ⟨((partitionAt_eq_some_iff _ _ _ _).1 hpartition).1, hscheme⟩
    · cases h
  · rintro ⟨rfl, hscheme⟩
    have hpartition : partitionAt ':' (scheme ++ ':' :: rest) = (scheme, some rest) :=
      (partitionAt_eq_some_iff _ _ _ _).2
        ⟨rfl, fun hc => (isSchemeChar_ne (hscheme.char _ hc)).1 rfl⟩
    rw [hpartition]
    cases scheme with
    | nil => cases hscheme
    | cons c scheme => simp [hscheme.1, hscheme.2]

theorem isAbsolute_iff (text : List Char) :
    isAbsolute text = true ↔ ∃ scheme rest, text = scheme ++ ':' :: rest ∧ IsScheme scheme := by
  simp only [isAbsolute, Option.isSome_iff_exists, Prod.exists, splitScheme?_eq_some_iff]

/-- What follows an absolute IRI leaves it absolute. -/
theorem isAbsolute_append {text : List Char} (more : List Char) (h : isAbsolute text = true) :
    isAbsolute (text ++ more) = true := by
  obtain ⟨scheme, rest, rfl, hscheme⟩ := (isAbsolute_iff _).1 h
  exact (isAbsolute_iff _).2 ⟨scheme, rest ++ more, by simp, hscheme⟩

theorem IsScheme.map_asciiLower {scheme : List Char} (h : IsScheme scheme) :
    IsScheme (scheme.map asciiLower) := by
  have hletter (c : Char) (hc : isAsciiLetter c = true) : isAsciiLetter (asciiLower c) = true := by
    have htest := forall_ascii (fun c => !isAsciiLetter c || isAsciiLetter (asciiLower c))
      (by decide +kernel) c (isAsciiAlphanumeric_lt c (by simp [isAsciiAlphanumeric, hc]))
    simpa [hc] using htest
  have hchar (c : Char) (hc : isSchemeChar c = true) : isSchemeChar (asciiLower c) = true := by
    have htest := forall_ascii (fun c => !isSchemeChar c || isSchemeChar (asciiLower c))
      (by decide +kernel) c (isSchemeChar_lt hc)
    simpa [hc] using htest
  cases scheme with
  | nil => exact h
  | cons c scheme =>
    refine ⟨hletter c h.1, List.all_eq_true.2 fun x hx => ?_⟩
    obtain ⟨y, hy, rfl⟩ := List.mem_map.1 hx
    exact hchar y (List.all_eq_true.1 h.2 y hy)

theorem asciiLower_idem {scheme : List Char} (h : IsScheme scheme) :
    (scheme.map asciiLower).map asciiLower = scheme.map asciiLower := by
  rw [List.map_map]
  refine List.map_congr_left fun c hc => ?_
  have htest := forall_ascii (fun c => asciiLower (asciiLower c) == asciiLower c) (by decide +kernel) c
    (isSchemeChar_lt (h.char c hc))
  exact beq_iff_eq.1 htest

def IsHierarchicalChars (iri : List Char) : Prop :=
  ∃ scheme rest, iri = scheme ++ ':' :: rest ∧ IsScheme scheme ∧
    relativeSchemes.contains (String.ofList (scheme.map asciiLower)) = true

def IsHierarchical (iri : String) : Prop :=
  IsHierarchicalChars iri.toList

theorem parse_scheme {scheme text : List Char} {r : Reference} (h : Reference.parse scheme text = .ok r) :
    r.scheme = ((splitScheme? (cleanReference text)).map fun s => s.1.map asciiLower).getD scheme := by
  unfold Reference.parse at h
  simp only [bind_eq_ok_iff] at h
  obtain ⟨_, -, _, -, h⟩ := h
  cases hs : splitScheme? (cleanReference text) with
  | none =>
    rw [hs] at h
    cases h
    rfl
  | some s =>
    rw [hs] at h
    cases h
    rfl

theorem splitScheme?_cleanReference {scheme : List Char} (rest : List Char) (h : IsScheme scheme) :
    ∃ rest', splitScheme? (cleanReference (scheme ++ ':' :: rest)) = some (scheme, rest') := by
  have hkeep : (scheme ++ [':']).filter (fun c => c != '\t' && c != '\r' && c != '\n') = scheme ++ [':'] := by
    refine List.filter_eq_self.2 fun c hc => ?_
    obtain hc | hc := List.mem_append.1 hc
    · have hblank := (isSchemeChar_ne (h.char c hc)).2
      simp only [Bool.and_eq_true, bne_iff_ne, ne_eq]
      refine ⟨⟨?_, ?_⟩, ?_⟩ <;> rintro rfl <;> exact hblank (by decide)
    · obtain rfl := List.mem_singleton.1 hc
      decide
  have hdrop : (scheme ++ ':' :: rest).dropWhile (fun c => c.toNat ≤ 0x20) = scheme ++ ':' :: rest := by
    cases scheme with
    | nil => cases h
    | cons c scheme =>
      exact List.dropWhile_cons_of_neg (by simpa using (isSchemeChar_ne (h.char c List.mem_cons_self)).2)
  refine ⟨rest.filter fun c => c != '\t' && c != '\r' && c != '\n', ?_⟩
  rw [splitScheme?_eq_some_iff, cleanReference, hdrop]
  refine ⟨?_, h⟩
  calc (scheme ++ ':' :: rest).filter (fun c => c != '\t' && c != '\r' && c != '\n')
      = (scheme ++ [':'] ++ rest).filter (fun c => c != '\t' && c != '\r' && c != '\n') := by simp
    _ = _ := by rw [List.filter_append, hkeep]; simp

theorem cleanReference_eq_self {text : List Char} (h : ∀ c ∈ text, ¬c.toNat ≤ 0x20) :
    cleanReference text = text := by
  have hdrop : text.dropWhile (fun c => c.toNat ≤ 0x20) = text := by
    cases text with
    | nil => rfl
    | cons c text => exact List.dropWhile_cons_of_neg (by simpa using h c List.mem_cons_self)
  rw [cleanReference, hdrop, List.filter_eq_self]
  intro c hc
  have hblank := h c hc
  simp only [Bool.and_eq_true, bne_iff_ne, ne_eq]
  refine ⟨⟨?_, ?_⟩, ?_⟩ <;> rintro rfl <;> exact hblank (by decide)

theorem complete_scheme (base reference : Reference) : (complete base reference).scheme = reference.scheme := by
  unfold complete
  dsimp only
  split_ifs <;> rfl

theorem Reference.chars_eq (r : Reference) (h : r.scheme ≠ []) :
    ∃ rest, r.chars = r.scheme ++ ':' :: rest := by
  unfold Reference.chars
  dsimp only
  rw [if_neg (by simpa using h)]
  simp only [List.append_assoc, List.cons_append, List.nil_append]
  exact ⟨_, rfl⟩

/-- Under a hierarchical base, a clean relative reference is resolved to an IRI of the same scheme. -/
theorem resolveChars_isHierarchical {base reference iri : List Char} (hbase : IsHierarchicalChars base)
    (hclean : ∀ c ∈ reference, ¬c.toNat ≤ 0x20) (hrelative : isAbsolute reference = false)
    (h : resolveChars base reference = .ok iri) : IsHierarchicalChars iri := by
  obtain ⟨scheme, rest, rfl, hscheme, hknown⟩ := hbase
  unfold resolveChars at h
  split_ifs at h with hempty hreference
  · simp at hempty
  · cases h
    exact ⟨scheme, rest, rfl, hscheme, hknown⟩
  · obtain ⟨b, hb, h⟩ := (bind_eq_ok_iff _ _ _).1 h
    obtain ⟨r, hr, h⟩ := (bind_eq_ok_iff _ _ _).1 h
    obtain ⟨rest', hsplit⟩ := splitScheme?_cleanReference rest hscheme
    have hbs : b.scheme = scheme.map asciiLower := by
      rw [parse_scheme hb, hsplit]
      rfl
    have hnone : splitScheme? reference = none := by simpa [isAbsolute] using hrelative
    have hrs : r.scheme = scheme.map asciiLower := by
      rw [parse_scheme hr, cleanReference_eq_self hclean, hnone, ← hbs]
      rfl
    rw [hrs, hbs, if_neg (by simpa using hknown)] at h
    cases h
    have hlower := hscheme.map_asciiLower
    have hcs : (complete b r).scheme = scheme.map asciiLower := by rw [complete_scheme, hrs]
    obtain ⟨more, hmore⟩ := Reference.chars_eq (complete b r) (by
      rw [hcs]
      rintro hnil
      rw [hnil] at hlower
      exact hlower)
    exact ⟨scheme.map asciiLower, more, by rw [hmore, hcs], hlower, by rwa [asciiLower_idem hscheme]⟩

theorem IsHierarchicalChars.isAbsolute {iri : List Char} (h : IsHierarchicalChars iri) :
    isAbsolute iri = true :=
  have ⟨scheme, rest, he, hscheme, _⟩ := h
  (isAbsolute_iff iri).2 ⟨scheme, rest, he, hscheme⟩

end CommandOntology.Iri

namespace CommandOntology.Turtle

def IsAbsolute (iri : String) : Prop :=
  Iri.isAbsolute iri.toList = true

instance (iri : String) : Decidable (IsAbsolute iri) :=
  inferInstanceAs (Decidable (Iri.isAbsolute iri.toList = true))

theorem isIllegalInIri_of_le {c : Char} (h : c.toNat ≤ 0x20) : Scope.isIllegalInIri c = true := by
  have htest := Text.forall_ascii (fun c => !decide (c.toNat ≤ 0x20) || Scope.isIllegalInIri c)
    (by decide +kernel) c (by omega)
  simpa [h] using htest

/-- What a reference is resolved to in a scope with a hierarchical base, or without a base. -/
theorem resolveReference_isAbsolute {s : Scope} (hs : ∀ base ∈ s.base, Iri.IsHierarchical base)
    {reference : String} {line : Nat} {iri : String} (h : s.resolveReference reference line = .ok iri) :
    IsAbsolute reference ∧ iri = reference ∨ ¬IsAbsolute reference ∧ Iri.IsHierarchical iri := by
  unfold Scope.resolveReference at h
  split at h
  · cases h
  next hlegal =>
  split_ifs at h with habsolute
  · cases h
    exact .inl ⟨habsolute, rfl⟩
  split at h
  · cases h
  next base hb =>
  obtain ⟨iriChars, hchars, rfl⟩ := (map_eq_ok_iff _ _ _).1 ((mapError_eq_ok_iff _ _ _).1 h)
  have hclean (c : Char) (hc : c ∈ reference.toList) : ¬c.toNat ≤ 0x20 := fun hle =>
    List.find?_eq_none.1 hlegal c hc (isIllegalInIri_of_le hle)
  have hiri := Iri.resolveChars_isHierarchical (hs base hb) hclean (Bool.eq_false_iff.2 habsolute) hchars
  exact .inr ⟨habsolute, by rwa [Iri.IsHierarchical, String.toList_ofList]⟩

theorem inherited_isAbsolute :
    Inherited IsAbsolute Iri.IsHierarchical fun reference =>
      IsAbsolute reference → Iri.IsHierarchical reference where
  append rest h := by
    rw [IsAbsolute, String.toList_append]
    exact Iri.isAbsolute_append _ h
  builtIn := by decide +kernel
  resolve hs _ _ _ h := by
    obtain ⟨ha, rfl⟩ | ⟨-, hi⟩ := resolveReference_isAbsolute hs h
    · exact ha
    · exact hi.isAbsolute
  resolveBase hs _ _ _ ha h := by
    obtain ⟨hr, rfl⟩ | ⟨-, hi⟩ := resolveReference_isAbsolute hs h
    · exact ha hr
    · exact hi

/-- Every IRI of a document starts with a scheme, if the configured base is hierarchical, and so are the
absolute IRIs that the document declares as bases. -/
theorem parse_isAbsolute (options : ParserOptions) (text : String) (d : Document)
    (hbase : ∀ base ∈ options.base, Iri.IsHierarchical base)
    (hdeclared : ∀ tokens, lex text.toList = .ok tokens →
      DeclaredBases (fun reference => IsAbsolute reference → Iri.IsHierarchical reference)
        (tokens.tokens.map (·.lexeme)))
    (h : parse options text = .ok d) : d.AllIris IsAbsolute IsAbsolute := by
  unfold parse at h
  split_ifs at h
  split at h
  · cases h
  next tokens hlex =>
  have hall := parseTokens_allIris inherited_isAbsolute hbase (hdeclared tokens hlex) h
  exact { hall with base := fun base hb => (hall.base base hb).isAbsolute }

theorem parse_isAbsolute_httpBase :
    ∃ d, parse {} "@base <http://h/p> . <a> <b> <c> ." = .ok d ∧ d.AllIris IsAbsolute IsAbsolute := by
  have hhttp : Iri.IsHierarchical "http://h/p" :=
    ⟨"http".toList, "//h/p".toList, by decide +kernel, by decide +kernel, by decide +kernel⟩
  have hdeclared (tokens : Tokens)
      (hlex : lex "@base <http://h/p> . <a> <b> <c> .".toList = .ok tokens) :
      DeclaredBases (fun reference => IsAbsolute reference → Iri.IsHierarchical reference)
        (tokens.tokens.map (·.lexeme)) := by
    have hlexemes : tokens.tokens.map (·.lexeme) = [.directive .base, .iri "http://h/p", .mark .dot,
        .iri "a", .iri "b", .iri "c", .mark .dot] := by
      cases hlex
      decide +kernel
    simp [hlexemes, declaredBases_cons, declaredBases_nil, Lexeme.DeclaresBase, hhttp]
  exact ⟨_, rfl, parse_isAbsolute {} _ _ (by simp) hdeclared rfl⟩

/-- Under a base that is not hierarchical, relative references stay relative. -/
theorem parse_urnBase :
    ∃ d, parse {} "@base <urn:a> . <b> <c> <d> ." = .ok d ∧
      ⟨.iri "b", .iri "c", .iri "d"⟩ ∈ d.triples ∧ ¬IsAbsolute "b" :=
  ⟨_, rfl, by decide +kernel, by decide +kernel⟩

end CommandOntology.Turtle
