import Mathlib.Tactic.Ring
import CommandOntology.Proofs.Characters
import CommandOntology.Proofs.ScopeContents

set_option autoImplicit false

/-!
# Errors that are reported

Which errors a text may lead to. All are reported by the stage but two: an escape that writes a number
beyond the last code point, and a reference that cannot be resolved because it or its base cannot be taken
apart.
-/

namespace CommandOntology

open Text

def hexNumber (digits : List Char) : Nat :=
  digits.foldl (fun n c => 16 * n + hexValue c) 0

theorem hexValue_lt (c : Char) : hexValue c < 16 := by
  unfold hexValue
  split_ifs with hdigit hsmall hcapital
  · have h0 : '0'.toNat = 48 := rfl
    have h := (isAsciiDigit_iff c).1 hdigit
    omega
  · simp only [Bool.and_eq_true, decide_eq_true_eq, le_iff_toNat_le] at hsmall
    have ha : 'a'.toNat = 97 := rfl
    have hf : 'f'.toNat = 102 := rfl
    omega
  · simp only [Bool.and_eq_true, decide_eq_true_eq, le_iff_toNat_le] at hcapital
    have hA : 'A'.toNat = 65 := rfl
    have hF : 'F'.toNat = 70 := rfl
    omega
  · omega

theorem foldl_hexValue_lt (digits : List Char) (n : Nat) :
    digits.foldl (fun n c => 16 * n + hexValue c) n < (n + 1) * 16 ^ digits.length := by
  induction digits generalizing n with
  | nil => simp
  | cons c digits ih =>
    have hc := hexValue_lt c
    calc digits.foldl (fun n c => 16 * n + hexValue c) (16 * n + hexValue c)
        < (16 * n + hexValue c + 1) * 16 ^ digits.length := ih _
      _ ≤ (n + 1) * 16 * 16 ^ digits.length := Nat.mul_le_mul_right _ (by omega)
      _ = (n + 1) * 16 ^ (digits.length + 1) := by ring

theorem hexNumber_lt (digits : List Char) : hexNumber digits < 16 ^ digits.length := by
  simpa [hexNumber] using foldl_hexValue_lt digits 0

/-- A text starts like an escape whose number is beyond the last code point, its backslash left out. -/
def StartsTooLarge (value : Nat) (text : List Char) : Prop :=
  ∃ digits, 'U' :: digits <+: text ∧ digits.length = 8 ∧ digits.all isHexDigit = true ∧
    hexNumber digits = value ∧ 0x10ffff < value

def WritesTooLarge (value : Nat) (text : List Char) : Prop :=
  ∃ rest, '\\' :: rest <:+ text ∧ StartsTooLarge value rest

theorem WritesTooLarge.of_suffix {value : Nat} {text whole : List Char} (h : WritesTooLarge value text)
    (hs : text <:+ whole) : WritesTooLarge value whole :=
  have ⟨rest, hr, ht⟩ := h
  ⟨rest, hr.trans hs, ht⟩

theorem WritesTooLarge.cons {value : Nat} {text : List Char} (c : Char) (h : WritesTooLarge value text) :
    WritesTooLarge value (c :: text) :=
  h.of_suffix (List.suffix_cons c text)

theorem numericEscapeLength?_eq_some {code : Char} {n : Nat} (h : numericEscapeLength? code = some n) :
    code = 'u' ∧ n = 4 ∨ code = 'U' ∧ n = 8 := by
  unfold numericEscapeLength? at h
  split at h
  · exact .inl ⟨rfl, (Option.some.inj h).symm⟩
  · exact .inr ⟨rfl, (Option.some.inj h).symm⟩
  · cases h

theorem numericEscape?_eq_some {length value : Nat} {text : List Char}
    (h : numericEscape? length text = some value) :
    ∃ digits, digits <+: text ∧ digits.length = length ∧ digits.all isHexDigit = true ∧
      hexNumber digits = value := by
  unfold numericEscape? at h
  dsimp only at h
  split_ifs at h with hdigits
  exact ⟨text.take length, List.take_prefix length text, hdigits.1, hdigits.2, Option.some.inj h⟩

theorem readEscape_tooLarge {text : List Char} {value : Nat}
    (h : Text.readEscape text = .error (.tooLarge value)) : StartsTooLarge value text := by
  unfold Text.readEscape at h
  split at h
  · cases h
  next code rest =>
  split at h
  · cases h
  split at h
  next v n hnumeric =>
    split_ifs at h with hv
    cases h
    obtain ⟨length, hlength, hmap⟩ := Option.bind_eq_some_iff.1 hnumeric
    obtain ⟨v, hescape, he⟩ := Option.map_eq_some_iff.1 hmap
    cases he
    obtain ⟨digits, hprefix, hcount, hall, rfl⟩ := numericEscape?_eq_some hescape
    have hbound := hexNumber_lt digits
    obtain ⟨rfl, rfl⟩ | ⟨rfl, rfl⟩ := numericEscapeLength?_eq_some hlength
    · rw [hcount] at hbound
      omega
    · exact ⟨digits, List.cons_prefix_cons.2 ⟨rfl, hprefix⟩, hcount, hall, rfl, hv⟩
  · cases h

namespace Turtle

theorem readEscape_codePointTooLarge {offset value : Nat} {text : List Char}
    (h : readEscape offset text = .error (.codePointTooLarge value)) : StartsTooLarge value text := by
  unfold readEscape at h
  split at h
  · cases h
  · cases h
  · next hescape =>
    cases h
    exact readEscape_tooLarge hescape

/-- Reading a quoted text fails at an escape that is too large only where the text has one. -/
theorem readText_tooLarge {quote : Char} {isLong : Bool} {skip offset value : Nat} {text : List Char}
    (h : readText quote isLong skip offset text = .error (.codePointTooLarge value)) :
    WritesTooLarge value text := by
  fun_induction readText quote isLong skip offset text with
  | case1 => cases h
  | case2 offset c rest skip ih => exact (ih h).cons c
  | case3 => cases h
  | case4 => cases h
  | case5 offset rest fault hread =>
    cases h
    exact ⟨rest, List.suffix_rfl, readEscape_codePointTooLarge hread⟩
  | case6 offset rest escaped n hread _ _ ih =>
    exact (ih ((map_eq_error_iff _ _ _).1 h)).cons _
  | case7 offset c rest hends hline hescape ih => exact (ih ((map_eq_error_iff _ _ _).1 h)).cons c

def LexicalFault.IsEscape : LexicalFault → Prop
  | .unknownEscape .. => True
  | .codePointTooLarge _ => True
  | _ => False

theorem scanText_of_scan_error {c : Char} {rest : List Char} {fault : LexicalFault}
    (h : scan c rest = .error fault) (hf : fault.IsEscape) : scanText c rest = .error fault := by
  revert h
  fun_cases scan c rest with
  | case1 =>
    unfold scanIri
    dsimp only
    split_ifs <;> rintro ⟨⟩
    exact hf.elim
  | case2 => exact id
  | case3 =>
    unfold scanTag
    dsimp only
    split
    · rintro ⟨⟩
      exact hf.elim
    · split <;> simp
  | case4 =>
    unfold scanBlankNode
    split <;> rintro ⟨⟩
    exact hf.elim
  | case5 => simp
  | case6 =>
    rintro ⟨⟩
    exact hf.elim
  | case7 => simp
  | case8 =>
    unfold scanNumber
    split <;> rintro ⟨⟩
    exact hf.elim
  | case9 =>
    unfold scanName
    dsimp only
    split
    · simp
    · split_ifs <;> rintro ⟨⟩
      exact hf.elim

theorem scan_tooLarge {c : Char} {rest : List Char} {value : Nat}
    (h : scan c rest = .error (.codePointTooLarge value)) : WritesTooLarge value rest := by
  have htext := scanText_of_scan_error h trivial
  unfold scanText at htext
  exact (readText_tooLarge ((map_eq_error_iff _ _ _).1 htext)).of_suffix (List.drop_suffix _ _)

theorem lexFrom_tooLarge {state : LexerState} {p p' : Position} {text : List Char} {value : Nat}
    (h : lexFrom state p text = .error (.codePointTooLarge value, p')) : WritesTooLarge value text := by
  fun_induction lexFrom state p text with
  | case1 => cases h
  | case2 p c rest left ih => exact (ih h).cons c
  | case3 p c rest ih => exact (ih h).cons c
  | case4 state p c rest _ _ _ ih => exact (ih h).cons c
  | case5 state p rest _ _ _ ih => exact (ih h).cons _
  | case6 state p c rest _ _ fault hscan =>
    cases h
    exact (scan_tooLarge hscan).cons c
  | case7 state p c rest _ _ lexeme n hscan _ _ ih =>
    exact (ih ((map_eq_error_iff _ _ _).1 h)).cons c

def documentedCodes : List String :=
  ["syntax_error", "undefined_prefix", "invalid_iri", "duplicate_definition",
    "namespace_capacity_exceeded"]

def ParseError.IsReported (e : ParseError) : Prop :=
  ∃ d, e.diagnosis = .ok d ∧ d.stage = "parse" ∧ d.code ∈ documentedCodes

theorem isReported_lexical {fault : LexicalFault} {p : Position}
    (h : ∀ value, fault ≠ .codePointTooLarge value) : (ParseError.lexical fault p).IsReported := by
  cases fault with
  | codePointTooLarge value => exact absurd rfl (h value)
  | _ => exact ⟨_, rfl, rfl, by simp [syntaxDiagnosis, documentedCodes]⟩

theorem isReported_of_isGrammatical {e : ParseError} (h : e.IsGrammatical) : e.IsReported := by
  cases e with
  | unexpected => exact ⟨_, rfl, rfl, by simp [syntaxDiagnosis, documentedCodes]⟩
  | _ => cases h

theorem isReported_of_isDenotational {e : ParseError} (h : e.IsDenotational) :
    e.IsReported ∨
      ∃ base reference fault, Iri.resolve base reference = .error fault ∧ e = .unresolvable fault := by
  cases e with
  | unresolvable fault =>
    obtain ⟨base, reference, hr⟩ := h
    exact .inr ⟨base, reference, fault, hr, rfl⟩
  | undefinedLabel => exact .inl ⟨_, rfl, rfl, by simp [documentedCodes]⟩
  | invalidIri => exact .inl ⟨_, rfl, rfl, by simp [documentedCodes]⟩
  | conflict => exact .inl ⟨_, rfl, rfl, by simp [documentedCodes]⟩
  | tooManyNamespaces => exact .inl ⟨_, rfl, rfl, by simp [documentedCodes]⟩
  | _ => cases h

/-- Every error of a text is reported by the stage, unless the text writes a number beyond the last code
point or has a reference that cannot be resolved. -/
theorem parse_error_contained (options : ParserOptions) (text : String) (e : ParseError)
    (hcapacity : 1 ≤ options.capacity) (h : parse options text = .error e) :
    e.IsReported ∨
      (∃ value p, e = .lexical (.codePointTooLarge value) p ∧ WritesTooLarge value text.toList) ∨
      ∃ base reference fault, Iri.resolve base reference = .error fault ∧ e = .unresolvable fault := by
  rw [parse, if_neg (by omega)] at h
  split at h
  · next fault p hlex =>
    cases h
    by_cases hfault : ∃ value, fault = .codePointTooLarge value
    · obtain ⟨value, rfl⟩ := hfault
      exact .inr (.inl ⟨value, p, rfl, lexFrom_tooLarge hlex⟩)
    · exact .inl (isReported_lexical fun value hv => hfault ⟨value, hv⟩)
  · obtain hg | hd := parseTokens_error_kind h
    · exact .inl (isReported_of_isGrammatical hg)
    · exact (isReported_of_isDenotational hd).imp_right .inr

theorem parse_error_contained_unterminated :
    (1 : Int) ≤ ({} : ParserOptions).capacity ∧
      parse {} "<a:b" = .error (.lexical .unterminatedIri .start) ∧
      (ParseError.lexical .unterminatedIri .start).IsReported := by
  refine ⟨by decide, rfl, ?_⟩
  obtain h | ⟨value, p, h, -⟩ | ⟨base, reference, fault, -, h⟩ :=
    parse_error_contained {} "<a:b" _ (by decide) rfl
  · exact h
  · cases h
  · cases h

/-- An escape beyond the last code point is not reported. -/
theorem parse_codePointTooLarge :
    parse {} "<a:b> <a:c> \"\\U00110000\" ." =
        .error (.lexical (.codePointTooLarge 0x110000) ⟨1, 13⟩) ∧
      ¬(ParseError.lexical (.codePointTooLarge 0x110000) ⟨1, 13⟩).IsReported := by
  refine ⟨rfl, ?_⟩
  rintro ⟨d, hd, -⟩
  cases hd

end Turtle

end CommandOntology
