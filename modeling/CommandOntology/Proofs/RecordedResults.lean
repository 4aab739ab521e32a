import CommandOntology.Proofs.InterchangeableStores
import CommandOntology.Proofs.JsonTexts
import CommandOntology.Query.Results

set_option autoImplicit false

namespace CommandOntology

namespace Term

/-- What a record keeps of a term: of a literal its language tag, or else its datatype, if they are not empty. -/
def recorded : Term → Term
  | .literal lexical datatype language =>
    match language.filter (· ≠ "") with
    | some tag => .literal lexical none (some tag)
    | none => .literal lexical (datatype.filter (· ≠ "")) none
  | t => t

/-- A term that is no literal, or a literal with at most one mark, which is not empty. -/
def KeepsMarks : Term → Prop
  | .literal _ datatype language => datatype ≠ some "" ∧ language ≠ some "" ∧ (datatype = none ∨ language = none)
  | _ => True

instance : DecidablePred KeepsMarks
  | .iri _ | .blank _ => .isTrue trivial
  | .literal .. => inferInstanceAs (Decidable (_ ∧ _ ∧ _))

theorem filter_ne_empty (mark : Option String) : mark.filter (· ≠ "") = mark ↔ mark ≠ some "" := by
  cases mark with
  | none => simp
  | some mark => simp [Option.filter_eq_some_iff]

theorem recorded_eq_self_iff (t : Term) : t.recorded = t ↔ t.KeepsMarks := by
  cases t with
  | iri value => simp [recorded, KeepsMarks]
  | blank label => simp [recorded, KeepsMarks]
  | literal lexical datatype language =>
    rw [KeepsMarks, ← filter_ne_empty datatype, ← filter_ne_empty language, recorded]
    cases hlanguage : language.filter (· ≠ "") with
    | some tag =>
      constructor
      · intro h
        injection h with _ hdatatype hlanguage
        subst hdatatype hlanguage
        exact ⟨rfl, rfl, .inl rfl⟩
      · rintro ⟨-, rfl, hnone | hnone⟩
        · rw [hnone]
        · cases hnone
    | none =>
      constructor
      · intro h
        injection h with _ hdatatype hlanguage
        exact ⟨hdatatype, hlanguage, .inr hlanguage.symm⟩
      · rintro ⟨hdatatype, rfl, -⟩
        rw [hdatatype]

/-- Of the terms that a document can state, a record changes those with an empty datatype. -/
theorem IsWritten.keepsMarks_iff {t : Term} (h : t.IsWritten) :
    t.KeepsMarks ↔ ∀ lexical, t ≠ .typed lexical "" := by
  cases t with
  | iri value => simp [KeepsMarks, typed]
  | blank label => simp [KeepsMarks, typed]
  | literal lexical datatype language =>
    obtain ⟨hone, -, htag⟩ := h
    have hlanguage : language ≠ some "" := by
      rintro rfl
      exact (htag "" rfl).1 rfl
    rw [KeepsMarks]
    constructor
    · rintro ⟨hdatatype, -⟩ text htyped
      injection htyped with _ hempty
      exact hdatatype hempty
    · intro htyped
      refine ⟨?_, hlanguage, hone⟩
      rintro rfl
      have hnone : language = none := hone.resolve_left (Option.some_ne_none _)
      exact htyped lexical (by rw [hnone]; rfl)

end Term

namespace Query.Results

def text? : Value → Option String
  | .text s => some s
  | _ => none

def items? : Value → Option (List Value)
  | .list items => some items
  | _ => none

def term? (value : Value) : Option Term := do
  let kind ← value.field? "type" >>= text?
  let content ← value.field? "value" >>= text?
  if kind = "uri" then some (.iri content)
  else if kind = "bnode" then some (.blank content)
  else if kind = "literal" then
    some (.literal content (value.field? "datatype" >>= text?) (value.field? "xml:lang" >>= text?))
  else none

def row? : Value → Option Row
  | .record fields => fields.mapM fun field => (term? field.2).map fun t => (field.1, t)
  | _ => none

def ofRecord? (value : Value) : Option Results := do
  let names ← value.field? "head" >>= Value.field? "vars" >>= items?
  let rows ← value.field? "results" >>= Value.field? "bindings" >>= items?
  return ⟨← names.mapM text?, ← rows.mapM row?⟩

def ofJson? (text : String) : Option Results :=
  match Json.read text with
  | .ok value => ofRecord? value
  | .error _ => none

theorem mapM_map_eq_some {α β γ : Type} {encode : α → β} {decode : β → Option γ} {f : α → γ}
    (h : ∀ x, decode (encode x) = some (f x)) (xs : List α) : (xs.map encode).mapM decode = some (xs.map f) := by
  have hpure : decode ∘ encode = fun x => pure (f x) := funext h
  rw [List.mapM_map, hpure]
  exact List.mapM_pure

theorem map_eq_self_iff {α : Type} {f : α → α} {xs : List α} : xs.map f = xs ↔ ∀ x ∈ xs, f x = x := by
  have hid : xs.map f = xs.map id ↔ _ := List.map_inj_left
  rwa [List.map_id] at hid

theorem term?_termRecord (t : Term) : term? (termRecord t) = some t.recorded := by
  cases t with
  | iri value => rfl
  | blank label => rfl
  | literal lexical datatype language =>
    rw [termRecord, Term.recorded]
    cases language.filter (· ≠ "") with
    | some tag => rfl
    | none => cases datatype.filter (· ≠ "") <;> rfl

theorem isTextual_termRecord (t : Term) : Json.IsTextual (termRecord t) := by
  have hrecord {fields : List (String × Value)} (hkeys : (fields.map (·.1)).Nodup)
      (htexts : ∀ field ∈ fields, ∃ s, field.2 = .text s) : Json.IsTextual (.record fields) := by
    refine .record hkeys fun field hfield => ?_
    obtain ⟨s, hs⟩ := htexts field hfield
    rw [hs]
    exact .text s
  cases t with
  | iri value => exact hrecord (by simp) (by simp)
  | blank label => exact hrecord (by simp) (by simp)
  | literal lexical datatype language =>
    rw [termRecord]
    cases language.filter (· ≠ "") with
    | some tag => exact hrecord (by simp) (by simp)
    | none => cases datatype.filter (· ≠ "") <;> exact hrecord (by simp) (by simp)

def recordedRow (row : Row) : Row :=
  row.map fun binding => (binding.1, binding.2.recorded)

def rowRecord (row : Row) : Value :=
  .record (row.map fun binding => (binding.1, termRecord binding.2))

theorem row?_rowRecord (row : Row) : row? (rowRecord row) = some (recordedRow row) := by
  refine mapM_map_eq_some (fun binding => ?_) row
  rw [term?_termRecord, Option.map_some]

theorem isTextual_rowRecord {row : Row} (hkeys : (row.map (·.1)).Nodup) : Json.IsTextual (rowRecord row) := by
  refine .record (by rwa [List.map_map]) fun field hfield => ?_
  obtain ⟨binding, -, rfl⟩ := List.mem_map.1 hfield
  exact isTextual_termRecord binding.2

theorem recordedRow_eq_self_iff (row : Row) : recordedRow row = row ↔ ∀ binding ∈ row, binding.2.KeepsMarks := by
  rw [recordedRow, map_eq_self_iff]
  simp only [← Term.recorded_eq_self_iff, Prod.ext_iff, true_and]

theorem record_eq (r : Results) :
    r.record = .record [("head", .record [("vars", .texts r.varNames)]),
      ("results", .record [("bindings", .list (r.rows.map rowRecord))])] :=
  rfl

theorem ofRecord?_record (r : Results) : ofRecord? r.record = some ⟨r.varNames, r.rows.map recordedRow⟩ := by
  have hnames : (r.varNames.map Value.text).mapM text? = some (r.varNames.map id) :=
    mapM_map_eq_some (fun name => (rfl : text? (.text name) = some (id name))) r.varNames
  have hrows := mapM_map_eq_some row?_rowRecord r.rows
  rw [record_eq, ofRecord?]
  change (do
    return ⟨← (r.varNames.map Value.text).mapM text?, ← (r.rows.map rowRecord).mapM row?⟩ : Option Results) = _
  rw [hnames, hrows, List.map_id]
  rfl

theorem isTextual_record {r : Results} (hrows : ∀ row ∈ r.rows, (row.map (·.1)).Nodup) : Json.IsTextual r.record := by
  have hfield {key : String} {value : Value} (h : Json.IsTextual value) : Json.IsTextual (.record [(key, value)]) :=
    .record (List.nodup_singleton key) (List.forall_mem_singleton.2 h)
  have hnames : Json.IsTextual (.texts r.varNames) := by
    refine .list fun item hitem => ?_
    obtain ⟨name, -, rfl⟩ := List.mem_map.1 hitem
    exact .text name
  have hbindings : Json.IsTextual (.list (r.rows.map rowRecord)) := by
    refine .list fun item hitem => ?_
    obtain ⟨row, hrow, rfl⟩ := List.mem_map.1 hitem
    exact isTextual_rowRecord (hrows row hrow)
  rw [record_eq]
  exact .record (by simp) (List.forall_mem_cons.2 ⟨hfield hnames, List.forall_mem_singleton.2 (hfield hbindings)⟩)

theorem ofJson?_write_record (style : Json.Style) {r : Results} (hrows : ∀ row ∈ r.rows, (row.map (·.1)).Nodup) :
    ofJson? (Json.write style r.record) = some ⟨r.varNames, r.rows.map recordedRow⟩ := by
  rw [ofJson?, Json.read_write style (isTextual_record hrows)]
  exact ofRecord?_record r

/-- The JSON text of a result is read back as the result exactly if the literals in it have at most one mark each and
no empty one. -/
theorem ofJson?_write {format : String} (hformat : ResultFormat.ofName? format = some .json) (r : Results)
    (hrows : ∀ row ∈ r.rows, (row.map (·.1)).Nodup) :
    ∃ text, r.write format = .ok text ∧
      (ofJson? text = some r ↔ ∀ row ∈ r.rows, ∀ binding ∈ row, binding.2.KeepsMarks) := by
  refine ⟨r.toJson, by rw [write, hformat]; rfl, ?_⟩
  rw [toJson, ofJson?_write_record Json.indented hrows, Option.some_inj, Results.mk.injEq, map_eq_self_iff]
  simp only [true_and, recordedRow_eq_self_iff]

def peopleResult : Results where
  varNames := ["who", "name", "age"]
  rows := [[("who", .iri "urn:ann"), ("name", .literal "Ann \"A\"" none (some "en")), ("age", .typed "41" Xsd.integer)],
    [("who", .blank "b0"), ("name", .plain "B\né")]]

theorem ofJson?_write_people :
    ∃ text, peopleResult.write " JSON\n" = .ok text ∧ ofJson? text = some peopleResult := by
  have hformat : ResultFormat.ofName? " JSON\n" = some .json := by decide
  obtain ⟨text, hwrite, hread⟩ := ofJson?_write hformat peopleResult (by decide)
  exact ⟨text, hwrite, hread.2 (by decide)⟩

/-- A document can state a literal with an empty datatype, and the JSON text of a result with it holds a literal
without one. -/
theorem ofJson?_write_emptyDatatype :
    (Turtle.parse {} emptyDatatypeText).map (·.triples) = .ok [⟨.iri "urn:s", .iri "urn:p", .typed "x" ""⟩] ∧
      ∃ text, Results.write ⟨["o"], [[("o", .typed "x" "")]]⟩ "json" = .ok text ∧
        ofJson? text = some ⟨["o"], [[("o", .plain "x")]]⟩ ∧
        ofJson? text ≠ some ⟨["o"], [[("o", .typed "x" "")]]⟩ := by
  obtain ⟨d, hparse, hd⟩ := (map_eq_ok_iff _ _ _).1 parse_emptyDatatype.1
  have hread := ofJson?_write_record Json.indented (r := ⟨["o"], [[("o", .typed "x" "")]]⟩) (by decide)
  refine ⟨by rw [hparse, ← (Prod.mk.inj hd).1]; rfl, _, rfl, hread, fun h => ?_⟩
  have hterms := congrArg (fun r => r.map Results.terms) (hread.symm.trans h)
  exact absurd hterms (by decide)

end Query.Results

end CommandOntology
