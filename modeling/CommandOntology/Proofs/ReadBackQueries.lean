import CommandOntology.Proofs.Distinct
import CommandOntology.Proofs.PrefixTables
import CommandOntology.Proofs.TakenConditions

set_option autoImplicit false

namespace CommandOntology.Query

def keywords : List String :=
  ["PREFIX", "SELECT", "DISTINCT", "WHERE", "OPTIONAL", "FILTER", "ORDER", "BY", "DESC", "LIMIT", "OFFSET"]

/-- A keyword is the keyword that it is written as, and leads to one place. -/
theorem Takes.keyword {control control' : Control} {s s' : Scope} {word : String}
    (hword : word ∈ keywords)
    (htake : ∀ t : Token, t.kind = .word → (∀ keyword, t.isKeyword keyword = (word == keyword)) →
      take control s t = .ok (control', s')) :
    Takes control s [word] control' s' := by
  have hletters : ∀ word ∈ keywords, word ≠ "" ∧ ∀ c ∈ word.toList, Text.isAsciiLetter c = true := by
    decide
  have hupper : ∀ word ∈ keywords, Text.upper word = word := by decide
  refine Takes.word (standsFor_letters (hletters word hword).1 (hletters word hword).2) rfl
    fun position => htake _ rfl fun keyword => ?_
  simp [Token.isKeyword, hupper word hword]

theorem isKeyword_of_ne {t : Token} (h : t.kind ≠ .word) (keyword : String) :
    t.isKeyword keyword = false := by
  simp [Token.isKeyword, h]

theorem isPunctuation_of_ne {t : Token} (h : t.kind ≠ .punctuation) (sign : String) :
    t.isPunctuation sign = false := by
  simp [Token.isPunctuation, h]

variable {s : Scope}

theorem splitName_label {label : String} (h : IsLabel label.toList) :
    Namespaces.splitName (label ++ ":") = some (label, "") := by
  have hcolon : ∀ c ∈ label.toList, decide (c ≠ ':') = true := by
    intro c hc
    have hchar := h.2 c hc
    rw [decide_eq_true_eq]
    rintro rfl
    rw [isLabelChar_colon] at hchar
    cases hchar
  have htext : (label ++ ":").toList = label.toList ++ [':'] := by simp
  rw [Namespaces.splitName, htext, List.dropWhile_append_of_pos hcolon,
    List.takeWhile_append_of_pos hcolon]
  simp

theorem takes_prefix {entry : String × String} (hlabel : IsLabel entry.1.toList)
    (hiri : IsReference entry.2) : Takes .prologue s (prefixWords entry) .prologue
      { s with declared := putField s.declared entry.1 entry.2 } := by
  have hprefix : Takes .prologue s ["PREFIX"] .label s :=
    Takes.keyword (by simp [keywords]) fun t _ hkeyword => by
      simp [take, takePrologue, hkeyword]
  have hname : Takes .label s [entry.1 ++ ":"] (.labelIri entry.1) s := by
    refine Takes.word (standsFor_label hlabel) rfl fun position => ?_
    simp [take, takeLabel, splitName_label hlabel]
  have hreference : Takes (.labelIri entry.1) s [referenceText entry.2] .prologue
      { s with declared := putField s.declared entry.1 entry.2 } := by
    refine Takes.word (standsFor_iri hiri) rfl fun position => ?_
    simp [take, takeLabelIri, resolveReference_referenceText hiri]
  exact hprefix.append (hname.append hreference)

theorem takes_prefixes {entries : List (String × String)}
    (hentries : ∀ entry ∈ entries, IsLabel entry.1.toList ∧ IsReference entry.2)
    (hdistinct : ((s.declared ++ entries).map (·.1)).Nodup) :
    Takes .prologue s (entries.flatMap prefixWords) .prologue
      { s with declared := s.declared ++ entries } := by
  induction entries generalizing s with
  | nil =>
    rw [List.append_nil]
    exact Takes.refl .prologue s
  | cons entry entries ih =>
    obtain ⟨⟨hlabel, hiri⟩, hrest⟩ := List.forall_mem_cons.1 hentries
    have hnew : entry.1 ∉ s.declared.map (·.1) := by
      rw [List.map_append, List.nodup_append] at hdistinct
      exact fun hmem => hdistinct.2.2 _ hmem _ (by simp) rfl
    have hfirst := takes_prefix (s := s) hlabel hiri
    rw [Turtle.putField_eq_append _ _ _ hnew] at hfirst
    have hothers := ih (s := { s with declared := s.declared ++ [entry] }) hrest (by simpa using hdistinct)
    simpa using hfirst.append hothers

theorem takes_moreVariables {names selected : List String}
    (hnames : ∀ name ∈ names, IsVariableName name.toList) (hselected : s.selected = some selected) :
    Takes .moreVariables s (names.map variableText) .moreVariables
      { s with selected := some (selected ++ names) } := by
  induction names generalizing s selected with
  | nil =>
    rw [List.append_nil, ← hselected]
    exact Takes.refl .moreVariables s
  | cons name names ih =>
    obtain ⟨hname, hrest⟩ := List.forall_mem_cons.1 hnames
    have hfirst : Takes .moreVariables s [variableText name] .moreVariables (s.addSelected name) :=
      Takes.word (standsFor_variable hname) rfl fun position => by
        simp [take, takeMoreVariables, hselected, variableName_variableText]
    have hadded : (s.addSelected name).selected = some (selected ++ [name]) := by
      simp [Scope.addSelected, hselected]
    have hothers := ih hrest hadded
    simpa [Scope.addSelected] using hfirst.append hothers

theorem takes_selection {names : List String} (distinct : Bool)
    (hnames : ∀ name ∈ names, IsVariableName name.toList) (hne : names ≠ [])
    (hdistinct : s.isDistinct = false) (hselected : s.selected = none) :
    Takes .prologue s ("SELECT" :: (if distinct then ["DISTINCT"] else []) ++ names.map variableText)
      .moreVariables { s with isDistinct := distinct, selected := some names } := by
  obtain ⟨name, names, rfl⟩ := List.exists_cons_of_ne_nil hne
  obtain ⟨hname, hrest⟩ := List.forall_mem_cons.1 hnames
  have hselect : Takes .prologue s ["SELECT"] (.selection true) s :=
    Takes.keyword (by simp [keywords]) fun t _ hkeyword => by
      simp [take, takePrologue, hkeyword]
  have hmode : Takes (.selection true) s (if distinct then ["DISTINCT"] else []) (.selection !distinct)
      { s with isDistinct := distinct } := by
    cases distinct with
    | false =>
      have hsame : ({ s with isDistinct := false } : Scope) = s := by rw [← hdistinct]
      rw [hsame]
      exact Takes.refl (.selection true) s
    | true =>
      exact Takes.keyword (by simp [keywords]) fun t _ hkeyword => by
        simp [take, takeSelection, hkeyword]
  have hfirst : Takes (.selection !distinct) { s with isDistinct := distinct } [variableText name]
      .moreVariables { s with isDistinct := distinct, selected := some [name] } :=
    Takes.word (standsFor_variable hname) rfl fun position => by
      simp [take, takeSelection, isKeyword_of_ne, isPunctuation_of_ne, variableName_variableText,
        Scope.addSelected, hselected]
  have hothers := takes_moreVariables (s := { s with isDistinct := distinct, selected := some [name] })
    hrest rfl
  simpa using (hselect.append hmode).append (hfirst.append hothers)

theorem take_item_eq {t : Token} (hkind : t.kind = .var ∨ t.kind = .iri ∨ t.kind = .name) :
    take .item s t = takeSubject s t := by
  have hpunctuation : t.kind ≠ .punctuation := by rcases hkind with h | h | h <;> simp [h]
  have hword : t.kind ≠ .word := by rcases hkind with h | h | h <;> simp [h]
  have hend : t.kind ≠ .endOfQuery := by rcases hkind with h | h | h <;> simp [h]
  simp [take, takeItem, isPunctuation_of_ne hpunctuation, isKeyword_of_ne hword, hend]

theorem takes_slot {control : Control} {slot : Slot} {expected : Expectation} {place : Place}
    (onSlot : Slot → Control × Scope) (h : slot.IsWellFormed) (hresource : slot.isResource = true)
    (htake : ∀ t : Token, t.kind = .var ∨ t.kind = .iri →
      ∃ onLiteral, take control s t = takeSlot s t expected place onSlot onLiteral) :
    Takes control s [slot.text] (onSlot slot).1 (onSlot slot).2 := by
  cases slot with
  | var name =>
    refine Takes.word (standsFor_variable h) rfl fun position => ?_
    obtain ⟨onLiteral, htake⟩ := htake ⟨.var, variableText name, position⟩ (.inl rfl)
    rw [htake, takeSlot_variable]
  | term t =>
    cases t with
    | iri iri =>
      refine Takes.word (standsFor_iri h) rfl fun position => ?_
      obtain ⟨onLiteral, htake⟩ := htake ⟨.iri, referenceText iri, position⟩ (.inr rfl)
      rw [htake, takeSlot_reference h]
    | blank label => cases h
    | literal lexical datatype language => cases hresource

theorem take_object_eq (subject predicate : Slot) (t : Token) :
    take (.object subject predicate) s t = takeSlot s t .object (.object subject predicate)
      (fun slot => (.objectEnd subject predicate, s.addPattern ⟨subject, predicate, slot⟩))
      (fun literal => deliverLiteral s literal t.position (.object subject predicate)) :=
  rfl

theorem takes_pattern {p : Pattern} (h : p.IsWellFormed) :
    Takes .item s p.words .item (s.addPattern p) := by
  obtain ⟨subject, predicate, object⟩ := p
  have hsubject : Takes .item s [subject.text] (.predicate subject) s :=
    takes_slot (fun slot => (.predicate slot, s)) h.subject h.subjectIsResource
      fun t hkind => ⟨_, take_item_eq (hkind.imp_right .inl)⟩
  have hpredicate : Takes (.predicate subject) s [predicate.text] (.object subject predicate) s := by
    refine takes_slot (fun slot => (.object subject slot, s)) h.predicate h.predicateIsResource
      fun t hkind => ⟨_, if_neg fun hword => ?_⟩
    rcases hkind with h | h <;> simp [h] at hword
  have hobject : Takes (.object subject predicate) s [object.text] (.objectEnd subject predicate)
      (s.addPattern ⟨subject, predicate, object⟩) := by
    by_cases hresource : object.isResource = true
    · exact takes_slot (fun slot => (.objectEnd subject predicate, s.addPattern ⟨subject, predicate, slot⟩))
        h.object hresource fun t hkind => ⟨_, take_object_eq subject predicate t⟩
    · cases object with
      | var name => exact absurd rfl hresource
      | term t =>
        cases t with
        | iri iri => exact absurd rfl hresource
        | blank label => exact absurd rfl hresource
        | literal lexical datatype language =>
          refine Takes.literal h.object (.object subject predicate) (fun position => ?_)
            fun position => rfl
          rw [take_object_eq, takeSlot_text]
  have hend : Takes (.objectEnd subject predicate) (s.addPattern ⟨subject, predicate, object⟩) ["."]
      .item (s.addPattern ⟨subject, predicate, object⟩) :=
    Takes.punctuation (by simp) fun position => rfl
  exact hsubject.append (hpredicate.append (hobject.append hend))

def TakesItems (s : Scope) (words : List String) (s' : Scope) : Prop :=
  ∀ control, control = .item ∨ control = .itemEnd →
    ∃ control', (control' = .item ∨ control' = .itemEnd) ∧ Takes control s words control' s'

theorem TakesItems.append {s s' s'' : Scope} {words others : List String} (h : TakesItems s words s')
    (h' : TakesItems s' others s'') : TakesItems s (words ++ others) s'' := by
  intro control hcontrol
  obtain ⟨control', hcontrol', htakes⟩ := h control hcontrol
  obtain ⟨control'', hcontrol'', htakes'⟩ := h' control' hcontrol'
  exact ⟨control'', hcontrol'', htakes.append htakes'⟩

theorem takesItems_flatMap {α : Type} {words : α → List String} (put : List α → Scope)
    (done items : List α)
    (h : ∀ item ∈ items, ∀ done, TakesItems (put done) (words item) (put (done ++ [item]))) :
    TakesItems (put done) (items.flatMap words) (put (done ++ items)) := by
  induction items generalizing done with
  | nil =>
    rw [List.append_nil]
    exact fun control hcontrol => ⟨control, hcontrol, Takes.refl control (put done)⟩
  | cons item items ih =>
    obtain ⟨hitem, hrest⟩ := List.forall_mem_cons.1 h
    have hothers := ih (done ++ [item]) hrest
    rw [List.append_assoc, List.singleton_append] at hothers
    exact (hitem done).append hothers

theorem takes_patterns (put : List Pattern → Scope)
    (hput : ∀ done p, (put done).addPattern p = put (done ++ [p])) (done patterns : List Pattern)
    (h : ∀ p ∈ patterns, p.IsWellFormed) :
    Takes .item (put done) (patterns.flatMap Pattern.words) .item (put (done ++ patterns)) := by
  induction patterns generalizing done with
  | nil =>
    rw [List.append_nil]
    exact Takes.refl .item (put done)
  | cons p patterns ih =>
    obtain ⟨hp, hrest⟩ := List.forall_mem_cons.1 h
    have hothers := ih (done ++ [p]) hrest
    rw [List.append_assoc, List.singleton_append, ← hput] at hothers
    exact (takes_pattern hp).append hothers

/-- A keyword that starts an item is taken there, whether or not a point could have come first. -/
theorem takes_itemKeyword {control control' : Control} {s' : Scope} {word : String}
    (hcontrol : control = .item ∨ control = .itemEnd) (hword : word ∈ keywords)
    (htake : ∀ t : Token, t.kind = .word → (∀ keyword, t.isKeyword keyword = (word == keyword)) →
      takeItem s t = .ok (control', s')) :
    Takes control s [word] control' s' := by
  refine Takes.keyword hword fun t hkind hkeyword => ?_
  obtain rfl | rfl := hcontrol
  · exact htake t hkind hkeyword
  · simp [take, takeItemEnd, isPunctuation_of_ne, hkind, htake t hkind hkeyword]

theorem takesItems_filter {e : Expression} (h : e.IsWellFormed) (s : Scope) :
    TakesItems s e.filterWords (s.addFilter e) := by
  intro control hcontrol
  refine ⟨.itemEnd, .inr rfl, takes_filter h (takes_itemKeyword hcontrol (by simp [keywords]) ?_)⟩
  intro t hkind hkeyword
  simp [takeItem, isPunctuation_of_ne, hkind, hkeyword]

def Scope.addOptional (s : Scope) (group : OptionalGroup) : Scope :=
  { s with optionals := s.optionals ++ [group] }

theorem takesItems_optional {group : OptionalGroup} (h : group.IsWellFormed) (hinner : s.inner = none) :
    TakesItems s group.words (s.addOptional group) := by
  intro control hcontrol
  have hopen : Takes control s ["OPTIONAL", "\x7b"] .item { s with inner := some ⟨[], []⟩ } := by
    have hoptional : Takes control s ["OPTIONAL"] .groupOpen { s with inner := some ⟨[], []⟩ } := by
      refine takes_itemKeyword hcontrol (by simp [keywords]) fun t hkind hkeyword => ?_
      simp [takeItem, isPunctuation_of_ne, hkind, hkeyword, hinner]
    exact hoptional.append (Takes.punctuation (by simp) fun position => rfl)
  have hpatterns := takes_patterns (fun done => { s with inner := some ⟨done, []⟩ }) (fun _ _ => rfl) []
    group.patterns h.patterns
  obtain ⟨control', hcontrol', hfilters⟩ :=
    takesItems_flatMap (fun done => { s with inner := some ⟨group.patterns, done⟩ }) [] group.filters
      (fun e he _ => takesItems_filter (h.filters e he) _) .item (.inl rfl)
  have hclose : Takes control' { s with inner := some group } ["\x7d"] .itemEnd (s.addOptional group) := by
    refine Takes.punctuation (by simp) fun position => ?_
    have hnonempty : group.patterns.isEmpty = false := by simp [h.isNonempty]
    have hgroup : closeGroup { s with inner := some group } = (.itemEnd, s.addOptional group) := by
      simp [closeGroup, hnonempty, Scope.addOptional, hinner]
    obtain rfl | rfl := hcontrol' <;> exact congrArg Except.ok hgroup
  exact ⟨.itemEnd, .inr rfl, hopen.append ((hpatterns.append hfilters).append hclose)⟩

def Scope.withItems (s : Scope) (patterns : List Pattern) (optionals : List OptionalGroup)
    (filters : List Expression) : Scope :=
  { s with patterns, optionals, filters, inner := none }

theorem takes_group {q : SelectQuery} (h : q.IsWellFormed) (s : Scope) :
    Takes .moreVariables (s.withItems [] [] []) ("WHERE" :: "\x7b" :: (q.patterns.flatMap Pattern.words ++
      q.optionals.flatMap OptionalGroup.words ++ q.filters.flatMap Expression.filterWords ++ ["\x7d"]))
      .modifiers (s.withItems q.patterns q.optionals q.filters) := by
  have hopen : Takes .moreVariables (s.withItems [] [] []) ["WHERE", "\x7b"] .item
      (s.withItems [] [] []) := by
    have hwhere : Takes .moreVariables (s.withItems [] [] []) ["WHERE"] .groupOpen
        (s.withItems [] [] []) :=
      Takes.keyword (by simp [keywords]) fun t hkind hkeyword => by
        simp [take, takeMoreVariables, hkind, hkeyword]
    exact hwhere.append (Takes.punctuation (by simp) fun position => rfl)
  have hpatterns := takes_patterns (fun done => s.withItems done [] []) (fun _ _ => rfl) [] q.patterns
    h.patterns
  obtain ⟨control, hcontrol, hoptionals⟩ := takesItems_flatMap (fun done => s.withItems q.patterns done [])
    [] q.optionals (fun group hgroup done => takesItems_optional (h.optionals group hgroup) rfl) .item (.inl rfl)
  obtain ⟨control', hcontrol', hfilters⟩ :=
    takesItems_flatMap (fun done => s.withItems q.patterns q.optionals done) [] q.filters
      (fun e he done => takesItems_filter (h.filters e he) _) control hcontrol
  have hclose : Takes control' (s.withItems q.patterns q.optionals q.filters) ["\x7d"] .modifiers
      (s.withItems q.patterns q.optionals q.filters) := by
    refine Takes.punctuation (by simp) fun position => ?_
    obtain rfl | rfl := hcontrol' <;> rfl
  exact hopen.append (((hpatterns.append hoptionals).append hfilters).append hclose)

theorem takes_orderCondition {condition : OrderCondition} (h : IsVariableName condition.name.toList) :
    Takes .orderConditions s condition.words .orderConditions
      { s with order := s.order ++ [condition] } := by
  obtain ⟨name, descending⟩ := condition
  cases descending with
  | false =>
    exact Takes.word (standsFor_variable h) rfl fun position => by
      simp [take, takeOrderConditions, isKeyword_of_ne, variableName_variableText, Scope.addOrder]
  | true =>
    have hdescending : Takes .orderConditions s ["DESC"] (.orderOpen true) s :=
      Takes.keyword (by simp [keywords]) fun t hkind hkeyword => by
        simp [take, takeOrderConditions, hkeyword]
    have hopen : Takes (.orderOpen true) s ["("] (.orderVariable true) s :=
      Takes.punctuation (by simp) fun position => rfl
    have hname : Takes (.orderVariable true) s [variableText name] .orderClose
        { s with order := s.order ++ [⟨name, true⟩] } :=
      Takes.word (standsFor_variable h) rfl fun position => by
        simp [take, takeOrderVariable, variableName_variableText, Scope.addOrder]
    have hclose : Takes .orderClose { s with order := s.order ++ [⟨name, true⟩] } [")"] .orderConditions
        { s with order := s.order ++ [⟨name, true⟩] } :=
      Takes.punctuation (by simp) fun position => rfl
    exact hdescending.append (hopen.append (hname.append hclose))

theorem takes_orderConditions (conditions : List OrderCondition)
    (h : ∀ condition ∈ conditions, IsVariableName condition.name.toList) :
    Takes .orderConditions s (conditions.flatMap OrderCondition.words) .orderConditions
      { s with order := s.order ++ conditions } := by
  induction conditions generalizing s with
  | nil =>
    rw [List.append_nil]
    exact Takes.refl .orderConditions s
  | cons condition conditions ih =>
    obtain ⟨hcondition, hrest⟩ := List.forall_mem_cons.1 h
    have hothers := ih (s := { s with order := s.order ++ [condition] }) hrest
    simpa using (takes_orderCondition hcondition).append hothers

def ReadsSlices (control : Control) (s : Scope) : Prop :=
  ∀ t : Token, t.kind ≠ .var → t.isKeyword "ORDER" = false → t.isKeyword "ASC" = false →
    t.isKeyword "DESC" = false → take control s t = takeSlices s t

theorem takes_order {q : SelectQuery} (h : q.IsWellFormed) (hs : s.order = []) :
    ∃ control, ReadsSlices control { s with order := q.order } ∧
      Takes .modifiers s q.orderWords control { s with order := q.order } := by
  have hnames : ∀ condition ∈ q.order, IsVariableName condition.name.toList := by
    intro condition hcondition
    refine (h.names condition.name ?_).1
    exact List.mem_append_right _ (List.mem_map_of_mem hcondition)
  unfold SelectQuery.orderWords
  split_ifs with hempty
  · have hsame : { s with order := q.order } = s := by
      rw [List.isEmpty_iff.1 hempty, ← hs]
    rw [hsame]
    refine ⟨.modifiers, fun t _ horder _ _ => ?_, Takes.refl .modifiers s⟩
    simp [take, takeModifiers, horder]
  · have horder : Takes .modifiers s ["ORDER"] .orderBy s :=
      Takes.keyword (by simp [keywords]) fun t hkind hkeyword => by
        simp [take, takeModifiers, hkeyword]
    have hby : Takes .orderBy s ["BY"] .orderConditions s :=
      Takes.keyword (by simp [keywords]) fun t hkind hkeyword => by
        simp [take, takeOrderBy, hkeyword]
    have hconditions := takes_orderConditions (s := s) q.order hnames
    rw [hs, List.nil_append] at hconditions
    refine ⟨.orderConditions, fun t hkind _ hascending hdescending => ?_,
      horder.append (hby.append hconditions)⟩
    simp [take, takeOrderConditions, hkind, hascending, hdescending, hempty]

def IsCountable (n : Nat) : Prop :=
  n < 10 ^ integerDigitLimit

instance (n : Nat) : Decidable (IsCountable n) :=
  Nat.decLt n (10 ^ integerDigitLimit)

theorem isCountable_iff (n : Nat) : IsCountable n ↔ (Nat.toDigits 10 n).length ≤ integerDigitLimit :=
  (Nat.length_toDigits_le_iff (by decide) (by decide)).symm

theorem take_count (slice : Slice) (n position : Nat) :
    take (.count slice) s ⟨.number, toString n, position⟩ =
      if integerDigitLimit < (Nat.toDigits 10 n).length then
        .error (.uncountable (.tooManyDigits (Nat.toDigits 10 n).length))
      else .ok (.slices, s.cut slice n) := by
  have hdigits : ∀ c ∈ Nat.toDigits 10 n, Text.isAsciiDigit c = true :=
    isAsciiDigit_of_mem_integerDigits n
  have hlike : (toString n).toList.all Text.isDigitLike = true := by
    rw [toList_toString_nat, List.all_eq_true]
    intro c hc
    simp [Text.isDigitLike, isDecimalDigit_of_isAsciiDigit c (hdigits c hc)]
  have htext : toString n = String.ofList (Nat.toDigits 10 n) := by
    rw [← String.toList_inj, toList_toString_nat, String.toList_ofList]
  have hread := Reading.integer_of_digits hdigits Nat.toDigits_ne_nil
  have hnumber : Reading.number (Nat.toDigits 10 n) = n := Reading.number_integerDigits n
  change takeCount slice s ⟨.number, toString n, position⟩ = _
  rw [takeCount, if_neg (by simp), if_neg (by simp only [hlike]; decide)]
  dsimp only
  rw [htext, hread, hnumber]
  split_ifs <;> rfl

theorem takes_sliceName {control : Control} (hcontrol : ReadsSlices control s) (slice : Slice) :
    Takes control s [slice.text] (.count slice) s := by
  refine Takes.keyword (by cases slice <;> simp [keywords, Slice.text]) fun t hkind hkeyword => ?_
  rw [hcontrol t (by simp [hkind]) (by cases slice <;> simp [hkeyword, Slice.text])
    (by cases slice <;> simp [hkeyword, Slice.text]) (by cases slice <;> simp [hkeyword, Slice.text])]
  cases slice <;> simp [takeSlices, hkeyword, Slice.text]

theorem takes_slice {control : Control} (hcontrol : ReadsSlices control s) (slice : Slice) {n : Nat}
    (hn : IsCountable n) :
    Takes control s [slice.text, toString n] .slices (s.cut slice n) := by
  have hcount : Takes (.count slice) s [toString n] .slices (s.cut slice n) :=
    Takes.word (standsFor_count n) rfl fun position => by
      rw [take_count, if_neg (Nat.not_lt.2 ((isCountable_iff n).1 hn))]
  exact (takes_sliceName hcontrol slice).append hcount

theorem readsSlices_slices (s : Scope) : ReadsSlices .slices s :=
  fun _ _ _ _ _ => rfl

theorem takes_slices {q : SelectQuery} {control : Control} (hcontrol : ReadsSlices control s)
    (hslimit : s.limit = none) (hsoffset : s.offset = 0) (hlimit : ∀ n ∈ q.limit, IsCountable n)
    (hoffset : IsCountable q.offset) :
    ∃ control', ReadsSlices control' { s with limit := q.limit, offset := q.offset } ∧
      Takes control s q.sliceWords control' { s with limit := q.limit, offset := q.offset } := by
  have hrest (words : List String) (control' : Control)
      (hcontrol' : ReadsSlices control' { s with limit := q.limit })
      (hfirst : Takes control s words control' { s with limit := q.limit }) :
      ∃ control', ReadsSlices control' { s with limit := q.limit, offset := q.offset } ∧
        Takes control s (words ++ if q.offset = 0 then [] else ["OFFSET", toString q.offset]) control'
          { s with limit := q.limit, offset := q.offset } := by
    split_ifs with hzero
    · have hsame : { s with limit := q.limit, offset := q.offset } = { s with limit := q.limit } := by
        rw [hzero, ← hsoffset]
      rw [hsame, List.append_nil]
      exact ⟨control', hcontrol', hfirst⟩
    · exact ⟨.slices, readsSlices_slices _, hfirst.append (takes_slice hcontrol' .offset hoffset)⟩
  unfold SelectQuery.sliceWords
  cases hq : q.limit with
  | none =>
    have hsame : { s with limit := none } = s := by rw [← hslimit]
    rw [hq, hsame] at hrest
    exact hrest [] control hcontrol (Takes.refl control s)
  | some n =>
    rw [hq] at hrest
    exact hrest _ .slices (readsSlices_slices _) (takes_slice hcontrol .limit (hlimit n hq))

def Scope.ofQuery (q : SelectQuery) (visible : List (String × String)) (base : Option String) : Scope :=
  { Scope.initial visible base with
    declared := q.prefixes
    isDistinct := q.distinct
    selected := some q.projection
    patterns := q.patterns
    optionals := q.optionals
    filters := q.filters
    order := q.order }

theorem takes_body {q : SelectQuery} (h : q.IsWellFormed) (visible : List (String × String))
    (base : Option String) : ∃ control, ReadsSlices control (.ofQuery q visible base) ∧
      Takes .prologue (.initial visible base) q.bodyWords control (.ofQuery q visible base) := by
  have hprefixes := takes_prefixes (s := .initial visible base) h.prefixes (by simpa [Scope.initial] using h.labels)
  have hselection := takes_selection (s := { Scope.initial visible base with declared := q.prefixes })
    q.distinct (fun name hname => (h.names name (by simp [SelectQuery.usedNames, hname])).1) h.isNonempty
    rfl rfl
  have hgroup := takes_group h { Scope.initial visible base with
    declared := q.prefixes, isDistinct := q.distinct, selected := some q.projection }
  obtain ⟨control, hcontrol, horder⟩ := takes_order (s := { Scope.ofQuery q visible base with order := [] }) h rfl
  refine ⟨control, hcontrol, ?_⟩
  rw [SelectQuery.bodyWords, List.append_assoc (q.prefixes.flatMap prefixWords)]
  exact ((hprefixes.append hselection).append hgroup).append horder

theorem checkKnown_eq {names known : List String} (clause : Clause) (h : ∀ name ∈ names, name ∈ known) :
    checkKnown names known clause = .ok () := by
  have hfind : names.find? (fun name => !known.contains name) = none := by
    simpa [List.find?_eq_none] using h
  rw [checkKnown, hfind]

theorem query_ofQuery {q : SelectQuery} (h : q.IsWellFormed) (visible : List (String × String))
    (base : Option String) :
    ({ Scope.ofQuery q visible base with limit := q.limit, offset := q.offset } : Scope).query = .ok q := by
  have hknown : ∀ name ∈ q.usedNames, name ∈ patternVariables q.patterns q.optionals :=
    fun name hname => (h.names name hname).2
  simp only [SelectQuery.usedNames, List.forall_mem_append] at hknown
  obtain ⟨⟨⟨hprojection, hfilters⟩, hoptionals⟩, horder⟩ := hknown
  simp only [Scope.query, Scope.ofQuery, distinct_eq_self _ h.isDistinct, checkKnown_eq _ hprojection,
    checkKnown_eq _ hfilters, checkKnown_eq _ hoptionals, checkKnown_eq _ horder]
  rfl

theorem Lexes.parse {text : String} {lexemes : List Lexeme} (h : Lexes text.toList lexemes)
    (visible : List (String × String)) (base : Option String) :
    ∃ tokens, tokens.map Token.lexeme = lexemes ∧
      parse visible base text =
        (run .prologue (.initial visible base) (tokens ++ [endToken text.length]) >>= Scope.query) := by
  obtain ⟨tokens, hlex, hmap⟩ := h 0
  have htokens : Query.tokens text = .ok (tokens ++ [endToken text.length]) := by
    rw [Query.tokens, lex, hlex]
  refine ⟨tokens, hmap, ?_⟩
  rw [Query.parse, htokens]
  rfl

/-- Words that are taken up to the end of a query are read as what has been read by then. -/
theorem parse_of_takes {visible : List (String × String)} {base : Option String} {words : List String}
    {control : Control} {s : Scope}
    (h : Takes .prologue (.initial visible base) words control s) (hcontrol : ReadsSlices control s) :
    parse visible base (Text.join " " words) = s.query := by
  obtain ⟨tokens, hmap, hparse⟩ := (lexes_join h.stands).parse visible base
  have hend : take control s (endToken (Text.join " " words).length) = .ok (.finished, s) := by
    rw [hcontrol _ (by simp [endToken]) (by simp [Token.isKeyword, endToken])
      (by simp [Token.isKeyword, endToken]) (by simp [Token.isKeyword, endToken])]
    rfl
  rw [hparse, h.run_eq tokens _ [] hmap rfl, run_cons [] hend]
  rfl

/-- A query that could have been read is read from its own text, if what it is cut by is not written
with too many digits. -/
theorem parse_text {q : SelectQuery} (h : q.IsWellFormed) (hlimit : ∀ n ∈ q.limit, IsCountable n)
    (hoffset : IsCountable q.offset) (visible : List (String × String)) (base : Option String) :
    parse visible base q.text = .ok q := by
  obtain ⟨control, hcontrol, hbody⟩ := takes_body h visible base
  obtain ⟨control', hcontrol', hslices⟩ := takes_slices hcontrol rfl rfl hlimit hoffset
  rw [SelectQuery.text, parse_of_takes (hbody.append hslices) hcontrol', query_ofQuery h]

/-- What a query is cut by cannot be read if it is written with too many digits. -/
theorem parse_text_of_limit {q : SelectQuery} (h : q.IsWellFormed) {n : Nat} (hlimit : q.limit = some n)
    (hn : ¬IsCountable n) (visible : List (String × String)) (base : Option String) :
    parse visible base q.text = .error (.uncountable (.tooManyDigits (Nat.toDigits 10 n).length)) := by
  obtain ⟨control, hcontrol, hbody⟩ := takes_body h visible base
  have hname := hbody.append (takes_sliceName hcontrol .limit)
  obtain ⟨more, hmore, hwords⟩ : ∃ more, (∀ word ∈ more, Stands word) ∧
      q.bodyWords ++ q.sliceWords = q.bodyWords ++ ["LIMIT"] ++ toString n :: more := by
    refine ⟨if q.offset = 0 then [] else ["OFFSET", toString q.offset], ?_,
      by simp [SelectQuery.sliceWords, hlimit]⟩
    have hoffset := (takes_sliceName (readsSlices_slices (.initial visible base)) .offset).stands "OFFSET"
      (by simp [Slice.text])
    split_ifs
    · simp
    · simpa using ⟨hoffset, (standsFor_count q.offset).stands⟩
  have hstands : ∀ word ∈ q.bodyWords ++ ["LIMIT"] ++ toString n :: more, Stands word :=
    List.forall_mem_append.2
      ⟨hname.stands, List.forall_mem_cons.2 ⟨(standsFor_count n).stands, hmore⟩⟩
  obtain ⟨tokens, hmap, hparse⟩ := (lexes_join hstands).parse visible base
  rw [SelectQuery.text, hwords, hparse]
  rw [List.flatMap_append, List.flatMap_cons, (standsFor_count n).lexemesOf] at hmap
  obtain ⟨first, second, rfl, hfirst, hsecond⟩ := List.map_eq_append_iff.1 hmap
  obtain ⟨t, others, rfl, ht, -⟩ := List.map_eq_cons_iff.1 hsecond
  have hcount := take_count (s := .ofQuery q visible base) .limit n t.position
  rw [if_pos (Nat.not_le.1 (mt (isCountable_iff n).2 hn)), ← Token.eq_of_lexeme ht] at hcount
  rw [List.append_assoc, List.cons_append, hname.run_eq first t _ hfirst (by rw [ht]; rfl), run, hcount]
  rfl

/-- Conditions of every form, with and without parentheses, in a query with every clause. -/
def everyForm : SelectQuery where
  projection := ["s", "o"]
  distinct := true
  patterns := [⟨.var "s", .term (.iri "a:p"), .var "o"⟩,
    ⟨.var "s", .term (.iri "a:q"), .term (.literal "x\n\"" none (some "en"))⟩]
  optionals := [⟨[⟨.term (.iri "a:r"), .var "s", .var "z"⟩], [.bound "z"]⟩]
  filters := [.or (.and (.or (.var "s") (.var "o"))
      (.not (.compare .lt (.var "s") (.constant (.typed "5" Xsd.integer)))))
    (.regexFlags (.apply .lower (.var "o")) (.constant (.plain "a+")) (.constant (.plain "ix")))]
  order := [⟨"o", true⟩, ⟨"s", false⟩]
  limit := some 10
  offset := 3
  prefixes := [("ex", "http://e/"), ("", "a:b")]

theorem everyForm_isWellFormed : everyForm.IsWellFormed := by
  have hname : ∀ name ∈ ["s", "o", "z"], IsVariableName name.toList := by
    simp only [List.forall_mem_cons, List.not_mem_nil, false_imp_iff, implies_true, and_true]
    exact ⟨⟨'s', [], rfl, by decide, by simp⟩, ⟨'o', [], rfl, by decide, by simp⟩,
      ⟨'z', [], rfl, by decide, by simp⟩⟩
  have hs := hname "s" (by simp)
  have ho := hname "o" (by simp)
  have hz := hname "z" (by simp)
  have hiri : ∀ iri ∈ ["a:p", "a:q", "a:r", "a:b", "http://e/", Xsd.integer], IsReference iri :=
    fun iri hiri => ⟨by revert iri; decide, by revert iri; decide⟩
  have hused : ∀ name ∈ everyForm.usedNames, name ∈ ["s", "o", "z"] ∧
      name ∈ patternVariables everyForm.patterns everyForm.optionals := by
    decide
  exact {
    isNonempty := by decide
    isDistinct := by decide
    patterns := by
      simp only [everyForm, List.forall_mem_cons, List.not_mem_nil, false_imp_iff, implies_true, and_true]
      exact ⟨⟨hs, hiri _ (by simp), ho, rfl, rfl⟩,
        ⟨hs, hiri _ (by simp), ⟨by decide, by decide⟩, rfl, rfl⟩⟩
    optionals := by
      simp only [everyForm, List.forall_mem_singleton]
      exact {
        isNonempty := by decide
        patterns := List.forall_mem_singleton.2 ⟨hiri _ (by simp), hs, hz, rfl, rfl⟩
        filters := List.forall_mem_singleton.2 hz }
    filters := by
      simp only [everyForm, List.forall_mem_singleton]
      refine ⟨⟨⟨hs, ho⟩, hs, hiri _ (by simp), by decide⟩, ho, trivial, trivial, ?_, ?_⟩
      · rintro _ ⟨⟩
        exact ⟨_, rfl⟩
      · rintro _ ⟨⟩
        decide
    names := fun name h => ⟨hname name (hused name h).1, (hused name h).2⟩
    labels := by decide
    prefixes := by
      simp only [everyForm, List.forall_mem_cons, List.not_mem_nil, false_imp_iff, implies_true, and_true]
      have hfirst : ∀ c ∈ "ex".toList.head?, Text.isAsciiLetter c = true := by
        rintro c ⟨⟩
        decide
      exact ⟨⟨⟨hfirst, by decide⟩, hiri _ (by simp)⟩, ⟨by simp, by simp⟩, hiri _ (by simp)⟩ }

theorem parse_text_everyForm : everyForm.IsWellFormed ∧
    parse [("ex", "urn:x:")] none everyForm.text = .ok everyForm :=
  have hlimit : ∀ n ∈ everyForm.limit, IsCountable n := by
    rintro n ⟨⟩
    decide +kernel
  ⟨everyForm_isWellFormed, parse_text everyForm_isWellFormed hlimit (by decide +kernel) _ none⟩

def hugeLimit : SelectQuery where
  projection := ["o"]
  distinct := false
  patterns := [⟨.var "s", .var "p", .var "o"⟩]
  optionals := []
  filters := []
  order := []
  limit := some (10 ^ integerDigitLimit)
  offset := 0
  prefixes := []

/-- The query could have been read, but its text cannot be. -/
theorem parse_text_hugeLimit : hugeLimit.IsWellFormed ∧
    parse [] none hugeLimit.text ≠ .ok hugeLimit := by
  have hname : ∀ name ∈ ["s", "p", "o"], IsVariableName name.toList := by
    simp only [List.forall_mem_cons, List.not_mem_nil, false_imp_iff, implies_true, and_true]
    exact ⟨⟨'s', [], rfl, by decide, by simp⟩, ⟨'p', [], rfl, by decide, by simp⟩,
      ⟨'o', [], rfl, by decide, by simp⟩⟩
  have hwellFormed : hugeLimit.IsWellFormed := {
    isNonempty := by decide
    isDistinct := by decide
    patterns := List.forall_mem_singleton.2
      ⟨hname _ (by simp), hname _ (by simp), hname _ (by simp), rfl, rfl⟩
    optionals := by simp [hugeLimit]
    filters := by simp [hugeLimit]
    names := by
      intro name h
      have hmem : name = "o" := by simpa [SelectQuery.usedNames, hugeLimit] using h
      exact hmem ▸ ⟨hname "o" (by simp), by decide⟩
    labels := by simp [hugeLimit]
    prefixes := by simp [hugeLimit] }
  refine ⟨hwellFormed, ?_⟩
  rw [parse_text_of_limit hwellFormed rfl (Nat.lt_irrefl _)]
  simp

end CommandOntology.Query
