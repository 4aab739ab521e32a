import CommandOntology.Proofs.TakenWords

set_option autoImplicit false

namespace CommandOntology.Query

namespace Expression

theorem wordsAt_eq (least : Nat) (e : Expression) :
    e.wordsAt least = if e.level < least then inParentheses (e.wordsAt 0) else e.wordsAt 0 := by
  cases e <;> simp [wordsAt]

theorem wordsAt_of_le {least : Nat} {e : Expression} (h : least ≤ e.level) :
    e.wordsAt least = e.wordsAt 0 := by
  rw [wordsAt_eq, if_neg (by omega)]

theorem wordsAt_of_lt {least : Nat} {e : Expression} (h : e.level < least) :
    e.wordsAt least = inParentheses (e.wordsAt 0) := by
  rw [wordsAt_eq, if_pos h]

/-- Only a condition of the lower level is written differently on neighbouring levels. -/
theorem wordsAt_succ {least : Nat} {e : Expression} (h : e.level ≠ least) :
    e.wordsAt (least + 1) = e.wordsAt least := by
  obtain hlt | hlt := Nat.lt_or_gt_of_ne h
  · exact (wordsAt_of_lt (by omega)).trans (wordsAt_of_lt hlt).symm
  · exact (wordsAt_of_le (by omega)).trans (wordsAt_of_le (by omega)).symm

end Expression

def TakenAsOperand (e : Expression) : Prop :=
  ∀ before enclosing s,
    Takes (.operand before enclosing) s (e.wordsAt 3) (afterOperand before e enclosing) s

def TakenAsComparison (e : Expression) : Prop :=
  ∀ disjunction conjunction enclosing s, ∃ mayCompare,
    Takes (.operand ⟨disjunction, conjunction, none, 0⟩ enclosing) s (e.wordsAt 2)
      (.operandEnd ⟨disjunction, conjunction, none, 0⟩ e mayCompare enclosing) s

def TakenAsConjunction (e : Expression) : Prop :=
  ∀ disjunction enclosing s, ∃ conjunction value mayCompare, joined .and conjunction value = e ∧
    Takes (.operand ⟨disjunction, none, none, 0⟩ enclosing) s (e.wordsAt 1)
      (.operandEnd ⟨disjunction, conjunction, none, 0⟩ value mayCompare enclosing) s

def TakenAsWhole (e : Expression) : Prop :=
  ∀ enclosing s, ∃ before value mayCompare, Partial.whole before value = e ∧
    Takes (.operand {} enclosing) s (e.wordsAt 0) (.operandEnd before value mayCompare enclosing) s

structure IsTaken (e : Expression) : Prop where
  operand : TakenAsOperand e
  comparison : TakenAsComparison e
  conjunction : TakenAsConjunction e
  whole : TakenAsWhole e

theorem standsFor_punctuation {sign : String} (h : sign ∈ ["(", ")", "\x7b", "\x7d", ".", ","]) :
    StandsFor sign [⟨.punctuation, sign⟩] := by
  simp only [List.mem_cons, List.not_mem_nil, or_false] at h
  rcases h with rfl | rfl | rfl | rfl | rfl | rfl
  all_goals exact standsFor_sign (.punctuation, _) (by simp)

theorem standsFor_operator {sign : String}
    (h : sign ∈ ["!", "&&", "||", "=", "!=", "<", ">", "<=", ">="]) :
    StandsFor sign [⟨.operator, sign⟩] := by
  simp only [List.mem_cons, List.not_mem_nil, or_false] at h
  rcases h with rfl | rfl | rfl | rfl | rfl | rfl | rfl | rfl | rfl
  all_goals exact standsFor_sign (.operator, _) (by simp)

theorem Takes.punctuation {control control' : Control} {s s' : Scope} {sign : String}
    (hsign : sign ∈ ["(", ")", "\x7b", "\x7d", ".", ","])
    (htake : ∀ position, take control s ⟨.punctuation, sign, position⟩ = .ok (control', s')) :
    Takes control s [sign] control' s' :=
  Takes.word (standsFor_punctuation hsign) rfl htake

theorem Takes.operator {control control' : Control} {s s' : Scope} {sign : String}
    (hsign : sign ∈ ["!", "&&", "||", "=", "!=", "<", ">", "<=", ">="])
    (htake : ∀ position, take control s ⟨.operator, sign, position⟩ = .ok (control', s')) :
    Takes control s [sign] control' s' := by
  refine Takes.word (standsFor_operator hsign) ?_ htake
  simp only [List.mem_cons, List.not_mem_nil, or_false] at hsign
  rcases hsign with rfl | rfl | rfl | rfl | rfl | rfl | rfl | rfl | rfl
  all_goals rfl

variable {e : Expression}

theorem TakenAsWhole.inParentheses (h : TakenAsWhole e) (s : Scope) (use : Use) :
    Takes (openParenthesis use) s (e.wordsAt 0 ++ [")"]) (deliver s e use).1 (deliver s e use).2 := by
  obtain ⟨before, value, mayCompare, rfl, htakes⟩ := h (.parenthesis use) s
  refine htakes.append (Takes.punctuation (by simp) fun position => ?_)
  cases mayCompare <;> rfl

theorem TakenAsWhole.operand (h : TakenAsWhole e) (hlevel : e.level < 3) : TakenAsOperand e := by
  intro before enclosing s
  rw [Expression.wordsAt_of_lt hlevel]
  have hopen : Takes (.operand before enclosing) s ["("] (openParenthesis (.operand before enclosing)) s :=
    Takes.punctuation (by simp) fun _ => rfl
  exact hopen.append (h.inParentheses s (.operand before enclosing))

theorem TakenAsOperand.comparison (h : TakenAsOperand e) (hlevel : e.level ≠ 2) :
    TakenAsComparison e := by
  intro disjunction conjunction enclosing s
  rw [← Expression.wordsAt_succ hlevel]
  exact ⟨true, h ⟨disjunction, conjunction, none, 0⟩ enclosing s⟩

theorem TakenAsComparison.conjunction (h : TakenAsComparison e) (hlevel : e.level ≠ 1) :
    TakenAsConjunction e := by
  intro disjunction enclosing s
  obtain ⟨mayCompare, htakes⟩ := h disjunction none enclosing s
  rw [Expression.wordsAt_succ hlevel] at htakes
  exact ⟨none, e, mayCompare, rfl, htakes⟩

theorem TakenAsConjunction.whole (h : TakenAsConjunction e) (hlevel : e.level ≠ 0) :
    TakenAsWhole e := by
  intro enclosing s
  obtain ⟨conjunction, value, mayCompare, hvalue, htakes⟩ := h none enclosing s
  rw [Expression.wordsAt_succ hlevel] at htakes
  exact ⟨⟨none, conjunction, none, 0⟩, value, mayCompare, hvalue, htakes⟩

theorem IsTaken.of_operand (h : TakenAsOperand e) (hlevel : e.level = 3) : IsTaken e :=
  have hcomparison := h.comparison (by omega)
  have hconjunction := hcomparison.conjunction (by omega)
  ⟨h, hcomparison, hconjunction, hconjunction.whole (by omega)⟩

theorem IsTaken.of_comparison (h : TakenAsComparison e) (hlevel : e.level = 2) : IsTaken e :=
  have hconjunction := h.conjunction (by omega)
  have hwhole := hconjunction.whole (by omega)
  ⟨hwhole.operand (by omega), h, hconjunction, hwhole⟩

theorem IsTaken.of_conjunction (h : TakenAsConjunction e) (hlevel : e.level = 1) : IsTaken e :=
  have hwhole := h.whole (by omega)
  have hoperand := hwhole.operand (by omega)
  ⟨hoperand, hoperand.comparison (by omega), h, hwhole⟩

theorem IsTaken.of_whole (h : TakenAsWhole e) (hlevel : e.level = 0) : IsTaken e :=
  have hoperand := h.operand (by omega)
  have hcomparison := hoperand.comparison (by omega)
  ⟨hoperand, hcomparison, hcomparison.conjunction (by omega), h⟩

theorem negated_not (e : Expression) (n : Nat) : negated (.not e) n = .not (negated e n) := by
  induction n with
  | zero => rfl
  | succ n ih => rw [negated, ih, negated]

theorem isTaken_not (h : IsTaken e) : IsTaken (.not e) := by
  refine IsTaken.of_operand (fun before enclosing s => ?_) rfl
  have hnot : Takes (.operand before enclosing) s ["!"]
      (.operand { before with negations := before.negations + 1 } enclosing) s :=
    Takes.operator (by simp) fun _ => rfl
  have hoperand := hnot.append (h.operand { before with negations := before.negations + 1 } enclosing s)
  have hend : afterOperand { before with negations := before.negations + 1 } e enclosing =
      afterOperand before (.not e) enclosing := by
    simp only [afterOperand, negated_not, negated]
  rw [hend] at hoperand
  exact hoperand

theorem isTaken_compare {left right : Expression} (operator : Comparison) (hleft : IsTaken left)
    (hright : IsTaken right) : IsTaken (.compare operator left right) := by
  refine IsTaken.of_comparison (fun disjunction conjunction enclosing s => ⟨false, ?_⟩) rfl
  have hoperator : Takes (.operandEnd ⟨disjunction, conjunction, none, 0⟩ left true enclosing) s
      [operator.text] (.operand ⟨disjunction, conjunction, some (operator, left), 0⟩ enclosing) s := by
    refine Takes.operator (by cases operator <;> simp [Comparison.text]) fun position => ?_
    cases operator <;> rfl
  have hvalue := hleft.operand ⟨disjunction, conjunction, none, 0⟩ enclosing s
  have hother := hright.operand ⟨disjunction, conjunction, some (operator, left), 0⟩ enclosing s
  exact hvalue.append (hoperator.append hother)

theorem isTaken_and {left right : Expression} (hleft : IsTaken left) (hright : IsTaken right) :
    IsTaken (.and left right) := by
  refine IsTaken.of_conjunction (fun disjunction enclosing s => ?_) rfl
  obtain ⟨conjunction, value, mayCompare, rfl, hvalue⟩ := hleft.conjunction disjunction enclosing s
  have hand : Takes (.operandEnd ⟨disjunction, conjunction, none, 0⟩ value mayCompare enclosing) s ["&&"]
      (.operand ⟨disjunction, some (joined .and conjunction value), none, 0⟩ enclosing) s := by
    refine Takes.operator (by simp) fun position => ?_
    cases mayCompare <;> rfl
  obtain ⟨mayCompare', hother⟩ :=
    hright.comparison disjunction (some (joined .and conjunction value)) enclosing s
  exact ⟨_, right, mayCompare', rfl, hvalue.append (hand.append hother)⟩

theorem isTaken_or {left right : Expression} (hleft : IsTaken left) (hright : IsTaken right) :
    IsTaken (.or left right) := by
  refine IsTaken.of_whole (fun enclosing s => ?_) rfl
  obtain ⟨before, value, mayCompare, rfl, hvalue⟩ := hleft.whole enclosing s
  have hor : Takes (.operandEnd before value mayCompare enclosing) s ["||"]
      (.operand ⟨some (before.whole value), none, none, 0⟩ enclosing) s := by
    refine Takes.operator (by simp) fun position => ?_
    cases mayCompare <;> rfl
  obtain ⟨conjunction, value', mayCompare', rfl, hother⟩ :=
    hright.conjunction (some (before.whole value)) enclosing s
  exact ⟨⟨some (before.whole value), conjunction, none, 0⟩, value', mayCompare', rfl,
    hvalue.append (hor.append hother)⟩

theorem take_operand_eq (before : Partial) (enclosing : Enclosing) (s : Scope) {t : Token}
    (hkind : t.kind = .var ∨ t.kind = .iri ∨ t.kind = .string) :
    take (.operand before enclosing) s t = takeSlot s t .expression (.operand before enclosing)
      (fun slot => (afterOperand before slot.expression enclosing, s))
      (fun literal => deliverLiteral s literal t.position (.operand before enclosing)) := by
  obtain ⟨kind, text, position⟩ := t
  dsimp only at hkind
  rcases hkind with rfl | rfl | rfl <;> rfl

theorem isTaken_var {name : String} (h : IsVariableName name.toList) : IsTaken (.var name) := by
  refine IsTaken.of_operand (fun before enclosing s => ?_) rfl
  refine Takes.word (standsFor_variable h) rfl fun position => ?_
  rw [take_operand_eq before enclosing s (.inl rfl), takeSlot_variable]
  rfl

theorem isTaken_constant {value : Term} (h : IsConstant value) : IsTaken (.constant value) := by
  refine IsTaken.of_operand (fun before enclosing s => ?_) rfl
  cases value with
  | iri iri =>
    refine Takes.word (standsFor_iri h) rfl fun position => ?_
    rw [take_operand_eq before enclosing s (.inr (.inl rfl)), takeSlot_reference h]
    rfl
  | blank label => cases h
  | literal lexical datatype language =>
    refine Takes.literal h (.operand before enclosing) (fun position => ?_) fun position => rfl
    rw [take_operand_eq before enclosing s (.inr (.inr rfl)), takeSlot_text]

def Opens (words : List String) : Prop :=
  ∃ word others l ls, words = word :: others ∧ lexemesOf word = l :: ls ∧
    l ≠ ⟨.punctuation, ")"⟩

theorem Opens.append {words : List String} (h : Opens words) (others : List String) :
    Opens (words ++ others) :=
  have ⟨word, rest, l, ls, hwords, hlexemes, hl⟩ := h
  ⟨word, rest ++ others, l, ls, by rw [hwords]; rfl, hlexemes, hl⟩

theorem StandsFor.opens {word : String} {l : Lexeme} {ls : List Lexeme} (h : StandsFor word (l :: ls))
    (hl : l ≠ ⟨.punctuation, ")"⟩) (others : List String) : Opens (word :: others) :=
  ⟨word, others, l, ls, rfl, h.lexemesOf, hl⟩

theorem function?_text (function : FunctionName) (position : Nat) :
    Token.function? ⟨.word, function.text, position⟩ = some function := by
  have hall : ∀ function ∈ [FunctionName.regex, .bound, .test .contains, .test .starts, .test .ends,
      .apply .text, .apply .lower, .apply .upper],
      FunctionName.ofText? (Text.lower function.text) = some function := by
    decide
  have hmem : function ∈ [FunctionName.regex, .bound, .test .contains, .test .starts, .test .ends,
      .apply .text, .apply .lower, .apply .upper] := by
    rcases function with _ | _ | test | function
    · simp
    · simp
    · cases test <;> simp
    · cases function <;> simp
  exact hall function hmem

theorem standsFor_function (function : FunctionName) :
    StandsFor function.text [⟨.word, function.text⟩] := by
  have hletters : function.text ≠ "" ∧ ∀ c ∈ function.text.toList, Text.isAsciiLetter c = true := by
    rcases function with _ | _ | test | function
    · decide
    · decide
    · cases test <;> decide
    · cases function <;> decide
  exact standsFor_letters hletters.1 hletters.2

theorem takes_arguments {call : Call} {use : Use} {s : Scope} (arguments done : List Expression)
    (hne : arguments ≠ []) (htaken : ∀ a ∈ arguments, IsTaken a)
    (hcall : call.expression (done.reverse ++ arguments) = .ok e) :
    Takes (.operand {} (.argument call done use)) s
      ([","].intercalate (arguments.map (·.wordsAt 0)) ++ [")"]) (deliver s e use).1 (deliver s e use).2 := by
  -- The arguments that are taken stand in `done`, the last one first.
  induction arguments generalizing done with
  | nil => exact absurd rfl hne
  | cons a arguments ih =>
    obtain ⟨before, value, mayCompare, ha, htakes⟩ :=
      (htaken a List.mem_cons_self).whole (.argument call done use) s
    cases arguments with
    | nil =>
      have hclose : Takes (.operandEnd before value mayCompare (.argument call done use)) s [")"]
          (deliver s e use).1 (deliver s e use).2 := by
        refine Takes.punctuation (by simp) fun position => ?_
        have hdelivered : closeCall call (a :: done).reverse use s = .ok (deliver s e use) := by
          rw [closeCall, List.reverse_cons, hcall]
          rfl
        rw [← ha] at hdelivered
        cases mayCompare <;> exact hdelivered
      simpa using htakes.append hclose
    | cons b arguments =>
      have hcomma : Takes (.operandEnd before value mayCompare (.argument call done use)) s [","]
          (.operand {} (.argument call (a :: done) use)) s := by
        refine Takes.punctuation (by simp) fun position => ?_
        rw [← ha]
        cases mayCompare <;> rfl
      have hrest := ih (a :: done) (by simp) (fun b hb => htaken b (List.mem_cons_of_mem a hb))
        (by simpa using hcall)
      simpa using htakes.append (hcomma.append hrest)

/-- Before the first argument, whatever does not close the call is taken as the argument. -/
theorem Takes.firstArgument {call : Call} {use : Use} {control' : Control} {s s' : Scope}
    {words : List String} (hopens : Opens words)
    (h : Takes (.operand {} (.argument call [] use)) s words control' s') :
    Takes (.firstArgument call use) s words control' s' where
  stands := h.stands
  noMark := h.noMark
  run_eq tokens next rest htokens hnext := by
    obtain ⟨word, others, l, ls, rfl, hword, hl⟩ := hopens
    have hrun := h.run_eq tokens next rest htokens hnext
    rw [List.flatMap_cons, hword] at htokens
    obtain ⟨t, tokens, rfl, ht, -⟩ := List.map_eq_cons_iff.1 htokens
    have hclose : ¬t.isPunctuation ")" = true := by
      intro hpunctuation
      rw [Token.isPunctuation, Bool.and_eq_true, beq_iff_eq, beq_iff_eq] at hpunctuation
      rw [← ht, Token.lexeme, hpunctuation.1, hpunctuation.2] at hl
      exact hl rfl
    have htake : take (.firstArgument call use) s t = take (.operand {} (.argument call [] use)) s t :=
      if_neg hclose
    rw [← hrun, List.cons_append, run, run, htake]

def IsCall (e : Expression) (function : FunctionName) (arguments : List Expression) : Prop :=
  ∀ text position, Call.expression ⟨function, text, position⟩ arguments = .ok e

/-- Where the name of a function starts a call, the words of the call are taken. -/
theorem takes_call {control : Control} {s : Scope} (use : Use) {function : FunctionName}
    {arguments : List Expression} (hne : arguments ≠ []) (htaken : ∀ a ∈ arguments, IsTaken a)
    (hopens : ∀ a ∈ arguments, Opens (a.wordsAt 0)) (hcall : IsCall e function arguments)
    (htake : ∀ position, take control s ⟨.word, function.text, position⟩ =
      .ok (openCall ⟨.word, function.text, position⟩ function use, s)) :
    Takes control s (callWords function (arguments.map (·.wordsAt 0))) (deliver s e use).1
      (deliver s e use).2 := by
  refine Takes.cons (standsFor_function function) rfl _ htake fun position => ?_
  have hopen : Takes (.callOpen ⟨function, function.text, position⟩ use) s ["("]
      (.firstArgument ⟨function, function.text, position⟩ use) s :=
    Takes.punctuation (by simp) fun _ => rfl
  refine hopen.append (Takes.firstArgument ?_ (takes_arguments arguments [] hne htaken (hcall _ _)))
  obtain ⟨a, arguments, rfl⟩ := List.exists_cons_of_ne_nil hne
  have ha := hopens a List.mem_cons_self
  cases arguments with
  | nil => simpa using ha.append [")"]
  | cons b arguments => simpa using ha.append _

/-- Where parentheses may be closed, the words of a condition do not close them. -/
theorem opens_wordsAt (h : e.IsWellFormed) (least : Nat) : Opens (e.wordsAt least) := by
  have hparentheses (words : List String) : Opens (inParentheses words) :=
    (standsFor_punctuation (by simp)).opens (by decide) _
  have hcall (function : FunctionName) (arguments : List (List String)) :
      Opens (callWords function arguments) :=
    (standsFor_function function).opens (by simp) _
  have hlevel {e : Expression} (h : Opens (e.wordsAt 0)) (least : Nat) : Opens (e.wordsAt least) := by
    rw [Expression.wordsAt_eq]
    split_ifs
    · exact hparentheses _
    · exact h
  refine hlevel ?_ least
  induction e with
  | var name => exact (standsFor_variable h).opens (by simp) _
  | constant value =>
    cases value with
    | iri iri => exact (standsFor_iri h).opens (by simp) _
    | blank label => cases h
    | literal lexical datatype language => exact (standsFor_literal h).opens (by simp) _
  | not operand => exact (standsFor_operator (by simp)).opens (by decide) _
  | compare operator left right ihl => exact (hlevel (ihl h.1) 3).append _
  | and left right ihl => exact (hlevel (ihl h.1) 1).append _
  | or left right ihl => exact (hlevel (ihl h.1) 0).append _
  | bound | apply | test | regex | regexFlags => exact hcall _ _

theorem checkPattern_eq (call : Call) (h : e.IsUsablePattern) : call.checkPattern e = .ok () := by
  cases e with
  | constant value =>
    obtain ⟨pattern, hpattern⟩ := h value rfl
    rw [Call.checkPattern, hpattern]
  | _ => rfl

theorem checkFlags_eq (call : Call) (h : e.IsKnownFlags) : call.checkFlags e = .ok () := by
  cases e with
  | constant value =>
    have hflags : value.text.toList.filter (!isFlag ·) = [] := by
      simpa [List.filter_eq_nil_iff] using h value rfl
    have hunknown : unknownFlags value.text = "" := by
      rw [unknownFlags, hflags]
      simp [distinct, distinctBy, distinctByFrom]
    rw [Call.checkFlags, hunknown]
    rfl
  | _ => rfl

theorem call?_spec {function : FunctionName} {arguments : List Expression} (h : e.IsWellFormed)
    (hcall : e.call? = some (function, arguments)) :
    e.wordsAt 0 = callWords function (arguments.map (·.wordsAt 0)) ∧ arguments ≠ [] ∧
      (∀ a ∈ arguments, a.IsWellFormed) ∧ IsCall e function arguments := by
  cases e with
  | bound name =>
    cases hcall
    exact ⟨by simp [Expression.wordsAt, Expression.level], by simp,
      by simpa [Expression.IsWellFormed] using h, fun _ _ => rfl⟩
  | apply function operand =>
    cases hcall
    exact ⟨by simp [Expression.wordsAt, Expression.level], by simp,
      by simpa [Expression.IsWellFormed] using h, fun _ _ => rfl⟩
  | test test text part =>
    cases hcall
    exact ⟨by simp [Expression.wordsAt, Expression.level], by simp,
      by simpa [Expression.IsWellFormed] using h, fun _ _ => rfl⟩
  | regex text pattern =>
    cases hcall
    obtain ⟨htext, hpattern, husable⟩ := h
    refine ⟨by simp [Expression.wordsAt, Expression.level], by simp, by simp [htext, hpattern],
      fun callText position => ?_⟩
    change (Call.checkPattern ⟨.regex, callText, position⟩ pattern >>= fun _ => _) = _
    rw [checkPattern_eq _ husable]
    rfl
  | regexFlags text pattern flags =>
    cases hcall
    obtain ⟨htext, hpattern, hflags, husable, hknown⟩ := h
    refine ⟨by simp [Expression.wordsAt, Expression.level], by simp, by simp [htext, hpattern, hflags],
      fun callText position => ?_⟩
    change (Call.checkFlags ⟨.regex, callText, position⟩ flags >>= fun _ =>
      Call.checkPattern ⟨.regex, callText, position⟩ pattern >>= fun _ => _) = _
    rw [checkFlags_eq _ hknown, checkPattern_eq _ husable]
    rfl
  | _ => cases hcall

theorem isTaken_call {function : FunctionName} {arguments : List Expression} (h : e.IsWellFormed)
    (hcall : e.call? = some (function, arguments)) (htaken : ∀ a ∈ arguments, IsTaken a) : IsTaken e := by
  obtain ⟨hwords, hne, hformed, hexpression⟩ := call?_spec h hcall
  have hlevel : e.level = 3 := by
    cases e with
    | compare | and | or => cases hcall
    | _ => rfl
  refine IsTaken.of_operand (fun before enclosing s => ?_) hlevel
  rw [Expression.wordsAt_of_le (by omega), hwords]
  refine takes_call (.operand before enclosing) hne htaken
    (fun a ha => opens_wordsAt (hformed a ha) 0) hexpression fun position => ?_
  change takeOperand before enclosing s ⟨.word, function.text, position⟩ = _
  rw [takeOperand, if_neg (by simp), if_neg (by simp [Token.isPunctuation]), function?_text]

/-- Every condition that could have been read is taken as itself. -/
theorem isTaken (h : e.IsWellFormed) : IsTaken e := by
  induction e with
  | var name => exact isTaken_var h
  | constant value => exact isTaken_constant h
  | not operand ih => exact isTaken_not (ih h)
  | compare operator left right ihl ihr => exact isTaken_compare operator (ihl h.1) (ihr h.2)
  | and left right ihl ihr => exact isTaken_and (ihl h.1) (ihr h.2)
  | or left right ihl ihr => exact isTaken_or (ihl h.1) (ihr h.2)
  | bound name => exact isTaken_call h rfl (by simpa using isTaken_var h)
  | apply function operand ih => exact isTaken_call h rfl (by simpa using ih h)
  | test test text part iht ihp =>
    exact isTaken_call h rfl (by simpa using ⟨iht h.1, ihp h.2⟩)
  | regex text pattern iht ihp =>
    exact isTaken_call h rfl (by simpa using ⟨iht h.1, ihp h.2.1⟩)
  | regexFlags text pattern flags iht ihp ihf =>
    exact isTaken_call h rfl (by simpa using ⟨iht h.1, ihp h.2.1, ihf h.2.2.1⟩)

theorem takes_filter (h : e.IsWellFormed) {s : Scope} {control : Control}
    (hword : Takes control s ["FILTER"] .filter s) :
    Takes control s e.filterWords .itemEnd (s.addFilter e) := by
  by_cases hcall : e.call?.isSome
  · rw [Expression.filterWords, if_pos hcall]
    refine hword.append ?_
    obtain ⟨⟨function, arguments⟩, hcall⟩ := Option.isSome_iff_exists.1 hcall
    obtain ⟨hwords, hne, hformed, hexpression⟩ := call?_spec h hcall
    rw [hwords]
    refine takes_call .filter hne (fun a ha => isTaken (hformed a ha))
      (fun a ha => opens_wordsAt (hformed a ha) 0) hexpression fun position => ?_
    change takeFilter s ⟨.word, function.text, position⟩ = _
    rw [takeFilter, if_neg (by simp [Token.isPunctuation]), function?_text]
  · rw [Expression.filterWords, if_neg hcall]
    have hopen : Takes .filter s ["("] (openParenthesis .filter) s :=
      Takes.punctuation (by simp) fun _ => rfl
    exact hword.append (hopen.append ((isTaken h).whole.inParentheses s .filter))

end CommandOntology.Query
