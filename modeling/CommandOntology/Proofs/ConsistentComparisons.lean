import CommandOntology.Proofs.NumberOrder
import CommandOntology.Proofs.Outcomes
import CommandOntology.Query.Evaluation

set_option autoImplicit false

namespace CommandOntology

theorem Scaled.order_swap (x y : Scaled) : y.order x = (x.order y).swap := by
  rw [order_eq_compare, order_eq_compare, Std.OrientedOrd.eq_swap]

theorem Binary64.order?_swap (x y : Binary64) : y.order? x = (x.order? y).map Ordering.swap := by
  match x, y with
  | .nan, .nan | .nan, .infinite _ | .nan, .finite .. => rfl
  | .infinite _, .nan | .finite .., .nan => rfl
  | .infinite a, .infinite b => cases a <;> cases b <;> rfl
  | .infinite a, .finite .. => cases a <;> rfl
  | .finite .., .infinite b => cases b <;> rfl
  | .finite .., .finite .. => exact congrArg some (Scaled.order_swap _ _)

namespace Query

namespace Comparand

theorem numberOrder?_swap (a b : Comparand) : numberOrder? b a = (numberOrder? a b).map Ordering.swap := by
  cases a <;> cases b <;> try rfl
  case integer.integer m n => exact congrArg some Std.OrientedOrd.eq_swap
  case real.integer x n => simp [numberOrder?, Function.comp_def]
  case real.real x y => exact Binary64.order?_swap x y

theorem order?_swap (a b : Comparand) : order? b a = (order? a b).map (·.map Ordering.swap) := by
  cases a <;> cases b <;> try rfl
  case truth.truth x y => exact congrArg (some ∘ some) Std.OrientedOrd.eq_swap
  case text.text x y => exact congrArg (some ∘ some) Std.OrientedOrd.eq_swap
  all_goals exact congrArg some (numberOrder?_swap _ _)

theorem numberOrder?_eq_comm (a b : Comparand) :
    (numberOrder? a b == some .eq) = (numberOrder? b a == some .eq) := by
  rw [numberOrder?_swap a b]
  cases numberOrder? a b with
  | none => rfl
  | some order => cases order <;> rfl

theorem sameAsTruth_comm (a b : Comparand) : sameAsTruth a b = sameAsTruth b a :=
  numberOrder?_eq_comm _ _

theorem sameAsTruth_truth (x y : Bool) : sameAsTruth (.truth x) (.truth y) = (x == y) := by
  cases x <;> cases y <;> rfl

theorem ofLiteral_eq_error {lexical : String} {datatype : Option String} {e : Obstacle}
    (h : ofLiteral lexical datatype = .error e) : e = .noValue := by
  unfold ofLiteral at h
  split_ifs at h
  · rw [map_eq_error_iff] at h
    cases hread : Reading.integer lexical with
    | error fault => rw [hread] at h; exact (Except.error.inj h).symm
    | ok n => rw [hread] at h; cases h
  · rw [map_eq_error_iff] at h
    cases hread : Reading.float lexical with
    | error fault => rw [hread] at h; exact (Except.error.inj h).symm
    | ok n => rw [hread] at h; cases h

theorem ofAnswer_eq_error {a : Answer} {e : Obstacle} (h : ofAnswer a = .error e) : e = .noValue := by
  match a with
  | .truth _ => cases h
  | .term (.iri _) => cases h
  | .term (.blank _) => cases h
  | .term (.literal ..) => exact ofLiteral_eq_error h

theorem bind_ofAnswer_comm {β : Type} (a b : Answer) (f : Comparand → Comparand → Except Obstacle β) :
    (do f (← ofAnswer a) (← ofAnswer b)) = (do let q ← ofAnswer b; f (← ofAnswer a) q) := by
  cases ha : ofAnswer a with
  | error e =>
    cases hb : ofAnswer b with
    | error g => rw [ofAnswer_eq_error ha, ofAnswer_eq_error hb]; rfl
    | ok q => rfl
  | ok p => cases ofAnswer b <;> rfl

/-- Whether two comparands of literals are equal. Where they are no numbers and truth values, it is asked
whether the literals are the same. -/
def isEqual (isSame : Bool) (a b : Comparand) : Bool :=
  match a, b with
  | truth x, truth y => x == y
  | _, _ => if a.isNumber && b.isNumber then numberOrder? a b == some .eq else isSame

theorem isEqual_comm (isSame : Bool) (a b : Comparand) : a.isEqual isSame b = b.isEqual isSame a := by
  cases a <;> cases b <;> try rfl
  case truth.truth x y => exact Bool.beq_comm
  all_goals exact numberOrder?_eq_comm _ _

/-- Numbers and truth values that have an order are equal if neither is less. -/
theorem isEqual_of_order? {a b : Comparand} {order : Option Ordering} (h : order? a b = some order)
    (ha : ∀ text, a ≠ .text text) (isSame : Bool) : a.isEqual isSame b = (order == some .eq) := by
  cases a <;> cases b <;> first | exact absurd rfl (ha _) | cases h
  case truth.truth x y => cases x <;> cases y <;> rfl
  all_goals rfl

end Comparand

namespace Answer

theorem equal_literals (x y : String) (d e l m : Option String) :
    equal (.term (.literal x d l)) (.term (.literal y e m)) = (do
      let p ← Comparand.ofAnswer (.term (.literal x d l))
      let q ← Comparand.ofAnswer (.term (.literal y e m))
      return p.isEqual (Term.literal x d l == .literal y e m) q) := by
  simp only [equal, equalTerms, Comparand.ofAnswer]
  cases Comparand.ofLiteral x d with
  | error f => rfl
  | ok p =>
    cases Comparand.ofLiteral y e with
    | error g => rfl
    | ok q =>
      simp only [bind, Except.bind, Comparand.isEqual]
      cases p <;> cases q <;> rfl

theorem equal_comm (a b : Answer) : equal a b = equal b a := by
  have hsame (s t : Term) : Except.ok (ε := Obstacle) (s == t) = .ok (t == s) := by
    rw [Bool.beq_comm]
  have htruth (a b : Answer) :
      (do return Comparand.sameAsTruth (← Comparand.ofAnswer a) (← Comparand.ofAnswer b) : Except Obstacle Bool) =
        (do return Comparand.sameAsTruth (← Comparand.ofAnswer b) (← Comparand.ofAnswer a)) := by
    rw [Comparand.bind_ofAnswer_comm]
    simp only [Comparand.sameAsTruth_comm]
  match a, b with
  | .truth _, .truth _ | .truth _, .term _ | .term _, .truth _ => exact htruth _ _
  | .term (.iri _), .term (.iri _) | .term (.iri _), .term (.blank _) => exact hsame _ _
  | .term (.blank _), .term (.iri _) | .term (.blank _), .term (.blank _) => exact hsame _ _
  | .term (.iri _), .term (.literal ..) | .term (.blank _), .term (.literal ..) => exact hsame _ _
  | .term (.literal ..), .term (.iri _) | .term (.literal ..), .term (.blank _) => exact hsame _ _
  | .term (.literal x d l), .term (.literal y e m) =>
    rw [equal_literals, equal_literals, Comparand.bind_ofAnswer_comm, Bool.beq_comm]
    simp only [Comparand.isEqual_comm]

theorem order?_swap (a b : Answer) : order? b a = (order? a b).map (·.map Ordering.swap) := by
  unfold order?
  rw [Comparand.bind_ofAnswer_comm]
  cases Comparand.ofAnswer a with
  | error f => cases Comparand.ofAnswer b <;> rfl
  | ok p =>
    cases Comparand.ofAnswer b with
    | error g => rfl
    | ok q =>
      simp only [bind, Except.bind, Comparand.order?_swap p q]
      cases Comparand.order? p q <;> rfl

theorem order?_eq_ok_iff (a b : Answer) (order : Option Ordering) : order? a b = .ok order ↔
    ∃ p q, Comparand.ofAnswer a = .ok p ∧ Comparand.ofAnswer b = .ok q ∧ Comparand.order? p q = some order := by
  unfold order?
  cases Comparand.ofAnswer a with
  | error f => simp [bind, Except.bind]
  | ok p =>
    cases Comparand.ofAnswer b with
    | error g => simp [bind, Except.bind]
    | ok q =>
      simp only [bind, Except.bind, Except.ok.injEq, exists_eq_left', exists_and_left]
      cases Comparand.order? p q <;> simp [pure, Except.pure, throw, throwThe, MonadExceptOf.throw]

theorem equal_of_order? {a b : Answer} {p q : Comparand} {order : Option Ordering}
    (ha : Comparand.ofAnswer a = .ok p) (hb : Comparand.ofAnswer b = .ok q)
    (horder : Comparand.order? p q = some order) : equal a b = .ok (p.isEqual (a == b) q) := by
  match a, b with
  | .truth x, .truth y =>
    cases ha
    cases hb
    exact congrArg Except.ok (Comparand.sameAsTruth_truth x y)
  -- Only another truth value can be ordered beside one.
  | .truth x, .term t =>
    cases ha
    simp only [equal, hb]
    cases q <;> first | exact congrArg Except.ok (Comparand.sameAsTruth_truth _ _) | cases horder
  | .term s, .truth y =>
    cases hb
    simp only [equal, ha]
    cases p <;> first | exact congrArg Except.ok (Comparand.sameAsTruth_truth _ _) | cases horder
  | .term (.literal x d l), .term (.literal y e m) =>
    rw [equal_literals, ha, hb]
    simp [bind, Except.bind, pure, Except.pure, BEq.beq]
  | .term (.iri _), .term t | .term (.blank _), .term t =>
    cases ha
    cases q <;> cases horder
  | .term s, .term (.iri _) | .term s, .term (.blank _) =>
    cases hb
    cases p <;> cases horder

def AreAlike (a b : Answer) : Prop :=
  a ≠ b ∧ ∃ text, Comparand.ofAnswer a = .ok (.text text) ∧ Comparand.ofAnswer b = .ok (.text text)

section

variable {a b : Answer}

theorem AreAlike.order?_eq (h : AreAlike a b) : order? a b = .ok (some .eq) := by
  obtain ⟨-, text, ha, hb⟩ := h
  refine (order?_eq_ok_iff a b _).2 ⟨_, _, ha, hb, ?_⟩
  exact congrArg (some ∘ some) Std.ReflCmp.compare_self

theorem AreAlike.equal_eq (h : AreAlike a b) : equal a b = .ok false := by
  obtain ⟨hne, text, ha, hb⟩ := h
  rw [equal_of_order? ha hb rfl]
  exact congrArg Except.ok (beq_false_of_ne hne)

/-- What is neither less nor greater is equal, different literals of one text apart. -/
theorem equal_of_order?_of_not_areAlike {order : Option Ordering} (h : order? a b = .ok order)
    (hnot : ¬AreAlike a b) : equal a b = .ok (order == some .eq) := by
  obtain ⟨p, q, ha, hb, horder⟩ := (order?_eq_ok_iff a b order).1 h
  rw [equal_of_order? ha hb horder]
  by_cases htext : ∃ x, p = .text x
  · obtain ⟨x, rfl⟩ := htext
    obtain ⟨y, rfl⟩ : ∃ y, q = .text y := by
      cases q <;> first | exact ⟨_, rfl⟩ | cases horder
    obtain rfl := Option.some.inj horder
    have hsame : a = b ↔ x = y := by
      refine ⟨fun heq => ?_, fun heq => by_contra fun hne => hnot ⟨hne, x, ha, heq ▸ hb⟩⟩
      rw [heq, hb] at ha
      cases ha
      rfl
    refine congrArg Except.ok (Bool.eq_iff_iff.2 ?_)
    rw [beq_iff_eq, Option.some.injEq, Std.compare_eq_iff_eq, ← hsame]
    exact beq_iff_eq
  · exact congrArg Except.ok (Comparand.isEqual_of_order? horder (fun x hx => htext ⟨x, hx⟩) _)

end

end Answer

namespace Comparison

theorem agrees_swap (order : Option Ordering) :
    agrees ge order = agrees le (order.map Ordering.swap) ∧ agrees gt order = agrees lt (order.map Ordering.swap) := by
  match order with
  | none | some .lt | some .eq | some .gt => exact ⟨rfl, rfl⟩

theorem agrees_le (order : Option Ordering) : agrees le order = (agrees lt order || order == some .eq) := by
  match order with
  | none | some .lt | some .eq | some .gt => rfl

theorem apply_ge (a b : Answer) : ge.apply a b = le.apply b a := by
  simp only [apply, Answer.order?_swap a b]
  cases Answer.order? a b with
  | error e => rfl
  | ok order => exact congrArg Except.ok (agrees_swap order).1

theorem apply_gt (a b : Answer) : gt.apply a b = lt.apply b a := by
  simp only [apply, Answer.order?_swap a b]
  cases Answer.order? a b with
  | error e => rfl
  | ok order => exact congrArg Except.ok (agrees_swap order).2

end Comparison

namespace Expression

theorem eval_compare_eq_ok_iff (op : Comparison) (left right : Expression) (binding : Binding) (v : Answer) :
    (Expression.compare op left right).eval binding = .ok v ↔ ∃ a b isTrue, left.eval binding = .ok a ∧
      right.eval binding = .ok b ∧ op.apply a b = .ok isTrue ∧ v = .truth isTrue := by
  simp only [eval, bind_eq_ok_iff, pure, Except.pure, Except.ok.injEq]
  constructor
  · rintro ⟨a, ha, b, hb, isTrue, happly, rfl⟩
    exact ⟨a, b, isTrue, ha, hb, happly, rfl⟩
  · rintro ⟨a, b, isTrue, ha, hb, happly, rfl⟩
    exact ⟨a, ha, b, hb, isTrue, happly, rfl⟩

/-- An operator and another one that says the same of the operands in the other order. -/
theorem eval_compare_swap {op other : Comparison} (h : ∀ a b, op.apply a b = other.apply b a)
    (left right : Expression) (binding : Binding) (v : Answer) :
    (Expression.compare op left right).eval binding = .ok v ↔
      (Expression.compare other right left).eval binding = .ok v := by
  simp only [eval_compare_eq_ok_iff, h]
  constructor
  · rintro ⟨a, b, isTrue, ha, hb, happly, rfl⟩
    exact ⟨b, a, isTrue, hb, ha, happly, rfl⟩
  · rintro ⟨b, a, isTrue, hb, ha, happly, rfl⟩
    exact ⟨a, b, isTrue, ha, hb, happly, rfl⟩

theorem eval_not_eq (left right : Expression) (binding : Binding) :
    (Expression.not (.compare .eq left right)).eval binding = (Expression.compare .ne left right).eval binding := by
  simp only [eval]
  cases left.eval binding with
  | error e => rfl
  | ok a =>
    cases right.eval binding with
    | error e => rfl
    | ok b =>
      simp only [bind, Except.bind, Comparison.apply]
      cases Answer.equal a b <;> rfl

theorem eval_or_compare {left right : Expression} {binding : Binding} {a b : Answer} {isLess isEqual : Bool}
    (ha : left.eval binding = .ok a) (hb : right.eval binding = .ok b)
    (hless : Comparison.lt.apply a b = .ok isLess) (hequal : Answer.equal a b = .ok isEqual) :
    (Expression.or (.compare .lt left right) (.compare .eq left right)).eval binding =
      .ok (.truth (isLess || isEqual)) := by
  have heq : Comparison.eq.apply a b = .ok isEqual := hequal
  simp only [eval, ha, hb, bind, Except.bind, hless, heq, pure, Except.pure]
  cases isLess <;> rfl

end Expression

def ComeToAlike (left right : Expression) (binding : Binding) : Prop :=
  ∃ a b, left.eval binding = .ok a ∧ right.eval binding = .ok b ∧ a.AreAlike b

/-- What is less or equal is less or is equal. Different literals of one text are the exception: they are less
or equal and neither less nor equal. The operators turned around say the same of the operands in the other
order. -/
theorem comparisons_consistent (left right : Expression) (binding : Binding) (v : Answer) :
    ((Expression.compare .le left right).eval binding = .ok v →
      (¬ComeToAlike left right binding →
        (Expression.or (.compare .lt left right) (.compare .eq left right)).eval binding = .ok v) ∧
      (ComeToAlike left right binding → v = .truth true ∧
        (Expression.or (.compare .lt left right) (.compare .eq left right)).eval binding = .ok (.truth false))) ∧
    ((Expression.compare .ge left right).eval binding = .ok v ↔
      (Expression.compare .le right left).eval binding = .ok v) ∧
    ((Expression.compare .gt left right).eval binding = .ok v ↔
      (Expression.compare .lt right left).eval binding = .ok v) ∧
    ((Expression.compare .ne left right).eval binding = .ok v ↔
      (Expression.not (.compare .eq right left)).eval binding = .ok v) := by
  refine ⟨fun hle => ?_, Expression.eval_compare_swap Comparison.apply_ge _ _ _ _,
    Expression.eval_compare_swap Comparison.apply_gt _ _ _ _, ?_⟩
  · obtain ⟨a, b, isTrue, ha, hb, happly, rfl⟩ := (Expression.eval_compare_eq_ok_iff _ _ _ _ _).1 hle
    obtain ⟨order, horder, rfl⟩ := (map_eq_ok_iff _ _ _).1 happly
    have hless : Comparison.lt.apply a b = .ok (Comparison.lt.agrees order) :=
      congrArg (Except.map _) horder
    have halike : ComeToAlike left right binding ↔ a.AreAlike b := by
      rw [ComeToAlike, ha, hb]
      simp
    rw [halike, Comparison.agrees_le]
    refine ⟨fun hnot => Expression.eval_or_compare ha hb hless
      (Answer.equal_of_order?_of_not_areAlike horder hnot), fun h => ?_⟩
    obtain rfl := Except.ok.inj (horder.symm.trans h.order?_eq)
    exact ⟨rfl, Expression.eval_or_compare ha hb hless h.equal_eq⟩
  · rw [Expression.eval_not_eq]
    refine Expression.eval_compare_swap (fun a b => ?_) _ _ _ _
    simp only [Comparison.apply, Answer.equal_comm a b]

/-- Texts in two languages. -/
theorem comparisons_consistent_languages :
    let left : Expression := .constant (.literal "a" none (some "en"))
    let right : Expression := .constant (.literal "b" none (some "fr"))
    (Expression.compare .le left right).eval [] = .ok (.truth true) ∧
      (Expression.or (.compare .lt left right) (.compare .eq left right)).eval [] = .ok (.truth true) := by
  intro left right
  have hle : (Expression.compare .le left right).eval [] = .ok (.truth true) := by decide
  refine ⟨hle, ((comparisons_consistent left right [] _).1 hle).1 ?_⟩
  rintro ⟨a, b, ⟨⟩, ⟨⟩, -, text, ha, hb⟩
  exact absurd (ha.trans hb.symm) (by decide)

/-- A text in two languages is less or equal, and neither less nor equal. -/
theorem le_without_lt_or_eq :
    let left : Expression := .constant (.literal "a" none (some "en"))
    let right : Expression := .constant (.literal "a" none (some "fr"))
    (Expression.compare .le left right).eval [] = .ok (.truth true) ∧
      (Expression.or (.compare .lt left right) (.compare .eq left right)).eval [] = .ok (.truth false) := by
  decide

end Query

end CommandOntology
