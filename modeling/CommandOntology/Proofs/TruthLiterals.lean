import CommandOntology.Proofs.ConditionContexts
import CommandOntology.Proofs.ConsistentComparisons

set_option autoImplicit false

namespace CommandOntology.Query

def truthLiteral (b : Bool) : Term :=
  .typed (if b then "true" else "false") Xsd.boolean

def Answer.IsNumberOf (b : Bool) (a : Answer) : Prop :=
  ∃ c, Comparand.ofAnswer a = .ok c ∧ Comparand.numberOrder? (.integer b.toNat) c = some .eq

section

variable (b : Bool)

theorem Comparand.ofAnswer_truthLiteral : ofAnswer (.term (truthLiteral b)) = .ok (.truth b) := by
  cases b <;> decide

theorem Answer.truth?_truthLiteral : (Answer.term (truthLiteral b)).truth? = (Answer.truth b).truth? := by
  cases b <;> decide

theorem Answer.string?_truthLiteral : (Answer.term (truthLiteral b)).string? = (Answer.truth b).string? := by
  cases b <;> decide

theorem TextFunction.apply_truthLiteral (function : TextFunction) :
    function.apply (.term (truthLiteral b)) = function.apply (.truth b) := by
  cases function <;> cases b <;> decide

variable {b}

theorem Answer.equal_truth {a : Answer} {c : Comparand} (hc : Comparand.ofAnswer a = .ok c) :
    equal (.truth b) a = .ok (Comparand.sameAsTruth (.truth b) c) := by
  cases a <;> exact congrArg (Except.map (Comparand.sameAsTruth (.truth b))) hc

theorem Answer.equal_truthLiteral_literal (y : String) (d l : Option String) :
    equal (.term (truthLiteral b)) (.term (.literal y d l)) = (do
      let c ← Comparand.ofAnswer (.term (.literal y d l))
      return (Comparand.truth b).isEqual (truthLiteral b == .literal y d l) c) := by
  have htruth := Comparand.ofAnswer_truthLiteral b
  unfold truthLiteral Term.typed at htruth ⊢
  rw [equal_literals, htruth]
  rfl

theorem Answer.equal_truthLiteral_of_ne {a : Answer} {c : Comparand} (hc : Comparand.ofAnswer a = .ok c)
    (hother : ∀ y, c ≠ .truth y) : equal (.term (truthLiteral b)) a = .ok false := by
  match a with
  | .truth y => exact absurd (Except.ok.inj hc).symm (hother y)
  | .term (.iri _) | .term (.blank _) => rfl
  | .term (.literal y e m) =>
    have hne : (truthLiteral b == Term.literal y e m) = false := by
      refine beq_false_of_ne fun heq => hother b ?_
      rw [← heq, Comparand.ofAnswer_truthLiteral] at hc
      exact (Except.ok.inj hc).symm
    rw [equal_truthLiteral_literal, hc, hne]
    cases c <;> first | rfl | exact absurd rfl (hother _)

/-- The literal of a truth value equals what the truth value equals, numbers apart. -/
theorem Answer.equal_truthLiteral {a : Answer} (h : ¬a.IsNumberOf b) :
    equal (.term (truthLiteral b)) a = equal (.truth b) a := by
  cases hc : Comparand.ofAnswer a with
  | error e =>
    match a with
    | .truth _ | .term (.iri _) | .term (.blank _) => cases hc
    | .term (.literal y d l) =>
      have hmap : equal (.truth b) (.term (.literal y d l)) = .error e :=
        congrArg (Except.map (Comparand.sameAsTruth (.truth b))) hc
      rw [hmap, equal_truthLiteral_literal, hc]
      rfl
  | ok c =>
    by_cases htruth : ∃ y, c = .truth y
    · obtain ⟨y, rfl⟩ := htruth
      rw [equal_truth hc, equal_of_order? (Comparand.ofAnswer_truthLiteral b) hc rfl, Comparand.sameAsTruth_truth]
      rfl
    · rw [equal_truthLiteral_of_ne hc fun y hy => htruth ⟨y, hy⟩, equal_truth hc, Comparand.sameAsTruth]
      have hsame : c.asNumber = c := by
        cases c <;> first | rfl | exact absurd ⟨_, rfl⟩ htruth
      rw [hsame]
      exact congrArg Except.ok (beq_false_of_ne fun horder => h ⟨c, hc, horder⟩).symm

/-- A number that a truth value counts as equals the truth value and not its literal. -/
theorem Answer.IsNumberOf.equal_eq {a : Answer} (h : a.IsNumberOf b) :
    equal (.truth b) a = .ok true ∧ equal (.term (truthLiteral b)) a = .ok false := by
  obtain ⟨c, hc, horder⟩ := h
  have hother (y : Bool) : c ≠ .truth y := by
    rintro rfl
    cases horder
  refine ⟨?_, equal_truthLiteral_of_ne hc hother⟩
  have hsame : c.asNumber = c := by
    cases c <;> first | rfl | exact absurd rfl (hother _)
  rw [equal_truth hc, Comparand.sameAsTruth, hsame]
  exact congrArg Except.ok (beq_iff_eq.2 horder)

theorem Comparison.apply_congr {op : Comparison} {x y x' y' : Answer}
    (hequal : op = eq ∨ op = ne → Answer.equal x y = Answer.equal x' y')
    (horder : Answer.order? x y = Answer.order? x' y') : op.apply x y = op.apply x' y' := by
  cases op with
  | eq => exact hequal (.inl rfl)
  | ne => simp only [apply, hequal (.inr rfl)]
  | _ => simp only [apply, horder]

/-- Comparisons with the literal of a truth value are those with the truth value, unless it is asked whether a
number is equal. -/
theorem Comparison.apply_truthLiteral {op : Comparison} {a : Answer}
    (h : op = eq ∨ op = ne → ¬a.IsNumberOf b) :
    op.apply (.term (truthLiteral b)) a = op.apply (.truth b) a ∧
      op.apply a (.term (truthLiteral b)) = op.apply a (.truth b) := by
  have hequal (hop : op = eq ∨ op = ne) := Answer.equal_truthLiteral (h hop)
  have horder : Answer.order? (.term (truthLiteral b)) a = Answer.order? (.truth b) a := by
    unfold Answer.order?
    rw [Comparand.ofAnswer_truthLiteral]
    rfl
  refine ⟨apply_congr hequal horder, apply_congr (fun hop => ?_) ?_⟩
  · rw [Answer.equal_comm, hequal hop, Answer.equal_comm]
  · rw [Answer.order?_swap, horder, ← Answer.order?_swap]

theorem Answer.IsNumberOf.apply_eq {a : Answer} (h : a.IsNumberOf b) {op : Comparison}
    (hop : op = .eq ∨ op = .ne) : ∃ isTrue,
      (op.apply (.truth b) a = .ok isTrue ∧ op.apply (.term (truthLiteral b)) a = .ok !isTrue) ∧
        op.apply a (.truth b) = .ok isTrue ∧ op.apply a (.term (truthLiteral b)) = .ok !isTrue := by
  obtain ⟨htruth, hliteral⟩ := h.equal_eq
  obtain rfl | rfl := hop
  · exact ⟨true, ⟨htruth, hliteral⟩, (equal_comm _ _).trans htruth, (equal_comm _ _).trans hliteral⟩
  · refine ⟨false, ⟨?_, ?_⟩, ?_, ?_⟩ <;>
      simp only [Comparison.apply, equal_comm a, htruth, hliteral] <;> rfl

end

/-- An operation asks whether its operand equals a number that a truth value counts as. -/
def Frame.AsksForNumber (binding : Binding) (b : Bool) : Frame → Prop
  | compareLeft op other | compareRight op other =>
    (op = .eq ∨ op = .ne) ∧ ∃ a, other.eval binding = .ok a ∧ a.IsNumberOf b
  | _ => False

section

variable {e : Expression} {binding : Binding} {b : Bool} (he : e.eval binding = .ok (.truth b))

include he

theorem Frame.eval_fill_truthLiteral {frame : Frame} (h : ¬frame.AsksForNumber binding b) :
    (frame.fill e).eval binding = (frame.fill (.constant (truthLiteral b))).eval binding := by
  cases frame with
  | compareLeft op right =>
    simp only [fill, Expression.eval, he]
    cases hright : right.eval binding with
    | error obstacle => rfl
    | ok a =>
      have hop := Comparison.apply_truthLiteral fun hop ha => h ⟨hop, a, hright, ha⟩
      simp only [bind, Except.bind, hop.1]
  | compareRight op left =>
    simp only [fill, Expression.eval, he]
    cases hleft : left.eval binding with
    | error obstacle => rfl
    | ok a =>
      have hop := Comparison.apply_truthLiteral fun hop ha => h ⟨hop, a, hleft, ha⟩
      simp only [bind, Except.bind, hop.2]
  | _ =>
    simp only [fill, Expression.eval, he, bind, Except.bind, regexTest, Answer.truth?_truthLiteral,
      Answer.string?_truthLiteral, TextFunction.apply_truthLiteral]

theorem Frame.passes_fill_ne {frame : Frame} (h : frame.AsksForNumber binding b) :
    (frame.fill e).passes binding ≠ (frame.fill (.constant (truthLiteral b))).passes binding := by
  have hdiffer {x y : Expression} {isTrue : Bool} (hx : x.eval binding = .ok (.truth isTrue))
      (hy : y.eval binding = .ok (.truth !isTrue)) : x.passes binding ≠ y.passes binding := by
    rw [Expression.passes, Expression.passes, hx, hy]
    cases isTrue <;> decide
  have hconstant : (Expression.constant (truthLiteral b)).eval binding = .ok (.term (truthLiteral b)) := rfl
  cases frame with
  | compareLeft op right =>
    obtain ⟨hop, a, ha, hnumber⟩ := h
    obtain ⟨isTrue, ⟨htruth, hliteral⟩, -⟩ := hnumber.apply_eq hop
    exact hdiffer ((Expression.eval_compare_eq_ok_iff _ _ _ _ _).2 ⟨_, _, _, he, ha, htruth, rfl⟩)
      ((Expression.eval_compare_eq_ok_iff _ _ _ _ _).2 ⟨_, _, _, hconstant, ha, hliteral, rfl⟩)
  | compareRight op left =>
    obtain ⟨hop, a, ha, hnumber⟩ := h
    obtain ⟨isTrue, -, htruth, hliteral⟩ := hnumber.apply_eq hop
    exact hdiffer ((Expression.eval_compare_eq_ok_iff _ _ _ _ _).2 ⟨_, _, _, ha, he, htruth, rfl⟩)
      ((Expression.eval_compare_eq_ok_iff _ _ _ _ _).2 ⟨_, _, _, ha, hconstant, hliteral, rfl⟩)
  | _ => exact h.elim

/-- A part of a condition that comes to a truth value can be replaced by the literal of this value, wherever it
stands, unless it is asked whether it equals a number that the truth value counts as. -/
theorem passes_fill_truthLiteral :
    e.passes binding = (Expression.constant (truthLiteral b)).passes binding ∧
    ∀ frame : Frame, (∀ context : Context, (context.fill (frame.fill e)).passes binding =
        (context.fill (frame.fill (.constant (truthLiteral b)))).passes binding) ↔
      ¬frame.AsksForNumber binding b := by
  refine ⟨?_, fun frame => ⟨fun hall hasks => Frame.passes_fill_ne he hasks (hall []), fun h context =>
    context.passes_fill_congr (Frame.eval_fill_truthLiteral he h)⟩⟩
  have htruth : (Expression.constant (truthLiteral b)).eval binding >>= Answer.truth? =
      e.eval binding >>= Answer.truth? := by
    rw [he]
    exact Answer.truth?_truthLiteral b
  rw [Expression.passes, Expression.passes, htruth]

end

/-- The text of a comparison, which is that of a literal, and the comparison beside the number one, where the
literal is something else. -/
theorem passes_fill_truthLiteral_less :
    let e : Expression := .compare .lt (.constant (.typed "1" Xsd.integer)) (.constant (.typed "2" Xsd.integer))
    let text (e : Expression) : Expression := .compare .ne (.apply .text e) (.constant (.plain "yes"))
    let number (e : Expression) : Expression := .compare .eq (.constant (.typed "1.0" Xsd.decimal)) e
    e.eval [] = .ok (.truth true) ∧
      (text e).passes [] = (text (.constant (truthLiteral true))).passes [] ∧
        ¬∀ context : Context, (context.fill (number e)).passes [] =
          (context.fill (number (.constant (truthLiteral true)))).passes [] := by
  intro e text number
  have he : e.eval [] = .ok (.truth true) := by decide
  have hframe := (passes_fill_truthLiteral he).2
  refine ⟨he, (hframe (.apply .text)).2 id [.compareLeft .ne (.constant (.plain "yes"))], fun hall => ?_⟩
  refine (hframe (.compareRight .eq (.constant (.typed "1.0" Xsd.decimal)))).1 hall ⟨.inl rfl, _, rfl, ?_⟩
  exact ⟨.real (.ofInt 1), by decide +kernel, by decide +kernel⟩

/-- A comparison that is true equals the number one, and the literal of what is true does not. -/
theorem passes_truth_eq_one :
    let e : Expression := .compare .lt (.constant (.typed "1" Xsd.integer)) (.constant (.typed "2" Xsd.integer))
    let one : Expression := .constant (.typed "1" Xsd.integer)
    e.eval [] = .ok (.truth true) ∧ (Expression.compare .eq e one).passes [] = .ok true ∧
      (Expression.compare .eq (.constant (truthLiteral true)) one).passes [] = .ok false := by
  decide

end CommandOntology.Query
