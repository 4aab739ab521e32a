import CommandOntology.Proofs.ComposedFilters
import CommandOntology.Proofs.ConditionContexts

set_option autoImplicit false

namespace CommandOntology.Query

def AreFalseAndNone (x y : Except Obstacle Bool) : Prop :=
  (x = .ok false ∧ y = .error .noValue) ∨ (x = .error .noValue ∧ y = .ok false)

section

variable {x y : Except Obstacle Bool} (hx : ∀ e, x ≠ .error (.unusablePattern e))
  (hy : ∀ e, y ≠ .error (.unusablePattern e))

include hx hy

theorem disjunction_comm : disjunction x y = disjunction y x := by
  match x, y with
  | .ok true, .ok true | .ok true, .ok false | .ok true, .error .noValue => rfl
  | .ok false, .ok true | .ok false, .ok false | .ok false, .error .noValue => rfl
  | .error .noValue, .ok true | .error .noValue, .ok false | .error .noValue, .error .noValue => rfl
  | .error (.unusablePattern e), _ => exact absurd rfl (hx e)
  | _, .error (.unusablePattern e) => exact absurd rfl (hy e)

theorem conjunction_comm (h : ¬AreFalseAndNone x y) : conjunction x y = conjunction y x := by
  match x, y with
  | .ok true, .ok true | .ok true, .ok false | .ok true, .error .noValue => rfl
  | .ok false, .ok true | .ok false, .ok false => rfl
  | .error .noValue, .ok true | .error .noValue, .error .noValue => rfl
  | .ok false, .error .noValue => exact absurd (.inl ⟨rfl, rfl⟩) h
  | .error .noValue, .ok false => exact absurd (.inr ⟨rfl, rfl⟩) h
  | .error (.unusablePattern e), _ => exact absurd rfl (hx e)
  | _, .error (.unusablePattern e) => exact absurd rfl (hy e)

end

namespace Expression

def truth? (e : Expression) (binding : Binding) : Except Obstacle Bool :=
  e.eval binding >>= Answer.truth?

variable {e left right : Expression} {binding : Binding}

theorem eval_and (left right : Expression) (binding : Binding) : (Expression.and left right).eval binding =
    (conjunction (left.truth? binding) (right.truth? binding)).map .truth :=
  rfl

theorem eval_or (left right : Expression) (binding : Binding) : (Expression.or left right).eval binding =
    (disjunction (left.truth? binding) (right.truth? binding)).map .truth :=
  rfl

theorem truth?_and (left right : Expression) (binding : Binding) : (Expression.and left right).truth? binding =
    conjunction (left.truth? binding) (right.truth? binding) :=
  truth_of_map _

theorem truth?_not (e : Expression) (binding : Binding) :
    (Expression.not e).truth? binding = (e.truth? binding).map (!·) := by
  simp only [truth?, eval]
  cases e.eval binding with
  | error obstacle => rfl
  | ok answer =>
    simp only [bind, Except.bind]
    cases answer.truth? <;> rfl

theorem IsUsable.truth?_ne (h : e.IsUsable binding) (error : Regex.PatternError) :
    e.truth? binding ≠ .error (.unusablePattern error) := by
  obtain ⟨holds, h⟩ := h
  intro htruth
  rw [truth?] at htruth
  rw [passes, htruth] at h
  cases h

theorem exists_of_not_isUsable (h : ¬e.IsUsable binding) :
    ∃ error, e.truth? binding = .error (.unusablePattern error) := by
  unfold IsUsable passes at h
  unfold truth?
  split at h
  next b hb => exact absurd ⟨b, rfl⟩ h
  next hb => exact absurd ⟨false, rfl⟩ h
  next error herror => exact ⟨error, herror⟩

theorem eval_and_of_unusable {error : Regex.PatternError}
    (h : left.truth? binding = .error (.unusablePattern error)) :
    (Expression.and left right).eval binding = .error (.unusablePattern error) := by
  rw [eval_and, h]
  rfl

theorem eval_or_of_unusable {error : Regex.PatternError}
    (h : left.truth? binding = .error (.unusablePattern error)) :
    (Expression.or left right).eval binding = .error (.unusablePattern error) := by
  rw [eval_or, h]
  rfl

theorem passes_and_swap (hleft : left.IsUsable binding) (hright : right.IsUsable binding) :
    (Expression.and left right).passes binding = (Expression.and right left).passes binding := by
  rw [passes_and, passes_and, hleft.passes_eq, hright.passes_eq]
  cases left.keeps binding <;> cases right.keeps binding <;> rfl

/-- Before a condition without value, one that is false makes the conjunction false and its negation true;
behind it, it leaves both without value. -/
theorem passes_not_and (hfalse : left.truth? binding = .ok false)
    (hnone : right.truth? binding = .error .noValue) :
    (Expression.not (.and left right)).passes binding = .ok true ∧
      (Expression.not (.and right left)).passes binding = .ok false := by
  have hbefore : (Expression.not (.and left right)).truth? binding = .ok true := by
    rw [truth?_not, truth?_and, hfalse, hnone]
    rfl
  have hbehind : (Expression.not (.and right left)).truth? binding = .error .noValue := by
    rw [truth?_not, truth?_and, hfalse, hnone]
    rfl
  rw [truth?] at hbefore hbehind
  rw [passes, passes, hbefore, hbehind]
  exact ⟨rfl, rfl⟩

end Expression

section

variable {a b : Expression} {binding : Binding}

theorem Frame.passes_fill_congr {frame : Frame} (hframe : frame.isConnective = true)
    (h : a.passes binding = b.passes binding) :
    (frame.fill a).passes binding = (frame.fill b).passes binding := by
  cases frame with
  | andLeft right => rw [fill, fill, Expression.passes_and, Expression.passes_and, h]
  | andRight left => rw [fill, fill, Expression.passes_and, Expression.passes_and, h]
  | orLeft right => rw [fill, fill, Expression.passes_or, Expression.passes_or, h]
  | orRight left => rw [fill, fill, Expression.passes_or, Expression.passes_or, h]
  | _ => cases hframe

/-- Conjunctions and disjunctions do not tell false from no value. -/
theorem Context.passes_fill_of_passes {context : Context} (hcontext : context.isConnective = true)
    (h : a.passes binding = b.passes binding) :
    (context.fill a).passes binding = (context.fill b).passes binding := by
  induction context generalizing a b with
  | nil => exact h
  | cons frame outside ih =>
    rw [isConnective, List.all_cons, Bool.and_eq_true] at hcontext
    exact ih hcontext.2 (Frame.passes_fill_congr hcontext.1 h)

end

def PassAlike (a b : Expression) (binding : Binding) : Prop :=
  a.IsUsable binding → b.IsUsable binding → a.passes binding = b.passes binding

/-- Where a part cannot be used, the condition does not depend on it or cannot be used. -/
theorem passAlike_of_unusable (context : Context) {a b : Expression} {binding : Binding}
    {error : Regex.PatternError} (h : a.eval binding = .error (.unusablePattern error)) :
    PassAlike (context.fill a) (context.fill b) binding := by
  rintro ⟨holds, hpasses⟩ -
  obtain hsame | hunusable := context.eval_fill_of_unusable h
  · rw [Expression.passes, Expression.passes, hsame b]
  · rw [Expression.passes, hunusable] at hpasses
    cases hpasses

theorem PassAlike.symm {a b : Expression} {binding : Binding} (h : PassAlike a b binding) :
    PassAlike b a binding :=
  fun hb ha => (h ha hb).symm

section

variable {left right : Expression} {binding : Binding}

/-- Conditions on two sides pass alike if they do wherever both sides can be used, and if the first side is
looked at first in one of them and the second side in the other one. -/
theorem passAlike_of_usable (context : Context) {a b : Expression}
    (h : left.IsUsable binding → right.IsUsable binding → PassAlike (context.fill a) (context.fill b) binding)
    (ha : ∀ error, left.truth? binding = .error (.unusablePattern error) →
      a.eval binding = .error (.unusablePattern error))
    (hb : ∀ error, right.truth? binding = .error (.unusablePattern error) →
      b.eval binding = .error (.unusablePattern error)) :
    PassAlike (context.fill a) (context.fill b) binding := by
  by_cases hleft : left.IsUsable binding
  · by_cases hright : right.IsUsable binding
    · exact h hleft hright
    · obtain ⟨error, herror⟩ := Expression.exists_of_not_isUsable hright
      exact (passAlike_of_unusable context (hb error herror)).symm
  · obtain ⟨error, herror⟩ := Expression.exists_of_not_isUsable hleft
    exact passAlike_of_unusable context (ha error herror)

theorem passAlike_fill_or_comm (context : Context) :
    PassAlike (context.fill (.or left right)) (context.fill (.or right left)) binding := by
  refine passAlike_of_usable context (fun hleft hright _ _ => context.passes_fill_congr ?_)
    (fun _ => Expression.eval_or_of_unusable) (fun _ => Expression.eval_or_of_unusable)
  rw [Expression.eval_or, Expression.eval_or, disjunction_comm hleft.truth?_ne hright.truth?_ne]

theorem passAlike_fill_and_comm_of_isConnective {context : Context} (hcontext : context.isConnective = true) :
    PassAlike (context.fill (.and left right)) (context.fill (.and right left)) binding :=
  passAlike_of_usable context (fun hleft hright _ _ =>
      Context.passes_fill_of_passes hcontext (Expression.passes_and_swap hleft hright))
    (fun _ => Expression.eval_and_of_unusable) (fun _ => Expression.eval_and_of_unusable)

theorem passAlike_fill_and_comm (context : Context)
    (h : ¬AreFalseAndNone (left.truth? binding) (right.truth? binding)) :
    PassAlike (context.fill (.and left right)) (context.fill (.and right left)) binding := by
  refine passAlike_of_usable context (fun hleft hright _ _ => context.passes_fill_congr ?_)
    (fun _ => Expression.eval_and_of_unusable) (fun _ => Expression.eval_and_of_unusable)
  rw [Expression.eval_and, Expression.eval_and, conjunction_comm hleft.truth?_ne hright.truth?_ne h]

theorem not_passAlike_not_and (h : AreFalseAndNone (left.truth? binding) (right.truth? binding)) :
    ¬PassAlike (.not (.and left right)) (.not (.and right left)) binding := by
  have hnot {x y : Expression} (hfalse : x.truth? binding = .ok false)
      (hnone : y.truth? binding = .error .noValue) :
      ¬PassAlike (.not (.and x y)) (.not (.and y x)) binding := by
    obtain ⟨hbefore, hbehind⟩ := Expression.passes_not_and hfalse hnone
    intro halike
    cases hbefore.symm.trans ((halike ⟨_, hbefore⟩ ⟨_, hbehind⟩).trans hbehind)
  obtain ⟨hfalse, hnone⟩ | ⟨hnone, hfalse⟩ := h
  · exact hnot hfalse hnone
  · exact fun halike => hnot hfalse hnone halike.symm

end

/-- The order of the sides of a disjunction does not matter anywhere. That of the sides of a conjunction does not
matter as far as there are only conjunctions and disjunctions around it; elsewhere it does not matter just if it
is not so that one side is false and the other one has no value. -/
theorem passAlike_fill_swapped (left right : Expression) (binding : Binding) :
    (∀ context : Context,
      PassAlike (context.fill (.or left right)) (context.fill (.or right left)) binding) ∧
    (∀ context : Context, context.isConnective = true →
      PassAlike (context.fill (.and left right)) (context.fill (.and right left)) binding) ∧
    ((∀ context : Context,
        PassAlike (context.fill (.and left right)) (context.fill (.and right left)) binding) ↔
      ¬AreFalseAndNone (left.truth? binding) (right.truth? binding)) := by
  refine ⟨passAlike_fill_or_comm, fun _ => passAlike_fill_and_comm_of_isConnective, ?_, fun h context =>
    passAlike_fill_and_comm context h⟩
  exact fun hall h => not_passAlike_not_and h (hall [.not])

/-- A comparison without value and one that is false, the order of which shows in a conjunction and not in a
disjunction. -/
theorem passAlike_fill_swapped_resource :
    let binding : Binding := [("x", .iri "a:o")]
    let left : Expression := .compare .lt (.var "x") (.constant (.typed "1" Xsd.integer))
    let right : Expression := .compare .eq (.constant (.typed "1" Xsd.integer)) (.constant (.typed "2" Xsd.integer))
    (Expression.not (.or left right)).passes binding = .ok false ∧
      (Expression.not (.or right left)).passes binding = .ok false ∧
        ¬∀ context : Context,
          PassAlike (context.fill (.and left right)) (context.fill (.and right left)) binding := by
  intro binding left right
  obtain ⟨hor, -, hand⟩ := passAlike_fill_swapped left right binding
  have hfirst : (Expression.not (.or left right)).passes binding = .ok false := by decide
  have husable : (Expression.not (.or right left)).IsUsable binding := ⟨false, by decide⟩
  refine ⟨hfirst, (hor [.not] ⟨_, hfirst⟩ husable).symm.trans hfirst, fun hall => hand.1 hall ?_⟩
  exact .inr ⟨by decide, by decide⟩

/-- A resource is not less than a number, so that the comparison has no value. The negated conjunction with
what is false drops the solution, and keeps it in the other order. -/
theorem passes_not_and_resource :
    let binding : Binding := [("x", .iri "a:o")]
    let left : Expression := .compare .lt (.var "x") (.constant (.typed "1" Xsd.integer))
    let right : Expression := .compare .eq (.constant (.typed "1" Xsd.integer)) (.constant (.typed "2" Xsd.integer))
    (Expression.not (.and left right)).passes binding = .ok false ∧
      (Expression.not (.and right left)).passes binding = .ok true := by
  decide

end CommandOntology.Query
