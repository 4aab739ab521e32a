import CommandOntology.Query.Evaluation

set_option autoImplicit false

/-!
# Conditions inside conditions

A condition with one of its parts left open is a sequence of operations, each with all its operands but one,
from the open place outwards. What a condition comes to depends on what its parts come to and on nothing else
about them.
-/

namespace CommandOntology.Query

/-- An operation with all its operands but one. -/
inductive Frame
  | not
  | compareLeft (operator : Comparison) (right : Expression)
  | compareRight (operator : Comparison) (left : Expression)
  | andLeft (right : Expression)
  | andRight (left : Expression)
  | orLeft (right : Expression)
  | orRight (left : Expression)
  | apply (function : TextFunction)
  | testText (test : TextTest) (part : Expression)
  | testPart (test : TextTest) (text : Expression)
  | regexText (pattern : Expression)
  | regexPattern (text : Expression)
  | flaggedText (pattern flags : Expression)
  | flaggedPattern (text flags : Expression)
  | flaggedFlags (text pattern : Expression)
  deriving DecidableEq, Repr

namespace Frame

def fill (e : Expression) : Frame → Expression
  | not => .not e
  | compareLeft op right => .compare op e right
  | compareRight op left => .compare op left e
  | andLeft right => .and e right
  | andRight left => .and left e
  | orLeft right => .or e right
  | orRight left => .or left e
  | apply function => .apply function e
  | testText test part => .test test e part
  | testPart test text => .test test text e
  | regexText pattern => .regex e pattern
  | regexPattern text => .regex text e
  | flaggedText pattern flags => .regexFlags e pattern flags
  | flaggedPattern text flags => .regexFlags text e flags
  | flaggedFlags text pattern => .regexFlags text pattern e

def isConnective : Frame → Bool
  | andLeft _ | andRight _ | orLeft _ | orRight _ => true
  | _ => false

end Frame

abbrev Context := List Frame

namespace Context

def fill (e : Expression) : Context → Expression
  | [] => e
  | frame :: outside => fill (frame.fill e) outside

def isConnective (context : Context) : Bool :=
  context.all Frame.isConnective

end Context

variable {binding : Binding} {a b : Expression}

theorem Frame.eval_fill_congr (frame : Frame) (h : a.eval binding = b.eval binding) :
    (frame.fill a).eval binding = (frame.fill b).eval binding := by
  cases frame <;> simp only [Frame.fill, Expression.eval, h]

theorem Context.eval_fill_congr (context : Context) (h : a.eval binding = b.eval binding) :
    (context.fill a).eval binding = (context.fill b).eval binding := by
  induction context generalizing a b with
  | nil => exact h
  | cons frame outside ih => exact ih (frame.eval_fill_congr h)

theorem Context.passes_fill_congr (context : Context) (h : a.eval binding = b.eval binding) :
    (context.fill a).passes binding = (context.fill b).passes binding := by
  rw [Expression.passes, Expression.passes, context.eval_fill_congr h]

/-- An operand that computes a pattern that cannot be used is not looked at, or the operation comes to nothing
else. -/
theorem Frame.eval_fill_of_unusable (frame : Frame) {error : Regex.PatternError}
    (h : a.eval binding = .error (.unusablePattern error)) :
    (∀ x : Expression, (frame.fill x).eval binding = (frame.fill a).eval binding) ∨
      (frame.fill a).eval binding = .error (.unusablePattern error) := by
  cases frame with
  | not | compareLeft | andLeft | orLeft | apply | testText | regexText | flaggedText =>
    right
    simp only [fill, Expression.eval, h]
    rfl
  | andRight left =>
    simp only [fill, Expression.eval, h]
    rcases left.eval binding >>= Answer.truth? with _ | (_ | _)
    · exact .inl fun _ => rfl
    · exact .inl fun _ => rfl
    · exact .inr rfl
  | orRight left =>
    simp only [fill, Expression.eval, h]
    rcases left.eval binding >>= Answer.truth? with (_ | _) | (_ | _)
    · exact .inr rfl
    · exact .inl fun _ => rfl
    · exact .inr rfl
    · exact .inl fun _ => rfl
  | compareRight _ first | testPart _ first | regexPattern first | flaggedPattern first =>
    simp only [fill, Expression.eval, h]
    cases first.eval binding with
    | error obstacle => exact .inl fun _ => rfl
    | ok answer => exact .inr rfl
  | flaggedFlags first second =>
    simp only [fill, Expression.eval, h]
    cases first.eval binding with
    | error obstacle => exact .inl fun _ => rfl
    | ok answer =>
      cases second.eval binding with
      | error obstacle => exact .inl fun _ => rfl
      | ok answer => exact .inr rfl

/-- A part that computes a pattern that cannot be used is not looked at, or the condition comes to nothing
else. -/
theorem Context.eval_fill_of_unusable (context : Context) {error : Regex.PatternError}
    (h : a.eval binding = .error (.unusablePattern error)) :
    (∀ x : Expression, (context.fill x).eval binding = (context.fill a).eval binding) ∨
      (context.fill a).eval binding = .error (.unusablePattern error) := by
  induction context generalizing a with
  | nil => exact .inr h
  | cons frame outside ih =>
    obtain hframe | hframe := frame.eval_fill_of_unusable h
    · exact .inl fun x => Context.eval_fill_congr outside (hframe x)
    · obtain houtside | houtside := ih hframe
      · exact .inl fun x => houtside (frame.fill x)
      · exact .inr houtside

end CommandOntology.Query
