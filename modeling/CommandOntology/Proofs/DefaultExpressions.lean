import CommandOntology.Generation.Module
import CommandOntology.Proofs.Outcomes
import CommandOntology.Proofs.PlannedCommands
import CommandOntology.Proofs.QuotedLiterals
import CommandOntology.Proofs.WrittenNumbers

set_option autoImplicit false

namespace CommandOntology.Generation

inductive Expression
  | integer (n : Nat)
  | float (x : Binary64)
  | text (s : String)
  | name (ident : String)
  | negated (operand : Expression)
  | call (function : String) (argument : Expression)
  deriving DecidableEq, Repr

namespace Expression

/-- A number without a sign. An integer does not begin with a zero that says nothing. -/
def number? (source : List Char) : Option Expression :=
  if source.all Text.isAsciiDigit then
    if 1 < source.length ∧ source.head? = some '0' then none
    else (Reading.integer (String.ofList source)).toOption.map fun n => .integer n.natAbs
  else if source.all fun c => Text.isAsciiDigit c || ['.', 'e', '+', '-'].contains c then
    (Reading.float? source).map .float
  else none

def text? (quote : Char) (closing source : List Char) : Option Expression :=
  match Text.readQuoted? quote 0 source with
  | some (s, rest) => if rest = closing then some (.text (String.ofList s)) else none
  | none => none

def argument? : List Char → Option Expression
  | [] => none
  | quote :: rest => if quote = '\'' ∨ quote = '"' then text? quote [')'] rest else none

def name? (source : List Char) : Option Expression :=
  let ident := source.takeWhile (· ≠ '(')
  if Text.isIdentifier ident then
    match source.dropWhile (· ≠ '(') with
    | [] => some (.name (String.ofList ident))
    | _ :: rest => (argument? rest).map (.call (String.ofList ident))
  else none

def operand? : List Char → Option Expression
  | [] => none
  | c :: rest =>
    if c = '\'' ∨ c = '"' then text? c [] rest
    else if Text.isAsciiDigit c then number? (c :: rest)
    else name? (c :: rest)

def read? (source : String) : Option Expression :=
  match source.toList with
  | '-' :: rest => (operand? rest).map .negated
  | chars => operand? chars

def names : Expression → List String
  | name ident => [ident]
  | negated operand => operand.names
  | call function argument => function :: argument.names
  | _ => []

def oppositeFloat : Binary64 → Binary64
  | .nan => .nan
  | .infinite negative => .infinite !negative
  | .finite negative mantissa exponent => .finite (!negative) mantissa exponent

/-- The value of an expression. Of the names, just those of the truth values and of the class of paths have
a meaning. -/
def value? : Expression → Option DefaultValue
  | integer n => some (.integer n)
  | float x => some (.float x)
  | text s => some (.text s)
  | name "True" => some (.boolean true)
  | name "False" => some (.boolean false)
  | name _ => none
  | negated operand =>
    match operand.value? with
    | some (.integer n) => some (.integer (-n))
    | some (.float x) => some (.float (oppositeFloat x))
    | _ => none
  | call "Path" argument =>
    match argument.value? with
    | some (.text s) => some (.path s)
    | _ => none
  | call _ _ => none

end Expression

namespace DefaultValue

def magnitude : Binary64 → Expression
  | .nan => .name "nan"
  | .infinite _ => .name "inf"
  | .finite _ mantissa exponent => .float (.finite false mantissa exponent)

def parsed : DefaultValue → Expression
  | text s => .text s
  | integer n => if n < 0 then .negated (.integer n.natAbs) else .integer n.natAbs
  | float x => if x.isNegative then .negated (magnitude x) else magnitude x
  | boolean b => .name (if b then "True" else "False")
  | path s => .call "Path" (.text s)

theorem parsed_integer (n : Int) :
    parsed (integer n) = if n < 0 then .negated (.integer n.natAbs) else .integer n.natAbs :=
  rfl

def IsFinite : DefaultValue → Prop
  | float (.finite ..) => True
  | float _ => False
  | _ => True

/-- A default that can be written: an integer of not too many digits, or a number of the format. -/
def IsWritable : DefaultValue → Prop
  | integer n => (integerDigits n).length ≤ integerDigitLimit
  | float x => x.IsOfFormat
  | _ => True

theorem isWritable_of_read? {type : ArgumentType} {raw : String} {v : DefaultValue}
    (h : read? type raw = some v) : v.IsWritable := by
  unfold read? at h
  cases type with
  | text =>
    cases h
    trivial
  | integer =>
    dsimp only at h
    cases hread : Reading.integer raw with
    | error e =>
      rw [hread] at h
      cases h
    | ok n =>
      rw [hread] at h
      cases h
      exact (Reading.integer_toString_eq_ok_iff n).1 (Reading.integer_toString_of_integer raw n hread)
  | float =>
    dsimp only at h
    cases hread : Reading.float raw with
    | error e =>
      rw [hread] at h
      cases h
    | ok x =>
      rw [hread] at h
      cases h
      exact Reading.isOfFormat_of_float hread
  | boolean =>
    obtain ⟨b, -, rfl⟩ := Option.map_eq_some_iff.1 h
    trivial
  | path =>
    cases h
    trivial

end DefaultValue

namespace Expression

theorem text?_quotedChars (text closing : List Char) : ∃ quote body, Text.quotedChars text = quote :: body ∧
    Text.IsQuote quote ∧ text? quote closing (body ++ closing) = some (.text (String.ofList text)) := by
  obtain ⟨quote, body, hbody, hquote, hread⟩ := Text.readQuoted?_quotedChars text closing
  exact ⟨quote, body, hbody, hquote, by simp [text?, hread]⟩

theorem read?_quoted (s : String) : read? (Text.quoted s) = some (.text s) := by
  obtain ⟨quote, body, hbody, hquote, hread⟩ := text?_quotedChars s.toList []
  rw [List.append_nil, String.ofList_toList] at hread
  have hsign : quote ≠ '-' := by
    obtain rfl | rfl := hquote <;> decide
  have hoperand : operand? (quote :: body) = some (.text s) := (if_pos hquote).trans hread
  rw [read?, Text.quoted, String.toList_ofList, hbody]
  split
  next heq => exact absurd (List.cons.inj heq).1 hsign
  next => exact hoperand

theorem read?_path (s : String) : read? ("Path(" ++ Text.quoted s ++ ")") = some (.call "Path" (.text s)) := by
  obtain ⟨quote, body, hbody, hquote, hread⟩ := text?_quotedChars s.toList [')']
  rw [String.ofList_toList] at hread
  have hchars : ("Path(" ++ Text.quoted s ++ ")").toList =
      'P' :: 'a' :: 't' :: 'h' :: '(' :: quote :: (body ++ [')']) := by
    simp [Text.quoted, hbody]
  have hargument : argument? (quote :: (body ++ [')'])) = some (.text s) := (if_pos hquote).trans hread
  rw [read?, hchars]
  have hident : Text.isIdentifier ['P', 'a', 't', 'h'] = true := by decide
  simp [operand?, name?, hident, hargument, Text.isAsciiDigit]

theorem head?_toDigits_ne (n : Nat) (h : 0 < n) : (Nat.toDigits 10 n).head? ≠ some '0' := by
  induction n using Nat.strong_induction_on with
  | _ n ih =>
    obtain hsmall | hlarge := Nat.lt_or_ge n 10
    · have hall : ∀ k < 10, 0 < k → (Nat.toDigits 10 k).head? ≠ some '0' := by decide
      exact hall n hsmall h
    · rw [Nat.toDigits_of_base_le (by decide) hlarge, List.head?_append_of_ne_nil _ Nat.toDigits_ne_nil]
      exact ih (n / 10) (by omega) (by omega)

theorem number?_integerDigits {n : Int} (h : (integerDigits n).length ≤ integerDigitLimit) :
    number? (integerDigits n) = some (.integer n.natAbs) := by
  have hdigits := isAsciiDigit_of_mem_integerDigits n
  have hzero : ¬(1 < (integerDigits n).length ∧ (integerDigits n).head? = some '0') := by
    rintro ⟨hlength, hhead⟩
    obtain hnone | hsome := n.natAbs.eq_zero_or_pos
    · rw [integerDigits, hnone] at hlength
      exact absurd hlength (by decide)
    · exact head?_toDigits_ne _ hsome hhead
  rw [number?, if_pos (List.all_eq_true.2 hdigits), if_neg hzero,
    Reading.integer_of_digits hdigits (integerDigits_ne_nil n), if_neg (Nat.not_lt.2 h),
    Reading.number_integerDigits]
  rfl

theorem operand?_of_digit {c : Char} (rest : List Char) (h : Text.isAsciiDigit c = true) :
    operand? (c :: rest) = number? (c :: rest) := by
  have hquote : ¬(c = '\'' ∨ c = '"') := by
    rintro (rfl | rfl) <;> exact absurd h (by decide)
  exact (if_neg hquote).trans (if_pos h)

theorem read?_of_digit {source : String} {c : Char} {rest : List Char} (hsource : source.toList = c :: rest)
    (h : Text.isAsciiDigit c = true) : read? source = number? (c :: rest) := by
  rw [read?, hsource]
  split
  next heq => exact absurd h (by rw [(List.cons.inj heq).1]; decide)
  next => exact operand?_of_digit rest h

theorem read?_of_minus {source : String} {rest : List Char} (hsource : source.toList = '-' :: rest) :
    read? source = (operand? rest).map .negated := by
  rw [read?, hsource]
  rfl

theorem read?_integer {n : Int} (h : (integerDigits n).length ≤ integerDigitLimit) :
    read? (toString n) = some (DefaultValue.parsed (.integer n)) := by
  have hnumber := number?_integerDigits h
  have hchars := toList_toString_int n
  have hdigits := isAsciiDigit_of_mem_integerDigits n
  obtain ⟨c, rest, hfirst⟩ := List.exists_cons_of_ne_nil (integerDigits_ne_nil n)
  rw [hfirst] at hnumber hchars hdigits
  have hc := hdigits c (.head _)
  rw [DefaultValue.parsed_integer]
  split_ifs at hchars ⊢
  · rw [read?_of_minus hchars, operand?_of_digit rest hc, hnumber, Option.map_some]
  · rw [read?_of_digit hchars hc, hnumber]

theorem number?_magnitudeChars {mantissa : Nat} {exponent : Int}
    (h : Binary64.FitsFormat mantissa exponent) :
    number? (Binary64.magnitudeChars mantissa exponent) = some (.float (.finite false mantissa exponent)) := by
  obtain ⟨htext, -⟩ := Binary64.magnitudeChars_spec mantissa exponent
  obtain ⟨c, hc, hmark⟩ := htext.isMarked
  have hread : Reading.float? (Binary64.magnitudeChars mantissa exponent) =
      some (.finite false mantissa exponent) := Binary64.float?_chars (x := .finite false mantissa exponent) h
  have hsome : ¬(Binary64.magnitudeChars mantissa exponent).all Text.isAsciiDigit = true := by
    rw [List.all_eq_true]
    intro hall
    have hdigit := hall c hc
    obtain rfl | rfl := hmark <;> exact absurd hdigit (by decide)
  have hmarks : ((Binary64.magnitudeChars mantissa exponent).all fun c =>
      Text.isAsciiDigit c || ['.', 'e', '+', '-'].contains c) = true := by
    refine List.all_eq_true.2 fun c hc => ?_
    rw [Bool.or_eq_true, List.contains_iff_mem]
    exact htext.chars c hc
  rw [number?, if_neg hsome, if_pos hmarks, hread, Option.map_some]

theorem read?_words : ∀ v ∈ [DefaultValue.boolean true, .boolean false, .float .nan, .float (.infinite true),
    .float (.infinite false)], read? v.expression = some v.parsed := by
  decide

theorem read?_boolean (b : Bool) :
    read? (DefaultValue.boolean b).expression = some (DefaultValue.boolean b).parsed :=
  read?_words _ (by cases b <;> simp)

theorem read?_float {x : Binary64} (h : x.IsOfFormat) :
    read? x.text = some (DefaultValue.parsed (.float x)) := by
  cases x with
  | nan => exact read?_words (.float .nan) (by simp)
  | infinite negative => exact read?_words (.float (.infinite negative)) (by cases negative <;> simp)
  | finite negative mantissa exponent =>
    have hnumber := number?_magnitudeChars h
    obtain ⟨c, rest, hfirst, hc⟩ := (Binary64.magnitudeChars_spec mantissa exponent).1.starts
    have hchars : (Binary64.text (.finite negative mantissa exponent)).toList =
        (if negative then ['-'] else []) ++ Binary64.magnitudeChars mantissa exponent := by
      rw [Binary64.text, String.toList_ofList, Binary64.chars_finite]
    rw [hfirst] at hnumber hchars
    cases negative with
    | true =>
      rw [if_pos rfl, List.singleton_append] at hchars
      rw [read?_of_minus hchars, operand?_of_digit rest hc, hnumber]
      rfl
    | false =>
      rw [if_neg Bool.false_ne_true, List.nil_append] at hchars
      rw [read?_of_digit hchars hc, hnumber]
      rfl

/-- Every default that can be written is read as its expression. -/
theorem read?_expression {v : DefaultValue} (h : v.IsWritable) : read? v.expression = some v.parsed := by
  cases v with
  | text s => exact read?_quoted s
  | integer n => exact read?_integer h
  | float x => exact read?_float h
  | boolean b => exact read?_boolean b
  | path s => exact read?_path s

theorem value?_parsed {v : DefaultValue} (h : v.IsFinite) : v.parsed.value? = some v := by
  cases v with
  | text s => rfl
  | integer n =>
    rw [DefaultValue.parsed_integer]
    split_ifs with hn
    · have hvalue : -(n.natAbs : Int) = n := by omega
      exact congrArg (fun n => some (DefaultValue.integer n)) hvalue
    · have hvalue : (n.natAbs : Int) = n := by omega
      rw [value?, hvalue]
  | float x =>
    cases x with
    | nan => cases h
    | infinite negative => cases h
    | finite negative mantissa exponent => cases negative <;> rfl
  | boolean b => cases b <;> rfl
  | path s => rfl

/-- A default that is not finite has no value, and mentions a name that has no meaning. -/
theorem value?_parsed_eq_none {v : DefaultValue} (h : ¬v.IsFinite) : v.parsed.value? = none ∧
    (v.parsed.names = ["inf"] ∨ v.parsed.names = ["nan"]) := by
  cases v with
  | float x =>
    cases x with
    | nan => exact ⟨rfl, .inr rfl⟩
    | infinite negative => cases negative <;> exact ⟨rfl, .inl rfl⟩
    | finite negative mantissa exponent => exact absurd trivial h
  | _ => exact absurd trivial h

/-- Finite defaults mention constants, and the class of paths if they are paths. -/
theorem names_parsed {type : ArgumentType} {raw : String} {v : DefaultValue}
    (h : DefaultValue.read? type raw = some v) (hfinite : v.IsFinite) :
    ∀ name ∈ v.parsed.names, name ∈ ["True", "False"] ∨ name = "Path" ∧ type = .path := by
  unfold DefaultValue.read? at h
  cases type with
  | text =>
    cases h
    simp [DefaultValue.parsed, names]
  | integer =>
    obtain ⟨n, -, rfl⟩ := Option.map_eq_some_iff.1 h
    rw [DefaultValue.parsed_integer]
    split_ifs <;> simp [names]
  | float =>
    obtain ⟨x, -, rfl⟩ := Option.map_eq_some_iff.1 h
    cases x with
    | nan => cases hfinite
    | infinite negative => cases hfinite
    | finite negative mantissa exponent =>
      cases negative <;> simp [DefaultValue.parsed, DefaultValue.magnitude, Binary64.isNegative, names]
  | boolean =>
    obtain ⟨b, -, rfl⟩ := Option.map_eq_some_iff.1 h
    cases b <;> simp [DefaultValue.parsed, names]
  | path =>
    cases h
    simp [DefaultValue.parsed, names]

end Expression

def Parameter.HasFiniteDefault (p : Parameter) : Prop :=
  ∀ v, p.presence = .defaulted v → v.IsFinite

theorem presence_ok {entity : String} {type : ArgumentType} {a : Argument} {v : DefaultValue}
    (h : presence entity type a = .ok (.defaulted v)) :
    (∃ raw, DefaultValue.read? type raw = some v) ∨ v = .boolean false := by
  unfold presence at h
  cases hrequired : a.required with
  | true =>
    rw [hrequired, if_pos rfl] at h
    cases h
  | false =>
    rw [hrequired, if_neg Bool.false_ne_true] at h
    split at h
    next raw _ =>
      split at h
      next value hread =>
        cases h
        exact .inl ⟨raw, hread⟩
      next => cases h
    next =>
      split_ifs at h
      · cases h
        exact .inr rfl
      · cases h

/-- The defaults of parameters are read from those of arguments, or are that of a truth value. -/
def Parameter.HasReadDefault (p : Parameter) : Prop :=
  ∀ v, p.presence = .defaulted v →
    (∃ raw, DefaultValue.read? p.type raw = some v) ∨ v = .boolean false

theorem planCommands_hasReadDefault {features : Features} {names : Names} {commands : List Command}
    {plans : List CommandPlan} (h : planCommands features names commands = .ok plans) :
    ∀ c ∈ plans, ∀ p ∈ c.parameters, p.HasReadDefault := by
  intro c hc p hp v hv
  obtain ⟨_, -, hdescribes⟩ := exists_of_forall₂ (planCommands_describes h) hc
  obtain ⟨_, -, hof⟩ := exists_of_forall₂ hdescribes.parameters hp
  exact presence_ok (hv ▸ hof.presence)

theorem CommandPlan.mem_fields {c : CommandPlan} {p : Parameter} : p ∈ c.fields ↔ p ∈ c.parameters := by
  cases hrequired : p.presence == .required <;> simp [CommandPlan.fields, bne, hrequired]

theorem import_mem_header (s : Setting) {plans : List CommandPlan} {c : CommandPlan} (hc : c ∈ plans)
    {p : Parameter} (hp : p ∈ c.fields) (hpath : p.type = .path) :
    .plain "from pathlib import Path" ∈ header s plans := by
  have hany : (plans.flatMap (·.fields)).any (·.type == .path) = true :=
    List.any_eq_true.2 ⟨p, List.mem_flatMap.2 ⟨c, hc, hp⟩, by rw [hpath]; rfl⟩
  unfold header
  dsimp only
  rw [hany]
  simp [linesIf, lines]

/-- The default that a field is written with mentions nothing but constants and the class of paths, unless it
is not finite. -/
theorem Parameter.exists_read_fieldDefault {p : Parameter} (h : p.HasReadDefault) {text : String}
    (htext : p.fieldDefault? = some text) : ∃ e, Expression.read? text = some e ∧
      (p.HasFiniteDefault →
        ∀ name ∈ e.names, name ∈ ["True", "False", "None"] ∨ name = "Path" ∧ p.type = .path) ∧
      (¬p.HasFiniteDefault → e.names = ["inf"] ∨ e.names = ["nan"]) := by
  unfold Parameter.fieldDefault? at htext
  split_ifs at htext with hrequired
  obtain rfl := Option.some.inj htext
  unfold Parameter.value
  cases hpresence : p.presence with
  | required => exact absurd hpresence hrequired
  | optional =>
    refine ⟨.name "None", by decide, ?_⟩
    simp [Expression.names, Parameter.HasFiniteDefault, hpresence]
  | defaulted v =>
    have hdefault : p.HasFiniteDefault ↔ v.IsFinite := by simp [Parameter.HasFiniteDefault, hpresence]
    rw [hdefault]
    obtain ⟨raw, hread⟩ | rfl := h v hpresence
    · refine ⟨v.parsed, Expression.read?_expression (DefaultValue.isWritable_of_read? hread),
        fun hfinite name hname => ?_, fun hinfinite => (Expression.value?_parsed_eq_none hinfinite).2⟩
      exact (Expression.names_parsed hread hfinite name hname).imp_left (List.mem_append_left ["None"])
    · exact ⟨(DefaultValue.boolean false).parsed, Expression.read?_boolean false,
        by simp [DefaultValue.parsed, Expression.names], fun hinfinite => absurd trivial hinfinite⟩

/-- A default that is read is written as an expression. If it is finite, the expression denotes the default
and mentions nothing but constants, and the class of paths if it is a path; otherwise it denotes nothing, for
it is a name without a meaning, which may have a sign. Accordingly finite defaults of a module mention nothing
but constants and what the module imports. -/
theorem read_expression {type : ArgumentType} {raw : String} {v : DefaultValue}
    (hread : DefaultValue.read? type raw = some v) :
    (∃ e, Expression.read? v.expression = some e ∧
      (v.IsFinite → e.value? = some v ∧
        ∀ name ∈ e.names, name ∈ ["True", "False"] ∨ name = "Path" ∧ type = .path) ∧
      (¬v.IsFinite → e.value? = none ∧ (e.names = ["inf"] ∨ e.names = ["nan"]))) ∧
    ∀ (features : Features) (index : CommandIndex) (plans : List CommandPlan),
      plan features index = .ok plans → ∀ c ∈ plans, ∀ p ∈ c.fields, ∀ text, p.fieldDefault? = some text →
        ∃ e, Expression.read? text = some e ∧
          (p.HasFiniteDefault → ∀ name ∈ e.names, name ∈ ["True", "False", "None"] ∨
            name = "Path" ∧ ∀ s, .plain "from pathlib import Path" ∈ header s plans) ∧
          (¬p.HasFiniteDefault → e.names = ["inf"] ∨ e.names = ["nan"]) := by
  refine ⟨?_, fun features index plans hplan c hc p hp text htext => ?_⟩
  · exact ⟨v.parsed, Expression.read?_expression (DefaultValue.isWritable_of_read? hread),
      fun hfinite => ⟨Expression.value?_parsed hfinite, Expression.names_parsed hread hfinite⟩,
      Expression.value?_parsed_eq_none⟩
  · obtain ⟨e, hread, hfinite, hinfinite⟩ := Parameter.exists_read_fieldDefault
      (planCommands_hasReadDefault hplan c hc p (CommandPlan.mem_fields.1 hp)) htext
    refine ⟨e, hread, fun h name hname => (hfinite h name hname).imp_right ?_, hinfinite⟩
    exact fun ⟨hpath, htype⟩ => ⟨hpath, fun s => import_mem_header s hc hp htype⟩

def targetParameter : Parameter :=
  { ident := "target", type := .path, presence := .defaulted (.path "it's"), isPositional := false,
    help := "target (path)" }

def copyFiles : Command :=
  { noun := "files", verb := "copy", handler := some "app:copy", handlers := ["app:copy"],
    arguments := [{ name := "target", typeTag := "path", default := some "it's" }] }

theorem read_expression_copyFiles :
    (∃ v e, DefaultValue.read? .float " 1_0e-1 " = some v ∧ v.IsFinite ∧
      Expression.read? v.expression = some e ∧ e.value? = some v) ∧
    (∃ v e, DefaultValue.read? .float "-Infinity" = some v ∧ ¬v.IsFinite ∧
      Expression.read? v.expression = some e ∧ e.value? = none) ∧
    ∃ plans text e, plan .none ⟨[copyFiles], [("files", [copyFiles])]⟩ = .ok plans ∧
      targetParameter ∈ plans.flatMap (·.fields) ∧ targetParameter.HasFiniteDefault ∧
      targetParameter.fieldDefault? = some text ∧ Expression.read? text = some e ∧
      ∀ name ∈ e.names, name ∈ ["True", "False", "None"] ∨
        name = "Path" ∧ ∀ s, .plain "from pathlib import Path" ∈ header s plans := by
  have hone : DefaultValue.read? .float " 1_0e-1 " = some (.float (.finite false (2 ^ 52) (-52))) := by
    decide +kernel
  have hinfinite : DefaultValue.read? .float "-Infinity" = some (.float (.infinite true)) := by decide
  have hplan : plan .none ⟨[copyFiles], [("files", [copyFiles])]⟩ =
      .ok [⟨"files", "copy", "files", "copy", "app:copy", "Copy files.", [targetParameter]⟩] := by
    decide +kernel
  have htext : targetParameter.fieldDefault? = some "Path(\"it's\")" := by decide
  have hfinite : targetParameter.HasFiniteDefault := by
    rintro v hv
    cases hv
    trivial
  obtain ⟨⟨e₁, hread₁, hvalue₁, -⟩, hmodules⟩ := read_expression hone
  obtain ⟨⟨e₂, hread₂, -, hvalue₂⟩, -⟩ := read_expression hinfinite
  obtain ⟨e₃, hread₃, hnames₃, -⟩ := hmodules _ _ _ hplan _ (.head _) targetParameter (by decide) _ htext
  exact ⟨⟨_, e₁, hone, trivial, hread₁, (hvalue₁ trivial).1⟩,
    ⟨_, e₂, hinfinite, id, hread₂, (hvalue₂ id).1⟩,
    _, _, e₃, hplan, by decide, hfinite, htext, hread₃, hnames₃ hfinite⟩

/-- An infinite number is written as a name that is neither a constant nor the class of paths, and so denotes
nothing. -/
theorem expression_infinite : ∃ v, DefaultValue.read? .float "inf" = some v ∧ v.expression = "inf" ∧
    Expression.read? v.expression = some (.name "inf") ∧ (Expression.name "inf").value? = none ∧
      "inf" ∉ ["True", "False", "Path"] :=
  ⟨.float (.infinite false), by decide, by decide, by decide, rfl, by decide⟩

end CommandOntology.Generation
