import CommandOntology.Ontology.Validation
import CommandOntology.Proofs.Characters
import CommandOntology.Proofs.ViewValues

set_option autoImplicit false

namespace CommandOntology

/-- The name of a noun or verb: its text, or the least name of the resource it is. -/
def HasName (g : List Triple) (target : Term) (name : String) : Prop :=
  match target with
  | .literal lexical _ _ => lexical = name
  | resource => ∃ datatype language,
      IsLeastValue g resource Cnv.name (.literal name datatype language)

def HasPart (g : List Triple) (command : Term) (predicate name : String) : Prop :=
  ∃ target, (∀ x, Says g command predicate x ↔ x = target) ∧ HasName g target name

def IsCommand (g : List Triple) (command : Term) : Prop :=
  Says g command Rdf.type (.iri Cnv.command)

def IsArgumentName (g : List Triple) (argument : Term) (name : String) : Prop :=
  (∃ datatype language, IsLeastValue g argument Cnv.name (.literal name datatype language)) ∧
    ∃ c ∈ name.toList, Text.isBlank c = false

/-- A literal without a datatype other than the given one, whose text passes a test. -/
def ReadsAs (datatype : String) (test : String → Prop) (value : Term) : Prop :=
  ∃ lexical type language, value = .literal lexical type language ∧
    (type = none ∨ type = some datatype) ∧ test lexical

def IsBooleanText (lexical : String) : Prop :=
  Text.lower (Text.strip lexical) ∈ ["true", "1", "false", "0"]

def IsIntegerText (lexical : String) : Prop :=
  ∃ n, Reading.integer lexical = .ok n

/-- An argument resource has a name, and its least truth value and position are such. -/
structure DescribesArgument (g : List Triple) (argument : Term) : Prop where
  resource : argument.isResource = true
  named : ∃ name, IsArgumentName g argument name
  required : ∀ x, IsLeastValue g argument Cnv.required x → ReadsAs Xsd.boolean IsBooleanText x
  position : ∀ x, IsLeastValue g argument Cnv.position x → ReadsAs Xsd.integer IsIntegerText x

structure DescribesProgram (g : List Triple) : Prop where
  declared : ∀ p ∈ referencePredicates, ∀ s x, Says g s p x → x.isResource = true →
    ∃ t ∈ g, t.subject = x
  noun : ∀ c, IsCommand g c → ∃ name, HasPart g c Cnv.hasNoun name
  verb : ∀ c, IsCommand g c → ∃ name, HasPart g c Cnv.hasVerb name
  handler : ∀ c, IsCommand g c → ∃ x, Says g c Cnv.handler x
  arguments : ∀ c a, IsCommand g c → Says g c Cnv.hasArgument a → DescribesArgument g a
  argumentNames : ∀ c a b name, IsCommand g c → Says g c Cnv.hasArgument a →
    Says g c Cnv.hasArgument b → IsArgumentName g a name → IsArgumentName g b name → a = b
  keys : ∀ c d noun verb, IsCommand g c → IsCommand g d → HasPart g c Cnv.hasNoun noun →
    HasPart g d Cnv.hasNoun noun → HasPart g c Cnv.hasVerb verb → HasPart g d Cnv.hasVerb verb →
    c = d

def podsAll (c a : Term) (required : List Term) : List Triple :=
  [⟨c, .iri Rdf.type, .iri Cnv.command⟩, ⟨c, .iri Cnv.hasNoun, .plain "pods"⟩,
    ⟨c, .iri Cnv.hasVerb, .plain "list"⟩, ⟨c, .iri Cnv.handler, .plain "run"⟩,
    ⟨c, .iri Cnv.hasArgument, a⟩, ⟨a, .iri Cnv.name, .plain "all"⟩] ++
    required.map fun x => ⟨a, .iri Cnv.required, x⟩

section

variable (c a : Term) (required : List Term)

theorem says_podsAll (s x : Term) (p : String) : Says (podsAll c a required) s p x ↔
    s = c ∧ (p = Rdf.type ∧ x = .iri Cnv.command ∨ p = Cnv.hasNoun ∧ x = .plain "pods" ∨
        p = Cnv.hasVerb ∧ x = .plain "list" ∨ p = Cnv.handler ∧ x = .plain "run" ∨
        p = Cnv.hasArgument ∧ x = a) ∨
      s = a ∧ (p = Cnv.name ∧ x = .plain "all" ∨ p = Cnv.required ∧ x ∈ required) := by
  have hrequired : (⟨s, .iri p, x⟩ : Triple) ∈ required.map (fun x => ⟨a, .iri Cnv.required, x⟩) ↔
      s = a ∧ p = Cnv.required ∧ x ∈ required := by
    rw [List.mem_map]
    constructor
    · rintro ⟨y, hy, he⟩
      cases he
      exact ⟨rfl, rfl, hy⟩
    · rintro ⟨rfl, rfl, hx⟩
      exact ⟨x, hx, rfl⟩
  rw [Says, podsAll, List.mem_append, hrequired]
  simp only [List.mem_cons, List.not_mem_nil, or_false, Triple.mk.injEq, Term.iri.injEq, and_or_left,
    or_assoc]

theorem isCommand_podsAll (s : Term) : IsCommand (podsAll c a required) s ↔ s = c := by
  simp [IsCommand, says_podsAll, Rdf.type, Cnv.hasNoun, Cnv.hasVerb, Cnv.handler, Cnv.hasArgument,
    Cnv.name, Cnv.required]

theorem hasArgument_podsAll (s x : Term) :
    Says (podsAll c a required) s Cnv.hasArgument x ↔ s = c ∧ x = a := by
  simp [says_podsAll, Rdf.type, Cnv.hasNoun, Cnv.hasVerb, Cnv.handler, Cnv.hasArgument, Cnv.name,
    Cnv.required]

theorem required_podsAll (s x : Term) :
    Says (podsAll c a required) s Cnv.required x ↔ s = a ∧ x ∈ required := by
  simp [says_podsAll, Rdf.type, Cnv.hasNoun, Cnv.hasVerb, Cnv.handler, Cnv.hasArgument, Cnv.name,
    Cnv.required]

theorem declared_podsAll : ∃ t ∈ podsAll c a required, t.subject = a :=
  ⟨⟨a, .iri Cnv.name, .plain "all"⟩, by simp [podsAll], rfl⟩

theorem isStatement_podsAll (hc : c.isResource = true) (ha : a.isResource = true)
    (hm : ∀ x ∈ required, x.IsMarked) : ∀ t ∈ podsAll c a required, t.IsStatement := by
  have hplain (text : String) : (Term.plain text).IsMarked := by simp [Term.plain, Term.IsMarked]
  intro t ht
  obtain ht | ht := List.mem_append.1 ht
  · simp only [List.mem_cons, List.not_mem_nil, or_false] at ht
    obtain rfl | rfl | rfl | rfl | rfl | rfl := ht
    · exact ⟨hc, ⟨_, rfl⟩, trivial⟩
    · exact ⟨hc, ⟨_, rfl⟩, hplain _⟩
    · exact ⟨hc, ⟨_, rfl⟩, hplain _⟩
    · exact ⟨hc, ⟨_, rfl⟩, hplain _⟩
    · exact ⟨hc, ⟨_, rfl⟩, Term.isMarked_of_isResource a ha⟩
    · exact ⟨ha, ⟨_, rfl⟩, hplain _⟩
  · obtain ⟨x, hx, rfl⟩ := List.mem_map.1 ht
    exact ⟨ha, ⟨_, rfl⟩, hm x hx⟩

theorem describesProgram_podsAll (ha : a.isResource = true)
    (hr : ∀ x ∈ required, ReadsAs Xsd.boolean IsBooleanText x) :
    DescribesProgram (podsAll c a required) := by
  have hnoun (s x : Term) :
      Says (podsAll c a required) s Cnv.hasNoun x ↔ s = c ∧ x = .plain "pods" := by
    simp [says_podsAll, Rdf.type, Cnv.hasNoun, Cnv.hasVerb, Cnv.handler, Cnv.hasArgument, Cnv.name,
      Cnv.required]
  have hverb (s x : Term) :
      Says (podsAll c a required) s Cnv.hasVerb x ↔ s = c ∧ x = .plain "list" := by
    simp [says_podsAll, Rdf.type, Cnv.hasNoun, Cnv.hasVerb, Cnv.handler, Cnv.hasArgument, Cnv.name,
      Cnv.required]
  have hname (s x : Term) : Says (podsAll c a required) s Cnv.name x ↔ s = a ∧ x = .plain "all" := by
    simp [says_podsAll, Rdf.type, Cnv.hasNoun, Cnv.hasVerb, Cnv.handler, Cnv.hasArgument, Cnv.name,
      Cnv.required]
  have hposition (s x : Term) : ¬Says (podsAll c a required) s Cnv.position x := by
    simp [says_podsAll, Rdf.type, Cnv.hasNoun, Cnv.hasVerb, Cnv.handler, Cnv.hasArgument, Cnv.name,
      Cnv.required, Cnv.position]
  constructor
  · intro p hp s x hx hresource
    simp only [referencePredicates, List.mem_cons, List.not_mem_nil, or_false] at hp
    obtain rfl | rfl | rfl := hp
    · rw [((hnoun s x).1 hx).2] at hresource
      cases hresource
    · rw [((hverb s x).1 hx).2] at hresource
      cases hresource
    · rw [((hasArgument_podsAll c a required s x).1 hx).2]
      exact declared_podsAll c a required
  · intro s hs
    rw [(isCommand_podsAll c a required s).1 hs]
    exact ⟨"pods", .plain "pods", fun x => by simp [hnoun], rfl⟩
  · intro s hs
    rw [(isCommand_podsAll c a required s).1 hs]
    exact ⟨"list", .plain "list", fun x => by simp [hverb], rfl⟩
  · intro s hs
    rw [(isCommand_podsAll c a required s).1 hs]
    exact ⟨.plain "run", by simp [says_podsAll]⟩
  · intro s x _ hx
    rw [((hasArgument_podsAll c a required s x).1 hx).2]
    refine ⟨ha, ⟨"all", ⟨none, none, (hname _ _).2 ⟨rfl, rfl⟩, fun y hy => ?_⟩, 'a', by simp, by decide⟩,
      fun y hy => hr y ((required_podsAll c a required a y).1 hy.1).2,
      fun y hy => absurd hy.1 (hposition a y)⟩
    rw [((hname _ y).1 hy).2]
    exact String.le_refl _
  · intro s x y _ _ hx hy _ _
    rw [((hasArgument_podsAll c a required s x).1 hx).2, ((hasArgument_podsAll c a required s y).1 hy).2]
  · intro s t _ _ hs ht _ _ _ _
    rw [(isCommand_podsAll c a required s).1 hs, (isCommand_podsAll c a required t).1 ht]

end

structure PlainCommand where
  iri : String
  noun : String
  verb : String
  handler : String

namespace PlainCommand

def facts (c : PlainCommand) : List (String × Term) :=
  [(Rdf.type, .iri Cnv.command), (Cnv.hasNoun, .plain c.noun), (Cnv.hasVerb, .plain c.verb),
    (Cnv.handler, .plain c.handler)]

def triples (c : PlainCommand) : List Triple :=
  c.facts.map fun fact => ⟨.iri c.iri, .iri fact.1, fact.2⟩

def key (c : PlainCommand) : CommandKey :=
  ⟨c.noun, c.verb⟩

end PlainCommand

section

variable {cs : List PlainCommand}

theorem says_plain (s x : Term) (p : String) : Says (cs.flatMap PlainCommand.triples) s p x ↔
    ∃ c ∈ cs, s = .iri c.iri ∧ (p, x) ∈ c.facts := by
  simp only [Says, List.mem_flatMap, PlainCommand.triples, List.mem_map, Triple.mk.injEq, Term.iri.injEq]
  refine exists_congr fun c => and_congr_right fun _ => ⟨?_, ?_⟩
  · rintro ⟨⟨p', x'⟩, hfact, rfl, rfl, rfl⟩
    exact ⟨rfl, hfact⟩
  · rintro ⟨rfl, hfact⟩
    exact ⟨(p, x), hfact, rfl, rfl, rfl⟩

theorem isStatement_plain : ∀ t ∈ cs.flatMap PlainCommand.triples, t.IsStatement := by
  intro t ht
  simp only [List.mem_flatMap, PlainCommand.triples, List.mem_map, PlainCommand.facts, List.mem_cons,
    List.not_mem_nil, or_false] at ht
  obtain ⟨c, -, fact, rfl | rfl | rfl | rfl, rfl⟩ := ht <;>
    exact ⟨rfl, ⟨_, rfl⟩, by simp [Term.IsMarked, Term.plain]⟩

theorem says_plain_of_mem (hiris : (cs.map PlainCommand.iri).Nodup) {c : PlainCommand} (hc : c ∈ cs)
    (p : String) (x : Term) :
    Says (cs.flatMap PlainCommand.triples) (.iri c.iri) p x ↔ (p, x) ∈ c.facts := by
  rw [says_plain]
  constructor
  · rintro ⟨d, hd, hiri, hfact⟩
    rwa [List.inj_on_of_nodup_map hiris hc hd (Term.iri.inj hiri)]
  · exact fun hfact => ⟨c, hc, rfl, hfact⟩

theorem hasPart_plain {g : List Triple} {s : Term} {p text : String}
    (h : ∀ x, Says g s p x ↔ x = .plain text) (name : String) : HasPart g s p name ↔ text = name := by
  constructor
  · rintro ⟨target, hone, hname⟩
    obtain rfl := (h target).1 ((hone target).2 rfl)
    exact hname
  · exact fun hname => ⟨.plain text, h, hname⟩

theorem describesProgram_plain (hiris : (cs.map PlainCommand.iri).Nodup)
    (hkeys : (cs.map PlainCommand.key).Nodup) : DescribesProgram (cs.flatMap PlainCommand.triples) := by
  have hcommand (s : Term) (hs : IsCommand (cs.flatMap PlainCommand.triples) s) :
      ∃ c ∈ cs, s = .iri c.iri := by
    obtain ⟨c, hc, rfl, -⟩ := (says_plain _ _ _).1 hs
    exact ⟨c, hc, rfl⟩
  have hnoun (c : PlainCommand) (hc : c ∈ cs) (name : String) :
      HasPart (cs.flatMap PlainCommand.triples) (.iri c.iri) Cnv.hasNoun name ↔ c.noun = name := by
    refine hasPart_plain (fun x => ?_) name
    rw [says_plain_of_mem hiris hc]
    simp [PlainCommand.facts, Rdf.type, Cnv.hasNoun, Cnv.hasVerb, Cnv.handler]
  have hverb (c : PlainCommand) (hc : c ∈ cs) (name : String) :
      HasPart (cs.flatMap PlainCommand.triples) (.iri c.iri) Cnv.hasVerb name ↔ c.verb = name := by
    refine hasPart_plain (fun x => ?_) name
    rw [says_plain_of_mem hiris hc]
    simp [PlainCommand.facts, Rdf.type, Cnv.hasNoun, Cnv.hasVerb, Cnv.handler]
  have hno (s x : Term) : ¬Says (cs.flatMap PlainCommand.triples) s Cnv.hasArgument x := by
    simp [says_plain, PlainCommand.facts, Rdf.type, Cnv.hasNoun, Cnv.hasVerb, Cnv.handler, Cnv.hasArgument]
  constructor
  · intro p hp s x hx hr
    obtain ⟨c, -, -, hfact⟩ := (says_plain s x p).1 hx
    simp only [PlainCommand.facts, List.mem_cons, Prod.mk.injEq, List.not_mem_nil, or_false] at hfact
    obtain ⟨rfl, rfl⟩ | ⟨-, rfl⟩ | ⟨-, rfl⟩ | ⟨-, rfl⟩ := hfact
    · exact absurd hp (by decide)
    all_goals exact absurd hr (by simp [Term.plain, Term.isResource])
  · intro s hs
    obtain ⟨c, hc, rfl⟩ := hcommand s hs
    exact ⟨c.noun, (hnoun c hc _).2 rfl⟩
  · intro s hs
    obtain ⟨c, hc, rfl⟩ := hcommand s hs
    exact ⟨c.verb, (hverb c hc _).2 rfl⟩
  · intro s hs
    obtain ⟨c, hc, rfl⟩ := hcommand s hs
    exact ⟨.plain c.handler, (says_plain_of_mem hiris hc _ _).2 (by simp [PlainCommand.facts])⟩
  · exact fun c a _ ha => absurd ha (hno c a)
  · exact fun c a _ _ _ ha => absurd ha (hno c a)
  · intro s t noun verb hs ht hsn htn hsv htv
    obtain ⟨c, hc, rfl⟩ := hcommand s hs
    obtain ⟨d, hd, rfl⟩ := hcommand t ht
    have hkey : c.key = d.key := by
      rw [PlainCommand.key, PlainCommand.key, (hnoun c hc noun).1 hsn, (hnoun d hd noun).1 htn,
        (hverb c hc verb).1 hsv, (hverb d hd verb).1 htv]
    rw [List.inj_on_of_nodup_map hkeys hc hd hkey]

end
namespace View

theorem boolean?_isSome_iff (value : Term) :
    (boolean? value).isSome = true ↔ ReadsAs Xsd.boolean IsBooleanText value := by
  cases value with
  | iri => simp [boolean?, ReadsAs]
  | blank => simp [boolean?, ReadsAs]
  | literal lexical datatype language =>
    simp only [boolean?, ReadsAs, IsBooleanText, Term.literal.injEq]
    split_ifs with hd
    · constructor
      · intro h
        refine ⟨lexical, datatype, language, ⟨rfl, rfl, rfl⟩, hd, ?_⟩
        split at h <;> simp_all
      · rintro ⟨_, _, _, ⟨rfl, rfl, rfl⟩, -, ht⟩
        simp only [List.mem_cons, List.not_mem_nil, or_false] at ht
        obtain ht | ht | ht | ht := ht <;> rw [ht] <;> rfl
    · simp only [Option.isSome_none, Bool.false_eq_true, false_iff]
      rintro ⟨_, _, _, ⟨rfl, rfl, rfl⟩, h, -⟩
      exact hd h

theorem integer?_isSome_iff (value : Term) :
    (integer? value).isSome = true ↔ ReadsAs Xsd.integer IsIntegerText value := by
  cases value with
  | iri => simp [integer?, ReadsAs]
  | blank => simp [integer?, ReadsAs]
  | literal lexical datatype language =>
    simp only [integer?, ReadsAs, IsIntegerText, Term.literal.injEq]
    split_ifs with hd
    · cases hr : Reading.integer lexical with
      | error e =>
        simp only [Except.toOption, Option.isSome_none, Bool.false_eq_true, false_iff]
        rintro ⟨_, _, _, ⟨rfl, rfl, rfl⟩, -, n, hn⟩
        simp [hr] at hn
      | ok n =>
        simp only [Except.toOption, Option.isSome_some, true_iff]
        exact ⟨lexical, datatype, language, ⟨rfl, rfl, rfl⟩, hd, n, hr⟩
    · simp only [Option.isSome_none, Bool.false_eq_true, false_iff]
      rintro ⟨_, _, _, ⟨rfl, rfl, rfl⟩, h, -⟩
      exact hd h

end View

end CommandOntology
