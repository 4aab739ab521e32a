import CommandOntology.Proofs.Distinct
import CommandOntology.Proofs.ScopeContents
import CommandOntology.Proofs.TokenReading

set_option autoImplicit false

namespace CommandOntology.Turtle

/-- Two statements do not give a subject different values under a functional predicate. -/
def Agree (functional : List String) (t u : Triple) : Prop :=
  isFunctional functional t.predicate = true → t.subject = u.subject → t.predicate = u.predicate →
    t.object = u.object

def IsSingleValued (functional : List String) (ts : List Triple) : Prop :=
  ∀ t ∈ ts, ∀ u ∈ ts, Agree functional t u

variable {functional : List String}

theorem Agree.symm {t u : Triple} (h : Agree functional t u) : Agree functional u t := by
  intro hf hs hp
  exact (h (hp ▸ hf) hs.symm hp.symm).symm

theorem Agree.refl (t : Triple) : Agree functional t t := fun _ _ _ => rfl

theorem isSingleValued_cons (t : Triple) (ts : List Triple) : IsSingleValued functional (t :: ts) ↔
    (∀ u ∈ ts, Agree functional u t) ∧ IsSingleValued functional ts := by
  simp only [IsSingleValued, List.forall_mem_cons]
  constructor
  · rintro ⟨-, hts⟩
    exact ⟨fun u hu => (hts u hu).1, fun u hu => (hts u hu).2⟩
  · rintro ⟨ht, hts⟩
    exact ⟨⟨Agree.refl t, fun u hu => (ht u hu).symm⟩, fun u hu => ⟨ht u hu, hts u hu⟩⟩

theorem isSingleValued_congr {ts us : List Triple} (h : ∀ t, t ∈ ts ↔ t ∈ us) :
    IsSingleValued functional ts ↔ IsSingleValued functional us := by
  simp only [IsSingleValued, h]

theorem isSingleValued_nil (ts : List Triple) : IsSingleValued [] ts := by
  intro t _ u _ hf
  unfold isFunctional at hf
  split at hf
  · simp at hf
  · cases hf

theorem conflicting?_eq_none_iff (recorded : List Triple) (t : Triple) :
    conflicting? functional recorded t = none ↔ ∀ u ∈ recorded, Agree functional t u := by
  unfold conflicting? Agree
  by_cases hf : isFunctional functional t.predicate = true
  · rw [if_pos hf, Option.map_eq_none_iff, List.find?_eq_none]
    refine forall₂_congr fun u _ => ?_
    simp only [Bool.and_eq_true, decide_eq_true_eq, not_and, hf, forall_const, ne_eq,
      Decidable.not_not, and_imp]
    constructor
    · exact fun h hs hp => (h hs.symm hp.symm).symm
    · exact fun h hs hp => (h hs.symm hp.symm).symm
  · simp [hf]

/-- Recording goes on just if nothing disagrees with what is recorded or comes before it. -/
theorem record_eq_ok_iff (recorded : List Triple) (emissions : List Emission) (ts : List Triple) :
    record functional recorded emissions = .ok ts ↔
      ((∀ t ∈ emissions.map (·.triple), ∀ u ∈ recorded, Agree functional t u) ∧
        IsSingleValued functional (emissions.map (·.triple))) ∧
          ts = recorded.reverse ++ distinctByFrom id recorded (emissions.map (·.triple)) := by
  induction emissions generalizing recorded with
  | nil => simp [record, distinctByFrom, IsSingleValued, eq_comm]
  | cons e emissions ih =>
    have hconflict : conflicting? functional recorded e.triple = none ↔
        ∀ u ∈ recorded, Agree functional e.triple u := conflicting?_eq_none_iff recorded e.triple
    rw [record, List.map_cons, isSingleValued_cons]
    cases hc : conflicting? functional recorded e.triple with
    | some existing =>
      have hnot : ¬∀ u ∈ recorded, Agree functional e.triple u := by rw [← hconflict, hc]; simp
      simp only [reduceCtorEq, false_iff]
      exact fun h => hnot (h.1.1 e.triple List.mem_cons_self)
    | none =>
      have hagree := hconflict.1 hc
      dsimp only
      by_cases hmem : e.triple ∈ recorded
      · rw [if_pos (by simpa using hmem), ih, distinctByFrom, if_pos (by simpa using hmem)]
        refine and_congr_left fun _ => ?_
        constructor
        · rintro ⟨hall, hsingle⟩
          exact ⟨List.forall_mem_cons.2 ⟨hagree, hall⟩, fun t ht => hall t ht e.triple hmem, hsingle⟩
        · rintro ⟨hall, -, hsingle⟩
          exact ⟨(List.forall_mem_cons.1 hall).2, hsingle⟩
      · rw [if_neg (by simpa using hmem), ih, distinctByFrom, if_neg (by simpa using hmem)]
        refine and_congr ?_ (by simp)
        constructor
        · rintro ⟨hall, hsingle⟩
          refine ⟨List.forall_mem_cons.2 ⟨hagree, fun t ht u hu => ?_⟩, fun t ht => ?_, hsingle⟩
          · exact hall t ht u (List.mem_cons_of_mem _ hu)
          · exact hall t ht e.triple List.mem_cons_self
        · rintro ⟨hall, hfirst, hsingle⟩
          refine ⟨fun t ht => List.forall_mem_cons.2 ⟨hfirst t ht, ?_⟩, hsingle⟩
          exact (List.forall_mem_cons.1 hall).2 t ht

theorem record_nil_eq_ok_iff (emissions : List Emission) (ts : List Triple) :
    record functional [] emissions = .ok ts ↔
      IsSingleValued functional (emissions.map (·.triple)) ∧
        ts = distinct (emissions.map (·.triple)) := by
  rw [record_eq_ok_iff]
  simp [distinct, distinctBy]

variable {options : ParserOptions} {text : String} {ls : List Lexeme} {ts : List Triple}

/-- Whatever the places of these lexemes, the machine gives out these statements and stops well. -/
def GivesOut (options : ParserOptions) (ls : List Lexeme) (ts : List Triple) : Prop :=
  ∀ tokens : Tokens, tokens.tokens.map (·.lexeme) = ls →
    (documentRun options tokens).2 = none ∧
      (documentRun options tokens).1.emitted.reverse.map (·.triple) = ts

/-- A text is read as the statements that its lexemes give out, just if they are single-valued. -/
theorem parse_eq_ok_of_givesOut (hcapacity : 1 ≤ options.capacity)
    (hls : lexemes? text.toList = some ls) (hout : GivesOut options ls ts) :
    ((∃ d, parse options text = .ok d) ↔ IsSingleValued options.functional ts) ∧
      ∀ d, parse options text = .ok d → d.triples = distinct ts := by
  obtain ⟨tokens, hlex, hlexemes⟩ := (lexemes?_eq_some_iff _ _).1 hls
  obtain ⟨hrun, hemitted⟩ := hout tokens hlexemes
  have hparse : parse options text = parseTokens options text.length tokens := by
    rw [parse, if_neg (by omega), hlex]
  have hrecord (us : List Triple) :
      record options.functional [] (documentRun options tokens).1.emitted.reverse = .ok us ↔
        IsSingleValued options.functional ts ∧ us = distinct ts := by
    rw [record_nil_eq_ok_iff, hemitted]
  have hok (d : Document) (h : parse options text = .ok d) :
      IsSingleValued options.functional ts ∧ d.triples = distinct ts := by
    obtain ⟨-, us, hus, rfl⟩ := parseTokens_ok (hparse ▸ h)
    exact (hrecord us).1 hus
  refine ⟨⟨fun ⟨d, h⟩ => (hok d h).1, fun hsingle => ?_⟩, fun d h => (hok d h).2⟩
  exact ⟨_, hparse.trans (parseTokens_eq_ok _ hrun ((hrecord _).2 ⟨hsingle, rfl⟩))⟩

end CommandOntology.Turtle
