import CommandOntology.Proofs.BlankLabels
import CommandOntology.Proofs.ValidatedCommands

set_option autoImplicit false

namespace CommandOntology

def textPredicates : List String :=
  [Cnv.handler, Cnv.capability, Cnv.validator, Cnv.default, Cnv.datatype]

/-- No text is asked of a blank node. -/
def HasNamedTexts (g : List Triple) : Prop :=
  ∀ p ∈ textPredicates, ∀ s x, Says g s p x → x.isNamed = true

namespace View

theorem HelpText.le_trans (a b c : HelpText) (hab : a.le b = true) (hbc : b.le c = true) :
    a.le c = true := by
  have htext := textLe_trans a.text b.text c.text
  unfold le at *
  cases ha : a.isForeign <;> cases hb : b.isForeign <;> cases hc : c.isForeign <;> simp_all

theorem HelpText.le_total (a b : HelpText) : (a.le b || b.le a) = true := by
  have htext := textLe_total a.text b.text
  unfold le
  cases ha : a.isForeign <;> cases hb : b.isForeign <;> simp_all

theorem HelpText.le_antisymm (a b : HelpText) (hab : a.le b = true) (hba : b.le a = true) : a = b := by
  have htext := textLe_antisymm a.text b.text
  unfold le at *
  obtain ⟨_ | _, a⟩ := a <;> obtain ⟨_ | _, b⟩ := b <;> simp_all

section

variable {f : String → String} {v v' : View} (h : IsRelabelled f v v')

include h

theorem helpText_relabel (s : Term) : v'.helpText (s.relabel f) = v.helpText s := by
  have htexts (values : List Term) : helpTexts (values.map (Term.relabel f)) = helpTexts values := by
    rw [helpTexts, helpTexts, List.filterMap_map]
    refine List.filterMap_congr fun x _ => ?_
    cases x <;> rfl
  have hsort (p : String) : (helpTexts (v'.values (s.relabel f) p)).mergeSort HelpText.le =
      (helpTexts (v.values s p)).mergeSort HelpText.le := by
    refine mergeSort_eq_of_perm _ HelpText.le_trans HelpText.le_total _ _ ?_
      fun a _ b _ => HelpText.le_antisymm a b
    rw [← htexts (v.values s p)]
    exact (h.values_perm s p).filterMap _
  simp only [helpText, hsort]

variable {g : List Triple} (hv : v.Reads g)

include hv

section

variable (ht : HasNamedTexts g)

include ht

theorem values_relabel_of_text (s : Term) (p : String) (hp : p ∈ textPredicates) :
    (v'.values (s.relabel f) p).Perm (v.values s p) := by
  have hsame : (v.values s p).map (Term.relabel f) = v.values s p := by
    conv_rhs => rw [← List.map_id (v.values s p)]
    refine List.map_congr_left fun x hx => ?_
    exact Term.relabel_of_isNamed f x (ht p hp s x ((hv.mem_values s x p).1 hx).2)
  have hperm := h.values_perm s p
  rwa [hsame] at hperm

theorem value?_relabel_of_text (s : Term) (p : String) (hp : p ∈ textPredicates) :
    v'.value? (s.relabel f) p = v.value? s p := by
  cases hx : v.value? s p with
  | none => exact (h.value?_eq_none_iff s p).2 hx
  | some x =>
    have hin : x ∈ v.values s p := List.mem_of_head? hx
    exact (h.value?_eq_some_iff s x p (ht p hp s x ((hv.mem_values s x p).1 hin).2)).2 hx

theorem sortTexts_values_relabel (s : Term) (p : String) (hp : p ∈ textPredicates) :
    sortTexts ((v'.values (s.relabel f) p).map Term.text) = sortTexts ((v.values s p).map Term.text) :=
  sortTexts_eq_of_perm _ _ ((values_relabel_of_text h hv ht s p hp).map Term.text)

theorem buildArgument_relabel (a : Term) (x : Argument) (hx : v.buildArgument a = .ok x) :
    v'.buildArgument (a.relabel f) = .ok x := by
  have hname := h.value?_bind lexical? (fun _ => rfl) a Cnv.name
  obtain ⟨hsome, -⟩ := buildArgument_eq_ok v a x hx
  rw [← hx]
  simp only [buildArgument, hname, hsome, requireName, helpText_relabel h,
    sortTexts_values_relabel h hv ht a Cnv.validator (by decide),
    value?_relabel_of_text h hv ht a Cnv.datatype (by decide),
    value?_relabel_of_text h hv ht a Cnv.default (by decide), h.value?_bind boolean? (fun _ => rfl),
    h.value?_bind integer? (fun _ => rfl)]

end

variable (validator : Validator) (hvalid : (validator.report v).isValid = true)

include hvalid

theorem nameOf_relabel_of_isValid (c : Term) (hc : c ∈ v.commands) (p : String)
    (hp : p ∈ [Cnv.hasNoun, Cnv.hasVerb]) : ∃ name, v.nameOf (v.value? c p) = some name ∧
      v'.nameOf (v'.value? (c.relabel f) p) = some name := by
  obtain ⟨hrefs, hcard, -⟩ := (report_isValid_iff validator v).1 hvalid
  obtain ⟨target, name, hone, hname⟩ := exists_part_of_checkCardinality hv hrefs hcard c hc p hp
  have hsame := Rule.nameOf_value?_relabel h c target p hone
  have hvalue : v.nameOf (v.value? c p) = some name := by rw [value?, hone, List.head?_cons, hname]
  exact ⟨name, hvalue, hsame.trans hvalue⟩

variable (ht : HasNamedTexts g)

include ht

/-- A command is built the same but for the place where it was described. -/
theorem buildCommand_relabel (c : Term) (hc : c ∈ v.commands) (x : Command)
    (hx : v.buildCommand c = .ok x) :
    ∃ x', v'.buildCommand (c.relabel f) = .ok x' ∧ x'.content = x.content := by
  obtain ⟨noun, hn, hn'⟩ := nameOf_relabel_of_isValid h hv validator hvalid c hc Cnv.hasNoun (by decide)
  obtain ⟨verb, hb, hb'⟩ := nameOf_relabel_of_isValid h hv validator hvalid c hc Cnv.hasVerb (by decide)
  obtain ⟨⟨arguments, hm, -⟩, -⟩ := buildCommand_eq_ok v c x hx
  obtain ⟨arguments', hm', hperm⟩ := exists_mapM_ok_of_perm v.buildArgument v'.buildArgument
    (Term.relabel f) id hm (fun a _ y hy => ⟨y, buildArgument_relabel h hv ht a y hy, rfl⟩)
    (h.values_perm c Cnv.hasArgument)
  rw [List.map_id, List.map_id] at hperm
  -- Labels decide in which order the arguments are built, but not how they are put in order.
  have hnames := (arguments_of_isValid hv validator hvalid c hc arguments hm).1
  have hsort := Argument.sort_eq_of_perm _ _ hperm ((hperm.map Argument.name).nodup_iff.2 hnames)
  simp only [buildCommand, nounOf, verbOf, hn, hb, requireName, hm, bind, Except.bind, pure, Except.pure,
    Except.ok.injEq] at hx
  refine ⟨{ x with iri := some (c.relabel f).text }, ?_, rfl⟩
  rw [← hx]
  simp only [buildCommand, nounOf, verbOf, hn', hb', requireName, View.arguments, hm', hsort,
    sortTexts_values_relabel h hv ht c Cnv.handler (by decide),
    sortTexts_values_relabel h hv ht c Cnv.capability (by decide), helpText_relabel h, bind, Except.bind,
    pure, Except.pure]

theorem content_relabel (index index' : CommandIndex) (hindex : v.buildIndex = .ok index)
    (hindex' : v'.buildIndex = .ok index') :
    index'.commands.map Command.content = index.commands.map Command.content := by
  obtain ⟨commands, hm, -, hsort⟩ := exists_commands_of_buildIndex v index hindex
  obtain ⟨commands', hm', hkeys', hsort'⟩ := exists_commands_of_buildIndex v' index' hindex'
  obtain ⟨built, hbuilt, hperm⟩ := exists_mapM_ok_of_perm v.buildCommand v'.buildCommand (Term.relabel f)
    Command.content hm (fun c hc x hx => buildCommand_relabel h hv validator hvalid ht c hc x hx)
    (h.instances_perm Cnv.command)
  obtain rfl : built = commands' := Except.ok.inj (hbuilt.symm.trans hm')
  rw [hsort, hsort', map_content_sortByCommandKey, map_content_sortByCommandKey]
  refine sortByCommandKey_eq_of_perm _ _ hperm ?_
  rw [List.map_map]
  exact hkeys'

end

end View

/-- Graphs that differ in the labels of blank nodes are accepted alike, and give the same commands. -/
theorem validate_relabelled (triples : List Triple) (hn : HasNamedTexts triples) (f : String → String)
    (hf : Function.Injective f) (validator : Validator) (namespaces : Namespaces) (base : Option String)
    (own : Option Validator) :
    ((∃ o, validator.validate ⟨.ofList .memory triples, namespaces, base, own⟩ = .ok o) ↔
      ∃ o, validator.validate
        ⟨.ofList .memory (triples.map (·.mapTerms (Term.relabel f))), namespaces, base, own⟩ = .ok o) ∧
    ∀ o o', validator.validate ⟨.ofList .memory triples, namespaces, base, own⟩ = .ok o →
      validator.validate
        ⟨.ofList .memory (triples.map (·.mapTerms (Term.relabel f))), namespaces, base, own⟩ = .ok o' →
      o'.index.commands.map Command.content = o.index.commands.map Command.content := by
  have hv := View.reads_memory triples
  have hv' := View.reads_memory (triples.map (·.mapTerms (Term.relabel f)))
  have h := View.isRelabelled_memory f hf triples
  have hnamed : HasNamedTexts (distinct triples) := fun p hp s x hx => hn p hp s x ((mem_distinct _ _).1 hx)
  have hvalid := Rule.isValid_relabel h hv validator
  simp only [Validator.validate_eq_ok_iff, hvalid]
  constructor
  · constructor
    · rintro ⟨-, hgood, -⟩
      obtain ⟨index, hindex⟩ := buildIndex_ok_of_isValid hv' validator (hvalid.2 hgood)
      exact ⟨_, hgood, index, hindex, rfl⟩
    · rintro ⟨-, hgood, -⟩
      obtain ⟨index, hindex⟩ := buildIndex_ok_of_isValid hv validator hgood
      exact ⟨_, hgood, index, hindex, rfl⟩
  · rintro o o' ⟨hgood, index, hindex, rfl⟩ ⟨-, index', hindex', rfl⟩
    exact View.content_relabel h hv validator hgood hnamed index index' hindex hindex'

def blankPods : List Triple :=
  podsAll (.blank "c") (.blank "a") []

theorem hasNamedTexts_blankPods : HasNamedTexts blankPods := by
  intro p hp s x hx
  obtain ⟨-, ⟨-, rfl⟩ | ⟨-, rfl⟩ | ⟨-, rfl⟩ | ⟨-, rfl⟩ | ⟨rfl, -⟩⟩ | ⟨-, ⟨-, rfl⟩ | ⟨-, hx⟩⟩ :=
    (says_podsAll _ _ _ s x p).1 hx
  · rfl
  · rfl
  · rfl
  · rfl
  · exact absurd hp (by decide)
  · rfl
  · exact absurd hx List.not_mem_nil

theorem validate_blankPods : ∃ o,
    Validator.validate {} ⟨.ofList .memory blankPods, .empty 32, none, none⟩ = .ok o := by
  have hv : (View.ofStore (.ofList .memory blankPods)).Reads (distinct blankPods) :=
    View.reads_memory blankPods
  have hg : ∀ t ∈ distinct blankPods, t.IsStatement := fun t ht =>
    isStatement_podsAll _ _ [] rfl rfl (by simp) t ((mem_distinct t blankPods).1 ht)
  have hp : DescribesProgram (distinct blankPods) :=
    describesProgram_congr _ _ (fun t => (mem_distinct t blankPods).symm)
      (describesProgram_podsAll _ _ [] rfl (by simp))
  have hvalid := isValid_of_describesProgram hv hg {} hp
  obtain ⟨index, hindex⟩ := buildIndex_ok_of_isValid hv {} hvalid
  exact ⟨_, (Validator.validate_eq_ok_iff _ _ _).2 ⟨hvalid, index, hindex, rfl⟩⟩

/-- A program of blank nodes is accepted when their labels are exchanged, and its commands stay. -/
theorem validate_relabelled_blankPods :
    HasNamedTexts blankPods ∧
      Function.Injective (fun label => if label = "a" then "c" else if label = "c" then "a" else label) ∧
      ∃ o o', Validator.validate {} ⟨.ofList .memory blankPods, .empty 32, none, none⟩ = .ok o ∧
        Validator.validate {} ⟨.ofList .memory (blankPods.map (·.mapTerms (Term.relabel fun label =>
          if label = "a" then "c" else if label = "c" then "a" else label))), .empty 32, none, none⟩ =
            .ok o' ∧
        o'.index.commands.map Command.content = o.index.commands.map Command.content := by
  have hf : Function.Injective
      fun label => if label = "a" then "c" else if label = "c" then "a" else label := by
    intro x y hxy
    simp only at hxy
    split_ifs at hxy <;> simp_all
  obtain ⟨hiff, hsame⟩ := validate_relabelled blankPods hasNamedTexts_blankPods _ hf {} (.empty 32) none none
  obtain ⟨o, ho⟩ := validate_blankPods
  obtain ⟨o', ho'⟩ := hiff.1 ⟨o, ho⟩
  exact ⟨hasNamedTexts_blankPods, hf, o, o', ho, ho', hsame o o' ho ho'⟩

end CommandOntology
