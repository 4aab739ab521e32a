import CommandOntology.Proofs.NormalForm
import CommandOntology.Proofs.PlannedCommands
import CommandOntology.Proofs.Validation

set_option autoImplicit false

namespace CommandOntology

open Generation

def Command.IsRearranged (c c' : Command) : Prop :=
  ∃ arguments iri, c.arguments.Perm arguments ∧ c' = { c with arguments, iri }

def Generation.GenerationError.unplaced : GenerationError → GenerationError
  | .missingProperty _ property => .missingProperty "" property
  | e => e

section

variable {α β : Type} {R : α → α → Prop} {xs ys : List α}

theorem map_eq_map_of_forall₂ (f : α → β) (hf : ∀ a b, R a b → f a = f b) (h : List.Forall₂ R xs ys) :
    xs.map f = ys.map f := by
  induction h with
  | nil => rfl
  | cons hab _ ih => rw [List.map_cons, List.map_cons, hf _ _ hab, ih]

theorem forall₂_and_map_eq (f : α → β) (h : List.Forall₂ R xs ys) (hf : xs.map f = ys.map f) :
    List.Forall₂ (fun a b => R a b ∧ f a = f b) xs ys := by
  induction h with
  | nil => exact .nil
  | cons hab _ ih =>
    obtain ⟨hfirst, hrest⟩ := List.cons_eq_cons.1 hf
    exact .cons ⟨hab, hfirst⟩ (ih hrest)

/-- Lists whose elements are related one by one are still so when both are put in an order that does not
tell related elements apart. -/
theorem forall₂_mergeSort (key : α → β) (le : β → β → Bool) (hkey : ∀ a b, R a b → key a = key b)
    (h : List.Forall₂ R xs ys) :
    List.Forall₂ R (xs.mergeSort fun a b => le (key a) (key b))
      (ys.mergeSort fun a b => le (key a) (key b)) := by
  -- Both are the sides of one list of pairs, which is sorted by the first sides.
  obtain ⟨pairs, hpairs, rfl, rfl⟩ : ∃ pairs : List (α × α), (∀ p ∈ pairs, R p.1 p.2) ∧
      pairs.map (·.1) = xs ∧ pairs.map (·.2) = ys := by
    induction h with
    | nil => exact ⟨[], by simp, rfl, rfl⟩
    | cons hab _ ih =>
      obtain ⟨pairs, hpairs, rfl, rfl⟩ := ih
      exact ⟨(_, _) :: pairs, List.forall_mem_cons.2 ⟨hab, hpairs⟩, rfl, rfl⟩
  let pairLe (p q : α × α) : Bool := le (key p.1) (key q.1)
  have hfst : (pairs.mergeSort pairLe).map (·.1) =
      (pairs.map (·.1)).mergeSort fun a b => le (key a) (key b) :=
    List.map_mergeSort fun _ _ _ _ => rfl
  have hsnd : (pairs.mergeSort pairLe).map (·.2) =
      (pairs.map (·.2)).mergeSort fun a b => le (key a) (key b) :=
    List.map_mergeSort fun p hp q hq => by
      simp only [pairLe, hkey _ _ (hpairs p hp), hkey _ _ (hpairs q hq)]
  rw [← hfst, ← hsnd, List.forall₂_map_left_iff, List.forall₂_map_right_iff, List.forall₂_same]
  exact fun p hp => hpairs p (List.mem_mergeSort.1 hp)

end

namespace Generation

section

variable {features : Features} {names : Names}

theorem planCommand_arguments (c : Command) {arguments : List Argument} (hp : c.arguments.Perm arguments)
    (hn : (c.arguments.map Argument.name).Nodup) :
    planCommand features names { c with arguments } = planCommand features names c := by
  have hsort : Argument.sort arguments = Argument.sort c.arguments :=
    (Argument.sort_eq_of_perm _ _ hp hn).symm
  unfold planCommand
  simp only [hsort]
  rfl

theorem planCommand_iri (c : Command) (iri : Option String) :
    (planCommand features names { c with iri }).mapError GenerationError.unplaced =
      (planCommand features names c).mapError GenerationError.unplaced := by
  have hmissing : missing? { c with iri } = missing? c := rfl
  unfold planCommand
  rw [hmissing]
  cases missing? c with
  | some property => rfl
  | none => rfl

theorem planCommand_rearranged {c c' : Command} (h : c.IsRearranged c')
    (hn : (c.arguments.map Argument.name).Nodup) :
    (planCommand features names c').mapError GenerationError.unplaced =
        (planCommand features names c).mapError GenerationError.unplaced ∧
      (c.iri = c'.iri → planCommand features names c' = planCommand features names c) := by
  obtain ⟨arguments, iri, hp, rfl⟩ := h
  refine ⟨?_, ?_⟩
  · rw [planCommand_iri { c with arguments } iri, planCommand_arguments c hp hn]
  · rintro rfl
    exact planCommand_arguments c hp hn

end

theorem mapError_bind {ε δ α β : Type} (x : Except ε α) (f : α → Except ε β) (g : ε → δ) :
    (x >>= f).mapError g = x.mapError g >>= fun a => (f a).mapError g := by
  cases x <;> rfl

/-- Commands that are rearranged one by one have the same plans. -/
theorem planCommands_rearranged {features : Features} {names : Names} {commands commands' : List Command}
    (h : List.Forall₂ Command.IsRearranged commands commands')
    (hn : ∀ c ∈ commands, (c.arguments.map Argument.name).Nodup) :
    (planCommands features names commands').mapError GenerationError.unplaced =
      (planCommands features names commands).mapError GenerationError.unplaced := by
  induction h generalizing names with
  | nil => rfl
  | cons hc _ ih =>
    obtain ⟨hfirst, hrest⟩ := List.forall_mem_cons.1 hn
    simp only [planCommands, mapError_bind, (planCommand_rearranged hc hfirst).1, ih hrest]

theorem planCommands_rearranged_of_iri {features : Features} {names : Names}
    {commands commands' : List Command}
    (h : List.Forall₂ (fun c c' => c.IsRearranged c' ∧ c.iri = c'.iri) commands commands')
    (hn : ∀ c ∈ commands, (c.arguments.map Argument.name).Nodup) :
    planCommands features names commands' = planCommands features names commands := by
  induction h generalizing names with
  | nil => rfl
  | cons hc _ ih =>
    obtain ⟨hfirst, hrest⟩ := List.forall_mem_cons.1 hn
    simp only [planCommands, (planCommand_rearranged hc.1 hfirst).2 hc.2, ih hrest]

end Generation

/-- What is generated depends on the set of commands: where the commands and the arguments of each stand in
another order and are described at other places, the outcome is the same module, or the same error but for
the place that it names. Where the places do not change, it is the very same error. -/
theorem generate_rearranged (commands between commands' : List Command) (hp : commands.Perm between)
    (hr : List.Forall₂ Command.IsRearranged between commands')
    (hkeys : (commands.map Command.key).Nodup)
    (hnames : ∀ c ∈ commands, (c.arguments.map Argument.name).Nodup) (generator : Generator)
    (features : Features) :
    ∃ index index', CommandIndex.ofList commands = .ok index ∧ CommandIndex.ofList commands' = .ok index' ∧
      (generator.generate features index').mapError GenerationError.unplaced =
        (generator.generate features index).mapError GenerationError.unplaced ∧
      (between.map (·.iri) = commands'.map (·.iri) →
        generator.generate features index' = generator.generate features index) := by
  have hbetween : (between.map Command.key).Nodup := (hp.map _).nodup_iff.1 hkeys
  have hkey (c c' : Command) (h : c.IsRearranged c') : c.key = c'.key := by
    obtain ⟨_, _, -, rfl⟩ := h
    rfl
  have hkeysEq := map_eq_map_of_forall₂ Command.key hkey hr
  obtain ⟨index, hindex, hcommands⟩ := exists_index commands hkeys
  obtain ⟨index', hindex', hcommands'⟩ := exists_index commands' (hkeysEq ▸ hbetween)
  rw [sortByCommandKey_eq_of_perm _ _ hp hkeys] at hcommands
  have hsorted : ∀ c ∈ index.commands, (c.arguments.map Argument.name).Nodup := by
    rw [hcommands]
    exact fun c hc => hnames c (hp.mem_iff.2 (List.mem_mergeSort.1 hc))
  refine ⟨index, index', hindex, hindex', ?_, fun hiris => ?_⟩
  · have hall := forall₂_mergeSort Command.key CommandKey.le hkey hr
    rw [← hcommands, ← hcommands'] at hall
    simp only [Generator.generate, mapError_bind, plan, planCommands_rearranged hall hsorted]
  · have hall := forall₂_mergeSort Command.key CommandKey.le (fun c c' h => hkey c c' (And.left h))
      (forall₂_and_map_eq Command.iri hr hiris)
    rw [← hcommands, ← hcommands'] at hall
    simp only [Generator.generate, plan, planCommands_rearranged_of_iri hall hsorted]

def listPods (arguments : List Argument) (iri : Option String) : Command :=
  { noun := "pods", verb := "list", arguments, handler := some "app:list", handlers := ["app:list"], iri }

def getJobs (iri : Option String) : Command :=
  { noun := "jobs", verb := "get", handler := some "app:get", handlers := ["app:get"], iri }

def allArgument : Argument := { name := "all", typeTag := "bool" }

def limitArgument : Argument := { name := "limit", typeTag := "int", default := some "5", position := some 0 }

theorem generate_rearranged_pods :
    let commands := [listPods [allArgument, limitArgument] (some "urn:a"), getJobs (some "urn:b")]
    let commands' := [getJobs none, listPods [limitArgument, allArgument] (some "urn:c")]
    (commands.map Command.key).Nodup ∧ (∀ c ∈ commands, (c.arguments.map Argument.name).Nodup) ∧
      ∃ index index', CommandIndex.ofList commands = .ok index ∧ CommandIndex.ofList commands' = .ok index' ∧
        ((Generator.ofName (.text "pods") "1.0.0").generate .none index').mapError GenerationError.unplaced =
          ((Generator.ofName (.text "pods") "1.0.0").generate .none index).mapError
            GenerationError.unplaced := by
  intro commands commands'
  have hkeys : (commands.map Command.key).Nodup := by decide
  have hnames : ∀ c ∈ commands, (c.arguments.map Argument.name).Nodup := by decide
  obtain ⟨index, index', hindex, hindex', hsame, -⟩ := generate_rearranged commands
    [getJobs (some "urn:b"), listPods [allArgument, limitArgument] (some "urn:a")] commands' (.swap _ _ _)
    (.cons ⟨[], none, .nil, rfl⟩ (.cons ⟨[limitArgument, allArgument], some "urn:c", .swap _ _ _, rfl⟩ .nil))
    hkeys hnames (.ofName (.text "pods") "1.0.0") .none
  exact ⟨hkeys, hnames, index, index', hindex, hindex', hsame⟩

end CommandOntology
