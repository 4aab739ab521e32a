import Mathlib.Data.List.Nodup
import CommandOntology.Definition.Basic
import CommandOntology.Export.Statements
import CommandOntology.Ontology.Validation
import CommandOntology.Proofs.Distinct
import CommandOntology.Proofs.TermOrder

set_option autoImplicit false

namespace CommandOntology

/-- Lists of the same elements, both in an order that tells the elements apart, are the same. -/
theorem mergeSort_eq_of_perm {α : Type} (le : α → α → Bool)
    (trans : ∀ a b c, le a b = true → le b c = true → le a c = true)
    (total : ∀ a b, (le a b || le b a) = true) (xs ys : List α) (hp : xs.Perm ys)
    (antisymm : ∀ a ∈ xs, ∀ b ∈ xs, le a b = true → le b a = true → a = b) :
    xs.mergeSort le = ys.mergeSort le := by
  have hperm := (List.mergeSort_perm xs le).trans (hp.trans (List.mergeSort_perm ys le).symm)
  refine hperm.eq_of_pairwise ?_ (List.pairwise_mergeSort trans total xs)
    (List.pairwise_mergeSort trans total ys)
  intro a b ha hb
  exact antisymm a (List.mem_mergeSort.1 ha) b (hp.mem_iff.2 (List.mem_mergeSort.1 hb))

theorem sortTexts_eq_of_perm (xs ys : List String) (h : xs.Perm ys) : sortTexts xs = sortTexts ys :=
  mergeSort_eq_of_perm _ textLe_trans textLe_total xs ys h fun a _ b _ => textLe_antisymm a b

theorem sortTexts_ordered (texts : List String) :
    sortTexts (Export.ordered texts) = Export.ordered texts :=
  List.mergeSort_of_pairwise (List.pairwise_mergeSort textLe_trans textLe_total _)

theorem mem_ordered (text : String) (texts : List String) :
    text ∈ Export.ordered texts ↔ text ∈ texts := by
  rw [Export.ordered, List.mem_mergeSort, mem_distinct]

theorem nodup_ordered (texts : List String) : (Export.ordered texts).Nodup :=
  (List.mergeSort_perm _ _).nodup_iff.2 (nodup_distinct texts)

theorem ordered_ordered (texts : List String) :
    Export.ordered (Export.ordered texts) = Export.ordered texts := by
  have h := sortTexts_ordered texts
  rwa [Export.ordered, distinct_eq_self _ (nodup_ordered texts)]

theorem ordered_eq_nil_iff (texts : List String) : Export.ordered texts = [] ↔ texts = [] := by
  simp only [List.eq_nil_iff_forall_not_mem, mem_ordered]

section

variable {α β : Type} [DecidableEq β] (first : α → β) (le₁ : β → β → Bool) (le₂ : α → α → Bool)

/-- The order by a first key, where the second order decides among elements of the same key. -/
def lexLe (a b : α) : Bool :=
  if first a ≠ first b then le₁ (first a) (first b) else le₂ a b

theorem lexLe_trans (trans₁ : ∀ a b c, le₁ a b = true → le₁ b c = true → le₁ a c = true)
    (antisymm₁ : ∀ a b, le₁ a b = true → le₁ b a = true → a = b)
    (trans₂ : ∀ a b c, le₂ a b = true → le₂ b c = true → le₂ a c = true) (a b c : α)
    (hab : lexLe first le₁ le₂ a b = true) (hbc : lexLe first le₁ le₂ b c = true) :
    lexLe first le₁ le₂ a c = true := by
  unfold lexLe at *
  by_cases h₁ : first a = first b
  · by_cases h₂ : first b = first c
    · simp_all only [ne_eq, not_true_eq_false, if_false]
      exact trans₂ a b c hab hbc
    · simp_all
  · by_cases h₂ : first b = first c
    · simp_all
    · simp only [ne_eq, h₁, h₂, not_false_eq_true, if_true] at hab hbc
      by_cases h₃ : first a = first c
      · exact absurd (antisymm₁ _ _ hab (h₃ ▸ hbc)) h₁
      · simpa [h₃] using trans₁ _ _ _ hab hbc

theorem lexLe_total (total₁ : ∀ a b, (le₁ a b || le₁ b a) = true)
    (total₂ : ∀ a b, (le₂ a b || le₂ b a) = true) (a b : α) :
    (lexLe first le₁ le₂ a b || lexLe first le₁ le₂ b a) = true := by
  unfold lexLe
  by_cases h : first a = first b
  · simpa [h] using total₂ a b
  · simpa [h, Ne.symm h] using total₁ (first a) (first b)

theorem lexLe_antisymm (antisymm₁ : ∀ a b, le₁ a b = true → le₁ b a = true → a = b) (a b : α)
    (hab : lexLe first le₁ le₂ a b = true) (hba : lexLe first le₁ le₂ b a = true) :
    first a = first b ∧ le₂ a b = true ∧ le₂ b a = true := by
  unfold lexLe at *
  by_cases h : first a = first b
  · simp_all
  · simp only [ne_eq, h, Ne.symm h, not_false_eq_true, if_true] at hab hba
    exact absurd (antisymm₁ _ _ hab hba) h

end

theorem CommandKey.le_eq :
    CommandKey.le = lexLe CommandKey.noun (fun a b => decide (a ≤ b))
      fun a b => decide (a.verb ≤ b.verb) :=
  rfl

theorem CommandKey.le_trans (a b c : CommandKey) (hab : a.le b = true) (hbc : b.le c = true) :
    a.le c = true := by
  rw [le_eq] at *
  exact lexLe_trans _ _ _ textLe_trans textLe_antisymm
    (fun x y z => textLe_trans x.verb y.verb z.verb) a b c hab hbc

theorem CommandKey.le_total (a b : CommandKey) : (a.le b || b.le a) = true := by
  rw [le_eq]
  have hverb (x y : CommandKey) : (decide (x.verb ≤ y.verb) || decide (y.verb ≤ x.verb)) = true :=
    textLe_total x.verb y.verb
  exact lexLe_total _ _ _ textLe_total hverb a b

theorem CommandKey.le_antisymm (a b : CommandKey) (hab : a.le b = true) (hba : b.le a = true) :
    a = b := by
  rw [le_eq] at *
  obtain ⟨hn, hab, hba⟩ := lexLe_antisymm _ _ _ textLe_antisymm a b hab hba
  have hv := textLe_antisymm _ _ hab hba
  cases a
  cases b
  simp_all

theorem Argument.le_eq :
    Argument.le = lexLe Argument.position Argument.positionLe fun a b => decide (a.name ≤ b.name) :=
  rfl

theorem Argument.positionLe_trans (a b c : Option Int) (hab : positionLe a b = true)
    (hbc : positionLe b c = true) : positionLe a c = true := by
  cases a <;> cases b <;> cases c <;> simp_all [positionLe]
  omega

theorem Argument.positionLe_total (a b : Option Int) :
    (positionLe a b || positionLe b a) = true := by
  cases a <;> cases b <;> simp [positionLe]
  omega

theorem Argument.positionLe_antisymm (a b : Option Int) (hab : positionLe a b = true)
    (hba : positionLe b a = true) : a = b := by
  cases a <;> cases b <;> simp_all [positionLe]
  omega

theorem Argument.le_trans (a b c : Argument) (hab : a.le b = true) (hbc : b.le c = true) :
    a.le c = true := by
  rw [le_eq] at *
  exact lexLe_trans _ _ _ positionLe_trans positionLe_antisymm
    (fun x y z => textLe_trans x.name y.name z.name) a b c hab hbc

theorem Argument.le_total (a b : Argument) : (a.le b || b.le a) = true := by
  rw [le_eq]
  have hname (x y : Argument) : (decide (x.name ≤ y.name) || decide (y.name ≤ x.name)) = true :=
    textLe_total x.name y.name
  exact lexLe_total _ _ _ positionLe_total hname a b

theorem Argument.name_eq_of_le (a b : Argument) (hab : a.le b = true) (hba : b.le a = true) :
    a.name = b.name := by
  rw [le_eq] at *
  obtain ⟨-, hab, hba⟩ := lexLe_antisymm _ _ _ positionLe_antisymm a b hab hba
  exact textLe_antisymm _ _ hab hba

/-- The order of arguments with different names depends on the arguments alone. -/
theorem Argument.sort_eq_of_perm (xs ys : List Argument) (hp : xs.Perm ys)
    (hn : (xs.map Argument.name).Nodup) : Argument.sort xs = Argument.sort ys :=
  mergeSort_eq_of_perm _ le_trans le_total xs ys hp fun a ha b hb hab hba =>
    List.inj_on_of_nodup_map hn ha hb (name_eq_of_le a b hab hba)

/-- The order of commands with different keys depends on the commands alone. -/
theorem sortByCommandKey_eq_of_perm (xs ys : List Command) (hp : xs.Perm ys)
    (hn : (xs.map Command.key).Nodup) :
    (xs.mergeSort fun a b => CommandKey.le a.key b.key) =
      ys.mergeSort fun a b => CommandKey.le a.key b.key :=
  mergeSort_eq_of_perm _ (fun a b c => CommandKey.le_trans a.key b.key c.key)
    (fun a b => CommandKey.le_total a.key b.key) xs ys hp fun _ ha _ hb hab hba =>
      List.inj_on_of_nodup_map hn ha hb (CommandKey.le_antisymm _ _ hab hba)

theorem map_content_sortByCommandKey (commands : List Command) :
    (commands.mergeSort fun a b => CommandKey.le a.key b.key).map Command.content =
      (commands.map Command.content).mergeSort fun a b => CommandKey.le a.key b.key :=
  List.map_mergeSort fun _ _ _ _ => rfl

def normalHelp (help : Option String) : Option String :=
  help.filter (· ≠ "")

def normalArgument (a : Argument) : Argument :=
  { a with
    typeTag := TypeTag.normalize a.typeTag
    validators := Export.ordered a.validators
    help := normalHelp a.help }

theorem names_sort_normalArgument (arguments : List Argument) :
    ((Argument.sort (arguments.map normalArgument)).map Argument.name).Perm
      (arguments.map Argument.name) := by
  have hsort := (List.mergeSort_perm (arguments.map normalArgument) Argument.le).map Argument.name
  rwa [List.map_map] at hsort

/-- A command as it is read from an export, without the place where it was described. -/
def normalCommand (c : CommandDefinition) : Command where
  noun := c.noun
  verb := c.verb
  arguments := Argument.sort (c.arguments.map normalArgument)
  capabilities := Export.ordered c.capabilities
  help := normalHelp c.help
  handler := (Export.ordered c.handlers).head?
  handlers := Export.ordered c.handlers
  iri := none

def normalCommands (d : Definition) : List Command :=
  (d.commands.map normalCommand).mergeSort fun a b => CommandKey.le a.key b.key

end CommandOntology
