import Mathlib.Data.String.Basic
import CommandOntology.Proofs.ExportedTerms
import CommandOntology.Proofs.ExportedView
import CommandOntology.Proofs.ValidatedCommands

set_option autoImplicit false

namespace CommandOntology

open Export View

def IsOrderedSetOf (xs texts : List String) : Prop :=
  xs.Pairwise (· < ·) ∧ ∀ text, text ∈ xs ↔ text ∈ texts

theorem isOrderedSetOf_ordered (texts : List String) : IsOrderedSetOf (ordered texts) texts := by
  refine ⟨?_, fun text => mem_ordered text texts⟩
  have hle := List.pairwise_mergeSort textLe_trans textLe_total (distinct texts)
  refine (hle.and (nodup_ordered texts)).imp fun ⟨hab, hne⟩ => ?_
  exact lt_of_le_of_ne (of_decide_eq_true hab) hne

/-- An argument comes before another: by position, where none is the last, and then by name. -/
def Argument.Precedes (a b : Argument) : Prop :=
  match a.position, b.position with
  | some m, some n => m < n ∨ m = n ∧ a.name < b.name
  | some _, none => True
  | none, some _ => False
  | none, none => a.name < b.name

theorem Argument.precedes_of_le (a b : Argument) (hab : a.le b = true) (hne : a.name ≠ b.name) :
    a.Precedes b := by
  have hlt (h : a.name ≤ b.name) : a.name < b.name := lt_of_le_of_ne h hne
  unfold Precedes
  unfold le positionLe at hab
  cases ha : a.position with
  | none => cases hb : b.position with
    | none => exact hlt (by simpa [ha, hb] using hab)
    | some n => simp [ha, hb] at hab
  | some m => cases hb : b.position with
    | none => trivial
    | some n =>
      by_cases hmn : m = n
      · exact .inr ⟨hmn, hlt (by simpa [ha, hb, hmn] using hab)⟩
      · exact .inl (lt_of_le_of_ne (by simpa [ha, hb, hmn] using hab) hmn)

def CommandKey.Precedes (a b : CommandKey) : Prop :=
  a.noun < b.noun ∨ a.noun = b.noun ∧ a.verb < b.verb

theorem CommandKey.precedes_of_le (a b : CommandKey) (hab : a.le b = true) (hne : a ≠ b) :
    a.Precedes b := by
  unfold le at hab
  by_cases hnoun : a.noun = b.noun
  · refine .inr ⟨hnoun, lt_of_le_of_ne (by simpa [hnoun] using hab) fun hverb => hne ?_⟩
    cases a
    cases b
    simp_all
  · exact .inl (lt_of_le_of_ne (by simpa [hnoun] using hab) hnoun)

theorem pairwise_of_pairwise_le {α κ : Type} (le : α → α → Bool) (key : α → κ) (precedes : α → α → Prop)
    (hprecedes : ∀ a b, le a b = true → key a ≠ key b → precedes a b) (xs : List α)
    (hle : xs.Pairwise fun a b => le a b = true) (hn : (xs.map key).Nodup) : xs.Pairwise precedes :=
  (hle.and (List.pairwise_map.1 hn)).imp fun ⟨hab, hne⟩ => hprecedes _ _ hab hne

structure Argument.IsReadFrom (x a : Argument) : Prop where
  name : x.name = a.name
  required : x.required = a.required
  default : x.default = a.default
  position : x.position = a.position
  typeTag : x.typeTag = TypeTag.normalize a.typeTag
  validators : IsOrderedSetOf x.validators a.validators
  help : x.help = a.help.filter (· ≠ "")

structure Command.IsReadFrom (base : String) (x : Command) (c : CommandDefinition) : Prop where
  noun : x.noun = c.noun
  verb : x.verb = c.verb
  help : x.help = c.help.filter (· ≠ "")
  handlers : IsOrderedSetOf x.handlers c.handlers
  handler : x.handler = x.handlers.head?
  capabilities : IsOrderedSetOf x.capabilities c.capabilities
  arguments : ∃ as, as.Perm c.arguments ∧ List.Forall₂ Argument.IsReadFrom x.arguments as
  argumentsInOrder : x.arguments.Pairwise Argument.Precedes
  iri : x.iri = some (commandIri base c.key)

theorem normalArgument_isReadFrom (a : Argument) : (normalArgument a).IsReadFrom a where
  name := rfl
  required := rfl
  default := rfl
  position := rfl
  typeTag := rfl
  validators := isOrderedSetOf_ordered a.validators
  help := rfl

/-- Elements that stand for others, in any order, stand for these in some order. -/
theorem exists_forall₂_of_perm_map {α β : Type} (R : β → α → Prop) (f : α → β) (ys : List β) (xs : List α)
    (hp : ys.Perm (xs.map f)) (hf : ∀ a ∈ xs, R (f a) a) : ∃ xs', xs'.Perm xs ∧ List.Forall₂ R ys xs' := by
  have hmap : List.Forall₂ R (xs.map f) xs := List.forall₂_map_left_iff.2 (List.forall₂_same.2 hf)
  obtain ⟨xs', hall, hperm⟩ := List.perm_comp_forall₂ hp hmap
  exact ⟨xs', hperm, hall⟩

theorem placedCommand_isReadFrom (base : String) (c : CommandDefinition)
    (hn : (c.arguments.map Argument.name).Nodup) : (placedCommand base c).IsReadFrom base c where
  noun := rfl
  verb := rfl
  help := rfl
  handlers := isOrderedSetOf_ordered c.handlers
  handler := rfl
  capabilities := isOrderedSetOf_ordered c.capabilities
  arguments := exists_forall₂_of_perm_map _ normalArgument _ _ (List.mergeSort_perm _ _)
    fun a _ => normalArgument_isReadFrom a
  argumentsInOrder :=
    pairwise_of_pairwise_le Argument.le Argument.name _ Argument.precedes_of_le _
      (List.pairwise_mergeSort Argument.le_trans Argument.le_total _)
      ((names_sort_normalArgument c.arguments).nodup_iff.2 hn)
  iri := rfl

/-- The statements about a definition whose arguments have names are validated without errors, and each
of its commands is found once, the commands in the order of their keys. -/
theorem validate_statements (base : String) (d : Definition) (ts : List Triple)
    (hts : statements base d = .ok ts) (hn : HasNamedArguments d) (validator : Validator)
    (backend : Backend) (namespaces : Namespaces) (documentBase : Option String)
    (own : Option Validator) :
    ∃ o, validator.validate ⟨.ofList backend ts, namespaces, documentBase, own⟩ = .ok o ∧
      o.report.errors = [] ∧
      (∃ cs, cs.Perm d.commands ∧ List.Forall₂ (Command.IsReadFrom base) o.index.commands cs) ∧
      (o.index.commands.map Command.key).Pairwise CommandKey.Precedes := by
  obtain ⟨hd, -⟩ := (statements_eq_ok_iff base d ts).1 hts
  have hshows : (View.ofStore (.ofList backend ts)).Shows (distinct ts) base d :=
    ⟨hd, View.reads_ofList backend ts (areSettled_statements hts), fun t => by
      rw [mem_distinct, mem_statements_iff base d ts hts]⟩
  -- From here on only what the view shows counts, not which store it reads.
  have hvalid := (hshows.isValid_iff validator).2 hn
  obtain ⟨index, hindex, hcommands⟩ := hshows.buildIndex_eq_ok
  refine ⟨_, (validator.validate_eq_ok_iff _ _).2 ⟨hvalid, index, hindex, rfl⟩,
    List.isEmpty_iff.1 hvalid, ?_, ?_⟩
  · have hperm : index.commands.Perm (d.commands.map (placedCommand base)) := by
      rw [hcommands]
      exact List.mergeSort_perm _ _
    exact exists_forall₂_of_perm_map _ _ _ _ hperm fun c hc =>
      placedCommand_isReadFrom base c (hd.names c hc)
  · rw [List.pairwise_map]
    refine pairwise_of_pairwise_le _ Command.key _ (fun a b => CommandKey.precedes_of_le a.key b.key) _ ?_
      (buildIndex_eq_ok _ _ hindex).1
    rw [hcommands]
    exact List.pairwise_mergeSort (fun a b c => CommandKey.le_trans a.key b.key c.key)
      (fun a b => CommandKey.le_total a.key b.key) _

/-- A program whose lists repeat texts, with an argument that has no position before one that has. -/
def copyProgram : Definition :=
  { commands := [
      { noun := "files", verb := "copy", help := some "", handlers := ["b:copy", "a:copy", "b:copy"],
        capabilities := ["write", "read", "write"],
        arguments := [{ name := "force", typeTag := " Bool ", help := some "Replace files" },
          { name := "to/from", typeTag := "xsd:anyURI", required := true, validators := ["path", "path"],
            position := some (-1) }] },
      { noun := "files", verb := "clear", handlers := ["a:clear"] }] }

theorem validate_statements_copyProgram :
    HasNamedArguments copyProgram ∧ ∃ ts, statements "https://example.org/cli#" copyProgram = .ok ts ∧
      ∃ o, ({} : Validator).validate ⟨.ofList .memory ts, .empty 32, none, none⟩ = .ok o ∧
        o.report.errors = [] ∧
        (∃ cs, cs.Perm copyProgram.commands ∧
          List.Forall₂ (Command.IsReadFrom "https://example.org/cli#") o.index.commands cs) ∧
        (o.index.commands.map Command.key).Pairwise CommandKey.Precedes := by
  have hnamed : HasNamedArguments copyProgram := by
    have hforce : ∃ x ∈ "force".toList, Text.isBlank x = false := ⟨'f', by simp, by decide⟩
    have hpath : ∃ x ∈ "to/from".toList, Text.isBlank x = false := ⟨'t', by simp, by decide⟩
    simpa only [HasNamedArguments, copyProgram, List.forall_mem_cons, List.not_mem_nil, false_implies,
      implies_true, and_true] using And.intro hforce hpath
  have hshort : ∀ c ∈ copyProgram.commands, ∀ a ∈ c.arguments,
      a.position = none ∨ a.position = some (-1) := by decide
  have hd : IsExportable copyProgram := by
    refine ⟨by decide, by decide, by decide, fun c hc a ha n hn => ?_⟩
    obtain h | h := hshort c hc a ha
    · rw [h] at hn
      cases hn
    · rw [h] at hn
      cases hn
      decide
  have hts := (statements_eq_ok_iff "https://example.org/cli#" copyProgram _).2 ⟨hd, rfl⟩
  exact ⟨hnamed, _, hts, validate_statements _ _ _ hts hnamed {} .memory _ _ _⟩

end CommandOntology
