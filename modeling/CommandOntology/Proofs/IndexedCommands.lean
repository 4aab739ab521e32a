import Mathlib.Data.String.Basic
import CommandOntology.Proofs.NamespaceRuns
import CommandOntology.Proofs.RearrangedCommands

set_option autoImplicit false

namespace CommandOntology

def CommandKey.IsBefore (a b : CommandKey) : Prop :=
  a.noun < b.noun ∨ a.noun = b.noun ∧ a.verb < b.verb

theorem CommandKey.isBefore_of_le {a b : CommandKey} (h : a.le b = true) (hne : a ≠ b) : a.IsBefore b := by
  unfold le at h
  by_cases hnoun : a.noun = b.noun
  · rw [if_neg (not_not_intro hnoun), decide_eq_true_eq] at h
    have hverb : a.verb ≠ b.verb := fun hverb => hne (congrArg₂ CommandKey.mk hnoun hverb)
    exact .inr ⟨hnoun, lt_of_le_of_ne h hverb⟩
  · rw [if_pos hnoun, decide_eq_true_eq] at h
    exact .inl (lt_of_le_of_ne h hnoun)

theorem CommandKey.IsBefore.noun_le {a b : CommandKey} (h : a.IsBefore b) : a.noun ≤ b.noun :=
  h.elim le_of_lt fun hnoun => hnoun.1.le

namespace CommandIndex

section

variable {groups : List (String × List Command)}

theorem addToGroup_eq_putField (c : Command) (groups : List (String × List Command)) :
    addToGroup c groups = putField groups c.noun ((findField groups c.noun).getD [] ++ [c]) := by
  induction groups with
  | nil => rfl
  | cons held groups ih =>
    obtain ⟨noun, commands⟩ := held
    rw [addToGroup, putField, findField_cons, ih]
    split_ifs with hnoun
    · rfl
    · rfl

/-- A command whose noun is the last so far comes behind all that are in groups. -/
theorem flatMap_addToGroup {c : Command} (hnouns : (groups.map (·.1)).Pairwise (· < ·))
    (hlast : ∀ noun ∈ groups.map (·.1), noun ≤ c.noun) :
    (addToGroup c groups).flatMap (·.2) = groups.flatMap (·.2) ++ [c] := by
  induction groups with
  | nil => rfl
  | cons held groups ih =>
    obtain ⟨noun, commands⟩ := held
    obtain ⟨hfirst, hrest⟩ := List.pairwise_cons.1 hnouns
    rw [addToGroup]
    split_ifs with hnoun
    · have hnone : groups = [] := by
        cases groups with
        | nil => rfl
        | cons next groups =>
          have hbefore : noun < next.1 := hfirst _ List.mem_cons_self
          have hbehind : next.1 ≤ c.noun := hlast _ (List.mem_cons_of_mem _ List.mem_cons_self)
          exact absurd (hnoun ▸ hbefore.trans_le hbehind) (lt_irrefl noun)
      simp [hnone]
    · rw [List.flatMap_cons, ih hrest fun noun hin => hlast noun (List.mem_cons_of_mem _ hin), List.flatMap_cons,
        List.append_assoc]

theorem group_append (commands : List Command) (c : Command) :
    group (commands ++ [c]) = addToGroup c (group commands) := by
  rw [group, List.foldl_append]
  rfl

theorem map_fst_group_append (commands : List Command) (c : Command) : (group (commands ++ [c])).map (·.1) =
    if c.noun ∈ (group commands).map (·.1) then (group commands).map (·.1)
    else (group commands).map (·.1) ++ [c.noun] := by
  rw [group_append, addToGroup_eq_putField, map_fst_putField]

theorem mem_map_fst_group (commands : List Command) (noun : String) :
    noun ∈ (group commands).map (·.1) ↔ noun ∈ commands.map (·.noun) := by
  induction commands using List.reverseRecOn with
  | nil => rfl
  | append_singleton commands c ih =>
    rw [map_fst_group_append, List.map_append, List.mem_append, ← ih]
    split_ifs with hin
    · constructor
      · exact .inl
      · rintro (hold | hnew)
        · exact hold
        · rwa [List.mem_singleton.1 hnew]
    · rw [List.mem_append]
      rfl

theorem findField_group (commands : List Command) (noun : String) :
    (findField (group commands) noun).getD [] = commands.filter (·.noun == noun) := by
  induction commands using List.reverseRecOn with
  | nil => rfl
  | append_singleton commands c ih =>
    rw [group_append, addToGroup_eq_putField, findField_putField, List.filter_append]
    by_cases hnoun : c.noun = noun
    · subst hnoun
      rw [if_pos rfl, ih]
      simp
    · rw [if_neg hnoun, ih]
      simp [hnoun]

theorem group_of_pairwise {commands : List Command}
    (hsorted : commands.Pairwise fun a b => a.noun ≤ b.noun) :
    ((group commands).map (·.1)).Pairwise (· < ·) ∧ (group commands).flatMap (·.2) = commands := by
  induction commands using List.reverseRecOn with
  | nil => exact ⟨.nil, rfl⟩
  | append_singleton commands c ih =>
    obtain ⟨hbefore, -, hbehind⟩ := List.pairwise_append.1 hsorted
    obtain ⟨hnouns, hconcat⟩ := ih hbefore
    have hlast : ∀ noun ∈ (group commands).map (·.1), noun ≤ c.noun := by
      intro noun hin
      obtain ⟨b, hb, rfl⟩ := List.mem_map.1 ((mem_map_fst_group commands noun).1 hin)
      exact hbehind b hb c (List.mem_singleton_self c)
    constructor
    · rw [map_fst_group_append]
      split_ifs with hin
      · exact hnouns
      · refine List.pairwise_append.2 ⟨hnouns, List.pairwise_singleton _ _, fun noun hold other hnew => ?_⟩
        rw [List.mem_singleton.1 hnew]
        exact lt_of_le_of_ne (hlast noun hold) (ne_of_mem_of_not_mem hold hin)
    · rw [group_append, flatMap_addToGroup hnouns hlast, hconcat]

end

/-- The key that is told is one that two commands share, or a command and those seen before. -/
theorem duplicate?_eq_some {seen : List CommandKey} {commands : List Command} {key : CommandKey}
    (h : duplicate? seen commands = some key) :
    key ∈ commands.map Command.key ∧ (key ∈ seen ∨ 1 < (commands.map Command.key).count key) := by
  induction commands generalizing seen with
  | nil => cases h
  | cons c rest ih =>
    rw [duplicate?] at h
    split_ifs at h with hseen
    · obtain rfl := Option.some.inj h
      exact ⟨List.mem_cons_self, .inl hseen⟩
    · obtain ⟨hin, hwhere⟩ := ih h
      refine ⟨List.mem_cons_of_mem _ hin, ?_⟩
      rw [List.mem_cons, or_assoc] at hwhere
      have hcount := List.count_pos_iff.2 hin
      rw [List.map_cons, List.count_cons]
      obtain rfl | hseen | hmany := hwhere
      · exact .inr (by simpa using hcount)
      · exact .inl hseen
      · exact .inr (Nat.lt_add_right _ hmany)

theorem ofList_eq_error_iff (commands : List Command) (key : CommandKey) :
    ofList commands = .error key ↔ duplicate? [] commands = some key := by
  rw [ofList]
  cases duplicate? [] commands with
  | none => simp
  | some other => simp

/-- What an index has to do with the commands that it was built from. It holds them in the strict order of their keys,
each is found by its key in every way, no other key is found in any way, a noun has its commands, and the nouns are in
strict order, with all the commands one after the other. -/
structure Represents (index : CommandIndex) (commands : List Command) : Prop where
  increasing : index.commands.Pairwise fun a b => a.key.IsBefore b.key
  perm : index.commands.Perm commands
  found : ∀ c ∈ commands, index.get? c.key = some c ∧ index.item c.key = .ok c ∧ index.lookup c.key = .ok c ∧
    index.contains c.key = true
  missing : ∀ key ∉ commands.map Command.key, index.get? key = none ∧ index.item key = .error key ∧
    index.lookup key = .error (missingMessage key) ∧ index.contains key = false
  commandsFor : ∀ noun, index.commandsFor noun = index.commands.filter (·.noun == noun)
  nouns : index.nouns.Pairwise (· < ·)
  groups : index.nouns.flatMap index.commandsFor = index.commands

theorem get?_eq_some_iff {index : CommandIndex} (hkeys : index.keys.Nodup) (key : CommandKey) (c : Command) :
    index.get? key = some c ↔ c ∈ index.commands ∧ c.key = key := by
  constructor
  · intro h
    have hkey := List.find?_some h
    exact ⟨List.mem_of_find?_eq_some h, beq_iff_eq.1 hkey⟩
  · rintro ⟨hc, rfl⟩
    cases hfind : index.get? c.key with
    | none => exact absurd (List.find?_eq_none.1 hfind c hc) (by simp)
    | some other =>
      have hkey := List.find?_some hfind
      rw [List.inj_on_of_nodup_map hkeys (List.mem_of_find?_eq_some hfind) hc (beq_iff_eq.1 hkey)]

theorem represents_ofList {commands : List Command} {index : CommandIndex} (h : ofList commands = .ok index) :
    index.Represents commands := by
  obtain ⟨hnodup, hcommands, hgroups⟩ := (ofList_eq_ok_iff commands index).1 h
  have hperm : index.commands.Perm commands := hcommands ▸ List.mergeSort_perm _ _
  have hkeys : index.keys.Nodup := (hperm.map Command.key).nodup_iff.2 hnodup
  have hsorted : index.commands.Pairwise fun a b => a.key.le b.key = true :=
    hcommands ▸ List.pairwise_mergeSort (fun a b c => CommandKey.le_trans a.key b.key c.key)
      (fun a b => CommandKey.le_total a.key b.key) commands
  have hincreasing : index.commands.Pairwise fun a b => a.key.IsBefore b.key :=
    hsorted.imp₂ (fun _ _ hle hne => CommandKey.isBefore_of_le hle hne) (List.pairwise_map.1 hkeys)
  have hnoun (noun : String) : index.commandsFor noun = index.commands.filter (·.noun == noun) := by
    rw [commandsFor, hgroups, findField_group]
  obtain ⟨hnouns, hconcat⟩ := group_of_pairwise (hincreasing.imp CommandKey.IsBefore.noun_le)
  rw [← hgroups] at hnouns hconcat
  refine ⟨hincreasing, hperm, fun c hc => ?_, fun key hkey => ?_, hnoun, hnouns, ?_⟩
  · have hget := (get?_eq_some_iff hkeys c.key c).2 ⟨hperm.mem_iff.2 hc, rfl⟩
    simp [lookup, item, contains, hget, Except.mapError]
  · have hget : index.get? key = none := by
      refine Option.eq_none_iff_forall_ne_some.2 fun c hc => hkey ?_
      obtain ⟨hin, rfl⟩ := (get?_eq_some_iff hkeys key c).1 hc
      exact List.mem_map_of_mem (hperm.mem_iff.1 hin)
    simp [lookup, item, contains, hget, Except.mapError]
  · have hown : ∀ held ∈ index.groups, index.commandsFor held.1 = held.2 := fun held hin => by
      rw [commandsFor, Turtle.findField_eq_some hnouns.nodup held hin, Option.getD_some]
    rw [nouns, List.flatMap_map, ← hconcat]
    exact List.flatMap_congr hown

theorem map_content_commands {commands : List Command} {index : CommandIndex} (h : ofList commands = .ok index) :
    index.commands.map Command.content =
      (commands.map Command.content).mergeSort fun a b => CommandKey.le a.key b.key := by
  rw [((ofList_eq_ok_iff commands index).1 h).2.1, map_content_sortByCommandKey]

/-- Two indexes are the same just if they were built from the same set of commands, wherever these were described. -/
theorem same_ofList_iff {commands others : List Command} {index index' : CommandIndex}
    (h : ofList commands = .ok index) (h' : ofList others = .ok index') :
    index.same index' = true ↔ ∀ c, c ∈ commands.map Command.content ↔ c ∈ others.map Command.content := by
  have hkeys {commands : List Command} {index : CommandIndex} (h : ofList commands = .ok index) :
      ((commands.map Command.content).map Command.key).Nodup := by
    rw [List.map_map]
    exact ((ofList_eq_ok_iff commands index).1 h).1
  rw [same, decide_eq_true_eq, map_content_commands h, map_content_commands h']
  constructor
  · intro hsame c
    rw [← List.mem_mergeSort, hsame, List.mem_mergeSort]
  · intro hsame
    exact sortByCommandKey_eq_of_perm _ _
      ((List.perm_ext_iff_of_nodup (hkeys h).of_map (hkeys h').of_map).2 hsame) (hkeys h)

/-- Commands have an index just if no two of them share a key, and otherwise a key that two of them share is told. The
index represents the commands, and it is the same as another one just if both have the same commands, wherever these
were described. -/
theorem ofList_represents (commands : List Command) :
    ((∃ key, ofList commands = .error key) ↔ ¬(commands.map Command.key).Nodup) ∧
      (∀ key, ofList commands = .error key → 1 < (commands.map Command.key).count key) ∧
      ∀ index, ofList commands = .ok index → index.Represents commands ∧
        ∀ others index', ofList others = .ok index' →
          (index.same index' = true ↔
            ∀ c, c ∈ commands.map Command.content ↔ c ∈ others.map Command.content) := by
  refine ⟨?_, fun key h => ?_, fun index h => ⟨represents_ofList h, fun others index' h' => same_ofList_iff h h'⟩⟩
  · have hkeys := duplicate?_eq_none_iff [] commands
    simp only [List.not_mem_nil, not_false_eq_true, implies_true, and_true] at hkeys
    simp only [ofList_eq_error_iff, ← Option.isSome_iff_exists, ← hkeys, Option.ne_none_iff_isSome]
  · have hshared := (duplicate?_eq_some ((ofList_eq_error_iff commands key).1 h)).2
    exact hshared.resolve_left List.not_mem_nil

theorem ofList_represents_pods :
    let commands := [listPods [allArgument] (some "urn:a"), getJobs (some "urn:b")]
    let others := [getJobs none, listPods [allArgument] none]
    ∃ index index', ofList commands = .ok index ∧ ofList others = .ok index' ∧ index.Represents commands ∧
      index.same index' = true := by
  intro commands others
  obtain ⟨index, hindex, -⟩ := exists_index commands (by decide)
  obtain ⟨index', hindex', -⟩ := exists_index others (by decide)
  obtain ⟨hrepresents, hsame⟩ := (ofList_represents commands).2.2 index hindex
  refine ⟨index, index', hindex, hindex', hrepresents, (hsame others index' hindex').2 fun c => ?_⟩
  have hswap : (commands.map Command.content).Perm (others.map Command.content) := .swap _ _ _
  exact hswap.mem_iff

end CommandIndex

end CommandOntology
