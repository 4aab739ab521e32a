import Mathlib.Data.List.Perm.Basic
import Mathlib.Order.Lattice
import Mathlib.Tactic.SplitIfs
import CommandOntology.Data.Sorting

set_option autoImplicit false

namespace CommandOntology

section

variable {α : Type} (less : α → α → Bool)

theorem insertSorted_perm (sorted : List α) (x : α) :
    (insertSorted less sorted x).Perm (x :: sorted) := by
  unfold insertSorted
  refine List.perm_middle.trans ?_
  rw [List.take_append_drop]

theorem descendingRun_append (last : α) (xs : List α) :
    (descendingRun less last xs).1 ++ (descendingRun less last xs).2 = xs := by
  induction xs generalizing last with
  | nil => rfl
  | cons x xs ih =>
    unfold descendingRun
    split_ifs
    · exact congrArg (x :: ·) (ih x)
    · rfl

theorem ascendingRun_append (last : α) (xs : List α) :
    (ascendingRun less last xs).1 ++ (ascendingRun less last xs).2 = xs := by
  induction xs generalizing last with
  | nil => rfl
  | cons x xs ih =>
    unfold ascendingRun
    split_ifs
    · rfl
    · exact congrArg (x :: ·) (ih x)

theorem initialRun_perm (xs : List α) : ((initialRun less xs).1 ++ (initialRun less xs).2).Perm xs := by
  unfold initialRun
  split
  · rfl
  · rfl
  next x y xs =>
    split_ifs
    · have happend := congrArg (x :: ·) (descendingRun_append less x (y :: xs))
      exact ((List.reverse_perm _).append_right _).trans (.of_eq happend)
    · exact .of_eq (congrArg (x :: ·) (ascendingRun_append less x (y :: xs)))

theorem stableSort_perm (xs : List α) : (stableSort less xs).Perm xs := by
  have hfold (rest run : List α) : (rest.foldl (insertSorted less) run).Perm (run ++ rest) := by
    induction rest generalizing run with
    | nil => simp
    | cons x rest ih =>
      refine (ih _).trans ?_
      exact ((insertSorted_perm less run x).append_right rest).trans List.perm_middle.symm
  exact (hfold _ _).trans (initialRun_perm less xs)

theorem stableSortDescending_perm (xs : List α) : (stableSortDescending less xs).Perm xs :=
  (List.reverse_perm _).trans ((stableSort_perm less _).trans (List.reverse_perm _))

end

def tied {α : Type} (before : α → α → Bool) (x y : α) : Bool :=
  !before x y && !before y x

/-- Elements among which an order ranks: none comes before another that comes before it, and what is not
behind something that is not behind a third is not behind the third. -/
structure Ranks {α : Type} (before : α → α → Bool) (among : α → Prop) : Prop where
  asymm : ∀ {x y}, among x → among y → before x y = true → before y x = false
  trans : ∀ {x y z}, among x → among y → among z → before y x = false → before z y = false →
    before z x = false

namespace Ranks

theorem of_place {α γ : Type} [LinearOrder γ] {before : α → α → Bool} {among : α → Prop}
    (place : α → γ) (h : ∀ {x y}, among x → among y → (before x y = true ↔ place x < place y)) :
    Ranks before among where
  asymm hx hy hxy := by
    rw [Bool.eq_false_iff, Ne, h hy hx]
    exact lt_asymm ((h hx hy).1 hxy)
  trans hx hy hz hyx hzy := by
    rw [Bool.eq_false_iff, Ne, h hz hx, not_lt]
    rw [Bool.eq_false_iff, Ne, h hy hx, not_lt] at hyx
    rw [Bool.eq_false_iff, Ne, h hz hy, not_lt] at hzy
    exact le_trans hyx hzy

variable {α : Type} {before : α → α → Bool} {among : α → Prop} (h : Ranks before among) {x y z : α}

include h

theorem irrefl (hx : among x) : before x x = false := by
  cases hxx : before x x with
  | false => rfl
  | true => exact hxx.symm.trans (h.asymm hx hx hxx)

theorem before_of_not_of_before (hx : among x) (hy : among y) (hz : among z) (hxy : before y x = false)
    (hyz : before y z = true) : before x z = true := by
  by_contra hxz
  rw [h.trans hz hx hy (Bool.eq_false_iff.2 hxz) hxy] at hyz
  cases hyz

theorem before_of_before_of_not (hx : among x) (hy : among y) (hz : among z) (hxy : before x y = true)
    (hyz : before z y = false) : before x z = true := by
  by_contra hxz
  rw [h.trans hy hz hx hyz (Bool.eq_false_iff.2 hxz)] at hxy
  cases hxy

theorem before_trans (hx : among x) (hy : among y) (hz : among z) (hxy : before x y = true)
    (hyz : before y z = true) : before x z = true :=
  h.before_of_before_of_not hx hy hz hxy (h.asymm hy hz hyz)

theorem tied_congr (hx : among x) (hy : among y) (hz : among z) (hxy : tied before x y = true) :
    tied before x z = tied before y z := by
  simp only [tied, Bool.and_eq_true, Bool.not_eq_true'] at hxy
  have hleft : before x z = before y z := by
    rw [Bool.eq_iff_iff]
    exact ⟨h.before_of_not_of_before hy hx hz hxy.1, h.before_of_not_of_before hx hy hz hxy.2⟩
  have hright : before z x = before z y := by
    rw [Bool.eq_iff_iff]
    exact ⟨fun hzx => h.before_of_before_of_not hz hx hy hzx hxy.2,
      fun hzy => h.before_of_before_of_not hz hy hx hzy hxy.1⟩
  rw [tied, tied, hleft, hright]

/-- Of elements each of which comes before the preceding ones, no two are tied to one. -/
theorem length_filter_tied_le (hx : among x) {ys : List α} (hys : ∀ y ∈ ys, among y)
    (hordered : ys.Pairwise fun y z => before z y = true) : (ys.filter (tied before x)).length ≤ 1 := by
  have htied : ∀ y ∈ ys.filter (tied before x), among y ∧ tied before x y = true := fun y hy =>
    ⟨hys y (List.mem_filter.1 hy).1, (List.mem_filter.1 hy).2⟩
  have hordered := hordered.filter (tied before x)
  generalize ys.filter (tied before x) = zs at *
  match zs with
  | [] => exact Nat.zero_le 1
  | [_] => exact Nat.le_refl 1
  | y :: z :: zs =>
    obtain ⟨⟨hy, hxy⟩, hrest⟩ := List.forall_mem_cons.1 htied
    obtain ⟨hz, hxz⟩ := hrest z List.mem_cons_self
    have hyz := (h.tied_congr hx hy hz hxy).symm.trans hxz
    have hzy := List.rel_of_pairwise_cons hordered (List.mem_cons_self (a := z) (l := zs))
    simp [tied, hzy] at hyz

end Ranks

/-- A list has the elements of another in order, and those that are tied as they stood there. -/
structure IsStablyOrdered {α : Type} (before : α → α → Bool) (xs ys : List α) : Prop where
  perm : ys.Perm xs
  ordered : ys.Pairwise fun x y => before y x = false
  ties : ∀ x ∈ xs, ys.filter (tied before x) = xs.filter (tied before x)

namespace IsStablyOrdered

variable {α : Type} {before : α → α → Bool}

theorem of_pairwise {xs : List α} (h : xs.Pairwise fun x y => before y x = false) :
    IsStablyOrdered before xs xs :=
  ⟨.refl xs, h, fun _ _ => rfl⟩

/-- The list in order is determined: its first element comes before or is tied to all others, and among
those it is the one that stood first. -/
theorem unique {xs ys zs : List α} (hirrefl : ∀ x ∈ xs, before x x = false)
    (hy : IsStablyOrdered before xs ys) (hz : IsStablyOrdered before xs zs) : ys = zs := by
  have hperm := hy.perm.trans hz.perm.symm
  have hties : ∀ x ∈ ys, ys.filter (tied before x) = zs.filter (tied before x) := fun x hx =>
    (hy.ties x (hy.perm.mem_iff.1 hx)).trans (hz.ties x (hy.perm.mem_iff.1 hx)).symm
  have hirrefl : ∀ x ∈ ys, before x x = false := fun x hx => hirrefl x (hy.perm.mem_iff.1 hx)
  have hordered := hy.ordered
  have hordered' := hz.ordered
  clear hy hz
  -- The first element is tied to the other list's first, and ties stand as they stood.
  induction ys generalizing zs with
  | nil => exact (List.Perm.nil_eq hperm)
  | cons y ys ih =>
    cases zs with
    | nil => exact absurd hperm.symm.nil_eq (by simp)
    | cons z zs =>
      have hself := hirrefl y List.mem_cons_self
      have hzy : before z y = false := by
        obtain rfl | hin := List.mem_cons.1 (hperm.mem_iff.2 (List.mem_cons_self (a := z)))
        · exact hself
        · exact List.rel_of_pairwise_cons hordered hin
      have hyz : before y z = false := by
        obtain rfl | hin := List.mem_cons.1 (hperm.mem_iff.1 (List.mem_cons_self (a := y)))
        · exact hself
        · exact List.rel_of_pairwise_cons hordered' hin
      have hhead := hties y List.mem_cons_self
      rw [List.filter_cons_of_pos (by simp [tied, hself]),
        List.filter_cons_of_pos (by simp [tied, hzy, hyz])] at hhead
      obtain rfl := (List.cons.inj hhead).1
      have hties' : ∀ x ∈ ys, ys.filter (tied before x) = zs.filter (tied before x) := by
        intro x hx
        have hfilter := hties x (List.mem_cons_of_mem y hx)
        rw [List.filter_cons, List.filter_cons] at hfilter
        split_ifs at hfilter
        · exact (List.cons.inj hfilter).2
        · exact hfilter
      rw [ih hperm.cons_inv hties' (fun x hx => hirrefl x (List.mem_cons_of_mem y hx)) hordered.of_cons
        hordered'.of_cons]

theorem filter_tied_eq {among : α → Prop} (hranks : Ranks before among) {xs ys : List α}
    (h : IsStablyOrdered before xs ys) (hxs : ∀ x ∈ xs, among x) {x : α} (hx : among x) :
    ys.filter (tied before x) = xs.filter (tied before x) := by
  by_cases hfound : ∃ z ∈ xs, tied before x z = true
  · obtain ⟨z, hz, hxz⟩ := hfound
    have hcongr (u : α) (hu : u ∈ xs) : tied before x u = tied before z u :=
      hranks.tied_congr hx (hxs z hz) (hxs u hu) hxz
    rw [List.filter_congr fun u hu => hcongr u (h.perm.mem_iff.1 hu), List.filter_congr hcongr]
    exact h.ties z hz
  · have hnone : xs.filter (tied before x) = [] :=
      List.filter_eq_nil_iff.2 fun z hz hxz => hfound ⟨z, hz, hxz⟩
    have hperm := h.perm.filter (tied before x)
    rw [hnone] at hperm
    rw [hnone, hperm.eq_nil]

theorem reverse {xs ys : List α} (h : IsStablyOrdered before xs.reverse ys) :
    IsStablyOrdered (fun x y => before y x) xs ys.reverse where
  perm := (List.reverse_perm ys).trans (h.perm.trans (List.reverse_perm xs))
  ordered := List.pairwise_reverse.2 h.ordered
  ties x hx := by
    have htied : tied (fun x y => before y x) x = tied before x := by
      funext y
      exact Bool.and_comm _ _
    have hreversed := h.ties x (List.mem_reverse.2 hx)
    rw [htied, List.filter_reverse, hreversed, List.filter_reverse, List.reverse_reverse]

theorem of_map {β : Type} {f : α → β} (hf : Function.Injective f) {before : β → β → Bool} {xs ys : List α}
    (h : IsStablyOrdered before (xs.map f) (ys.map f)) :
    IsStablyOrdered (fun x y => before (f x) (f y)) xs ys where
  perm := (List.map_perm_map_iff hf).1 h.perm
  ordered := List.pairwise_map.1 h.ordered
  ties x hx := by
    have hties := h.ties (f x) (List.mem_map_of_mem hx)
    rw [List.filter_map, List.filter_map] at hties
    exact List.map_injective_iff.2 hf hties

end IsStablyOrdered

/-- The halving finds the place up to which a test fails and from which on it holds. -/
theorem bisect_spec (test : Nat → Bool) (low high : Nat) (hle : low ≤ high)
    (hmono : ∀ i j, low ≤ i → i ≤ j → j < high → test i = true → test j = true) :
    bisect test low high ≤ high ∧ (∀ i, low ≤ i → i < bisect test low high → test i = false) ∧
      ∀ i, bisect test low high ≤ i → i < high → test i = true := by
  fun_induction bisect test low high with
  | case1 low high hlt middle htest ih =>
    obtain ⟨hend, hbelow, habove⟩ := ih (by omega) fun i j hi hij hj =>
      hmono i j hi hij (by omega)
    refine ⟨by omega, hbelow, fun i hi hhigh => ?_⟩
    by_cases hmiddle : i < middle
    · exact habove i hi hmiddle
    · exact hmono middle i (by omega) (Nat.le_of_not_lt hmiddle) hhigh htest
  | case2 low high hlt middle htest ih =>
    obtain ⟨hend, hbelow, habove⟩ := ih (by omega) fun i j hi hij hj =>
      hmono i j (by omega) hij hj
    refine ⟨hend, fun i hi hplace => ?_, habove⟩
    by_cases hmiddle : i ≤ middle
    · cases hi' : test i with
      | false => rfl
      | true => exact absurd (hmono i middle hi hmiddle (by omega) hi') htest
    · exact hbelow i (by omega) hplace
  | case3 low high hlt =>
    exact ⟨hle, fun i hi hplace => absurd hplace (by omega), fun i hi hhigh => absurd hhigh (by omega)⟩

section

variable {α : Type} {less : α → α → Bool} {among : α → Prop} (hranks : Ranks less among)

include hranks

/-- An element is put behind those that are not greater and in front of those that are. -/
theorem exists_insertSorted {sorted : List α} (hsorted : sorted.Pairwise fun x y => less y x = false)
    (hamong : ∀ y ∈ sorted, among y) {x : α} (hx : among x) :
    ∃ low high, sorted = low ++ high ∧ insertSorted less sorted x = low ++ x :: high ∧
      (∀ y ∈ low, less x y = false) ∧ ∀ y ∈ high, less x y = true := by
  obtain ⟨hend, hbelow, habove⟩ := bisect_spec (fun i => (sorted[i]?).any (less x)) 0 sorted.length
    (Nat.zero_le _) fun i j _ hij hj hi => by
      rw [List.getElem?_eq_getElem (by omega), Option.any_some] at hi ⊢
      obtain rfl | hlt := Nat.eq_or_lt_of_le hij
      · exact hi
      · exact hranks.before_of_before_of_not hx (hamong _ (List.getElem_mem _))
          (hamong _ (List.getElem_mem _)) hi (List.pairwise_iff_getElem.1 hsorted i j _ _ hlt)
  refine ⟨_, _, (List.take_append_drop _ sorted).symm, rfl, fun y hy => ?_, fun y hy => ?_⟩
  · obtain ⟨i, hi, rfl⟩ := List.mem_take_iff_getElem.1 hy
    have hfails := hbelow i (Nat.zero_le i) (by omega)
    rwa [List.getElem?_eq_getElem (by omega), Option.any_some] at hfails
  · obtain ⟨i, hi, rfl⟩ := List.mem_drop_iff_getElem.1 hy
    have hholds := habove _ (Nat.le_add_right _ i) (by omega)
    rwa [List.getElem?_eq_getElem (by omega), Option.any_some] at hholds

/-- Inserting an element behind all that are not greater keeps a list in order. -/
theorem IsStablyOrdered.insertSorted {xs ys : List α} (h : IsStablyOrdered less xs ys)
    (hxs : ∀ y ∈ xs, among y) {x : α} (hx : among x) :
    IsStablyOrdered less (xs ++ [x]) (CommandOntology.insertSorted less ys x) := by
  have hys : ∀ y ∈ ys, among y := fun y hy => hxs y (h.perm.mem_iff.1 hy)
  obtain ⟨low, high, rfl, hinserted, hlow, hhigh⟩ := exists_insertSorted hranks h.ordered hys hx
  obtain ⟨hlowOrdered, hhighOrdered, hacross⟩ := List.pairwise_append.1 h.ordered
  have hallHigh : ∀ y ∈ high, among y := fun y hy => hys y (List.mem_append_right low hy)
  refine ⟨?_, ?_, fun y hy => ?_⟩
  · exact (insertSorted_perm less _ x).trans ((h.perm.cons x).trans (List.perm_append_singleton x xs).symm)
  · rw [hinserted, List.pairwise_append]
    refine ⟨hlowOrdered, List.pairwise_cons.2 ⟨fun y hy => ?_, hhighOrdered⟩, fun y hy z hz => ?_⟩
    · exact hranks.asymm hx (hallHigh y hy) (hhigh y hy)
    · obtain rfl | hz := List.mem_cons.1 hz
      · exact hlow y hy
      · exact hacross y hy z hz
  · have hyAmong : among y := by
      obtain hy | hy := List.mem_append.1 hy
      · exact hxs y hy
      · exact List.mem_singleton.1 hy ▸ hx
    have hbefore := h.filter_tied_eq hranks hxs hyAmong
    rw [List.filter_append] at hbefore
    rw [hinserted, List.filter_append, List.filter_append, ← hbefore, List.filter_cons]
    by_cases htied : tied less y x = true
    · -- What is greater than the element is not tied to what the element is tied to.
      have hnone : high.filter (tied less y) = [] := by
        refine List.filter_eq_nil_iff.2 fun z hz => ?_
        rw [hranks.tied_congr hyAmong hx (hallHigh z hz) htied]
        simp [tied, hhigh z hz]
      simp [htied, hnone]
    · simp [htied]

theorem IsStablyOrdered.foldl_insertSorted {xs ys : List α} (h : IsStablyOrdered less xs ys)
    (hxs : ∀ y ∈ xs, among y) {rest : List α} (hrest : ∀ y ∈ rest, among y) :
    IsStablyOrdered less (xs ++ rest) (rest.foldl (CommandOntology.insertSorted less) ys) := by
  induction rest generalizing xs ys with
  | nil => simpa using h
  | cons x rest ih =>
    obtain ⟨hx, hrest⟩ := List.forall_mem_cons.1 hrest
    have hinserted := ih (h.insertSorted hranks hxs hx)
      (List.forall_mem_append.2 ⟨hxs, List.forall_mem_singleton.2 hx⟩) hrest
    rwa [List.append_assoc, List.singleton_append] at hinserted

theorem ascendingRun_pairwise (last : α) (xs : List α) (hamong : ∀ y ∈ last :: xs, among y) :
    (last :: (ascendingRun less last xs).1).Pairwise fun x y => less y x = false := by
  induction xs generalizing last with
  | nil => exact List.pairwise_singleton _ _
  | cons x xs ih =>
    obtain ⟨hlast, hxs⟩ := List.forall_mem_cons.1 hamong
    unfold ascendingRun
    split_ifs with hless
    · exact List.pairwise_singleton _ _
    · have hrun := ih x hxs
      have hmem : ∀ y ∈ (ascendingRun less x xs).1, among y := fun y hy =>
        hxs y (List.mem_cons_of_mem x (ascendingRun_append less x xs ▸ List.mem_append_left _ hy))
      refine List.pairwise_cons.2 ⟨fun y hy => ?_, hrun⟩
      have hnot := Bool.eq_false_iff.2 hless
      obtain rfl | hy := List.mem_cons.1 hy
      · exact hnot
      · exact hranks.trans hlast (hxs x List.mem_cons_self) (hmem y hy) hnot
          (List.rel_of_pairwise_cons hrun hy)

theorem descendingRun_pairwise (last : α) (xs : List α) (hamong : ∀ y ∈ last :: xs, among y) :
    (last :: (descendingRun less last xs).1).Pairwise fun x y => less y x = true := by
  induction xs generalizing last with
  | nil => exact List.pairwise_singleton _ _
  | cons x xs ih =>
    obtain ⟨hlast, hxs⟩ := List.forall_mem_cons.1 hamong
    unfold descendingRun
    split_ifs with hless
    · have hrun := ih x hxs
      have hmem : ∀ y ∈ (descendingRun less x xs).1, among y := fun y hy =>
        hxs y (List.mem_cons_of_mem x (descendingRun_append less x xs ▸ List.mem_append_left _ hy))
      refine List.pairwise_cons.2 ⟨fun y hy => ?_, hrun⟩
      obtain rfl | hy := List.mem_cons.1 hy
      · exact hless
      · exact hranks.before_trans (hmem y hy) (hxs x List.mem_cons_self) hlast
          (List.rel_of_pairwise_cons hrun hy) hless
    · exact List.pairwise_singleton _ _

theorem exists_initialRun {xs : List α} (hamong : ∀ x ∈ xs, among x) :
    ∃ first, first ++ (initialRun less xs).2 = xs ∧ IsStablyOrdered less first (initialRun less xs).1 := by
  unfold initialRun
  split
  · exact ⟨[], rfl, .of_pairwise .nil⟩
  next x => exact ⟨[x], rfl, .of_pairwise (List.pairwise_singleton _ _)⟩
  next x y xs =>
    split_ifs with hless
    · have happend := congrArg (x :: ·) (descendingRun_append less x (y :: xs))
      have hrun := descendingRun_pairwise hranks x (y :: xs) hamong
      have hmem : ∀ z ∈ x :: (descendingRun less x (y :: xs)).1, among z := fun z hz =>
        hamong z (happend ▸ List.mem_append_left _ hz)
      refine ⟨_, happend, List.reverse_perm _, List.pairwise_reverse.2 ?_, fun z hz => ?_⟩
      · exact hrun.imp_of_mem fun hy hz hzy => hranks.asymm (hmem _ hz) (hmem _ hy) hzy
      · -- No two elements of the run are tied, so that turning it does not matter.
        have hle := hranks.length_filter_tied_le (hmem z hz) hmem hrun
        dsimp only
        rw [List.filter_reverse]
        generalize (x :: (descendingRun less x (y :: xs)).1).filter (tied less z) = zs at hle
        match zs with
        | [] => rfl
        | [_] => rfl
    · exact ⟨_, congrArg (x :: ·) (ascendingRun_append less x (y :: xs)),
        .of_pairwise (ascendingRun_pairwise hranks x (y :: xs) hamong)⟩

theorem isStablyOrdered_stableSort {xs : List α} (hamong : ∀ x ∈ xs, among x) :
    IsStablyOrdered less xs (stableSort less xs) := by
  obtain ⟨first, happend, hrun⟩ := exists_initialRun hranks hamong
  obtain ⟨hfirst, hrest⟩ := List.forall_mem_append.1 (happend ▸ hamong)
  have hsorted := hrun.foldl_insertSorted hranks hfirst hrest
  rwa [happend] at hsorted

theorem isStablyOrdered_stableSortDescending {xs : List α} (hamong : ∀ x ∈ xs, among x) :
    IsStablyOrdered (fun x y => less y x) xs (stableSortDescending less xs) :=
  (isStablyOrdered_stableSort hranks fun x hx => hamong x (List.mem_reverse.1 hx)).reverse

end

def thenBefore {α : Type} (first second : α → α → Bool) (x y : α) : Bool :=
  first x y || (!first y x && second x y)

theorem tied_thenBefore {α : Type} (first second : α → α → Bool) (x y : α) :
    tied (thenBefore first second) x y = (tied first x y && tied second x y) := by
  unfold tied thenBefore
  cases first x y <;> cases first y x <;> simp

/-- A list that is sorted by a second order and then by a first one is sorted by both, of which the first
counts more. -/
theorem IsStablyOrdered.thenBefore {α : Type} {first second : α → α → Bool} {xs ys zs : List α}
    (hy : IsStablyOrdered second xs ys) (hz : IsStablyOrdered first ys zs)
    (hirrefl : ∀ x ∈ xs, first x x = false) :
    IsStablyOrdered (CommandOntology.thenBefore first second) xs zs where
  perm := hz.perm.trans hy.perm
  ordered := by
    refine List.pairwise_iff_forall_sublist.2 fun {x y} hsub => ?_
    have hyx := List.pairwise_iff_forall_sublist.1 hz.ordered hsub
    have hx : x ∈ ys := hz.perm.mem_iff.1 (hsub.mem List.mem_cons_self)
    cases hxy : first x y with
    | true => simp [CommandOntology.thenBefore, hyx, hxy]
    | false =>
      -- The first order leaves the two tied, so that they stand as the second one has put them.
      have htied : [x, y].filter (tied first x) = [x, y] := by
        simp [tied, hirrefl x (hy.perm.mem_iff.1 hx), hxy, hyx]
      have hfiltered := hsub.filter (tied first x)
      rw [htied, hz.ties x hx] at hfiltered
      have hsecond := List.pairwise_iff_forall_sublist.1 hy.ordered (hfiltered.trans List.filter_sublist)
      simp [CommandOntology.thenBefore, hyx, hsecond]
  ties x hx := by
    have hsplit (ws : List α) : ws.filter (tied (CommandOntology.thenBefore first second) x) =
        (ws.filter (tied first x)).filter (tied second x) := by
      rw [List.filter_filter]
      exact List.filter_congr fun y _ => (tied_thenBefore first second x y).trans (Bool.and_comm _ _)
    have hswap (ws : List α) : (ws.filter (tied first x)).filter (tied second x) =
        (ws.filter (tied second x)).filter (tied first x) := by
      rw [List.filter_filter, List.filter_filter]
      exact List.filter_congr fun y _ => Bool.and_comm _ _
    rw [hsplit, hz.ties x (hy.perm.mem_iff.2 hx), hswap, hy.ties x hx, ← hswap, hsplit]

end CommandOntology
