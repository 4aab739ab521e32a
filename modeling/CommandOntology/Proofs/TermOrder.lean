import Mathlib.Tactic.SplitIfs
import CommandOntology.Rdf.Term

set_option autoImplicit false

namespace CommandOntology

section

variable {α κ : Type} (le : κ → κ → Bool) (key : α → κ)

theorem sortByKey_perm (xs : List α) : (sortByKey le key xs).Perm xs := by
  have hp := List.mergeSort_perm (xs.map fun x => (key x, x)) fun a b => le a.1 b.1
  have hm := hp.map Prod.snd
  simpa [sortByKey, List.map_map, Function.comp_def] using hm

theorem mem_sortByKey (x : α) (xs : List α) : x ∈ sortByKey le key xs ↔ x ∈ xs :=
  (sortByKey_perm le key xs).mem_iff

theorem sortByKey_pairwise (trans : ∀ a b c, le a b = true → le b c = true → le a c = true)
    (total : ∀ a b, (le a b || le b a) = true) (xs : List α) :
    (sortByKey le key xs).Pairwise fun a b => le (key a) (key b) = true := by
  let keyed := xs.map fun x => (key x, x)
  have hkey : ∀ y ∈ keyed.mergeSort fun a b => le a.1 b.1, y.1 = key y.2 := by
    intro y hy
    obtain ⟨x, -, rfl⟩ := List.mem_map.1 ((List.mergeSort_perm keyed _).mem_iff.1 hy)
    rfl
  have hs : (keyed.mergeSort fun a b => le a.1 b.1).Pairwise fun a b => le a.1 b.1 = true :=
    List.pairwise_mergeSort (fun a b c => trans a.1 b.1 c.1) (fun a b => total a.1 b.1) keyed
  refine List.pairwise_map.2 (List.Pairwise.imp_of_mem ?_ hs)
  intro a b ha hb hab
  rwa [hkey a ha, hkey b hb] at hab

/-- Where the keys tell the elements apart, the sorted list depends on the elements alone. -/
theorem sortByKey_congr (trans : ∀ a b c, le a b = true → le b c = true → le a c = true)
    (total : ∀ a b, (le a b || le b a) = true)
    (antisymm : ∀ a b, le a b = true → le b a = true → a = b) (xs ys : List α)
    (hp : xs.Perm ys) (hinj : ∀ x ∈ xs, ∀ y ∈ xs, key x = key y → x = y) :
    sortByKey le key xs = sortByKey le key ys := by
  have hperm : (sortByKey le key xs).Perm (sortByKey le key ys) :=
    (sortByKey_perm le key xs).trans (hp.trans (sortByKey_perm le key ys).symm)
  refine hperm.eq_of_pairwise ?_ (sortByKey_pairwise le key trans total xs)
    (sortByKey_pairwise le key trans total ys)
  intro x y hx hy hxy hyx
  rw [mem_sortByKey] at hx hy
  exact hinj x hx y (hp.mem_iff.2 hy) (antisymm _ _ hxy hyx)

end

section

variable {α κ : Type}

/-- Where an element stands behind smaller ones and before others, it tells these parts apart. -/
theorem eq_filter_of_pairwise (le : α → α → Bool) (a : α) (before after : List α)
    (hbefore : ∀ b ∈ before, (!le a b) = true)
    (hp : (before ++ a :: after).Pairwise fun x y => le x y = true) :
    before = (before ++ after).filter (fun b => !le a b) ∧ after = (before ++ after).filter (le a) := by
  have hafter : ∀ b ∈ after, le a b = true :=
    (List.pairwise_cons.1 (List.pairwise_append.1 hp).2.1).1
  constructor
  · rw [List.filter_append, List.filter_eq_self.2 hbefore,
      List.filter_eq_nil_iff.2 (by simpa using hafter), List.append_nil]
  · rw [List.filter_append, List.filter_eq_self.2 hafter,
      List.filter_eq_nil_iff.2 (by simpa using hbefore), List.nil_append]

/-- Sorting keeps the order of elements of one key, so that it may come before a choice or after it. -/
theorem mergeSort_filter (le : α → α → Bool)
    (trans : ∀ a b c, le a b = true → le b c = true → le a c = true)
    (total : ∀ a b, (le a b || le b a) = true) (test : α → Bool) (xs : List α) :
    (xs.filter test).mergeSort le = (xs.mergeSort le).filter test := by
  induction xs with
  | nil => simp
  | cons a xs ih =>
    obtain ⟨before, after, hsort, hrest, hbefore⟩ := List.mergeSort_cons trans total a xs
    rw [hrest, List.filter_append] at ih
    rw [hsort, List.filter_append]
    by_cases ha : test a = true
    · obtain ⟨before', after', hsort', hrest', hbefore'⟩ :=
        List.mergeSort_cons trans total a (xs.filter test)
      have hchosen : before.filter test ++ a :: after.filter test =
          (before ++ a :: after).filter test := by
        rw [List.filter_append, List.filter_cons_of_pos ha]
      -- Both lists fall apart at `a`, and what falls apart is the same list.
      have hp := List.pairwise_mergeSort trans total (a :: xs)
      have hp' := List.pairwise_mergeSort trans total (a :: xs.filter test)
      rw [hsort] at hp
      rw [hsort'] at hp'
      have hparts := eq_filter_of_pairwise le a _ _
        (fun b hb => hbefore b (List.mem_filter.1 hb).1) (hchosen ▸ hp.filter test)
      have hparts' := eq_filter_of_pairwise le a _ _ hbefore' hp'
      rw [← ih, hrest'] at hparts
      rw [List.filter_cons_of_pos ha, List.filter_cons_of_pos ha, hsort', hparts.1, hparts.2,
        ← hparts'.1, ← hparts'.2]
    · rw [List.filter_cons_of_neg ha, List.filter_cons_of_neg ha, ih]

theorem sortByKey_filter (le : κ → κ → Bool) (key : α → κ)
    (trans : ∀ a b c, le a b = true → le b c = true → le a c = true)
    (total : ∀ a b, (le a b || le b a) = true) (test : α → Bool) (xs : List α) :
    sortByKey le key (xs.filter test) = (sortByKey le key xs).filter test := by
  have hkeyed : (xs.filter test).map (fun x => (key x, x)) =
      (xs.map fun x => (key x, x)).filter fun y => test y.2 := by
    rw [List.filter_map]
    rfl
  rw [sortByKey, sortByKey, hkeyed, mergeSort_filter _ (fun a b c => trans a.1 b.1 c.1)
    (fun a b => total a.1 b.1), List.filter_map]
  rfl

end

theorem textLe_trans (a b c : String) (hab : decide (a ≤ b) = true) (hbc : decide (b ≤ c) = true) :
    decide (a ≤ c) = true := by
  rw [decide_eq_true_eq] at *
  exact String.le_trans hab hbc

theorem textLe_total (a b : String) : (decide (a ≤ b) || decide (b ≤ a)) = true := by
  rw [Bool.or_eq_true, decide_eq_true_eq, decide_eq_true_eq]
  exact String.le_total a b

theorem textLe_antisymm (a b : String) (hab : decide (a ≤ b) = true) (hba : decide (b ≤ a) = true) :
    a = b := by
  rw [decide_eq_true_eq] at *
  exact String.le_antisymm hab hba

namespace Term

/-- Every literal has one mark at most, and one that is written: plain texts have neither the empty mark
nor the datatype of strings. Line forms tell such terms apart. -/
def IsMarked : Term → Prop
  | .literal _ datatype language =>
    (datatype = none ∨ language = none) ∧ datatype ≠ some "" ∧ datatype ≠ some Xsd.string ∧
      language ≠ some ""
  | _ => True

theorem isMarked_of_isResource (t : Term) (h : t.isResource = true) : t.IsMarked := by
  cases t with
  | iri value => trivial
  | blank label => trivial
  | literal lexical datatype language => cases h

def escapedChar : Char → Char
  | 'n' => '\n'
  | 'r' => '\r'
  | 't' => '\t'
  | c => c

theorem literalChar_cases (c : Char) :
    (∃ code, literalChar c = ['\\', code] ∧ escapedChar code = c) ∨
      literalChar c = [c] ∧ c ≠ '\\' ∧ c ≠ '"' := by
  unfold literalChar
  split_ifs with hslash hquote hline hreturn htab
  · exact .inl ⟨_, rfl, by rw [hslash]; rfl⟩
  · exact .inl ⟨_, rfl, by rw [hquote]; rfl⟩
  · exact .inl ⟨_, rfl, by rw [hline]; rfl⟩
  · exact .inl ⟨_, rfl, by rw [hreturn]; rfl⟩
  · exact .inl ⟨_, rfl, by rw [htab]; rfl⟩
  · exact .inr ⟨rfl, hslash, hquote⟩

/-- What a character is written as tells where it ends. -/
theorem literalChar_append_inj (c d : Char) (x y : List Char)
    (h : literalChar c ++ x = literalChar d ++ y) : c = d ∧ x = y := by
  obtain ⟨code, hc, rfl⟩ | ⟨hc, hcslash, -⟩ := literalChar_cases c <;>
    obtain ⟨code', hd, rfl⟩ | ⟨hd, hdslash, -⟩ := literalChar_cases d <;>
    rw [hc, hd] at h
  · obtain ⟨rfl, rfl⟩ := List.cons.inj (List.cons.inj h).2
    exact ⟨rfl, rfl⟩
  · exact absurd (List.cons.inj h).1.symm hdslash
  · exact absurd (List.cons.inj h).1 hcslash
  · exact List.cons.inj h

theorem quote_ne_literalChar_append (c : Char) (x y : List Char) :
    '"' :: x ≠ literalChar c ++ y := by
  intro h
  obtain ⟨code, hc, -⟩ | ⟨hc, -, hquote⟩ := literalChar_cases c <;> rw [hc] at h
  · exact absurd (List.cons.inj h).1 (by decide)
  · exact hquote (List.cons.inj h).1.symm

theorem flatMap_literalChar_inj (a b x y : List Char)
    (h : a.flatMap literalChar ++ '"' :: x = b.flatMap literalChar ++ '"' :: y) :
    a = b ∧ x = y := by
  induction a generalizing b with
  | nil =>
    cases b with
    | nil => simpa using h
    | cons d b =>
      rw [List.flatMap_cons, List.append_assoc] at h
      exact absurd h (quote_ne_literalChar_append d _ _)
  | cons c a ih =>
    cases b with
    | nil =>
      rw [List.flatMap_cons, List.append_assoc] at h
      exact absurd h.symm (quote_ne_literalChar_append c _ _)
    | cons d b =>
      simp only [List.flatMap_cons, List.append_assoc] at h
      obtain ⟨rfl, hrest⟩ := literalChar_append_inj c d _ _ h
      obtain ⟨rfl, hxy⟩ := ih b hrest
      exact ⟨rfl, hxy⟩

theorem literalMark_tag (datatype : Option String) (tag : String) (h : tag ≠ "") :
    literalMark datatype (some tag) = "@" ++ tag := by
  simp [literalMark, Option.filter_some, h]

theorem literalMark_type (type : String) (h : type ≠ "") (hs : type ≠ Xsd.string) :
    literalMark (some type) none = "^^<" ++ type ++ ">" := by
  simp [literalMark, Option.filter_some, h, hs]

theorem literalMark_none : literalMark none none = "" := by
  simp [literalMark]

theorem literalMark_inj (x y : String) (d e l m : Option String)
    (ha : (literal x d l).IsMarked) (hb : (literal y e m).IsMarked)
    (h : literalMark d l = literalMark e m) : d = e ∧ l = m := by
  have hchars (x : String) (d l : Option String) (hx : (literal x d l).IsMarked) :
      (d = none ∧ l = none ∧ (literalMark d l).toList = []) ∨
      (∃ type, d = some type ∧ l = none ∧
        (literalMark d l).toList = '^' :: '^' :: '<' :: type.toList ++ ['>']) ∨
      (∃ tag, d = none ∧ l = some tag ∧ (literalMark d l).toList = '@' :: tag.toList) := by
    obtain ⟨hone, hne, hns, htag⟩ := hx
    cases d with
    | none =>
      cases l with
      | none => exact .inl ⟨rfl, rfl, by simp [literalMark_none]⟩
      | some tag =>
        have ht : tag ≠ "" := fun h => htag (congrArg some h)
        exact .inr (.inr ⟨tag, rfl, rfl, by simp [literalMark_tag none tag ht]⟩)
    | some type =>
      have hl : l = none := by simpa using hone
      have ht : type ≠ "" := fun h => hne (congrArg some h)
      have hs : type ≠ Xsd.string := fun h => hns (congrArg some h)
      subst hl
      exact .inr (.inl ⟨type, rfl, rfl, by simp [literalMark_type type ht hs]⟩)
  have he := congrArg String.toList h
  obtain ⟨rfl, rfl, h₁⟩ | ⟨t, rfl, rfl, h₁⟩ | ⟨t, rfl, rfl, h₁⟩ := hchars x d l ha <;>
    obtain ⟨rfl, rfl, h₂⟩ | ⟨u, rfl, rfl, h₂⟩ | ⟨u, rfl, rfl, h₂⟩ := hchars y e m hb <;>
    replace he := h₁.symm.trans (he.trans h₂) <;> simp [String.toList_inj] at he ⊢ <;> exact he

theorem lineForm_inj (a b : Term) (ha : a.IsMarked) (hb : b.IsMarked)
    (h : a.lineForm = b.lineForm) : a = b := by
  have hchars := congrArg String.toList h
  cases a with
  | iri value =>
    cases b with
    | iri value' => simpa [lineForm, String.toList_inj] using hchars
    | blank label => simp [lineForm] at hchars
    | literal lexical datatype language => simp [lineForm, quotedLiteral] at hchars
  | blank label =>
    cases b with
    | iri value => simp [lineForm] at hchars
    | blank label' => simpa [lineForm, String.toList_inj] using hchars
    | literal lexical datatype language => simp [lineForm, quotedLiteral] at hchars
  | literal lexical datatype language =>
    cases b with
    | iri value => simp [lineForm, quotedLiteral] at hchars
    | blank label => simp [lineForm, quotedLiteral] at hchars
    | literal lexical' datatype' language' =>
      simp only [lineForm, quotedLiteral, String.toList_append, String.toList_ofList,
        List.cons_append, List.append_assoc, List.nil_append, List.cons.injEq, true_and] at hchars
      obtain ⟨htext, hmark⟩ := flatMap_literalChar_inj _ _ _ _ hchars
      obtain ⟨rfl, rfl⟩ := literalMark_inj _ _ _ _ _ _ ha hb (String.toList_inj.1 hmark)
      rw [String.toList_inj.1 htext]

end Term

theorem mem_sortTerms (t : Term) (terms : List Term) : t ∈ sortTerms terms ↔ t ∈ terms :=
  mem_sortByKey _ _ t terms

theorem sortTerms_perm (terms : List Term) : (sortTerms terms).Perm terms :=
  sortByKey_perm _ _ terms

theorem sortTerms_pairwise (terms : List Term) :
    (sortTerms terms).Pairwise fun a b => a.lineForm ≤ b.lineForm :=
  (sortByKey_pairwise _ _ textLe_trans textLe_total terms).imp of_decide_eq_true

theorem sortTerms_filter (test : Term → Bool) (terms : List Term) :
    sortTerms (terms.filter test) = (sortTerms terms).filter test :=
  sortByKey_filter _ _ textLe_trans textLe_total test terms

theorem isLeast_of_head?_sortTerms {t : Term} {terms : List Term} (h : (sortTerms terms).head? = some t) :
    t ∈ terms ∧ ∀ x ∈ terms, t.lineForm ≤ x.lineForm := by
  obtain ⟨rest, hs⟩ := List.head?_eq_some_iff.1 h
  have hp := sortTerms_pairwise terms
  have hmem (x : Term) := mem_sortTerms x terms
  rw [hs] at hp hmem
  refine ⟨(hmem t).1 List.mem_cons_self, ?_⟩
  intro x hx
  obtain rfl | hr := List.mem_cons.1 ((hmem x).2 hx)
  · exact String.le_refl _
  · exact (List.pairwise_cons.1 hp).1 x hr

/-- The first of marked terms in order is the one with the least line form. -/
theorem head?_sortTerms_eq_some_iff (t : Term) (terms : List Term)
    (hm : ∀ x ∈ terms, x.IsMarked) :
    (sortTerms terms).head? = some t ↔ t ∈ terms ∧ ∀ x ∈ terms, t.lineForm ≤ x.lineForm := by
  constructor
  · exact isLeast_of_head?_sortTerms
  · rintro ⟨ht, hle⟩
    cases hs : sortTerms terms with
    | nil => exact absurd ((mem_sortTerms t terms).2 ht) (by simp [hs])
    | cons u rest =>
      have hu : u ∈ terms := (mem_sortTerms u terms).1 (by simp [hs])
      have hp := sortTerms_pairwise terms
      have hin := (mem_sortTerms t terms).2 ht
      rw [hs] at hp hin
      obtain rfl | hr := List.mem_cons.1 hin
      · rfl
      · have hut := (List.pairwise_cons.1 hp).1 t hr
        have he := Term.lineForm_inj u t (hm u hu) (hm t ht) (String.le_antisymm hut (hle u hu))
        rw [he, List.head?_cons]

end CommandOntology
