import CommandOntology.Rdf.Namespaces
import CommandOntology.Turtle.Prefixes
import Mathlib.Data.List.Induction
import Mathlib.Data.List.TakeWhile

set_option autoImplicit false

namespace CommandOntology.Turtle

open CommandOntology.Text

theorem putField_eq_append {α : Type} (fields : List (String × α)) (key : String) (value : α)
    (h : key ∉ fields.map (·.1)) : putField fields key value = fields ++ [(key, value)] := by
  induction fields with
  | nil => rfl
  | cons field fields ih =>
    simp only [List.map_cons, List.mem_cons, not_or] at h
    rw [putField, if_neg (Ne.symm h.1), ih h.2, List.cons_append]

theorem findField_eq_some {α : Type} {fields : List (String × α)} (hn : (fields.map (·.1)).Nodup)
    (field : String × α) (h : field ∈ fields) : findField fields field.1 = some field.2 := by
  induction fields with
  | nil => cases h
  | cons other fields ih =>
    rw [List.map_cons, List.nodup_cons] at hn
    obtain rfl | hmem := List.mem_cons.1 h
    · simp [findField]
    · have hne : other.1 ≠ field.1 := fun he => hn.1 (he ▸ List.mem_map_of_mem hmem)
      have hrest := ih hn.2 hmem
      rw [findField] at hrest ⊢
      rwa [List.find?_cons_of_neg (by simpa using hne)]

theorem findField_eq_none {α : Type} {fields : List (String × α)} {key : String}
    (h : key ∉ fields.map (·.1)) : findField fields key = none := by
  rw [findField, Option.map_eq_none_iff, List.find?_eq_none]
  intro field hfield he
  exact h (beq_iff_eq.1 he ▸ List.mem_map_of_mem hfield)

theorem mem_of_findField_eq_some {α : Type} {fields : List (String × α)} {key : String} {value : α}
    (h : findField fields key = some value) : (key, value) ∈ fields := by
  rw [findField, Option.map_eq_some_iff] at h
  obtain ⟨field, hfind, rfl⟩ := h
  have hkey := List.find?_some hfind
  rw [← beq_iff_eq.1 hkey]
  exact List.mem_of_find?_eq_some hfind

theorem splitName_of_not_mem {label name : String} (h : ':' ∉ label.toList) :
    Namespaces.splitName (label ++ ":" ++ name) = some (label, name) := by
  have hcolon : ∀ c ∈ label.toList, decide (c ≠ ':') = true := by
    intro c hc
    rw [decide_eq_true_eq]
    rintro rfl
    exact h hc
  have htext : (label ++ ":" ++ name).toList = label.toList ++ ':' :: name.toList := by simp
  rw [Namespaces.splitName, htext, List.dropWhile_append_of_pos hcolon,
    List.takeWhile_append_of_pos hcolon]
  simp

def IsOneToOne (entries : List (String × String)) : Prop :=
  ∀ a ∈ entries, ∀ b ∈ entries, a.1 = b.1 ∨ a.2 = b.2 → a = b

theorem IsOneToOne.mono {entries entries' : List (String × String)} (h : IsOneToOne entries')
    (hsub : ∀ e ∈ entries, e ∈ entries') : IsOneToOne entries :=
  fun a ha b hb => h a (hsub a ha) b (hsub b hb)

namespace PrefixTable

variable {t : PrefixTable}

theorem mem_of_label?_eq_some {label namespaceIri : String} (h : t.label? namespaceIri = some label) :
    (label, namespaceIri) ∈ t.entries := by
  rw [label?, Option.map_eq_some_iff] at h
  obtain ⟨e, hfind, rfl⟩ := h
  have hkey := List.find?_some hfind
  rw [← beq_iff_eq.1 hkey]
  exact List.mem_of_find?_eq_some hfind

theorem label?_eq_none {namespaceIri : String} (h : ∀ e ∈ t.entries, e.2 ≠ namespaceIri) :
    t.label? namespaceIri = none := by
  rw [label?, Option.map_eq_none_iff, List.find?_eq_none]
  exact fun e he heq => h e he (beq_iff_eq.1 heq)

theorem label?_eq_some (ht : IsOneToOne t.entries) (e : String × String) (he : e ∈ t.entries) :
    t.label? e.2 = some e.1 := by
  cases hl : t.label? e.2 with
  | none =>
    rw [label?, Option.map_eq_none_iff, List.find?_eq_none] at hl
    exact absurd (beq_self_eq_true e.2) (hl e he)
  | some label =>
    have hentry := ht _ (mem_of_label?_eq_some hl) e he (.inr rfl)
    rw [← hentry]

theorem mem_bind (label namespaceIri : String)
    (h : IsOneToOne ((label, namespaceIri) :: t.entries)) (e : String × String) :
    e ∈ (t.bind label namespaceIri).entries ↔ e = (label, namespaceIri) ∨ e ∈ t.entries := by
  have hunique (e : String × String) (he : e ∈ t.entries)
      (heq : e.1 = label ∨ e.2 = namespaceIri) : e = (label, namespaceIri) :=
    h e (List.mem_cons_of_mem _ he) _ List.mem_cons_self heq
  unfold bind namespace?
  cases hbound : findField t.entries label with
  | some bound =>
    have hmem := mem_of_findField_eq_some hbound
    have hentry := hunique _ hmem (.inl rfl)
    cases hentry
    dsimp only
    rw [if_pos rfl]
    exact ⟨.inr, fun he => he.elim (fun heq => heq ▸ hmem) id⟩
  | none =>
    have hfree (e : String × String) (he : e ∈ t.entries) : e ≠ (label, namespaceIri) := by
      rintro rfl
      rw [findField, Option.map_eq_none_iff, List.find?_eq_none] at hbound
      exact absurd (beq_self_eq_true label) (hbound _ he)
    have hkept : t.entries.filter (fun entry => entry.2 != namespaceIri && entry.1 != label) =
        t.entries := by
      refine List.filter_eq_self.2 fun e he => ?_
      have hne := mt (hunique e he) (hfree e he)
      rw [not_or] at hne
      simp [hne.1, hne.2]
    dsimp only
    rw [enter, hkept, List.mem_append, List.mem_singleton, or_comm]

theorem mem_bindAll (entries : List (String × String)) (h : IsOneToOne (entries ++ t.entries))
    (e : String × String) : e ∈ (t.bindAll entries).entries ↔ e ∈ entries ∨ e ∈ t.entries := by
  induction entries generalizing t with
  | nil => simp [bindAll]
  | cons entry entries ih =>
    have hfirst : IsOneToOne ((entry.1, entry.2) :: t.entries) := h.mono fun x hx => by
      obtain rfl | hx := List.mem_cons.1 hx <;> simp [*]
    have hbind := mem_bind entry.1 entry.2 hfirst
    have hrest : IsOneToOne (entries ++ (t.bind entry.1 entry.2).entries) := h.mono fun x hx => by
      rw [List.mem_append, hbind] at hx
      obtain hx | rfl | hx := hx <;> simp [*]
    have hstep := ih hrest
    rw [bindAll] at hstep ⊢
    rw [List.foldl_cons, hstep, hbind, List.mem_cons, or_left_comm, or_assoc]

end PrefixTable

theorem isLocalNameChar_of_isLocalNameStart (c : Char) (h : isLocalNameStart c = true) :
    isLocalNameChar c = true := by
  unfold isLocalNameStart at h
  unfold isLocalNameChar
  split_ifs at h ⊢
  · rw [Bool.or_eq_true] at h ⊢
    refine h.imp id fun hc => ?_
    rw [beq_iff_eq.1 hc]
    decide
  · rw [Bool.or_eq_true]
    right
    revert h
    cases category c <;> simp

theorem localTailStart_eq (u : List Char) (c : Char) (w : List Char) (hc : isLocalNameChar c = false)
    (hw : ∀ d ∈ w, isLocalNameChar d = true) : localTailStart (u ++ c :: w) = u.length + 1 := by
  have hspan : spanLength isLocalNameChar (u ++ c :: w).reverse = w.length := by
    have hreverse : (u ++ c :: w).reverse = w.reverse ++ c :: u.reverse := by simp
    rw [spanLength, hreverse, List.takeWhile_append_of_pos (by simpa using hw),
      List.takeWhile_cons_of_neg (by simp [hc])]
    simp
  rw [localTailStart, hspan]
  simp
  omega

/-- Where an IRI is split whose last character outside of local names is known. -/
theorem splitIri?_eq (u : List Char) (c : Char) (w : List Char) (hc : isLocalNameChar c = false)
    (hw : ∀ d ∈ w, isLocalNameChar d = true) (place : Nat)
    (hplace : place =
      if spanLength (fun d => !isLocalNameStart d) w < w.length then
        u.length + 1 + spanLength (fun d => !isLocalNameStart d) w
      else spanLength (fun d => !isLocalNameStart d) (u ++ c :: w)) :
    splitIri? (u ++ c :: w) =
      if place = 0 ∨ (u ++ c :: w).length ≤ place then none
      else some ((u ++ c :: w).take place, (u ++ c :: w).drop place) := by
  have hstart : isLocalNameStart c = false := by
    rw [← Bool.not_eq_true] at hc ⊢
    exact mt (isLocalNameChar_of_isLocalNameStart c) hc
  have hskipped : spanLength (fun d => !isLocalNameStart d) ((u ++ c :: w).drop u.length) =
      1 + spanLength (fun d => !isLocalNameStart d) w := by
    rw [List.drop_left, spanLength, List.takeWhile_cons_of_pos (by simp [hstart]), List.length_cons,
      spanLength, Nat.add_comm]
  have hlength : (u ++ c :: w).length = u.length + 1 + w.length := by
    simp
    omega
  unfold splitIri?
  extract_lets tail skipped place'
  have htail : tail = u.length + 1 := localTailStart_eq u c w hc hw
  have hskip : skipped = 1 + spanLength (fun d => !isLocalNameStart d) w := by
    simp only [skipped, htail, Nat.add_one_sub_one, hskipped]
  have hsame : place' = place := by
    simp only [place', hplace, htail, hskip, hlength, Nat.add_one_sub_one]
    split_ifs <;> omega
  rw [if_neg (by omega), hsame]

/-- A namespace that ends outside of local names is split off a local name. -/
theorem splitIri?_localName (u : List Char) (c d : Char) (w : List Char)
    (hc : isLocalNameChar c = false) (hd : isLocalNameStart d = true)
    (hw : ∀ x ∈ w, isLocalNameChar x = true) :
    splitIri? (u ++ c :: d :: w) = some (u ++ [c], d :: w) := by
  have hspan : spanLength (fun x => !isLocalNameStart x) (d :: w) = 0 := by
    rw [spanLength, List.takeWhile_cons_of_neg (by simp [hd])]
    rfl
  have hall : ∀ x ∈ d :: w, isLocalNameChar x = true :=
    List.forall_mem_cons.2 ⟨isLocalNameChar_of_isLocalNameStart d hd, hw⟩
  rw [splitIri?_eq u c (d :: w) hc hall (u.length + 1) (by simp [hspan]), if_neg (by simp)]
  have hsplit : u ++ c :: d :: w = (u ++ [c]) ++ d :: w := by simp
  have hlength : u.length + 1 = (u ++ [c]).length := by simp
  rw [hsplit, hlength, List.take_left, List.drop_left]

theorem exists_last_not_local (u w : List Char) (c : Char) (hc : isLocalNameChar c = false) :
    ∃ v d x, u ++ c :: w = v ++ d :: x ∧ u ++ [c] <+: v ++ [d] ∧ isLocalNameChar d = false ∧
      ∀ y ∈ x, isLocalNameChar y = true := by
  induction w using List.reverseRecOn with
  | nil => exact ⟨u, c, [], rfl, List.prefix_rfl, hc, by simp⟩
  | append_singleton w e ih =>
    obtain ⟨v, d, x, heq, hbegins, hd, hx⟩ := ih
    cases he : isLocalNameChar e with
    | true =>
      refine ⟨v, d, x ++ [e], ?_, hbegins, hd, ?_⟩
      · have h := congrArg (· ++ [e]) heq
        simpa using h
      · simpa [or_imp, forall_and, he] using hx
    | false =>
      refine ⟨u ++ c :: w, e, [], by simp, ?_, he, by simp⟩
      exact ⟨w ++ [e], by simp⟩

/-- An IRI that starts like a local name is split behind every character outside of local names. -/
theorem prefix_of_splitIri? (u w a b : List Char) (c : Char) (hc : isLocalNameChar c = false)
    (hfirst : ∃ d ∈ (u ++ [c]).head?, isLocalNameStart d = true)
    (h : splitIri? (u ++ c :: w) = some (a, b)) : u ++ [c] <+: a := by
  obtain ⟨v, d, x, heq, hbegins, hd, hx⟩ := exists_last_not_local u w c hc
  have hzero : spanLength (fun y => !isLocalNameStart y) (u ++ c :: w) = 0 := by
    obtain ⟨e, he, hstart⟩ := hfirst
    cases u with
    | nil =>
      cases he
      rw [spanLength, List.nil_append, List.takeWhile_cons_of_neg (by simp [hstart])]
      rfl
    | cons e' u =>
      cases he
      rw [spanLength, List.cons_append, List.takeWhile_cons_of_neg (by simp [hstart])]
      rfl
  rw [heq] at h hzero
  rw [splitIri?_eq v d x hd hx _ rfl] at h
  rw [hzero] at h
  split_ifs at h with hspan hplace
  · cases h
    refine hbegins.trans ?_
    rw [show v ++ d :: x = (v ++ [d]) ++ x by simp]
    refine List.prefix_take_iff.2 ⟨List.prefix_append _ _, ?_⟩
    simp
  · omega

namespace PrefixTable

variable {t : PrefixTable}

theorem longerNamespace?_eq_none {namespaceIri iri : List Char}
    (h : ∀ e ∈ t.entries, namespaceIri <+: e.2.toList → e.2.toList <+: iri →
      e.2.toList.length ≤ namespaceIri.length) : t.longerNamespace? namespaceIri iri = none := by
  have hfilter : (t.entries.filter fun entry =>
      let bound := entry.2.toList
      namespaceIri.length < bound.length && namespaceIri.isPrefixOf bound && bound.isPrefixOf iri) =
        [] := by
    refine List.filter_eq_nil_iff.2 fun e he htrue => ?_
    simp only [Bool.and_eq_true, decide_eq_true_eq, List.isPrefixOf_iff_prefix] at htrue
    have hle := h e he htrue.1.2 htrue.2
    omega
  rw [longerNamespace?, hfilter]
  rfl

theorem name?_localName (ht : IsOneToOne t.entries) (e : String × String) (he : e ∈ t.entries)
    (c d : Char) (w : List Char) (hlast : e.2.toList.getLast? = some c)
    (hc : isLocalNameChar c = false) (hd : isLocalNameStart d = true)
    (hw : ∀ x ∈ w, isLocalNameChar x = true)
    (hwritable : isWritable (e.2 ++ String.ofList (d :: w)) = true)
    (hlonger : ∀ e' ∈ t.entries, e.2.toList <+: e'.2.toList →
      e'.2.toList <+: e.2.toList ++ d :: w → e'.2.toList.length ≤ e.2.toList.length)
    (invents : Bool) :
    t.name? invents (e.2 ++ String.ofList (d :: w)) = (some ⟨e.1, e.2, d :: w⟩, t) := by
  obtain ⟨u, hu⟩ := List.getLast?_eq_some_iff.1 hlast
  have hchars : (e.2 ++ String.ofList (d :: w)).toList = e.2.toList ++ d :: w := by simp
  have hsplit : splitIri? (e.2 ++ String.ofList (d :: w)).toList = some (e.2.toList, d :: w) := by
    rw [hchars, hu, List.append_assoc]
    exact splitIri?_localName u c d w hc hd hw
  have hnone : t.longerNamespace? e.2.toList (e.2 ++ String.ofList (d :: w)).toList = none := by
    rw [hchars]
    exact longerNamespace?_eq_none hlonger
  rw [name?, if_pos hwritable, hsplit]
  dsimp only
  rw [hnone, Option.getD_none, String.ofList_toList, label?_eq_some ht e he, String.length_toList,
    if_pos rfl]

/-- An IRI that goes on behind a character outside of local names, where no bound namespace starts so
far. -/
theorem name?_eq_none {iri : String} (u w : List Char) (c : Char) (hiri : iri.toList = u ++ c :: w)
    (hc : isLocalNameChar c = false) (hfirst : ∃ d ∈ (u ++ [c]).head?, isLocalNameStart d = true)
    (hfree : ∀ e ∈ t.entries, ¬u ++ [c] <+: e.2.toList) : t.name? false iri = (none, t) := by
  have hunbound (namespaceIri : String) (h : u ++ [c] <+: namespaceIri.toList) :
      t.label? namespaceIri = none :=
    label?_eq_none fun e he heq => hfree e he (heq ▸ h)
  have hwhole : t.wholeName? iri = none := by
    rw [wholeName?, hunbound iri (by rw [hiri]; exact ⟨w, by simp⟩)]
    rfl
  rw [name?]
  split
  · rw [hwhole]
  · next a b hsplit =>
    have hbegins : u ++ [c] <+: a := by
      split at hsplit
      · rw [hiri] at hsplit
        exact prefix_of_splitIri? u w a b c hc hfirst hsplit
      · cases hsplit
    have hnone : t.longerNamespace? a iri.toList = none :=
      longerNamespace?_eq_none fun e he ha _ => absurd (hbegins.trans ha) (hfree e he)
    simp [hnone, hunbound (String.ofList a) (by simpa using hbegins), hwhole]

end PrefixTable

end CommandOntology.Turtle
