import CommandOntology.Proofs.OptionalGroups

set_option autoImplicit false

namespace CommandOntology

structure TriplePattern.OpensTo (P : Term → Prop) (p : TriplePattern) (t : Triple) : Prop where
  subject : p.subject = none → P t.subject
  predicate : p.predicate = none → P t.predicate
  object : p.object = none → P t.object

theorem TriplePattern.OpensTo.of_terms {P : Term → Prop} {t : Triple} (h : ∀ x ∈ t.terms, P x) (p : TriplePattern) :
    p.OpensTo P t := by
  simp only [Triple.terms, List.forall_mem_cons] at h
  exact ⟨fun _ => h.1, fun _ => h.2.1, fun _ => h.2.2.1⟩

namespace Query

def BindsOnly (P : Term → Prop) (b : Binding) : Prop :=
  ∀ field ∈ b, P field.2

section

variable {P : Term → Prop} {b b' : Binding}

theorem bindsOnly_nil : BindsOnly P [] :=
  nofun

theorem BindsOnly.findField (h : BindsOnly P b) {name : String} {t : Term}
    (ht : findField b name = some t) : P t := by
  obtain ⟨field, hfield, rfl⟩ := Option.map_eq_some_iff.1 ht
  exact h field (List.mem_of_find?_eq_some hfield)

theorem BindsOnly.bindSlot (h : BindsOnly P b) {slot : Slot} {t : Term} (ht : slot.value? b = none → P t)
    (hb : bindSlot b slot t = some b') : BindsOnly P b' := by
  unfold Query.bindSlot at hb
  split at hb
  · cases hb
    exact h
  · next name =>
    split at hb
    · next hnone =>
      cases hb
      exact List.forall_mem_append.2 ⟨h, List.forall_mem_singleton.2 (ht hnone)⟩
    · split_ifs at hb
      cases hb
      exact h

theorem value?_eq_none_of_bindSlot {slot : Slot} {t : Term} (hb : bindSlot b slot t = some b') (other : Slot)
    (h : other.value? b' = none) : other.value? b = none := by
  cases other with
  | term u => cases h
  | var name =>
    have hsome := bindSlot_isSome b b' slot t hb name
    simp only [Slot.value?] at h ⊢
    rw [h] at hsome
    simpa using fun hf => hsome.2 (.inl hf)

theorem BindsOnly.extend (h : BindsOnly P b) {p : Pattern} {t : Triple} (ht : (p.probe b).OpensTo P t)
    (hb : extend p b t = some b') : BindsOnly P b' := by
  obtain ⟨b₁, h₁, hb⟩ := Option.bind_eq_some_iff.1 hb
  obtain ⟨b₂, h₂, hb⟩ := Option.bind_eq_some_iff.1 hb
  have hopen (other : Slot) (hnone : other.value? b₁ = none) : other.value? b = none :=
    value?_eq_none_of_bindSlot h₁ other hnone
  have hfirst := h.bindSlot ht.subject h₁
  have hsecond := hfirst.bindSlot (fun hnone => ht.predicate (hopen _ hnone)) h₂
  exact hsecond.bindSlot (fun hnone => ht.object (hopen _ (value?_eq_none_of_bindSlot h₂ _ hnone))) hb

end

section

variable {P : Term → Prop} {store : Store}
  (hstore : ∀ p : TriplePattern, ∀ t ∈ store.query p, p.OpensTo P t)

include hstore

theorem BindsOnly.extendBy {b : Binding} (h : BindsOnly P b) (patterns : List Pattern) :
    ∀ x ∈ extendBy store patterns b, BindsOnly P x := by
  induction patterns generalizing b with
  | nil => exact List.forall_mem_singleton.2 h
  | cons p rest ih =>
    intro x hx
    obtain ⟨c, hc, hx⟩ := List.mem_flatMap.1 hx
    obtain ⟨t, ht, hextend⟩ := List.mem_filterMap.1 hc
    exact ih (h.extend (hstore _ t ht) hextend) x hx

theorem bindsOnly_leftJoin {group : OptionalGroup} {bindings rows : List Binding}
    (h : ∀ b ∈ bindings, BindsOnly P b) (hrows : (leftJoin store group bindings).outcome = .ok rows) :
    ∀ r ∈ rows, BindsOnly P r := by
  obtain ⟨-, e, he⟩ | ⟨-, he⟩ := leftJoin_cases store group bindings
  · rw [he] at hrows
    cases hrows
  · obtain rfl := Except.ok.inj (he.symm.trans hrows)
    intro r hr
    obtain ⟨b, hb, hr⟩ := List.mem_flatMap.1 hr
    split_ifs at hr
    · rw [List.mem_singleton.1 hr]
      exact h b hb
    · exact (h b hb).extendBy hstore group.patterns r (List.mem_filter.1 hr).1

theorem bindsOnly_leftJoinAll {groups : List OptionalGroup} {bindings rows : List Binding}
    (h : ∀ b ∈ bindings, BindsOnly P b) (hrows : (leftJoinAll store bindings groups).outcome = .ok rows) :
    ∀ r ∈ rows, BindsOnly P r := by
  induction groups generalizing bindings with
  | nil =>
    cases hrows
    exact h
  | cons group rest ih =>
    rw [leftJoinAll, Work.outcome_bind, bind_eq_ok_iff] at hrows
    obtain ⟨extended, hextended, hrows⟩ := hrows
    exact ih (bindsOnly_leftJoin hstore h hextended) hrows

end

end Query

end CommandOntology
