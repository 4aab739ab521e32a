import Mathlib.Data.List.Forall2
import Mathlib.Data.List.Perm.Basic

set_option autoImplicit false

namespace CommandOntology

variable {ε δ α β : Type}

theorem bind_eq_ok_iff (x : Except ε α) (f : α → Except ε β) (b : β) :
    (x >>= f) = .ok b ↔ ∃ a, x = .ok a ∧ f a = .ok b := by
  cases x with
  | error e => simp [bind, Except.bind]
  | ok a => simp [bind, Except.bind]

theorem bind_eq_error_iff (x : Except ε α) (f : α → Except ε β) (e : ε) :
    (x >>= f) = .error e ↔ x = .error e ∨ ∃ a, x = .ok a ∧ f a = .error e := by
  cases x with
  | error e => simp [bind, Except.bind]
  | ok a => simp [bind, Except.bind]

theorem map_eq_ok_iff (f : α → β) (x : Except ε α) (b : β) :
    x.map f = .ok b ↔ ∃ a, x = .ok a ∧ f a = b := by
  cases x with
  | error e => simp [Except.map]
  | ok a => simp [Except.map]

theorem map_eq_error_iff (f : α → β) (x : Except ε α) (e : ε) : x.map f = .error e ↔ x = .error e := by
  cases x with
  | error e => simp [Except.map]
  | ok a => simp [Except.map]

theorem mapError_eq_ok_iff (f : ε → δ) (x : Except ε α) (a : α) :
    x.mapError f = .ok a ↔ x = .ok a := by
  cases x with
  | error e => simp [Except.mapError]
  | ok a => simp [Except.mapError]

theorem mapM_ok_of_forall (f : α → Except ε β) (P : α → β → Prop) (xs : List α)
    (hf : ∀ x ∈ xs, ∃ y, f x = .ok y ∧ P x y) :
    ∃ ys, xs.mapM f = .ok ys ∧ List.Forall₂ P xs ys := by
  induction xs with
  | nil => exact ⟨[], rfl, .nil⟩
  | cons x xs ih =>
    obtain ⟨y, hy, hp⟩ := hf x List.mem_cons_self
    obtain ⟨ys, hys, hall⟩ := ih fun z hz => hf z (List.mem_cons_of_mem x hz)
    exact ⟨y :: ys, by rw [List.mapM_cons, hy, hys]; rfl, .cons hp hall⟩

theorem forall₂_of_mapM_ok (f : α → Except ε β) (xs : List α) (ys : List β) (h : xs.mapM f = .ok ys) :
    List.Forall₂ (fun x y => f x = .ok y) xs ys := by
  induction xs generalizing ys with
  | nil =>
    cases h
    exact .nil
  | cons x xs ih =>
    rw [List.mapM_cons] at h
    obtain ⟨y, hy, h⟩ := (bind_eq_ok_iff _ _ _).1 h
    obtain ⟨ys', hys, h⟩ := (bind_eq_ok_iff _ _ _).1 h
    cases h
    exact .cons hy (ih ys' hys)

theorem mapM_ok_of_forall₂ (f : α → Except ε β) (xs : List α) (ys : List β)
    (h : List.Forall₂ (fun x y => f x = .ok y) xs ys) : xs.mapM f = .ok ys := by
  induction h with
  | nil => rfl
  | cons hx _ ih =>
    rw [List.mapM_cons, hx, ih]
    rfl

theorem map_eq_map_ok_of_forall₂ (f : α → Except ε β) (xs : List α) (ys : List β)
    (h : List.Forall₂ (fun x y => f x = .ok y) xs ys) : xs.map f = ys.map .ok := by
  induction h with
  | nil => rfl
  | cons hx _ ih => rw [List.map_cons, List.map_cons, hx, ih]

theorem exists_of_mem_mapM (f : α → Except ε β) (xs : List α) (ys : List β) (h : xs.mapM f = .ok ys)
    (y : β) (hy : y ∈ ys) : ∃ x ∈ xs, f x = .ok y := by
  have hmap := map_eq_map_ok_of_forall₂ f xs ys (forall₂_of_mapM_ok f xs ys h)
  exact List.mem_map.1 (hmap ▸ List.mem_map_of_mem hy)

/-- Steps over elements in some order end well with the same results in some order. -/
theorem mapM_perm {γ : Type} (f : α → Except ε β) (xs : List α) (zs : List γ) (image : γ → α)
    (result : γ → β) (hp : xs.Perm (zs.map image)) (hf : ∀ z ∈ zs, f (image z) = .ok (result z)) :
    ∃ ys, xs.mapM f = .ok ys ∧ ys.Perm (zs.map result) := by
  obtain ⟨ys, hys, hall⟩ := mapM_ok_of_forall f (fun x y => f x = .ok y) xs fun x hx => by
    obtain ⟨z, hz, rfl⟩ := List.mem_map.1 (hp.mem_iff.1 hx)
    exact ⟨result z, hf z hz, hf z hz⟩
  refine ⟨ys, hys, ?_⟩
  have hinj : Function.Injective (Except.ok : β → Except ε β) := fun _ _ => Except.ok.inj
  rw [← List.map_perm_map_iff hinj, ← map_eq_map_ok_of_forall₂ f xs ys hall, List.map_map]
  have hresults : zs.map (Except.ok ∘ result) = (zs.map image).map f := by
    rw [List.map_map]
    exact List.map_congr_left fun z hz => (hf z hz).symm
  rw [hresults]
  exact hp.map f

/-- Steps over the images of elements, in some order, end well if the steps over the elements do, with
results of the same keys. -/
theorem exists_mapM_ok_of_perm {γ κ : Type} (f : α → Except ε β) (f' : γ → Except ε β) (image : α → γ)
    (key : β → κ) {xs : List α} {ys : List β} {zs : List γ} (h : xs.mapM f = .ok ys)
    (hf : ∀ x ∈ xs, ∀ y, f x = .ok y → ∃ y', f' (image x) = .ok y' ∧ key y' = key y)
    (hp : zs.Perm (xs.map image)) : ∃ ys', zs.mapM f' = .ok ys' ∧ (ys'.map key).Perm (ys.map key) := by
  have himages : ∃ ys', List.Forall₂ (fun z y' => f' z = .ok y') (xs.map image) ys' ∧
      ys'.map key = ys.map key := by
    have hall := forall₂_of_mapM_ok f xs ys h
    clear h hp
    induction hall with
    | nil => exact ⟨[], .nil, rfl⟩
    | cons hx _ ih =>
      obtain ⟨y', hy', hkey⟩ := hf _ List.mem_cons_self _ hx
      obtain ⟨ys', hys', hkeys⟩ := ih fun x hin => hf x (List.mem_cons_of_mem _ hin)
      exact ⟨y' :: ys', .cons hy' hys', by rw [List.map_cons, List.map_cons, hkey, hkeys]⟩
  obtain ⟨ys', hys', hkeys⟩ := himages
  obtain ⟨us, hus, hperm⟩ := List.perm_comp_forall₂ hp hys'
  exact ⟨us, mapM_ok_of_forall₂ f' zs us hus, hkeys ▸ hperm.map key⟩

end CommandOntology
