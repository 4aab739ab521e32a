import Mathlib.Data.List.Basic
import CommandOntology.Data.Distinct

set_option autoImplicit false

namespace CommandOntology

section

variable {α : Type} [DecidableEq α]

theorem mem_distinctByFrom_id (x : α) (seen xs : List α) :
    x ∈ distinctByFrom id seen xs ↔ x ∈ xs ∧ x ∉ seen := by
  induction xs generalizing seen with
  | nil => simp [distinctByFrom]
  | cons y ys ih =>
    by_cases hy : y ∈ seen
    · simp only [distinctByFrom, id, if_pos hy, ih, List.mem_cons]
      constructor
      · exact fun h => ⟨.inr h.1, h.2⟩
      · rintro ⟨rfl | h, hx⟩
        · exact absurd hy hx
        · exact ⟨h, hx⟩
    · simp only [distinctByFrom, id, if_neg hy, List.mem_cons, ih, not_or]
      constructor
      · rintro (rfl | ⟨h, -, hx⟩)
        · exact ⟨.inl rfl, hy⟩
        · exact ⟨.inr h, hx⟩
      · rintro ⟨rfl | h, hx⟩
        · exact .inl rfl
        · by_cases he : x = y
          · exact .inl he
          · exact .inr ⟨h, he, hx⟩

@[simp]
theorem mem_distinct (x : α) (xs : List α) : x ∈ distinct xs ↔ x ∈ xs := by
  simp [distinct, distinctBy, mem_distinctByFrom_id]

theorem nodup_distinctByFrom_id (seen xs : List α) : (distinctByFrom id seen xs).Nodup := by
  induction xs generalizing seen with
  | nil => simp [distinctByFrom]
  | cons y ys ih =>
    by_cases hy : y ∈ seen
    · simpa [distinctByFrom, hy] using ih seen
    · have hn : y ∉ distinctByFrom id (y :: seen) ys := by
        simp [mem_distinctByFrom_id]
      simpa [distinctByFrom, hy] using ⟨hn, ih (y :: seen)⟩

theorem nodup_distinct (xs : List α) : (distinct xs).Nodup :=
  nodup_distinctByFrom_id [] xs

theorem distinctByFrom_eq_self (seen xs : List α) (hn : xs.Nodup) (hd : ∀ x ∈ xs, x ∉ seen) :
    distinctByFrom id seen xs = xs := by
  induction xs generalizing seen with
  | nil => rfl
  | cons y ys ih =>
    obtain ⟨hy, hys⟩ := List.nodup_cons.1 hn
    have hrest : ∀ x ∈ ys, x ∉ y :: seen := by
      intro x hx
      have hne : x ≠ y := fun h => hy (h ▸ hx)
      simpa [hne] using hd x (List.mem_cons_of_mem y hx)
    simp [distinctByFrom, hd y List.mem_cons_self, ih (y :: seen) hys hrest]

theorem distinct_eq_self (xs : List α) (hn : xs.Nodup) : distinct xs = xs :=
  distinctByFrom_eq_self [] xs hn fun _ _ => List.not_mem_nil

section

variable [BEq α] [LawfulBEq α]

theorem distinctByFrom_eq_eraseDups (seen xs : List α) :
    distinctByFrom id seen xs = (xs.filter (· ∉ seen)).eraseDups := by
  induction xs generalizing seen with
  | nil => rfl
  | cons x xs ih =>
    by_cases hx : x ∈ seen
    · simp [distinctByFrom, hx, ih]
    · have hrest : (xs.filter (· ∉ seen)).filter (fun y => !y == x) = xs.filter (· ∉ x :: seen) := by
        rw [List.filter_filter]
        exact List.filter_congr fun y _ => Bool.eq_iff_iff.2 (by simp)
      simp only [distinctByFrom, id, if_neg hx, ih]
      rw [List.filter_cons_of_pos (by simpa using hx), List.eraseDups_cons, hrest]

theorem distinct_eq_eraseDups (xs : List α) : distinct xs = xs.eraseDups := by
  rw [distinct, distinctBy, distinctByFrom_eq_eraseDups]
  simp

end

end

section

variable {α β : Type} [DecidableEq α] [DecidableEq β] {f : α → β}

theorem distinctByFrom_map (hf : Function.Injective f) (seen xs : List α) :
    distinctByFrom id (seen.map f) (xs.map f) = (distinctByFrom id seen xs).map f := by
  induction xs generalizing seen with
  | nil => rfl
  | cons x xs ih =>
    have hmem : f x ∈ seen.map f ↔ x ∈ seen := List.mem_map_of_injective hf
    have hcons := ih (x :: seen)
    rw [List.map_cons] at hcons
    by_cases hx : x ∈ seen
    · simp [distinctByFrom, hmem, hx, ih]
    · simp [distinctByFrom, hmem, hx, hcons]

theorem distinct_map (hf : Function.Injective f) (xs : List α) :
    distinct (xs.map f) = (distinct xs).map f :=
  distinctByFrom_map hf [] xs

end

end CommandOntology
