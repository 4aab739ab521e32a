import Mathlib.Data.Prod.Lex
import Mathlib.Data.String.Basic
import CommandOntology.Proofs.InterchangeableStores
import CommandOntology.Proofs.MonotoneRounding

set_option autoImplicit false

namespace CommandOntology

namespace Query

namespace SortKey

/-- A key with a number of the format, if with any. NaN has no place among the others. -/
def IsProper : SortKey → Prop
  | number value _ => value.IsOfFormat ∧ value ≠ .nan
  | _ => True

def place : SortKey → ℕ ×ₗ ℚ ×ₗ String ×ₗ String
  | unbound => toLex (0, toLex (0, toLex ("", "")))
  | blank label => toLex (1, toLex (0, toLex (label, "")))
  | iri value => toLex (2, toLex (0, toLex (value, "")))
  | number value lexical => toLex (3, toLex (value.toRat, toLex (lexical, "")))
  | literal lexical lineForm => toLex (4, toLex (0, toLex (lexical, lineForm)))

theorem less_iff_place_lt {a b : SortKey} (ha : a.IsProper) (hb : b.IsProper) :
    a.less b = true ↔ a.place < b.place := by
  cases a <;> cases b <;> simp only [less, place, Prod.Lex.toLex_lt_toLex]
  case number.number x text y text' =>
    rw [Binary64.order?_eq_compare ha.1 hb.1 ha.2 hb.2]
    obtain hlt | heq | hgt := lt_trichotomy x.toRat y.toRat
    · simp [compare_lt_iff_lt.2 hlt, hlt]
    · simp [heq]
    · simp [compare_gt_iff_gt.2 hgt, hgt.not_gt, hgt.ne']
  case literal.literal text form text' form' =>
    split_ifs with heq
    · simp [heq]
    · simp [heq]
  all_goals simp [rank]

theorem ranks_less : Ranks less IsProper :=
  .of_place place less_iff_place_lt

def isNan : SortKey → Bool
  | number value _ => value == .nan
  | _ => false

theorem isProper_ofTerm {t : Option Term} (h : (ofTerm t).isNan = false) : (ofTerm t).IsProper := by
  match t with
  | none => trivial
  | some (.blank _) => trivial
  | some (.iri _) => trivial
  | some (.literal lexical datatype language) =>
    simp only [ofTerm, ofLiteral] at h ⊢
    split_ifs at h ⊢
    · cases hread : Reading.float lexical with
      | error e => trivial
      | ok x =>
        simp only [hread, isNan, beq_eq_false_iff_ne] at h
        exact ⟨Reading.isOfFormat_of_float hread, h⟩
    · trivial

end SortKey

namespace OrderCondition

variable (c : OrderCondition)

def key (b : Binding) : SortKey :=
  .ofTerm (findField b c.name)

def before (a b : Binding) : Bool :=
  if c.descending then (c.key b).less (c.key a) else (c.key a).less (c.key b)

def OrdersAll (bindings : List Binding) : Prop :=
  ∀ b ∈ bindings, (c.key b).isNan = false

instance (bindings : List Binding) : Decidable (c.OrdersAll bindings) :=
  inferInstanceAs (Decidable (∀ b ∈ bindings, (c.key b).isNan = false))

theorem irrefl_before {bindings : List Binding} (h : c.OrdersAll bindings) {b : Binding} (hb : b ∈ bindings) :
    c.before b b = false := by
  rw [before, ite_self]
  exact SortKey.ranks_less.irrefl (SortKey.isProper_ofTerm (h b hb))

theorem isStablyOrdered_sort {bindings : List Binding} (h : c.OrdersAll bindings) :
    IsStablyOrdered c.before bindings (c.sort bindings) := by
  let keyed (b : Binding) : SortKey × Binding := (c.key b, b)
  have hinjective : Function.Injective keyed := fun a b hab => congrArg Prod.snd hab
  have hranks : Ranks (fun a b : SortKey × Binding => a.1.less b.1) (·.1.IsProper) :=
    .of_place (·.1.place) SortKey.less_iff_place_lt
  have hproper : ∀ x ∈ bindings.map keyed, x.1.IsProper := by
    intro x hx
    obtain ⟨b, hb, rfl⟩ := List.mem_map.1 hx
    exact SortKey.isProper_ofTerm (h b hb)
  -- The keys are those of the bindings that they stand beside, also in the sorted list.
  have hkeyed {sorted : List (SortKey × Binding)} (hperm : sorted.Perm (bindings.map keyed)) :
      (sorted.map (·.2)).map keyed = sorted := by
    rw [List.map_map]
    conv_rhs => rw [← List.map_id sorted]
    refine List.map_congr_left fun x hx => ?_
    obtain ⟨b, -, rfl⟩ := List.mem_map.1 (hperm.mem_iff.1 hx)
    rfl
  unfold sort sortByTerm
  dsimp only
  split_ifs with hdescending
  · have hsorted := isStablyOrdered_stableSortDescending hranks hproper
    have hbefore : c.before = fun a b => (c.key b).less (c.key a) :=
      funext fun _ => funext fun _ => if_pos hdescending
    rw [← hkeyed hsorted.perm] at hsorted
    rw [hbefore]
    exact hsorted.of_map hinjective
  · have hsorted := isStablyOrdered_stableSort hranks hproper
    have hbefore : c.before = fun a b => (c.key a).less (c.key b) :=
      funext fun _ => funext fun _ => if_neg hdescending
    rw [← hkeyed hsorted.perm] at hsorted
    rw [hbefore]
    exact hsorted.of_map hinjective

end OrderCondition

def comesBefore : List OrderCondition → Binding → Binding → Bool
  | [] => fun _ _ => false
  | c :: rest => thenBefore c.before (comesBefore rest)

section

variable {conditions : List OrderCondition} {bindings : List Binding}
  (h : ∀ c ∈ conditions, c.OrdersAll bindings)

include h

theorem irrefl_comesBefore {b : Binding} (hb : b ∈ bindings) : comesBefore conditions b b = false := by
  induction conditions with
  | nil => rfl
  | cons c rest ih =>
    obtain ⟨hc, hrest⟩ := List.forall_mem_cons.1 h
    simp [comesBefore, thenBefore, c.irrefl_before hc hb, ih hrest]

theorem isStablyOrdered_orderAll : IsStablyOrdered (comesBefore conditions) bindings
    (orderAll conditions bindings) := by
  induction conditions with
  | nil => exact .of_pairwise (List.pairwise_of_forall fun _ _ => rfl)
  | cons c rest ih =>
    obtain ⟨hc, hrest⟩ := List.forall_mem_cons.1 h
    have hall : c.OrdersAll (orderAll rest bindings) := fun b hb =>
      hc b ((orderAll_perm rest bindings).mem_iff.1 hb)
    exact (ih hrest).thenBefore (c.isStablyOrdered_sort hall) fun b hb => c.irrefl_before hc hb

/-- Only one list has the bindings stably in the order of the conditions. -/
theorem isStablyOrdered_iff (other : List Binding) :
    IsStablyOrdered (comesBefore conditions) bindings other ↔ other = orderAll conditions bindings := by
  refine ⟨fun hother => ?_, ?_⟩
  · exact hother.unique (fun b hb => irrefl_comesBefore h hb) (isStablyOrdered_orderAll h)
  · rintro rfl
    exact isStablyOrdered_orderAll h

end

theorem getElem?_slice {α : Type} (limit : Option Nat) (offset : Nat) (xs : List α) (i : Nat) :
    (slice limit offset xs)[i]? = if limit.all (i < ·) then xs[offset + i]? else none := by
  cases limit with
  | none => simp [slice]
  | some n => simp [slice, List.getElem?_take]

theorem flatMap_slice {α : Type} (n k : Nat) (xs : List α) :
    (List.range k).flatMap (fun i => slice (some n) (i * n) xs) = xs.take (k * n) := by
  induction k with
  | zero => simp
  | succ k ih =>
    rw [List.range_succ, List.flatMap_append, ih, Nat.succ_mul, List.take_add]
    simp [slice]

def SelectQuery.allRows (q : SelectQuery) (ordered : List Binding) : List Row :=
  let rows := ordered.map (project q.projection)
  if q.distinct then rows.eraseDups else rows

theorem SelectQuery.rows_eq_slice (q : SelectQuery) (solutions : List Binding) :
    q.rows solutions = slice q.limit q.offset (q.allRows (orderAll q.order solutions)) := by
  unfold rows allRows
  dsimp only
  rw [distinctBy_rowKey, distinct_eq_eraseDups]

/-- The rows of a query are those of the solutions in the order of its conditions. This order is the only
one that is sorted by the conditions, each in its direction, and leaves what they do not tell apart as it
stood. Its projections, without later repetitions if the query is for distinct rows, are given out from the
offset up to the limit, so that the pages of one size together are all of them. -/
theorem SelectQuery.rows_ordered_cut (q : SelectQuery) (solutions : List Binding)
    (h : ∀ c ∈ q.order, c.OrdersAll solutions) :
    ∃ ordered, (∀ other, IsStablyOrdered (comesBefore q.order) solutions other ↔ other = ordered) ∧
      (∀ i, (q.rows solutions)[i]? =
        if q.limit.all (i < ·) then (q.allRows ordered)[q.offset + i]? else none) ∧
      { q with limit := none, offset := 0 }.rows solutions = q.allRows ordered ∧
      (∀ n k, (q.allRows ordered).length ≤ k * n →
        (List.range k).flatMap (fun i => { q with limit := some n, offset := i * n }.rows solutions) =
          q.allRows ordered) ∧
      ∀ store, (q.solutions store).outcome = .ok solutions →
        (q.run store).outcome = .ok ⟨q.projection, q.rows solutions⟩ := by
  refine ⟨orderAll q.order solutions, isStablyOrdered_iff h, fun i => ?_, ?_, fun n k hlength => ?_,
    fun store hsolutions => ?_⟩
  · rw [rows_eq_slice, getElem?_slice]
  · rw [rows_eq_slice]
    rfl
  · have hpage (i : Nat) : { q with limit := some n, offset := i * n }.rows solutions =
        slice (some n) (i * n) (q.allRows (orderAll q.order solutions)) :=
      rows_eq_slice _ _
    simp only [hpage]
    rw [flatMap_slice, List.take_of_length_le hlength]
  · simp only [SelectQuery.run, Work.outcome_bind, hsolutions]
    rfl

/-- Four solutions by two conditions, the second of which is descending: "10" and "2" are numbers, one
variable is unbound, and two solutions have one projection. -/
theorem SelectQuery.rows_ordered_cut_mixed :
    let number (text : String) : Term := .literal text (some Xsd.integer) none
    let solutions : List Binding := [[("x", number "10"), ("y", .plain "a")],
      [("x", number "2"), ("y", .plain "a")], [("y", .plain "b")], [("x", number "2"), ("y", .plain "c")]]
    let q : SelectQuery := ⟨["x"], true, [], [], [], [⟨"x", false⟩, ⟨"y", true⟩], some 2, 1, []⟩
    (∀ c ∈ q.order, c.OrdersAll solutions) ∧
      q.rows solutions = [[("x", number "2")], [("x", number "10")]] ∧
      ∃ ordered, IsStablyOrdered (comesBefore q.order) solutions ordered := by
  intro number solutions q
  have h : ∀ c ∈ q.order, c.OrdersAll solutions := by decide
  obtain ⟨ordered, hordered, -⟩ := q.rows_ordered_cut solutions h
  exact ⟨h, by decide +kernel, ordered, (hordered ordered).2 rfl⟩

end Query

end CommandOntology
