import CommandOntology.Proofs.WrittenDocuments

set_option autoImplicit false

namespace CommandOntology.Turtle

/-- A node that can be written where no prefix is of use. -/
def IsWritableNode (node : Term) : Prop :=
  ∀ iri, node = .iri iri → isWritable iri = true

def IsWritableGraph (g : Graph) : Prop :=
  ∀ t ∈ g.statements, ∀ node ∈ t.terms, IsWritableNode node

theorem exists_nodeText (u : Usage) {node : Term} (h : IsWritableNode node) :
    ∃ text, nodeText u node = .ok text := by
  cases node with
  | iri value =>
    rw [nodeText, if_pos (h value rfl)]
    split_ifs
    · exact ⟨_, rfl⟩
    · cases u.name? value with
      | some name => exact ⟨_, rfl⟩
      | none => exact ⟨_, rfl⟩
  | blank label => exact ⟨_, rfl⟩
  | literal lexical datatype language => exact ⟨_, rfl⟩

theorem exists_predicateText (u : Usage) {predicate : Term} (h : IsWritableNode predicate) :
    ∃ text, predicateText u predicate = .ok text := by
  rw [predicateText]
  split_ifs
  · exact ⟨_, rfl⟩
  · exact exists_nodeText u h

def Succeeds (piece : Writing) : Prop :=
  ∀ d, ∃ d', piece d = .ok d'

theorem succeeds_ok : Succeeds .ok :=
  fun d => ⟨d, rfl⟩

theorem succeeds_add (text : String) : Succeeds (Draft.add text) :=
  fun _ => ⟨_, rfl⟩

theorem succeeds_finish (node : Term) : Succeeds (Draft.finish node) :=
  fun _ => ⟨_, rfl⟩

theorem succeeds_all {pieces : List Writing} (h : ∀ piece ∈ pieces, Succeeds piece) :
    Succeeds (Draft.all pieces) := by
  intro d
  induction pieces generalizing d with
  | nil => exact ⟨d, rfl⟩
  | cons piece pieces ih =>
    obtain ⟨hpiece, hpieces⟩ := List.forall_mem_cons.1 h
    obtain ⟨d', hd'⟩ := hpiece d
    obtain ⟨d'', hd''⟩ := ih hpieces d'
    refine ⟨d'', ?_⟩
    rw [Draft.all, List.foldlM_cons, hd']
    exact hd''

/-- Pieces with a separator before each but the first, and a blank before that. -/
theorem succeeds_list {α : Type} (separator : String) (piece : α → Writing) (x : α) (xs : List α)
    (h : ∀ y ∈ x :: xs, Succeeds (piece y)) : Succeeds (Draft.all ([Draft.add " ", piece x] ++
      xs.flatMap fun y => [Draft.add separator, piece y])) := by
  refine succeeds_all fun w hw => ?_
  simp only [List.mem_append, List.mem_cons, List.not_mem_nil, or_false, List.mem_flatMap] at hw
  obtain (rfl | rfl) | ⟨y, hy, rfl | rfl⟩ := hw
  · exact succeeds_add _
  · exact h x List.mem_cons_self
  · exact succeeds_add _
  · exact h y (List.mem_cons_of_mem x hy)

variable {s : Source}

theorem succeeds_writeObjects (write : Nat → Term → Writing) (depth : Nat) (objects : List Term)
    (h : ∀ o ∈ objects, Succeeds (write (depth + 1) o)) : Succeeds (writeObjects write depth objects) := by
  cases objects with
  | nil => exact succeeds_ok
  | cons o rest => exact succeeds_list _ (write (depth + 1)) o rest h

theorem succeeds_writeProperties (hs : IsWritableGraph s.graph) (write : Nat → Term → Writing)
    (hwrite : ∀ depth o, IsWritableNode o → Succeeds (write depth o)) (depth : Nat) (subject : Term) :
    Succeeds (writeProperties s write depth subject) := by
  have hproperty (entry : Term × List Term) (hentry : entry ∈ s.properties subject) :
      Succeeds (fun d => do
        let name ← predicateText s.usage entry.1
        Draft.all [Draft.add name, writeObjects write depth entry.2] d) := by
    have hmem := s.mem_properties subject entry hentry
    obtain ⟨o, ho⟩ := (s.exists_mem_properties subject entry.1).1 ⟨entry, hentry, rfl⟩
    obtain ⟨name, hname⟩ := exists_predicateText s.usage (hs _ ho entry.1 (by simp [Triple.terms]))
    have hobjects : Succeeds (writeObjects write depth entry.2) :=
      succeeds_writeObjects write depth entry.2 fun x hx =>
        hwrite _ x (hs _ ((hmem x).1 hx) x (by simp [Triple.terms]))
    rw [hname]
    exact succeeds_all (by simpa using ⟨succeeds_add name, hobjects⟩)
  rw [writeProperties]
  cases hp : s.properties subject with
  | nil => exact succeeds_ok
  | cons entry rest => exact succeeds_list _ _ entry rest fun x hx => hproperty x (hp ▸ hx)

theorem isWritableNode_of_value? {g : Graph} (hg : IsWritableGraph g) {subject value : Term}
    {predicate : String} (h : g.value? subject predicate = some value) : IsWritableNode value := by
  obtain ⟨t, ht, rfl⟩ := Option.map_eq_some_iff.1 h
  have hmem : t ∈ g.statements := (List.mem_filter.1 (List.mem_of_find?_eq_some ht)).1
  exact hg t hmem t.object (by simp [Triple.terms])

theorem succeeds_nodeText {node : Term} (h : IsWritableNode node) :
    Succeeds (fun d => do Draft.add (← nodeText s.usage node) d) := by
  obtain ⟨text, htext⟩ := exists_nodeText s.usage h
  rw [htext]
  exact succeeds_add text

theorem succeeds_writeObject (hs : IsWritableGraph s.graph) (room depth : Nat) (node : Term)
    (h : IsWritableNode node) : Succeeds (writeObject s room depth node) := by
  -- `room` is how many nodes may still nest: those in brackets and parentheses are written with one less.
  induction room generalizing depth node with
  | zero => exact succeeds_nodeText h
  | succ room ih =>
    intro d
    simp only [writeObject]
    split_ifs with hnested
    · cases s.list? node with
      | none =>
        refine succeeds_all ?_ d
        simp only [List.forall_mem_cons]
        exact ⟨succeeds_finish node, succeeds_add _, succeeds_writeProperties hs _ ih _ node,
          succeeds_add _, by simp⟩
      | some cells =>
        refine succeeds_all (fun piece hpiece => ?_) d
        simp only [List.mem_append, List.mem_singleton, List.mem_map] at hpiece
        obtain (rfl | ⟨cell, -, rfl⟩) | rfl := hpiece
        · exact succeeds_add _
        · cases hitem : s.graph.value? cell Rdf.first with
          | none => exact succeeds_ok
          | some item =>
            refine succeeds_all ?_
            simp only [List.forall_mem_cons]
            exact ⟨succeeds_add _, ih _ item (isWritableNode_of_value? hs hitem),
              succeeds_finish cell, by simp⟩
        · exact succeeds_add _
    · exact succeeds_nodeText h d

theorem succeeds_writeSubject (hs : IsWritableGraph s.graph) {subject : Term}
    (h : IsWritableNode subject) : Succeeds (writeSubject s subject) := by
  obtain ⟨text, htext⟩ := exists_nodeText s.usage h
  have hpieces (label : String) : Succeeds (Draft.all [Draft.finish subject, Draft.add ("\n" ++ label),
      writeProperties s (writeObject s (s.graph.size + 1)) 0 subject, Draft.add " .\n"]) := by
    refine succeeds_all ?_
    simp only [List.forall_mem_cons]
    exact ⟨succeeds_finish subject, succeeds_add _,
      succeeds_writeProperties hs _ (succeeds_writeObject hs _) 0 subject, succeeds_add _, by simp⟩
  intro d
  rw [writeSubject]
  split_ifs
  · exact ⟨d, rfl⟩
  · exact hpieces "[]" d
  · rw [htext]
    exact hpieces text d

/-- A graph is written if all its nodes can be. -/
theorem exists_write (table : PrefixTable) {g : Graph} (h : IsWritableGraph g) :
    ∃ text, write table g = .ok text := by
  have hsubjects : Succeeds (Draft.all ((orderedSubjects g).map
      (writeSubject ⟨g, Usage.ofGraph table g⟩))) := by
    refine succeeds_all (List.forall_mem_map.2 fun x hx => ?_)
    obtain ⟨t, ht, rfl⟩ := (mem_orderedSubjects g x).1 hx
    exact succeeds_writeSubject h (h t ht t.subject (by simp [Triple.terms]))
  obtain ⟨d, hd⟩ := hsubjects ⟨prefixLines (Usage.ofGraph table g), []⟩
  exact ⟨d.text ++ "\n", by rw [write, hd]; rfl⟩

end CommandOntology.Turtle
