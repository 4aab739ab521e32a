import CommandOntology.Proofs.Reloading

set_option autoImplicit false

namespace CommandOntology

open Export

theorem head?_ordered_eq_some_iff (texts : List String) (text : String) :
    (ordered texts).head? = some text ↔ text ∈ texts ∧ ∀ other ∈ texts, text ≤ other := by
  have hleast (least : String) (rest : List String) (h : ordered texts = least :: rest) :
      least ∈ texts ∧ ∀ other ∈ texts, least ≤ other := by
    have hsorted : (ordered texts).Pairwise fun a b => decide (a ≤ b) = true :=
      List.pairwise_mergeSort textLe_trans textLe_total _
    have hmem (text : String) : text ∈ texts ↔ text ∈ ordered texts := (mem_ordered text texts).symm
    simp only [hmem]
    rw [h] at hsorted ⊢
    refine ⟨.head _, List.forall_mem_cons.2 ⟨String.le_refl least, fun other hother => ?_⟩⟩
    exact of_decide_eq_true ((List.pairwise_cons.1 hsorted).1 other hother)
  cases hordered : ordered texts with
  | nil => simp [(ordered_eq_nil_iff texts).1 hordered]
  | cons least rest =>
    obtain ⟨hmem, hle⟩ := hleast least rest hordered
    rw [List.head?_cons, Option.some.injEq]
    constructor
    · rintro rfl
      exact ⟨hmem, hle⟩
    · rintro ⟨htext, hbelow⟩
      exact String.le_antisymm (hle text htext) (hbelow least hmem)

/-- A command of a definition is found under its key in the index that gives the commands in normal form. -/
theorem get?_of_normalCommands {index : CommandIndex} {d : Definition}
    (hkeys : (d.commands.map CommandDefinition.key).Nodup)
    (hcontent : index.commands.map Command.content = normalCommands d) {c : CommandDefinition}
    (hc : c ∈ d.commands) :
    ∃ x, index.get? c.key = some x ∧ x.content = normalCommand c := by
  have hmem : normalCommand c ∈ index.commands.map Command.content := by
    rw [hcontent, normalCommands, List.mem_mergeSort]
    exact List.mem_map_of_mem hc
  obtain ⟨x, hx, hnormal⟩ := List.mem_map.1 hmem
  have hkey : x.key = c.key := congrArg Command.key hnormal
  cases hget : index.get? c.key with
  | none => exact absurd (List.find?_eq_none.1 hget x hx) (by simp [hkey])
  | some y =>
    refine ⟨y, rfl, ?_⟩
    have hy := List.mem_of_find?_eq_some hget
    have hykey : y.key = c.key := by simpa using List.find?_some hget
    have hynormal : y.content ∈ normalCommands d := hcontent ▸ List.mem_map_of_mem hy
    obtain ⟨c', hc', hsame⟩ := List.mem_map.1 (List.mem_mergeSort.1 hynormal)
    have hckey : c'.key = c.key := (congrArg Command.key hsame).trans hykey
    rw [← hsame, List.inj_on_of_nodup_map hkeys hc' hc hckey]

namespace Session

section

variable (s : Session) {options : ExportOptions} {format : DocumentFormat} {base label : String}
  (hoptions : options.Fit format base label) {d : Definition}
  (hkept : ∀ text ∈ d.texts, format.Keeps text)

include hoptions hkept

/-- A command that is exported and read again is found in its normal form. -/
theorem get?_of_read_export (hroom : 2 ≤ s.options.capacity) {document : ExportedDocument}
    (hdocument : d.export options = .ok document) {o : ValidatedOntology}
    (ho : s.read document.document = .ok o) {c : CommandDefinition} (hc : c ∈ d.commands) :
    ∃ x, o.index.get? c.key = some x ∧ x.content = normalCommand c := by
  obtain ⟨hexportable, hall⟩ := export_spec hoptions d hkept
  have hd := hexportable document hdocument
  obtain ⟨document', ts, hsame, hts, hparse⟩ := hall hd
  obtain rfl : document' = document := Except.ok.inj (hsame.symm.trans hdocument)
  obtain ⟨doc, hdoc, -⟩ := (s.read_eq_ok_iff _ o).1 ho
  have hmem := (hparse s.options hroom).2 doc hdoc
  exact get?_of_normalCommands hd.keys ((s.read_spec hd hts hdoc hmem).2 o ho) hc

theorem exists_read_export (hs : s.options = {}) (hd : IsExportable d) (hn : View.HasNamedArguments d) :
    ∃ document o, d.export options = .ok document ∧ s.read document.document = .ok o := by
  obtain ⟨document, ts, hdocument, hts, hall⟩ := (export_spec hoptions d hkept).2 hd
  obtain ⟨hparse, hmem⟩ := hall s.options (by rw [hs]; decide)
  obtain ⟨doc, hdoc⟩ := hparse.2 (by rw [hs]; exact isSingleValued_statements hd hts)
  obtain ⟨o, ho⟩ := (s.read_spec hd hts hdoc (hmem doc hdoc)).1.2 hn
  exact ⟨document, o, hdocument, ho⟩

/-- The primary handler of a command that is exported and read again is the least of its handlers. It is the
first one just if the least of them comes first. -/
theorem handler_of_read_export (hroom : 2 ≤ s.options.capacity) {document : ExportedDocument}
    (hdocument : d.export options = .ok document) {o : ValidatedOntology}
    (ho : s.read document.document = .ok o) {c : CommandDefinition} (hc : c ∈ d.commands) :
    ∃ x, o.index.get? c.key = some x ∧ ∃ first ∈ c.handlers.head?, ∃ least ∈ c.handlers,
      (∀ other ∈ c.handlers, least ≤ other) ∧ x.handler = some least ∧
        (x.handler = some first ↔ ∀ other ∈ c.handlers, first ≤ other) := by
  obtain ⟨x, hx, hnormal⟩ := get?_of_read_export s hoptions hkept hroom hdocument ho hc
  have hhandler : x.handler = (ordered c.handlers).head? := congrArg Command.handler hnormal
  have hne := ((export_spec hoptions d hkept).1 document hdocument).handlers c hc
  obtain ⟨first, rest, hfirst⟩ := List.exists_cons_of_ne_nil hne
  obtain ⟨least, tail, hleast⟩ := List.exists_cons_of_ne_nil (mt (ordered_eq_nil_iff c.handlers).1 hne)
  have hhead : (ordered c.handlers).head? = some least := by rw [hleast, List.head?_cons]
  obtain ⟨hmem, hle⟩ := (head?_ordered_eq_some_iff c.handlers least).1 hhead
  have hin : first ∈ c.handlers := hfirst ▸ .head _
  refine ⟨x, hx, first, by rw [hfirst]; rfl, least, hmem, hle, hhandler.trans hhead, ?_⟩
  rw [hhandler, head?_ordered_eq_some_iff]
  exact and_iff_right hin

end

end Session

def runProgram : Definition :=
  { commands := [{ noun := "pods", verb := "list", handlers := ["b:run", "a:run"] }] }

def emptySession : Session :=
  ⟨{}, .memory, {}, .parsed ⟨.ofList .memory [], .empty 32, none, none⟩⟩

theorem quotable_runProgram : ∀ text ∈ runProgram.texts, DocumentFormat.turtle.Keeps text := by
  have hline : ∀ text ∈ runProgram.texts, '\n' ∉ text.toList := by decide
  exact fun text htext hbreak => absurd hbreak (hline text htext)

theorem read_export_runProgram : ∃ document o, runProgram.export {} = .ok document ∧
    emptySession.read document.document = .ok o := by
  have harguments : ∀ c ∈ runProgram.commands, c.arguments = [] := by decide
  have hd : IsExportable runProgram :=
    ⟨by decide, by decide, by decide, fun c hc => by simp [harguments c hc]⟩
  have hn : View.HasNamedArguments runProgram := fun c hc => by simp [harguments c hc]
  exact emptySession.exists_read_export (ExportOptions.fit_default .turtle) quotable_runProgram rfl hd hn

theorem handler_of_read_export_run : ∃ document o, runProgram.export {} = .ok document ∧
    emptySession.read document.document = .ok o ∧
      ∃ x, o.index.get? ⟨"pods", "list"⟩ = some x ∧
        ∃ first ∈ ["b:run", "a:run"].head?, ∃ least ∈ ["b:run", "a:run"],
          (∀ other ∈ ["b:run", "a:run"], least ≤ other) ∧ x.handler = some least ∧
            (x.handler = some first ↔ ∀ other ∈ ["b:run", "a:run"], first ≤ other) := by
  obtain ⟨document, o, hdocument, ho⟩ := read_export_runProgram
  exact ⟨document, o, hdocument, ho, emptySession.handler_of_read_export (ExportOptions.fit_default .turtle)
    quotable_runProgram (by decide) hdocument ho (.head _)⟩

/-- The handler that is listed first does not stay primary. -/
theorem handler_runProgram : ∃ document o, runProgram.export {} = .ok document ∧
    emptySession.read document.document = .ok o ∧
      ∃ c ∈ runProgram.commands, c.handlers ≠ [] ∧
        ∃ x, o.index.get? c.key = some x ∧ x.handler = some "a:run" ∧ c.handlers.head? = some "b:run" := by
  obtain ⟨document, o, hdocument, ho⟩ := read_export_runProgram
  refine ⟨document, o, hdocument, ho, _, .head _, by decide, ?_⟩
  obtain ⟨x, hx, hnormal⟩ := emptySession.get?_of_read_export (ExportOptions.fit_default .turtle)
    quotable_runProgram (by decide) hdocument ho (.head _)
  have hhandler : x.handler = (ordered ["b:run", "a:run"]).head? := congrArg Command.handler hnormal
  refine ⟨x, hx, hhandler.trans ?_, rfl⟩
  exact (head?_ordered_eq_some_iff _ _).2 ⟨by decide, by decide⟩

end CommandOntology
