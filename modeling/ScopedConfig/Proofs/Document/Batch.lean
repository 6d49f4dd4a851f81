import Mathlib.Data.List.Perm.Basic
import ScopedConfig.Command
import ScopedConfig.Proofs.Document.Running
import ScopedConfig.Proofs.Json.Quoted

/-!
# Batches of documents

The documents of a batch do not see each other: each prints the block that it prints alone, behind a
line with its name, and the batch prints all blocks in order or none. What a batch is refused for is
what its first failing document is refused for alone, with the name of this document in front of the
message, once. The command prints a batch that ran behind its success line, and of one that failed
the report alone. The report always has a line in it, because every fault of a document arises in a
line.

Key definitions: `Document.Prints`, `Document.FirstFailing`, `Machine.Loads`.
Key theorems: `Document.runAll_eq_ok_iff`, `Document.runAll_eq_error_iff`,
`Document.exists_span_of_run`, `Machine.run_batch`, `Document.runAll_isolated`.
-/

namespace ScopedConfig

namespace Document

/-- The document runs alone, and the block is its name and what it prints. -/
def Prints (d : Document) (block : List String) : Prop :=
  ∃ lines, d.run = .ok lines ∧ block = ("DOCUMENT:" ++ d.name) :: lines

/-- The document is the first one that fails, and the diagnostic is the one that it fails with
alone. -/
def FirstFailing (docs : List Document) (d : Document) (e : Diagnostic) : Prop :=
  ∃ front behind, docs = front ++ d :: behind ∧ (∀ f ∈ front, ∃ lines, f.run = .ok lines) ∧
    d.run = .error e

variable {docs : List Document} {d : Document} {e : Diagnostic} {lines out : List String}

/-! ### One document and then the others -/

theorem runAll_cons_of_error (h : d.run = .error e) (docs : List Document) :
    runAll (d :: docs) = .error (e.inDocument d.name) := by
  rw [runAll, h]

theorem runAll_cons_of_ok (h : d.run = .ok lines) (docs : List Document) :
    runAll (d :: docs) =
      (runAll docs).map fun out => ("DOCUMENT:" ++ d.name) :: lines ++ out := by
  rw [runAll, h]

theorem runAll_of_prints {blocks : List (List String)} (h : List.Forall₂ Prints docs blocks) :
    runAll docs = .ok blocks.flatten := by
  induction h with
  | nil => rfl
  | @cons d block docs blocks hd _ ih =>
    obtain ⟨lines, hrun, rfl⟩ := hd
    rw [runAll_cons_of_ok hrun, ih]
    rfl

theorem runAll_of_firstFailing (h : FirstFailing docs d e) :
    runAll docs = .error (e.inDocument d.name) := by
  obtain ⟨front, behind, rfl, hfront, hfail⟩ := h
  induction front with
  | nil => exact runAll_cons_of_error hfail behind
  | cons f front ih =>
    obtain ⟨⟨lines, hrun⟩, hfront⟩ := List.forall_mem_cons.mp hfront
    rw [List.cons_append, runAll_cons_of_ok hrun, ih hfront]
    rfl

/-- **Either all documents run, or one is the first that fails.** -/
theorem prints_or_firstFailing : ∀ docs : List Document,
    (∃ blocks, List.Forall₂ Prints docs blocks) ∨ ∃ d e, FirstFailing docs d e
  | [] => .inl ⟨[], .nil⟩
  | d :: docs => by
    cases hrun : d.run with
    | error e => exact .inr ⟨d, e, [], docs, rfl, List.forall_mem_nil _, hrun⟩
    | ok lines =>
      rcases prints_or_firstFailing docs with ⟨blocks, hblocks⟩ | ⟨f, e, front, behind, rfl, hf⟩
      · exact .inl ⟨_, .cons ⟨lines, hrun, rfl⟩ hblocks⟩
      · exact .inr ⟨f, e, d :: front, behind, rfl,
          List.forall_mem_cons.mpr ⟨⟨lines, hrun⟩, hf.1⟩, hf.2⟩

/-! ### When a batch runs -/

/-- **A batch that runs prints the blocks of its documents**, one behind the other. -/
theorem runAll_eq_ok_iff :
    runAll docs = .ok out ↔ ∃ blocks, List.Forall₂ Prints docs blocks ∧ out = blocks.flatten := by
  constructor
  · intro h
    rcases prints_or_firstFailing docs with ⟨blocks, hblocks⟩ | ⟨d, e, hfail⟩
    · rw [runAll_of_prints hblocks] at h
      exact ⟨blocks, hblocks, (Except.ok.inj h).symm⟩
    · rw [runAll_of_firstFailing hfail] at h
      exact nomatch h
  · rintro ⟨blocks, hblocks, rfl⟩
    exact runAll_of_prints hblocks

/-- **A batch fails for its first failing document**, whose name is put in front of the message. -/
theorem runAll_eq_error_iff : runAll docs = .error e ↔
    ∃ d alone, FirstFailing docs d alone ∧ e = alone.inDocument d.name := by
  constructor
  · intro h
    rcases prints_or_firstFailing docs with ⟨blocks, hblocks⟩ | ⟨d, alone, hfail⟩
    · rw [runAll_of_prints hblocks] at h
      exact nomatch h
    · rw [runAll_of_firstFailing hfail] at h
      exact ⟨d, alone, hfail, (Except.error.inj h).symm⟩
  · rintro ⟨d, alone, hfail, rfl⟩
    exact runAll_of_firstFailing hfail

theorem exists_forall₂_prints_iff : (∃ blocks, List.Forall₂ Prints docs blocks) ↔
    ∀ d ∈ docs, ∃ lines, d.run = .ok lines := by
  constructor
  · rintro ⟨blocks, hblocks⟩
    induction hblocks with
    | nil => exact List.forall_mem_nil _
    | cons hd _ ih =>
      obtain ⟨lines, hrun, -⟩ := hd
      exact List.forall_mem_cons.mpr ⟨⟨lines, hrun⟩, ih⟩
  · intro h
    rcases prints_or_firstFailing docs with hblocks | ⟨d, e, front, behind, rfl, -, hfail⟩
    · exact hblocks
    · obtain ⟨lines, hrun⟩ := h d (by simp)
      rw [hrun] at hfail
      exact nomatch hfail

theorem exists_runAll_eq_ok_iff :
    (∃ out, runAll docs = .ok out) ↔ ∀ d ∈ docs, ∃ lines, d.run = .ok lines := by
  rw [← exists_forall₂_prints_iff]
  constructor
  · rintro ⟨out, hout⟩
    obtain ⟨blocks, hblocks, -⟩ := runAll_eq_ok_iff.mp hout
    exact ⟨blocks, hblocks⟩
  · rintro ⟨blocks, hblocks⟩
    exact ⟨_, runAll_of_prints hblocks⟩

/-- **The order of the documents is no matter of what each prints**: documents in another order
print the same blocks in this other order. -/
theorem exists_perm_of_prints {docs' : List Document} {blocks : List (List String)}
    (hperm : docs.Perm docs') (h : List.Forall₂ Prints docs blocks) :
    ∃ blocks', blocks.Perm blocks' ∧ List.Forall₂ Prints docs' blocks' := by
  obtain ⟨blocks', hprints, hblocks⟩ := List.perm_comp_forall₂ hperm.symm h
  exact ⟨blocks', hblocks.symm, hprints⟩

theorem exists_span_of_run (h : d.run = .error e) : ∃ span, e.span? = some span := by
  obtain ⟨front, line, -, -, hspan, -⟩ := exists_of_runSource_error h
  exact ⟨_, hspan⟩

end Document

/-! ### The command -/

/-- The arguments ask for the documents of a directory, and these can be read and are some. -/
def Machine.Loads (m : Machine) (args : List String) (docs : List Document) : Prop :=
  ∃ directory path entries, Request.ofArgs? args = some (.batch directory) ∧
    (Request.batch directory).path m.workingDirectory = .ok path ∧
    m.root.find? path = some (.directory entries) ∧
    FileTree.documents entries = .ok docs ∧ docs ≠ []

variable {m : Machine} {args : List String} {docs : List Document} {d : Document} {e : Diagnostic}

/-- **The command answers with the outcome of the documents that it loads.** -/
theorem Machine.run_batch (h : m.Loads args docs) :
    m.run args = Request.outcome (Document.runAll docs) := by
  obtain ⟨directory, path, entries, hargs, hpath, hfound, hdocs, hne⟩ := h
  simp only [Machine.run, hargs, hpath, hfound, Request.answer, Request.runDirectory, hdocs, hne,
    if_false]

theorem Request.printed_cons (line : String) (lines : List String) :
    printed (line :: lines) = line ++ "\n" ++ printed lines := by
  rw [printed, List.map_cons, String.join_cons, printed]

/-- A batch that runs prints its success line and the blocks, and ends each line. -/
theorem Machine.run_batch_of_prints {blocks : List (List String)} (h : m.Loads args docs)
    (hblocks : List.Forall₂ Document.Prints docs blocks) :
    m.run args = ⟨0, "RESULT:OK\n" ++ String.join (blocks.flatten.map (· ++ "\n"))⟩ := by
  rw [Machine.run_batch h, Document.runAll_of_prints hblocks, Request.outcome, Request.success,
    Request.printed_cons]
  rfl

/-- A batch that fails prints the report of its first failing document, and nothing else. -/
theorem Machine.run_batch_of_firstFailing (h : m.Loads args docs)
    (hfail : Document.FirstFailing docs d e) :
    ∃ span, e.span? = some span ∧
      m.run args = ⟨1, "RESULT:ERROR\nERROR_CODE:" ++ e.code ++
        "\nERROR_LINE:" ++ toString span.start.line ++
        "\nERROR_MSG_JSON:" ++ Json.quoted (d.name ++ ": " ++ e.message) ++ "\n"⟩ := by
  obtain ⟨span, hspan⟩ : ∃ span, e.span? = some span := by
    obtain ⟨-, -, -, -, hrun⟩ := hfail
    exact Document.exists_span_of_run hrun
  refine ⟨span, hspan, ?_⟩
  rw [Machine.run_batch h, Document.runAll_of_firstFailing hfail]
  have hnil : Request.printed [] = "" := rfl
  have hcode : "RESULT:ERROR\nERROR_CODE:" = "RESULT:ERROR" ++ "\n" ++ "ERROR_CODE:" := rfl
  have hline : "\nERROR_LINE:" = "\n" ++ "ERROR_LINE:" := rfl
  have hmessage : "\nERROR_MSG_JSON:" = "\n" ++ "ERROR_MSG_JSON:" := rfl
  simp only [Request.outcome, Request.failure, Diagnostic.inDocument, hspan, List.cons_append,
    List.nil_append, Request.printed_cons, hnil, hcode, hline, hmessage, String.append_assoc,
    String.append_empty]

/-- **Documents of a batch are isolated, and it prints all of them or none.** A batch runs exactly
if each of its documents runs alone. It then prints, in order, the name of each document and what
the document prints alone, and the documents in another order print the same blocks in that order.
Otherwise it is refused as its first failing document is alone, with the name of this document in
front of the message. The command that loads the documents prints the blocks behind its success
line and ends with code zero, or it prints the report alone and ends with code one. The report
always has a line in it, and the message as a JSON string, which is read as the message. -/
theorem Document.runAll_isolated (docs : List Document) :
    ((∃ out, runAll docs = .ok out) ↔ ∀ d ∈ docs, ∃ lines, d.run = .ok lines) ∧
    (∀ out, runAll docs = .ok out ↔
      ∃ blocks, List.Forall₂ Prints docs blocks ∧ out = blocks.flatten) ∧
    (∀ docs' blocks, docs.Perm docs' → List.Forall₂ Prints docs blocks →
      ∃ blocks', blocks.Perm blocks' ∧ List.Forall₂ Prints docs' blocks' ∧
        runAll docs' = .ok blocks'.flatten) ∧
    (∀ e, runAll docs = .error e ↔ ∃ d alone, FirstFailing docs d alone ∧
      e = { alone with message := d.name ++ ": " ++ alone.message }) ∧
    ∀ (m : Machine) (args : List String), m.Loads args docs →
      (∀ blocks, List.Forall₂ Prints docs blocks →
        m.run args = ⟨0, "RESULT:OK\n" ++ String.join (blocks.flatten.map (· ++ "\n"))⟩) ∧
      ∀ d alone, FirstFailing docs d alone → ∃ span json, alone.span? = some span ∧
        Json.IsQuoted (d.name ++ ": " ++ alone.message) json ∧
        Json.string? json.toList = some (d.name ++ ": " ++ alone.message, []) ∧
        m.run args = ⟨1, "RESULT:ERROR\nERROR_CODE:" ++ alone.code ++
          "\nERROR_LINE:" ++ toString span.start.line ++
          "\nERROR_MSG_JSON:" ++ json ++ "\n"⟩ := by
  refine ⟨exists_runAll_eq_ok_iff, fun _ => runAll_eq_ok_iff, ?_, fun _ => runAll_eq_error_iff, ?_⟩
  · intro docs' blocks hperm hblocks
    obtain ⟨blocks', hperm', hprints⟩ := exists_perm_of_prints hperm hblocks
    exact ⟨blocks', hperm', hprints, runAll_of_prints hprints⟩
  · intro m args hloads
    refine ⟨fun _ => Machine.run_batch_of_prints hloads, fun d alone hfail => ?_⟩
    obtain ⟨span, hspan, hrun⟩ := Machine.run_batch_of_firstFailing hloads hfail
    have hquoted := Json.isQuoted_iff.mpr (Eq.refl (Json.quoted (d.name ++ ": " ++ alone.message)))
    have hread := hquoted.string?_append []
    rw [List.append_nil] at hread
    exact ⟨span, _, hspan, hquoted, hread, hrun⟩

/-- A directory with two documents. What the first one sets is not there for the second one, and
what it prints is lost if the second one fails. -/
theorem Document.runAll_isolated_of_second_document :
    let first := "set x = 1\nget x"
    let good := "get x"
    let bad := "set x = 1\nfinal\nset x = 2"
    let entries := fun second : String =>
      [("a.stml", FileTree.file first.toUTF8), ("b.stml", .file second.toUTF8)]
    let docs := fun second : String => [(⟨"a.stml", first⟩ : Document), ⟨"b.stml", second⟩]
    let m := fun second : String =>
      (⟨.ok "/", .directory [("d", .directory (entries second))]⟩ : Machine)
    let args := ["batch", "--scripts-dir", "d"]
    ((m good).Loads args (docs good) ∧ (m good).run args =
      ⟨0, "RESULT:OK\nDOCUMENT:a.stml\nVALUE:1\nDOCUMENT:b.stml\nNOT_FOUND:x\n"⟩) ∧
    (m bad).Loads args (docs bad) ∧ (m bad).run args =
      ⟨1, "RESULT:ERROR\nERROR_CODE:SCOPE_FINAL_OVERRIDE\nERROR_LINE:3\nERROR_MSG_JSON:" ++
        "\"b.stml: Cannot overwrite \\\"x\\\" in final scope \\\"\\\".\"\n"⟩ := by
  intro first good bad entries docs m args
  have hloads : ∀ second ∈ [good, bad], (m second).Loads args (docs second) := by
    intro second hsecond
    have hnames : "/d".splitOn "/" = ["", "d"] := by
      rw [String.splitOn, if_neg (by decide), String.splitOnAux, if_neg (by decide),
        if_pos (by decide), if_pos (by decide), String.splitOnAux, if_neg (by decide),
        if_neg (by decide), String.splitOnAux, if_pos (by decide)]
      decide
    have hfound : (m second).root.find? "/d" = some (.directory (entries second)) := by
      rw [FileTree.find?, hnames]
      rfl
    have hcollect : ∀ second ∈ [good, bad],
        FileTree.collectAll "" (entries second) = .ok (docs second) := by decide +kernel
    have hdocs : FileTree.documents (entries second) = .ok (docs second) := by
      rw [FileTree.documents, hcollect second hsecond]
      simp [docs, Except.map, List.mergeSort, List.MergeSort.Internal.splitInTwo]
    exact ⟨"d", "/d", entries second, by decide, rfl, hfound, hdocs, List.cons_ne_nil _ _⟩
  have hfirst : run ⟨"a.stml", first⟩ = .ok ["VALUE:1"] := by decide +kernel
  constructor
  · have hgood := hloads good (by decide)
    have hsecond : run ⟨"b.stml", good⟩ = .ok ["NOT_FOUND:x"] := by decide +kernel
    have hblocks : List.Forall₂ Prints (docs good)
        [["DOCUMENT:a.stml", "VALUE:1"], ["DOCUMENT:b.stml", "NOT_FOUND:x"]] :=
      .cons ⟨_, hfirst, rfl⟩ (.cons ⟨_, hsecond, rfl⟩ .nil)
    obtain ⟨-, -, -, -, hcommand⟩ := runAll_isolated (docs good)
    exact ⟨hgood, (hcommand (m good) args hgood).1 _ hblocks⟩
  · have hbad := hloads bad (by decide)
    let e := (Fault.overwriteFinal "x" "").report.withSpan (.ofLine 3 9)
    have hsecond : run ⟨"b.stml", bad⟩ = .error e := by decide +kernel
    have hfail : FirstFailing (docs bad) ⟨"b.stml", bad⟩ e :=
      ⟨[_], [], rfl, List.forall_mem_singleton.mpr ⟨_, hfirst⟩, hsecond⟩
    obtain ⟨-, -, -, -, hcommand⟩ := runAll_isolated (docs bad)
    obtain ⟨span, json, hspan, hquoted, -, hrun⟩ := (hcommand (m bad) args hbad).2 _ e hfail
    cases hspan
    rw [hrun, Json.isQuoted_iff.mp hquoted]
    exact ⟨hbad, by decide +kernel⟩

end ScopedConfig
