import ScopedConfig.Proofs.Document.Running
import ScopedConfig.Proofs.Text.Blank

/-!
# The layout of a document

What a document does is told by its statements: the trimmed lines that are neither blank nor
comments. A line is trimmed before anything is read off it, so the blanks around it, a carriage
return in front of its line feed among them, reach neither the workspace nor the output nor a
message. A blank line and a comment leave the workspace as it is and print nothing. So two documents
with the same statements print the same lines, or fail in the same statement with the same fault;
what differs is the number of the line that the statement stands on, and how wide this line is.

Key definitions: `Text.WrittenAs`, `Document.Idle`, `Document.Relaid`, `Document.IsRelayout`,
`Document.statements`, `Document.HoldsStatement`.
Key theorems: `Document.statements_lines`, `Document.Relaid.statements_eq`,
`Document.runLines_of_statements_eq`, `Document.runSource_relaid`.
-/

namespace ScopedConfig

/-! ### Layouts -/

namespace Text

/-- The two ways to end a line. -/
inductive LineEnd
  | feed
  | returnFeed

/-- What stands behind a line. -/
def LineEnd.chars : LineEnd → List Char
  | feed => ['\n']
  | returnFeed => ['\r', '\n']

/-- The text is written as these lines: none has a line feed in it, and every line but the last is
ended in one of the two ways. -/
inductive WrittenAs : List Char → List (List Char) → Prop
  | last {line : List Char} (h : '\n' ∉ line) : WrittenAs line [line]
  | ended {line cs : List Char} {ls : List (List Char)} (h : '\n' ∉ line) (e : LineEnd)
      (rest : WrittenAs cs ls) : WrittenAs (line ++ e.chars ++ cs) (line :: ls)

end Text

open Text

namespace Document

/-- The line is blank or a comment. -/
def Idle (line : List Char) : Prop :=
  trim line = [] ∨ (trim line).head? = some '#'

instance : DecidablePred Idle := fun line =>
  inferInstanceAs (Decidable (trim line = [] ∨ (trim line).head? = some '#'))

/-- Lines with blank lines and comments put in anywhere, and with blanks around any of them. -/
inductive Relaid : List (List Char) → List (List Char) → Prop
  | done : Relaid [] []
  | insert {line : List Char} {ls ms : List (List Char)} (h : Idle line) (rest : Relaid ls ms) :
      Relaid ls (line :: ms)
  | pad {front line back : List Char} {ls ms : List (List Char)}
      (hfront : ∀ b ∈ front, isBlank b = true) (hback : ∀ b ∈ back, isBlank b = true)
      (rest : Relaid ls ms) : Relaid (line :: ls) ((front ++ line ++ back) :: ms)

/-- The other source is the first one in another layout: lines are put in and padded, and each line
is ended in either way. -/
def IsRelayout (source other : String) : Prop :=
  ∃ ls ms, WrittenAs source.toList ls ∧ WrittenAs other.toList ms ∧ Relaid ls ms

/-! ### Statements -/

/-- The trimmed lines that are neither blank nor comments. -/
def statements (ls : List (List Char)) : List (List Char) :=
  (ls.filter fun line => ¬Idle line).map trim

/-- The line at a position holds the statement with a number, both counted from zero. -/
structure HoldsStatement (ls : List (List Char)) (position number : Nat) (line : List Char) :
    Prop where
  atPosition : ls[position]? = some line
  active : ¬Idle line
  before : (statements (ls.take position)).length = number

variable {ls ms : List (List Char)} {line : List Char}

theorem statements_append (ls ms : List (List Char)) :
    statements (ls ++ ms) = statements ls ++ statements ms := by
  simp [statements]

theorem statements_cons_of_idle (h : Idle line) (ls : List (List Char)) :
    statements (line :: ls) = statements ls := by
  simp [statements, h]

theorem statements_cons_of_not_idle (h : ¬Idle line) (ls : List (List Char)) :
    statements (line :: ls) = trim line :: statements ls := by
  simp [statements, h]

theorem statements_eq_nil_iff : statements ls = [] ↔ ∀ line ∈ ls, Idle line := by
  simp [statements]

theorem idle_congr {other : List Char} (h : trim line = trim other) : Idle line ↔ Idle other := by
  rw [Idle, Idle, h]

theorem statements_cons_congr {other : List Char} (h : trim line = trim other)
    (hrest : statements ls = statements ms) :
    statements (line :: ls) = statements (other :: ms) := by
  by_cases hidle : Idle line
  · have hother : Idle other := (idle_congr h).mp hidle
    rw [statements_cons_of_idle hidle, statements_cons_of_idle hother, hrest]
  · have hother : ¬Idle other := fun ho => hidle ((idle_congr h).mpr ho)
    rw [statements_cons_of_not_idle hidle, statements_cons_of_not_idle hother, h, hrest]

/-- **The first statement stands behind idle lines.** -/
theorem exists_of_statements_eq_cons {t : List Char} {ts : List (List Char)}
    (h : statements ls = t :: ts) : ∃ idle line rest, ls = idle ++ line :: rest ∧
      (∀ l ∈ idle, Idle l) ∧ ¬Idle line ∧ trim line = t ∧ statements rest = ts := by
  obtain ⟨line, rest, hfilter, rfl, rfl⟩ := List.map_eq_cons_iff.mp h
  obtain ⟨idle, behind, rfl, hidle, hline, rfl⟩ := List.filter_eq_cons_iff.mp hfilter
  exact ⟨idle, line, behind, rfl, by simpa using hidle, by simpa using hline, rfl, rfl⟩

theorem exists_of_statements_eq_append {ts us : List (List Char)}
    (h : statements ls = ts ++ us) : ∃ front rest, ls = front ++ rest ∧
      statements front = ts ∧ statements rest = us := by
  obtain ⟨front, rest, hfilter, rfl, rfl⟩ := List.map_eq_append_iff.mp h
  obtain ⟨first, behind, rfl, rfl, rfl⟩ := List.filter_eq_append_iff.mp hfilter
  exact ⟨first, behind, rfl, rfl, rfl⟩

/-! ### Another layout has the same statements -/

/-- **What is put in and padded keeps the statements.** -/
theorem Relaid.statements_eq (h : Relaid ls ms) : statements ls = statements ms := by
  induction h with
  | done => rfl
  | insert hidle _ ih => rw [statements_cons_of_idle hidle, ih]
  | pad hfront hback _ ih => exact statements_cons_congr (trim_blanks hfront hback _).symm ih

theorem trim_concat_return (line : List Char) : trim (line ++ ['\r']) = trim line := by
  have hreturn : ∀ b ∈ ['\r'], isBlank b = true := List.forall_mem_singleton.mpr (by decide)
  have h := trim_blanks (List.forall_mem_nil _) hreturn line
  rwa [List.nil_append] at h

/-- **The lines of a source hold the statements that it was written with.** -/
theorem statements_lines {cs : List Char} (h : WrittenAs cs ls) :
    statements (Text.lines cs) = statements ls := by
  induction h with
  | @last line hfeed =>
    by_cases hnil : line = []
    · rw [hnil]
      rfl
    · rw [lines_of_lineFeed_not_mem hfeed hnil]
  | @ended line cs ls hfeed e rest ih =>
    cases e with
    | returnFeed =>
      have hlines := lines_append_returnFeed cs hfeed
      rw [List.append_assoc, LineEnd.chars, List.cons_append, List.singleton_append, hlines]
      exact statements_cons_congr rfl ih
    | feed =>
      rw [List.append_assoc, LineEnd.chars, List.singleton_append]
      by_cases hlast : line.getLast? = some '\r'
      · -- the return in front of the line feed is taken for a part of the line end
        obtain ⟨front, rfl⟩ := List.getLast?_eq_some_iff.mp hlast
        have hfront : '\n' ∉ front := fun hm => hfeed (List.mem_append_left _ hm)
        rw [List.append_assoc, List.singleton_append, lines_append_returnFeed cs hfront]
        exact statements_cons_congr (trim_concat_return front).symm ih
      · rw [lines_append_feed cs hfeed hlast]
        exact statements_cons_congr rfl ih

/-! ### Running -/

variable {w w' : Workspace Value} {number : Nat} {out : List String}

theorem runLine_of_idle (h : Idle line) (w : Workspace Value) :
    runLine line w = .ok (none, w) := by
  have hread : Statement.parseChars line = .ok none := by
    unfold Statement.parseChars
    exact if_pos h
  rw [runLine, hread]

theorem runLine_congr {other : List Char} (h : trim line = trim other) (w : Workspace Value) :
    runLine line w = runLine other w := by
  simp only [runLine, Statement.parseChars, h]

theorem runLines_of_idle : ∀ {ls : List (List Char)} (number : Nat) (w : Workspace Value),
    (∀ line ∈ ls, Idle line) → runLines number w ls = .ok ([], w)
  | [], _, _, _ => rfl
  | line :: ls, number, w, h => by
    obtain ⟨hline, hls⟩ := List.forall_mem_cons.mp h
    rw [runLines_cons (runLine_of_idle hline w), runLines_of_idle (number + 1) w hls]
    rfl

/-- Idle lines in front change nothing but the numbers of the lines. -/
theorem runLines_idle_append {idle : List (List Char)} (hidle : ∀ l ∈ idle, Idle l)
    (number : Nat) (w : Workspace Value) (ls : List (List Char)) :
    runLines number w (idle ++ ls) = runLines (number + idle.length) w ls := by
  rw [runLines_append, runLines_of_idle number w hidle]
  show (runLines (number + idle.length) w ls).map _ = _
  cases runLines (number + idle.length) w ls <;> rfl

/-- **Lines that run do what their statements do.** The induction is on the lines; the others are
cut behind the line with the same statement. -/
theorem runLines_of_statements_eq : ∀ {ls ms : List (List Char)} {number : Nat}
    (number' : Nat) {w w' : Workspace Value} {out : List String},
    statements ls = statements ms → runLines number w ls = .ok (out, w') →
      runLines number' w ms = .ok (out, w')
  | [], ms, _, number', w, _, _, hsame, h => by
    obtain ⟨rfl, rfl⟩ := Prod.mk.inj (Except.ok.inj h)
    exact runLines_of_idle number' w (statements_eq_nil_iff.mp hsame.symm)
  | line :: ls, ms, number, number', w, w', out, hsame, h => by
    obtain ⟨printed, u, more, hline, hrest, rfl⟩ := exists_of_runLines_cons h
    by_cases hidle : Idle line
    · rw [statements_cons_of_idle hidle] at hsame
      rw [runLine_of_idle hidle] at hline
      obtain ⟨rfl, rfl⟩ := Prod.mk.inj (Except.ok.inj hline)
      exact runLines_of_statements_eq number' hsame hrest
    · rw [statements_cons_of_not_idle hidle] at hsame
      obtain ⟨idle, other, rest, rfl, hidles, -, htrim, hsame⟩ :=
        exists_of_statements_eq_cons hsame.symm
      have hother : runLine other w = .ok (printed, u) := by rw [runLine_congr htrim, hline]
      have ih := runLines_of_statements_eq (number' + idle.length + 1) hsame.symm hrest
      rw [runLines_idle_append hidles, runLines_cons hother, ih]
      rfl

/-- **Lines that fail do so in the same statement**, with the same fault. -/
theorem exists_of_statements_eq {front rest : List (List Char)} {e : Fault}
    (hsame : statements (front ++ line :: rest) = statements ms)
    (hfront : runLines number w front = .ok (out, w')) (hline : runLine line w' = .error e)
    (number' : Nat) : ∃ before other behind, ms = before ++ other :: behind ∧
      statements before = statements front ∧ ¬Idle other ∧ trim other = trim line ∧
      runLines number' w ms = .error (e.report.withSpan
        (.ofLine (number' + before.length) other.length)) := by
  have hidle : ¬Idle line := fun h => by
    rw [runLine_of_idle h] at hline
    exact nomatch hline
  rw [statements_append, statements_cons_of_not_idle hidle] at hsame
  obtain ⟨first, behind, rfl, hfirst, hbehind⟩ := exists_of_statements_eq_append hsame.symm
  obtain ⟨idle, other, last, rfl, hidles, hother, htrim, -⟩ := exists_of_statements_eq_cons hbehind
  have hbefore : statements (first ++ idle) = statements front := by
    rw [statements_append, statements_eq_nil_iff.mpr hidles, List.append_nil, hfirst]
  have hrun : runLines number' w (first ++ idle) = .ok (out, w') :=
    runLines_of_statements_eq number' hbefore.symm hfront
  have hfail : runLine other w' = .error e := by rw [runLine_congr htrim, hline]
  refine ⟨first ++ idle, other, last, by rw [List.append_assoc], hbefore, hother, htrim, ?_⟩
  rw [← List.append_assoc]
  exact runLines_of_error hrun hfail last

theorem HoldsStatement.of_append {front rest : List (List Char)} (h : ¬Idle line) :
    HoldsStatement (front ++ line :: rest) front.length (statements front).length line :=
  ⟨by simp, h, by rw [List.take_left]⟩

/-- **Layout does not change meaning.** Put in blank lines and comments, put blanks around lines and
end them in either way: a document that ran prints the same lines, and one that failed fails with
the same kind, code and message, in the line that holds the same statement. -/
theorem runSource_relaid {source other : String} (h : IsRelayout source other) :
    match runSource source with
    | .ok out => runSource other = .ok out
    | .error d => ∃ d', runSource other = .error d' ∧ d'.kind = d.kind ∧ d'.code = d.code ∧
        d'.message = d.message ∧ ∃ k n n' line line',
          HoldsStatement (Text.lines source.toList) n k line ∧
          HoldsStatement (Text.lines other.toList) n' k line' ∧ trim line' = trim line ∧
          d.span? = some (.ofLine (n + 1) line.length) ∧
          d'.span? = some (.ofLine (n' + 1) line'.length) := by
  obtain ⟨ls, ms, hls, hms, hrelaid⟩ := h
  have hsame : statements (Text.lines source.toList) = statements (Text.lines other.toList) := by
    rw [statements_lines hls, statements_lines hms, hrelaid.statements_eq]
  rw [runSource_eq source, runSource_eq other]
  cases hrun : runLines 1 .empty (Text.lines source.toList) with
  | ok r =>
    obtain ⟨out, w⟩ := r
    have hother := runLines_of_statements_eq 1 hsame hrun
    simp only [hother, Except.map]
  | error d =>
    obtain ⟨front, line, rest, out, w, e, hlines, hfront, hline, rfl⟩ :=
      exists_of_runLines_error hrun
    rw [hlines] at hsame
    obtain ⟨before, line', behind, hlines', hbefore, hactive, htrim, hother⟩ :=
      exists_of_statements_eq hsame hfront hline 1
    have hactive' : ¬Idle line := fun hidle => hactive ((idle_congr htrim).mpr hidle)
    simp only [hother, Except.map]
    refine ⟨_, rfl, rfl, rfl, rfl, (statements front).length, front.length, before.length, line,
      line', ?_, ?_, htrim, ?_, ?_⟩
    · rw [hlines]
      exact .of_append hactive'
    · rw [hlines', ← hbefore]
      exact .of_append hactive
    · rw [Diagnostic.span_withSpan, Nat.add_comm 1]
      rfl
    · rw [Diagnostic.span_withSpan, Nat.add_comm 1]
      rfl

/-- A comment and a blank line are put in, and the last line fails two lines further down. -/
theorem relaid_of_failing_statement :
    let source := "set a = 1\nfinal\nset a = 2"
    let other := "\u3000set a = 1\r\n# note\n\tfinal\r\n\n set a = 2\u00a0"
    IsRelayout source other ∧ ∃ d d', runSource source = .error d ∧ runSource other = .error d' ∧
      d'.code = d.code ∧ d'.message = d.message ∧
      d.span? = some ⟨⟨3, 1⟩, ⟨3, 10⟩⟩ ∧ d'.span? = some ⟨⟨5, 1⟩, ⟨5, 12⟩⟩ := by
  intro source other
  let ls := ["set a = 1", "final", "set a = 2"].map String.toList
  let ms := [['\u3000'] ++ "set a = 1".toList ++ [], "# note".toList,
    ['\t'] ++ "final".toList ++ [], [], [' '] ++ "set a = 2".toList ++ ['\u00a0']]
  have hsource : WrittenAs source.toList ls := by
    have htext : source.toList = "set a = 1".toList ++ LineEnd.feed.chars ++
        ("final".toList ++ LineEnd.feed.chars ++ "set a = 2".toList) := by decide
    rw [htext]
    exact .ended (by decide) .feed (.ended (by decide) .feed (.last (by decide)))
  have hother : WrittenAs other.toList ms := by
    have htext : other.toList = ['\u3000'] ++ "set a = 1".toList ++ [] ++
        LineEnd.returnFeed.chars ++ ("# note".toList ++ LineEnd.feed.chars ++
        (['\t'] ++ "final".toList ++ [] ++ LineEnd.returnFeed.chars ++
        ([] ++ LineEnd.feed.chars ++ ([' '] ++ "set a = 2".toList ++ ['\u00a0'])))) := by decide
    rw [htext]
    exact .ended (by decide) .returnFeed (.ended (by decide) .feed
      (.ended (by decide) .returnFeed (.ended (by decide) .feed (.last (by decide)))))
  have hblanks : ∀ cs : List Char, cs.all isBlank = true → ∀ b ∈ cs, isBlank b = true :=
    fun _ h => List.all_eq_true.mp h
  have hrelaid : Relaid ls ms :=
    .pad (hblanks _ (by decide)) (hblanks _ (by decide)) <| .insert (by decide) <|
      .pad (hblanks _ (by decide)) (hblanks _ (by decide)) <| .insert (by decide) <|
        .pad (hblanks _ (by decide)) (hblanks _ (by decide)) .done
  have hlayout : IsRelayout source other := ⟨ls, ms, hsource, hother, hrelaid⟩
  let d := (Fault.overwriteFinal "a" "").report.withSpan (.ofLine 3 9)
  have hrun : runSource source = .error d := by decide +kernel
  have hsame := runSource_relaid hlayout
  rw [hrun] at hsame
  obtain ⟨d', hrun', -, hcode, hmessage, -⟩ := hsame
  have hspan : runSource other = .error
      ((Fault.overwriteFinal "a" "").report.withSpan (.ofLine 5 11)) := by decide +kernel
  obtain rfl := Except.error.inj (hrun'.symm.trans hspan)
  exact ⟨hlayout, d, _, hrun, hrun', hcode, hmessage, rfl, rfl⟩

end Document

end ScopedConfig
