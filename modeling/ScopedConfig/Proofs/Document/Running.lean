import ScopedConfig.Document.Run
import ScopedConfig.Proofs.Text.Line
import ScopedConfig.Proofs.Workspace.Invariants

/-!
# Documents run from front to back

Lines run one after the other, so what is in front decides what is done up to there. The lines of a
document are run in a workspace that stays sound, and a sound workspace can always leave its open
scope, so nothing fails behind the last line. Therefore every fault of a document lies in a line:
the lines in front of it run, and nothing behind it matters. And when a document runs, so do its
first lines, and they print the first part of the output.

Key theorems: `Document.runLines_append`, `Document.runSource_eq`, `Document.runSource_prefixes`.
-/

namespace ScopedConfig.Document

open Text

variable {w w' : Workspace Value} {line : List Char} {printed : Option String}

/-! ### Lines -/

/-- A line does what its operation does, or nothing. -/
theorem runLine_cases (h : runLine line w = .ok (printed, w')) :
    Statement.parseChars line = .ok none ∧ w' = w ∧ printed = none ∨ ∃ statement op reply,
      Statement.parseChars line = .ok (some statement) ∧ statement.operation = .ok op ∧
        w.apply op = (.ok reply, w') ∧ printed = statement.output w' reply := by
  unfold runLine at h
  split at h
  · simp at h
  · rename_i hread
    obtain ⟨rfl, rfl⟩ := Prod.mk.inj (Except.ok.inj h)
    exact .inl ⟨hread, rfl, rfl⟩
  · rename_i statement hread
    unfold Statement.execute at h
    split at h
    · simp at h
    · rename_i op hop
      split at h
      · simp at h
      · rename_i reply u happly
        obtain ⟨rfl, rfl⟩ := Prod.mk.inj (Except.ok.inj h)
        exact .inr ⟨statement, op, reply, hread, hop, happly, rfl⟩

theorem sound_runLine (hw : w.Sound) (h : runLine line w = .ok (printed, w')) : w'.Sound := by
  rcases runLine_cases h with ⟨-, rfl, -⟩ | ⟨_, op, _, -, -, happly, -⟩
  · exact hw
  · have hchanges := (hw.apply op).changes
    rw [happly] at hchanges
    exact hchanges.sound hw

theorem runLines_cons (h : runLine line w = .ok (printed, w')) (number : Nat)
    (rest : List (List Char)) : runLines number w (line :: rest) =
      (runLines (number + 1) w' rest).map fun (out, w) => (printed.toList ++ out, w) := by
  rw [runLines, h]

theorem exists_of_runLines_cons {number : Nat} {out : List String} {ls : List (List Char)}
    (h : runLines number w (line :: ls) = .ok (out, w')) : ∃ printed u more,
      runLine line w = .ok (printed, u) ∧ runLines (number + 1) u ls = .ok (more, w') ∧
        out = printed.toList ++ more := by
  cases hline : runLine line w with
  | error e => simp [runLines, hline] at h
  | ok r =>
    obtain ⟨printed, u⟩ := r
    rw [runLines_cons hline] at h
    cases hrest : runLines (number + 1) u ls with
    | error d => simp [hrest, Except.map] at h
    | ok r =>
      obtain ⟨more, v⟩ := r
      rw [hrest] at h
      obtain ⟨rfl, rfl⟩ := Prod.mk.inj (Except.ok.inj h)
      exact ⟨printed, u, more, rfl, hrest, rfl⟩

/-! ### Some lines and then others -/

variable {number : Nat} {out : List String}

/-- **What is in front runs first.** The induction is on the lines in front, and the workspace that
they leave is the one that the rest starts in. -/
theorem runLines_append (rest : List (List Char)) : ∀ (front : List (List Char)) (number : Nat)
    (w : Workspace Value), runLines number w (front ++ rest) =
      match runLines number w front with
      | .error d => .error d
      | .ok (out, w') =>
        (runLines (number + front.length) w' rest).map fun (more, w) => (out ++ more, w)
  | [], number, w => by
    have hrest : ∀ r : Except Diagnostic (List String × Workspace Value),
        r.map (fun (more, w) => ([] ++ more, w)) = r := fun r => by cases r <;> rfl
    exact (hrest _).symm
  | line :: front, number, w => by
    rw [List.cons_append]
    cases hline : runLine line w with
    | error e => rw [runLines, runLines, hline]
    | ok r =>
      obtain ⟨printed, w'⟩ := r
      have hnumber : number + (line :: front).length = number + 1 + front.length := by
        rw [List.length_cons]
        omega
      rw [runLines_cons hline, runLines_cons hline, runLines_append rest front, hnumber]
      cases runLines (number + 1) w' front with
      | error d => rfl
      | ok r =>
        obtain ⟨out, u⟩ := r
        simp only [Except.map]
        cases runLines (number + 1 + front.length) u rest with
        | error d => rfl
        | ok r => simp only [List.append_assoc]

theorem runLines_append_eq_ok {front rest : List (List Char)}
    (h : runLines number w (front ++ rest) = .ok (out, w')) :
    ∃ first more u, runLines number w front = .ok (first, u) ∧
      runLines (number + front.length) u rest = .ok (more, w') ∧ out = first ++ more := by
  rw [runLines_append] at h
  cases hfront : runLines number w front with
  | error d =>
    rw [hfront] at h
    exact nomatch h
  | ok r =>
    obtain ⟨first, u⟩ := r
    rw [hfront] at h
    cases hrest : runLines (number + front.length) u rest with
    | error d =>
      simp only [hrest] at h
      exact nomatch h
    | ok r =>
      obtain ⟨more, v⟩ := r
      simp only [hrest] at h
      obtain ⟨rfl, rfl⟩ := Prod.mk.inj (Except.ok.inj h)
      exact ⟨first, more, u, rfl, hrest, rfl⟩

theorem runLines_of_error {front : List (List Char)} {e : Fault}
    (hfront : runLines number w front = .ok (out, w')) (hline : runLine line w' = .error e)
    (rest : List (List Char)) : runLines number w (front ++ line :: rest) =
      .error (e.report.withSpan (.ofLine (number + front.length) line.length)) := by
  rw [runLines_append, hfront]
  simp only [runLines, hline, Except.map]

/-- **A fault arises in a line**, and the lines in front of it run. -/
theorem exists_of_runLines_error : ∀ {ls : List (List Char)} {number : Nat} {w : Workspace Value}
    {d : Diagnostic}, runLines number w ls = .error d → ∃ front line rest out w' e,
      ls = front ++ line :: rest ∧ runLines number w front = .ok (out, w') ∧
      runLine line w' = .error e ∧
      d = e.report.withSpan (.ofLine (number + front.length) line.length)
  | [], _, _, _, h => nomatch h
  | line :: ls, number, w, d, h => by
    cases hline : runLine line w with
    | error e =>
      rw [runLines, hline] at h
      exact ⟨[], line, ls, [], w, e, rfl, rfl, hline, (Except.error.inj h).symm⟩
    | ok r =>
      obtain ⟨printed, w'⟩ := r
      rw [runLines_cons hline] at h
      cases hrest : runLines (number + 1) w' ls with
      | ok r =>
        rw [hrest] at h
        exact nomatch h
      | error d' =>
        rw [hrest] at h
        obtain rfl := Except.error.inj h
        obtain ⟨front, bad, rest, out, u, e, rfl, hfront, hbad, hd⟩ :=
          exists_of_runLines_error hrest
        have hnumber : number + (line :: front).length = number + 1 + front.length := by
          rw [List.length_cons]
          omega
        refine ⟨line :: front, bad, rest, printed.toList ++ out, u, e, rfl, ?_, hbad, ?_⟩
        · rw [runLines_cons hline, hfront]
          rfl
        · rw [hnumber]
          exact hd

theorem sound_runLines : ∀ {ls : List (List Char)} {number : Nat} {w w' : Workspace Value}
    {out : List String}, w.Sound → runLines number w ls = .ok (out, w') → w'.Sound
  | [], _, _, _, _, hw, h => by
    obtain ⟨-, rfl⟩ := Prod.mk.inj (Except.ok.inj h)
    exact hw
  | line :: ls, number, w, w', out, hw, h => by
    rw [← List.singleton_append] at h
    obtain ⟨first, more, u, hline, hrest, -⟩ := runLines_append_eq_ok h
    refine sound_runLines ?_ hrest
    cases hu : runLine line w with
    | error e => simp [runLines, hu] at hline
    | ok r =>
      obtain ⟨printed, v⟩ := r
      rw [runLines_cons hu] at hline
      obtain ⟨-, rfl⟩ := Prod.mk.inj (Except.ok.inj hline)
      exact sound_runLine hw hu

/-! ### Whole sources -/

/-- **Nothing fails behind the last line.** The workspace that the lines leave is sound, so its open
scope can be left. -/
theorem runSource_eq (source : String) : runSource source =
    (runLines 1 .empty (Text.lines source.toList)).map fun (out, _) => out := by
  rw [runSource]
  cases h : runLines 1 .empty (Text.lines source.toList) with
  | error d => rfl
  | ok r =>
    obtain ⟨out, w⟩ := r
    have hw : w.Sound := sound_runLines (Workspace.sound_ofPolicy .default []) h
    obtain ⟨w', hpop, -⟩ := hw.exists_popAnonymous
    simp only [hpop, Except.map]

theorem exists_lines_eq_take (source : String) (k : Nat) :
    ∃ front : String, Text.lines front.toList = (Text.lines source.toList).take k := by
  have hfeeds : ∀ line ∈ (Text.lines source.toList).take k, '\n' ∉ line :=
    fun _ hline => lineFeed_not_mem (List.mem_of_mem_take hline)
  exact ⟨String.ofList _, by rw [String.toList_ofList, lines_returned hfeeds]⟩

/-- **A document fails in a line.** The lines in front of it run, and what stands behind it makes no
difference. -/
theorem exists_of_runSource_error {source : String} {d : Diagnostic}
    (h : runSource source = .error d) :
    ∃ front line rest, Text.lines source.toList = front ++ line :: rest ∧
      d.span? = some (.ofLine (front.length + 1) line.length) ∧
      (∀ shorter : String, Text.lines shorter.toList = front →
        ∃ out, runSource shorter = .ok out) ∧
      ∀ (other : String) (more : List (List Char)),
        Text.lines other.toList = front ++ line :: more → runSource other = .error d := by
  rw [runSource_eq] at h
  cases hrun : runLines 1 .empty (Text.lines source.toList) with
  | ok r =>
    rw [hrun] at h
    exact nomatch h
  | error d' =>
    rw [hrun] at h
    obtain rfl := Except.error.inj h
    obtain ⟨front, line, rest, out, w, e, hlines, hfront, hline, rfl⟩ :=
      exists_of_runLines_error hrun
    refine ⟨front, line, rest, hlines, ?_, fun shorter hshorter => ?_, fun other more hother => ?_⟩
    · rw [Diagnostic.span_withSpan, Nat.add_comm 1]
      rfl
    · rw [runSource_eq, hshorter, hfront]
      exact ⟨out, rfl⟩
    · rw [runSource_eq, hother, runLines_of_error hfront hline]
      rfl

/-- **The first lines of a document that runs print the first part of its output.** -/
theorem exists_prefix_of_runSource {source front : String} {out : List String}
    {rest : List (List Char)} (h : runSource source = .ok out)
    (hlines : Text.lines source.toList = Text.lines front.toList ++ rest) :
    ∃ first, runSource front = .ok first ∧ first <+: out := by
  rw [runSource_eq, hlines] at h
  cases hrun : runLines 1 .empty (Text.lines front.toList ++ rest) with
  | error d =>
    rw [hrun] at h
    exact nomatch h
  | ok r =>
    obtain ⟨printed, w⟩ := r
    rw [hrun] at h
    obtain rfl := Except.ok.inj h
    obtain ⟨first, more, u, hfront, -, rfl⟩ := runLines_append_eq_ok hrun
    rw [runSource_eq, hfront]
    exact ⟨first, rfl, List.prefix_append first more⟩

/-- **Documents run from front to back.** A document either runs, or it fails in a line: the fault
has the whole line as its place, the document of the lines in front of it runs, and every document
that starts with the lines up to it fails in the same way. When a document runs, so does every
document of its first lines, and what that prints is the first part of the output. -/
theorem runSource_prefixes (source : String) :
    (∀ k, ∃ front : String, Text.lines front.toList = (Text.lines source.toList).take k) ∧
      match runSource source with
      | .error d => ∃ n line, (Text.lines source.toList)[n]? = some line ∧
          d.span? = some ⟨⟨n + 1, 1⟩, ⟨n + 1, line.length + 1⟩⟩ ∧
          (∀ front : String, Text.lines front.toList = (Text.lines source.toList).take n →
            ∃ out, runSource front = .ok out) ∧
          ∀ other : String, (Text.lines other.toList).take (n + 1) =
            (Text.lines source.toList).take (n + 1) → runSource other = .error d
      | .ok out => ∀ (k : Nat) (front : String),
          Text.lines front.toList = (Text.lines source.toList).take k →
            ∃ first, runSource front = .ok first ∧ first <+: out := by
  refine ⟨exists_lines_eq_take source, ?_⟩
  cases hrun : runSource source with
  | error d =>
    obtain ⟨front, line, rest, hlines, hspan, hfront, hother⟩ := exists_of_runSource_error hrun
    have htake : (Text.lines source.toList).take (front.length + 1) = front ++ [line] := by
      rw [hlines]
      exact List.take_length_add_append 1
    refine ⟨front.length, line, by simp [hlines], hspan, fun shorter hshorter => ?_,
      fun other hsame => ?_⟩
    · rw [hlines, List.take_left] at hshorter
      exact hfront shorter hshorter
    · -- the other document is these lines and then what it has of its own
      refine hother other ((Text.lines other.toList).drop (front.length + 1)) ?_
      calc Text.lines other.toList
          = (Text.lines other.toList).take (front.length + 1) ++
              (Text.lines other.toList).drop (front.length + 1) := (List.take_append_drop ..).symm
        _ = front ++ [line] ++ (Text.lines other.toList).drop (front.length + 1) := by
          rw [hsame, htake]
        _ = _ := by rw [List.append_assoc, List.singleton_append]
  | ok out =>
    intro k front hfront
    have hlines : Text.lines source.toList =
        Text.lines front.toList ++ (Text.lines source.toList).drop k := by
      rw [hfront, List.take_append_drop]
    exact exists_prefix_of_runSource hrun hlines

end ScopedConfig.Document
