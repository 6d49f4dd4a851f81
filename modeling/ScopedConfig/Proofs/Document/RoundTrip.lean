import ScopedConfig.Proofs.Document.Assignment
import ScopedConfig.Proofs.Document.Running
import ScopedConfig.Proofs.Text.Line
import ScopedConfig.Proofs.Value.Display
import ScopedConfig.Proofs.Workspace.Setting

/-!
# Documents that ask for what they set

A document that sets values at the ends of plain keys, and then asks for them, prints them. The
value of each setting is displayed behind the `=` of its line; no line ends inside it, whatever
characters its texts have, the line is cut in front of it, and what is read there is the value
again. So the lines that set leave a workspace that holds every setting, and each line that asks
prints the value of one.

Key definitions: `Setting.setLine`, `Setting.getLine`, `Document.Writes`.
Key theorems: `Document.runLines_setLines`, `Document.runLines_getLines`,
`Document.run_settings_read_back`.
-/

namespace ScopedConfig

open Text

/-! ### Lines -/

namespace Setting

variable {s : Setting Value}

/-- The line that sets the value. -/
def setLine (s : Setting Value) : String :=
  "set " ++ s.name ++ " = " ++ s.value.display

/-- The line that asks for the value. -/
def getLine (s : Setting Value) : String :=
  "get " ++ s.name

/-- The line that is printed of the value. -/
def printed (s : Setting Value) : String :=
  "VALUE:" ++ s.value.toJson

/-- The setting may be written into a document: there are plain keys without `=` in them, and no
floating-point number in the value. -/
structure Written (s : Setting Value) : Prop where
  plain : s.Plain
  assignable : ∀ key ∈ s.path, '=' ∉ key.toList
  value : s.value.FloatFree

theorem toList_setLine (s : Setting Value) : s.setLine.toList =
    ['s', 'e', 't'] ++ ' ' :: (s.name.toList ++ [' ', '=', ' '] ++ s.value.displayChars) := by
  simp [setLine, Value.display]

theorem toList_getLine (s : Setting Value) :
    s.getLine.toList = ['g', 'e', 't'] ++ ' ' :: s.name.toList := by
  simp [getLine]

theorem Plain.name_ne_nil (h : s.Plain) : s.name.toList ≠ [] := by
  obtain ⟨key, path, hpath⟩ := List.exists_cons_of_ne_nil h.nonempty
  have hkey : Segment.Plain key := h.keys key (hpath ▸ List.mem_cons_self ..)
  obtain ⟨c, text, htext, -⟩ := Address.exists_toList_dotted hkey path
  rw [name, hpath, htext]
  exact List.cons_ne_nil _ _

theorem Plain.of_mem_name (h : s.Plain) {p : Char → Prop} (hdot : p '.')
    (hkey : ∀ key ∈ s.path, ∀ c ∈ key.toList, Segment.PlainChar c → p c) :
    ∀ c ∈ s.name.toList, p c := by
  intro c hc
  rcases Address.mem_dotted hc with rfl | ⟨key, hkey', hc⟩
  · exact hdot
  · exact hkey key hkey' c hc ((h.keys key hkey').chars c hc)

theorem Plain.isBlank_of_mem_name (h : s.Plain) : ∀ c ∈ s.name.toList, isBlank c = false :=
  h.of_mem_name (by decide) fun _ _ _ _ hc => hc.blank

theorem Written.pass?_name (h : s.Written) : pass? '=' none s.name.toList = some none :=
  pass?_of_plain <| h.plain.of_mem_name (by decide) fun key hkey c hc hplain =>
    ⟨hplain.quote, fun he => h.assignable key hkey (he ▸ hc)⟩

/-- **The line that sets is read as the assignment.** -/
theorem Written.parseChars_setLine (h : s.Written) : Statement.parseChars s.setLine.toList =
    .ok (some (.set s.name s.value.display)) := by
  have htarget : Assigning.IsTarget s.name := ⟨fun hnil => h.plain.name_ne_nil (by rw [hnil]; rfl),
    .of_forall h.plain.isBlank_of_mem_name, (closed_iff (by decide)).mpr h.pass?_name⟩
  have hliteral : Trimmed s.value.display.toList := by
    rw [Value.display, String.toList_ofList]
    exact h.value.trimmed
  have hline : s.setLine = Assigning.set.word ++ " " ++ s.name ++ " = " ++ s.value.display := rfl
  rw [hline]
  exact Assigning.parse_eq_ok_iff.mpr (Assigning.assigns_written htarget hliteral)

/-- **The line that asks is read as the query.** -/
theorem Plain.parseChars_getLine (h : s.Plain) :
    Statement.parseChars s.getLine.toList = .ok (some (.get s.name)) := by
  have hname : Trimmed s.name.toList := .of_forall h.isBlank_of_mem_name
  have hget : String.ofList ['g', 'e', 't'] = "get" := rfl
  have hletters : ∀ c ∈ ['g', 'e', 't'], isBlank c = false :=
    List.all_iff_forall_prop.mp (by decide)
  have htail : ∀ c, (' ' :: s.name.toList).head? = some c → isBlank c = true := by
    rintro c hc
    rw [← Option.some.inj hc]
    decide
  have hread := Statement.parseChars_line (by decide) hletters (by decide)
    (List.forall_mem_nil _) htail
  rw [trim_blank_cons (by decide), hname.trim_eq, hget, Statement.ofWords, if_neg (by decide),
    if_pos rfl, String.ofList_toList] at hread
  rw [toList_getLine]
  exact hread

theorem Plain.isLine_name (h : s.Plain) : IsLine s.name.toList :=
  isLine_of_forall h.isBlank_of_mem_name (by decide) (by decide)

/-- **No line ends inside the line that sets**, whatever the value. -/
theorem Written.isLine_setLine (h : s.Written) : IsLine s.setLine.toList := by
  have hset : IsLine ['s', 'e', 't', ' '] := List.all_iff_forall_prop.mp (by decide)
  have hequals : IsLine [' ', '=', ' '] := List.all_iff_forall_prop.mp (by decide)
  have hvalue : IsLine s.value.displayChars :=
    isLine_of_forall h.value.not_isAsciiControl (by decide) (by decide)
  rw [toList_setLine]
  exact hset.append ((h.plain.isLine_name.append hequals).append hvalue)

theorem Plain.isLine_getLine (h : s.Plain) : IsLine s.getLine.toList := by
  have hget : IsLine ['g', 'e', 't', ' '] := List.all_iff_forall_prop.mp (by decide)
  rw [toList_getLine]
  exact hget.append h.isLine_name

end Setting

/-! ### Running lines -/

namespace Document

variable {w w' : Workspace Value} {s : Setting Value} {settings : List (Setting Value)}

/-- A line that sets prints nothing, and the setting joins those that the workspace holds. -/
theorem runLine_setLine (h : w.HoldsAll settings) (hs : s.Written)
    (hapart : ∀ t ∈ settings, t.Apart s) :
    ∃ w', runLine s.setLine.toList w = .ok (none, w') ∧ w'.HoldsAll (s :: settings) := by
  obtain ⟨w', happly, hw'⟩ := h.assign hs.plain hapart
  have hread : Value.ofLiteral s.value.display = .ok s.value := by
    rw [Value.ofLiteral, Value.display, String.toList_ofList, hs.value.read_displayChars]
  refine ⟨w', ?_, hw'⟩
  rw [runLine, hs.parseChars_setLine]
  simp only [Statement.execute, Statement.operation, hread, Except.map, happly, Statement.output]

theorem runLine_getLine (h : w.HoldsAll settings) (hs : s.Plain) (hmem : s ∈ settings) :
    ∃ w', runLine s.getLine.toList w = .ok (some s.printed, w') ∧ w'.HoldsAll settings := by
  obtain ⟨w', happly, hw'⟩ := h.lookUp hs hmem
  refine ⟨w', ?_, hw'⟩
  rw [runLine, hs.parseChars_getLine]
  simp only [Statement.execute, Statement.operation, happly, Statement.output, Setting.printed]

/-- **The lines that set leave a workspace with every setting.** The induction is on the lines;
those that were run have left settings that are apart from all that follow. -/
theorem runLines_setLines (rest : List (List Char)) : ∀ (todo : List (Setting Value))
    {done : List (Setting Value)} {w : Workspace Value} (number : Nat), w.HoldsAll done →
      (∀ s ∈ todo, s.Written) → todo.Pairwise Setting.Apart →
        (∀ s ∈ todo, ∀ t ∈ done, t.Apart s) →
          ∃ w' number', w'.HoldsAll (todo.reverse ++ done) ∧
            runLines number w (todo.map (·.setLine.toList) ++ rest) = runLines number' w' rest
  | [], _, w, number, h, _, _, _ => ⟨w, number, h, rfl⟩
  | s :: todo, done, w, number, h, hwritten, hpairwise, hapart => by
    obtain ⟨hs, htodo⟩ := List.forall_mem_cons.mp hwritten
    obtain ⟨hsapart, hpairwise⟩ := List.pairwise_cons.mp hpairwise
    obtain ⟨hdone, hapart⟩ := List.forall_mem_cons.mp hapart
    obtain ⟨w', hline, hw'⟩ := runLine_setLine h hs hdone
    obtain ⟨w'', number', hw'', hrest⟩ := runLines_setLines rest todo (number + 1) hw' htodo
      hpairwise fun t ht => List.forall_mem_cons.mpr ⟨hsapart t ht, hapart t ht⟩
    refine ⟨w'', number', by simpa using hw'', ?_⟩
    rw [List.map_cons, List.cons_append, runLines_cons hline, hrest]
    cases runLines number' w'' rest <;> rfl

/-- **The lines that ask print the values, one by one.** -/
theorem runLines_getLines : ∀ (asked : List (Setting Value)) {w : Workspace Value} (number : Nat),
    w.HoldsAll settings → (∀ s ∈ asked, s.Plain ∧ s ∈ settings) →
      ∃ w', w'.HoldsAll settings ∧
        runLines number w (asked.map (·.getLine.toList)) = .ok (asked.map (·.printed), w')
  | [], w, _, h, _ => ⟨w, h, rfl⟩
  | s :: asked, w, number, h, hasked => by
    obtain ⟨⟨hs, hmem⟩, hasked⟩ := List.forall_mem_cons.mp hasked
    obtain ⟨w', hline, hw'⟩ := runLine_getLine h hs hmem
    obtain ⟨w'', hw'', hrest⟩ := runLines_getLines asked (number + 1) hw' hasked
    refine ⟨w'', hw'', ?_⟩
    rw [List.map_cons, runLines_cons hline, hrest]
    rfl

/-! ### Whole documents -/

/-- The source is these lines, with a line feed between them or with one behind each. -/
def Writes (source : String) (lines : List String) : Prop :=
  source = "\n".intercalate lines ∨ source = String.join (lines.map (· ++ "\n"))

theorem Writes.lines_eq {source : String} {lines : List String} (h : Writes source lines)
    (hlines : ∀ l ∈ lines, IsLine l.toList ∧ l.toList ≠ []) :
    Text.lines source.toList = lines.map String.toList := by
  rcases h with rfl | rfl
  · rw [String.toList_intercalate]
    exact lines_intercalate (List.forall_mem_map.mpr hlines)
  · rw [String.toList_join, List.flatMap_map]
    have hterminated := lines_terminated (List.forall_mem_map.mpr fun l hl => (hlines l hl).1)
    rw [List.flatMap_map] at hterminated
    rw [← hterminated]
    simp

/-- **Settings read back.** Settings at the ends of plain keys that are apart from each other, in
any order, and then queries for them, in any order: such a document runs, and it prints the JSON
text of the value of each setting that it asks for, in the order of the queries. -/
theorem run_settings_read_back {settings asked : List (Setting Value)} (name : String)
    {source : String} (hwritten : ∀ s ∈ settings, s.Written)
    (hapart : settings.Pairwise Setting.Apart) (hasked : ∀ s ∈ asked, s ∈ settings)
    (hsource : Writes source (settings.map (·.setLine) ++ asked.map (·.getLine))) :
    run ⟨name, source⟩ = .ok (asked.map fun s => "VALUE:" ++ s.value.toJson) := by
  have hplain : ∀ s ∈ asked, s.Plain := fun s hs => (hwritten s (hasked s hs)).plain
  have hlines : Text.lines source.toList =
      settings.map (·.setLine.toList) ++ asked.map (·.getLine.toList) := by
    rw [hsource.lines_eq, List.map_append, List.map_map, List.map_map]
    · rfl
    · refine List.forall_mem_append.mpr ⟨List.forall_mem_map.mpr fun s hs => ?_,
        List.forall_mem_map.mpr fun s hs => ?_⟩
      · exact ⟨(hwritten s hs).isLine_setLine, by simp [Setting.toList_setLine]⟩
      · exact ⟨(hplain s hs).isLine_getLine, by simp [Setting.toList_getLine]⟩
  obtain ⟨w, number, hw, hset⟩ := runLines_setLines (asked.map (·.getLine.toList)) settings 1
    Workspace.HoldsAll.empty hwritten hapart fun _ _ => List.forall_mem_nil _
  obtain ⟨w', hw', hget⟩ := runLines_getLines asked number hw fun s hs =>
    ⟨hplain s hs, by simpa using hasked s hs⟩
  obtain ⟨w'', hpop, -⟩ := hw'.sound.exists_popAnonymous
  rw [run, runSource, hlines, hset, hget]
  simp only [hpop]
  rfl

/-- Two keys of one scope; the text has a line feed, an `=` and a bracket in it. -/
theorem settings_read_back_shared_scope :
    run ⟨"a", "set a.b = \"x = y\\n[\"\nset a.c = [1, [-20, null]]\nget a.c\nget a.b\n"⟩ =
      .ok ["VALUE:[1,[-20,null]]", "VALUE:\"x = y\\n[\""] := by
  let text : Setting Value := ⟨["a", "b"], .string "x = y\n["⟩
  let list : Setting Value := ⟨["a", "c"], .list [.int 1, .list [.int (-20), .null]]⟩
  have htext : text.Written := ⟨⟨by decide, by decide⟩, by decide, .string _⟩
  have hlist : list.Written := by
    refine ⟨⟨by decide, by decide⟩, by decide, ?_⟩
    exact .cons (.int 1) (.cons (.cons (.int (-20)) (.cons .null .nil)) .nil)
  have hwritten : ∀ s ∈ [text, list], s.Written :=
    List.forall_mem_cons.mpr ⟨htext, List.forall_mem_singleton.mpr hlist⟩
  have hapart : [text, list].Pairwise Setting.Apart := by decide
  have hasked : ∀ s ∈ [list, text], s ∈ [text, list] := by simp
  have hsource : Writes
      "set a.b = \"x = y\\n[\"\nset a.c = [1, [-20, null]]\nget a.c\nget a.b\n"
      ([text, list].map (·.setLine) ++ [list, text].map (·.getLine)) := .inr (by decide +kernel)
  have hrun := run_settings_read_back "a" hwritten hapart hasked hsource
  have hprinted : [list, text].map (fun s => "VALUE:" ++ s.value.toJson) =
      ["VALUE:[1,[-20,null]]", "VALUE:\"x = y\\n[\""] := by decide +kernel
  rwa [hprinted] at hrun

end Document

end ScopedConfig
