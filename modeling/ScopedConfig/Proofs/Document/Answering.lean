import Mathlib.Data.List.Forall2
import Mathlib.Tactic.SplitIfs
import ScopedConfig.Proofs.Document.Running
import ScopedConfig.Proofs.Document.Statement
import ScopedConfig.Proofs.Value.Json
import ScopedConfig.Proofs.Workspace.Spelling

/-!
# One printed line for each query

A document that runs prints one line for each of its lines that ask, in their order, and the line
tells by its head what was asked. No text of a document gets a line feed into the output: values are
printed as JSON texts, where a line feed is escaped; a name that leads nowhere is part of its line;
and the keys that a scope is described with are spelled with characters of the lines that wrote
them. That no key and no remembered segment has a line feed in it is kept by every line.

Key definitions: `Query`, `Query.ofLine?`, `Query.AnsweredBy`, `Statement.text?`.
Key theorems: `Query.ofLine?_eq`, `Statement.mem_of_mem_text?`, `Document.runLine_answered`,
`Document.runSource_answered`.
-/

namespace ScopedConfig

open Text

/-- What a line may ask for. -/
inductive Query
  | get
  | policy
  deriving DecidableEq

namespace Query

/-- What a line asks for, if it asks: its first word tells. -/
def ofLine? (line : List Char) : Option Query :=
  let keyword := String.ofList (firstWord (trim line))
  if keyword = "get" then some get
  else if keyword = "policy" then some policy
  else none

/-- The heads of the lines that are printed for a query. -/
def heads : Query → List String
  | get => ["VALUE:", "SCOPE:", "NOT_FOUND:"]
  | policy => ["POLICY:"]

/-- A printed text is one line and has a head of the query. -/
structure AnsweredBy (query : Query) (printed : String) : Prop where
  head : ∃ head ∈ query.heads, ∃ rest, printed = head ++ rest
  line : '\n' ∉ printed.toList

theorem AnsweredBy.of_head {query : Query} {head rest : String} (hhead : head ∈ query.heads)
    (hrest : '\n' ∉ rest.toList) : query.AnsweredBy (head ++ rest) := by
  have hfeed : ∀ head ∈ query.heads, '\n' ∉ head.toList := by
    cases query <;> decide
  refine ⟨⟨head, hhead, rest, rfl⟩, ?_⟩
  rw [String.toList_append, List.mem_append, not_or]
  exact ⟨hfeed head hhead, hrest⟩

end Query

/-! ### Statements that ask -/

namespace Statement

variable {statement : Statement} {line : List Char}

/-- What a statement asks for. -/
def query? : Statement → Option Query
  | get _ => some .get
  | policy _ => some .policy
  | _ => none

/-- The name or the local key of a statement. -/
def text? : Statement → Option String
  | scope path => some path
  | set path _ => some path
  | assignLocal key _ => some key
  | get path => some path
  | finalize path? => path?
  | close path? => path?
  | policy path? => path?

theorem text?_of_operation {op : Operation Value} (h : statement.operation = .ok op) :
    op.text? = statement.text? := by
  cases statement with
  | set path literal =>
    obtain ⟨v, -, rfl⟩ := exists_of_map h
    rfl
  | assignLocal key literal =>
    obtain ⟨v, -, rfl⟩ := exists_of_map h
    rfl
  | _ =>
    obtain rfl := Except.ok.inj h
    rfl

theorem exists_of_cutAssignment {shown : String} {words : List Char}
    {f : String × String → Statement} (h : (cutAssignment shown words).map f = .ok statement) :
    ∃ target literal, statement = f (target, literal) ∧ ∀ c ∈ target.toList, c ∈ words := by
  obtain ⟨⟨target, literal⟩, hcut, rfl⟩ := exists_of_map h
  refine ⟨target, literal, rfl, fun c hc => ?_⟩
  obtain ⟨-, -, left, right, rfl, htarget, -⟩ := cutAssignment_eq_ok_iff.mp hcut
  exact List.mem_append_left _ (mem_of_mem_trim (htarget ▸ hc))

theorem ofWords_cases {shown word : String} {words : List Char}
    (h : ofWords shown word words = .ok statement) :
    (statement.query? =
      if word = "get" then some .get else if word = "policy" then some .policy else none) ∧
      ∀ text, statement.text? = some text → ∀ c ∈ text.toList, c ∈ words := by
  have hwords : ∀ text, some (String.ofList words) = some text → ∀ c ∈ text.toList, c ∈ words := by
    rintro text htext c hc
    rwa [← Option.some.inj htext, String.toList_ofList] at hc
  have hoptional : ∀ text, optional words = some text → ∀ c ∈ text.toList, c ∈ words := by
    intro text htext
    unfold optional at htext
    split at htext
    · simp at htext
    · exact hwords text htext
  have hassignment : ∀ target : String, (∀ c ∈ target.toList, c ∈ words) →
      ∀ text, some target = some text → ∀ c ∈ text.toList, c ∈ words :=
    fun target htarget text htext => Option.some.inj htext ▸ htarget
  unfold ofWords at h
  split_ifs at h with hscope hget hset hlet hfinal hclose hpolicy
  · obtain rfl := Except.ok.inj h
    exact ⟨by simp [hscope, query?], hwords⟩
  · obtain rfl := Except.ok.inj h
    exact ⟨by simp [hget, query?], hwords⟩
  · obtain ⟨target, literal, rfl, htarget⟩ := exists_of_cutAssignment h
    exact ⟨by simp [hset, query?], hassignment target htarget⟩
  · obtain ⟨target, literal, rfl, htarget⟩ := exists_of_cutAssignment h
    exact ⟨by simp [hlet, query?], hassignment target htarget⟩
  · obtain rfl := Except.ok.inj h
    exact ⟨by simp [hfinal, query?], hoptional⟩
  · obtain rfl := Except.ok.inj h
    exact ⟨by simp [hclose, query?], hoptional⟩
  · obtain rfl := Except.ok.inj h
    exact ⟨by simp [hpolicy, query?], hoptional⟩

theorem mem_of_mem_text? (h : parseChars line = .ok (some statement)) {text : String}
    (htext : statement.text? = some text) : ∀ c ∈ text.toList, c ∈ line := by
  intro c hc
  have hwords := (ofWords_cases (ofWords_of_parseChars h)).2 text htext c hc
  have hbehind := mem_of_mem_trim hwords
  exact mem_of_mem_trim ((List.dropWhile_sublist _).subset hbehind)

end Statement

/-- **The first word of a line tells what its statement asks for**, and a line without a statement
asks for nothing. -/
theorem Query.ofLine?_eq {line : List Char} {read : Option Statement}
    (h : Statement.parseChars line = .ok read) : ofLine? line = read.bind Statement.query? := by
  unfold Statement.parseChars at h
  unfold ofLine?
  generalize trim line = trimmed at h ⊢
  by_cases hnone : trimmed = [] ∨ trimmed.head? = some '#'
  · simp only [hnone, if_true] at h
    obtain rfl := Except.ok.inj h
    rcases hnone with rfl | hcomment
    · rfl
    · -- a comment has no first word but one that starts with its mark
      obtain ⟨rest, rfl⟩ := List.head?_eq_some_iff.mp hcomment
      have hword : firstWord ('#' :: rest) = '#' :: firstWord rest := rfl
      have hne : ∀ {keyword : String}, keyword.toList.head? ≠ some '#' →
          String.ofList ('#' :: firstWord rest) ≠ keyword := by
        rintro keyword hhead rfl
        exact hhead (by rw [String.toList_ofList]; rfl)
      simp only [hword]
      rw [if_neg (hne (by decide)), if_neg (hne (by decide))]
      rfl
  · simp only [hnone, if_false] at h
    obtain ⟨statement, hread, rfl⟩ := exists_of_map h
    exact (Statement.ofWords_cases hread).1.symm

/-! ### What is printed -/

namespace Document

variable {w w' : Workspace Value} {line : List Char}

theorem lineFeed_not_mem_describe (hs : w.Spelled (· ≠ '\n')) (id : ScopeId) :
    '\n' ∉ (w.arena.describe id).toList := by
  intro h
  rcases Arena.mem_describe h with hmark | ⟨key, hkey, hc⟩
  · exact absurd hmark (by decide)
  · exact hs.keys key hkey '\n' hc rfl

theorem lineFeed_not_mem_name (p : Policy) : '\n' ∉ p.name.toList := by
  rcases p with ⟨_ | _, _ | _⟩ <;> decide

theorem exists_of_reply {α : Type} {f : α → Reply Value} {r : Except Fault α × Workspace Value}
    {reply : Reply Value} (h : Workspace.apply.reply f r = (.ok reply, w')) :
    ∃ x, reply = f x := by
  obtain ⟨hresult, -⟩ := Prod.mk.inj h
  obtain ⟨x, -, rfl⟩ := exists_of_map hresult
  exact ⟨x, rfl⟩

/-- **A statement that asks is answered, and no other one prints.** -/
theorem output_answered {statement : Statement} {op : Operation Value} {reply : Reply Value}
    (hop : statement.operation = .ok op) (happly : w.apply op = (.ok reply, w'))
    (hs : w'.Spelled (· ≠ '\n'))
    (htext : ∀ text, statement.text? = some text → '\n' ∉ text.toList) :
    Option.Rel Query.AnsweredBy statement.query? (statement.output w' reply) := by
  cases statement with
  | scope path =>
    obtain rfl := Except.ok.inj hop
    obtain ⟨_, rfl⟩ := exists_of_reply happly
    exact .none
  | set path literal =>
    obtain ⟨v, -, rfl⟩ := exists_of_map hop
    obtain ⟨_, rfl⟩ := exists_of_reply happly
    exact .none
  | assignLocal key literal =>
    obtain ⟨v, -, rfl⟩ := exists_of_map hop
    obtain ⟨_, rfl⟩ := exists_of_reply happly
    exact .none
  | finalize path? =>
    obtain rfl := Except.ok.inj hop
    obtain ⟨_, rfl⟩ := exists_of_reply happly
    exact .none
  | close path? =>
    obtain rfl := Except.ok.inj hop
    obtain ⟨_, rfl⟩ := exists_of_reply happly
    exact .none
  | policy path? =>
    obtain rfl := Except.ok.inj hop
    obtain ⟨p, rfl⟩ := exists_of_reply happly
    exact .some (.of_head (List.mem_cons_self ..) (lineFeed_not_mem_name p))
  | get path =>
    obtain rfl := Except.ok.inj hop
    obtain ⟨what, rfl⟩ := exists_of_reply happly
    cases what with
    | value v => exact .some (.of_head (by decide) v.lineFeed_not_mem_toJson)
    | scope id => exact .some (.of_head (by decide) (lineFeed_not_mem_describe hs id))
    | nothing => exact .some (.of_head (by decide) (htext path rfl))

/-- **A line that asks is answered, and no other line prints.** No line brings a line feed into the
workspace. -/
theorem runLine_answered {printed : Option String} (hw : w.Sound) (hs : w.Spelled (· ≠ '\n'))
    (hline : '\n' ∉ line) (h : runLine line w = .ok (printed, w')) :
    w'.Spelled (· ≠ '\n') ∧ Option.Rel Query.AnsweredBy (Query.ofLine? line) printed := by
  rcases runLine_cases h with ⟨hread, rfl, rfl⟩ | ⟨statement, op, reply, hread, hop, happly, rfl⟩
  · rw [Query.ofLine?_eq hread]
    exact ⟨hs, .none⟩
  · have htext : ∀ text, statement.text? = some text → '\n' ∉ text.toList :=
      fun text ht hm => hline (Statement.mem_of_mem_text? hread ht '\n' hm)
    have hspelled : w'.Spelled (· ≠ '\n') := by
      have hstep : (w.apply op).2.Spelled (· ≠ '\n') :=
        hw.spelled_apply hs fun text ht c hc hfeed =>
          htext text (Statement.text?_of_operation hop ▸ ht) (hfeed ▸ hc)
      rwa [happly] at hstep
    rw [Query.ofLine?_eq hread]
    exact ⟨hspelled, output_answered hop happly hspelled htext⟩

/-- **Lines that ask are answered one by one.** The induction is on the lines; each one leaves a
sound workspace without line feeds for the rest. -/
theorem runLines_answered : ∀ {ls : List (List Char)} {number : Nat} {w w' : Workspace Value}
    {out : List String}, w.Sound → w.Spelled (· ≠ '\n') → (∀ line ∈ ls, '\n' ∉ line) →
      runLines number w ls = .ok (out, w') →
        List.Forall₂ Query.AnsweredBy (ls.filterMap Query.ofLine?) out
  | [], _, _, _, _, _, _, _, h => by
    obtain ⟨rfl, -⟩ := Prod.mk.inj (Except.ok.inj h)
    exact .nil
  | line :: ls, number, w, w', out, hw, hs, hlines, h => by
    obtain ⟨hline, hlines⟩ := List.forall_mem_cons.mp hlines
    cases hrun : runLine line w with
    | error e =>
      rw [runLines, hrun] at h
      simp at h
    | ok r =>
      obtain ⟨printed, u⟩ := r
      rw [runLines_cons hrun] at h
      obtain ⟨hspelled, hanswer⟩ := runLine_answered hw hs hline hrun
      cases hrest : runLines (number + 1) u ls with
      | error d =>
        rw [hrest] at h
        simp [Except.map] at h
      | ok r =>
        obtain ⟨more, v⟩ := r
        rw [hrest] at h
        obtain ⟨rfl, rfl⟩ := Prod.mk.inj (Except.ok.inj h)
        have ih := runLines_answered (sound_runLine hw hrun) hspelled hlines hrest
        rw [List.filterMap_cons]
        generalize Query.ofLine? line = asked at hanswer ⊢
        cases hanswer with
        | none => exact ih
        | some hquery => exact .cons hquery ih

/-! ### Whole sources -/

/-- **A document that runs prints one line for each query.** The printed lines are as many as the
lines that ask, in their order. Each has a head of what was asked, and none has a line feed in
it. -/
theorem runSource_answered {source : String} {out : List String}
    (h : runSource source = .ok out) :
    List.Forall₂ Query.AnsweredBy ((Text.lines source.toList).filterMap Query.ofLine?) out := by
  rw [runSource_eq] at h
  cases hrun : runLines 1 .empty (Text.lines source.toList) with
  | error d =>
    rw [hrun] at h
    exact nomatch h
  | ok r =>
    obtain ⟨printed, w⟩ := r
    rw [hrun] at h
    obtain rfl := Except.ok.inj h
    exact runLines_answered (Workspace.sound_ofPolicy .default [])
      (Workspace.spelled_ofPolicy .default) (fun _ => lineFeed_not_mem) hrun

/-- A value has a line feed in it, and a key has a blank. -/
theorem answered_of_line_feed_in_value :
    let source := "set 'a b'.c = \"x\\ny\"\nget 'a b'.c\n# note\nget 'a b'\npolicy\nget d\n"
    let out := ["VALUE:\"x\\ny\"", "SCOPE:'a b'", "POLICY:DEFAULT", "NOT_FOUND:d"]
    runSource source = .ok out ∧
      List.Forall₂ Query.AnsweredBy [.get, .get, .policy, .get] out := by
  intro source out
  have hrun : runSource source = .ok out := by decide +kernel
  have hqueries : (Text.lines source.toList).filterMap Query.ofLine? =
      [.get, .get, .policy, .get] := by decide +kernel
  have hanswered := runSource_answered hrun
  rw [hqueries] at hanswered
  exact ⟨hrun, hanswered⟩

end Document

end ScopedConfig
