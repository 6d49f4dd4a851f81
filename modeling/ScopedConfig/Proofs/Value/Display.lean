import Mathlib.Data.Bool.AllAny
import ScopedConfig.Proofs.Number.Reading
import ScopedConfig.Proofs.Text.Escape
import ScopedConfig.Proofs.Value.Items
import ScopedConfig.Value.Display

/-!
# Displayed values are read back

What is displayed of a value without floating-point numbers starts and ends with a character that is
not blank, has no control character in it, and is delimited, whatever characters stand in its texts.
So the items of a displayed list are cut apart exactly at the commas between them, and by induction
on the value its display is read as the value itself.

Key definitions: `Value.FloatFree`.
Key theorems: `Value.FloatFree.delimited`, `Value.FloatFree.not_isAsciiControl`,
`Value.ofLiteral_display`.
-/

namespace ScopedConfig

open Text

/-! ### Escaped texts in quotes -/

namespace Text

theorem scan?_escapeChar (c : Char) : Nesting.scan? ⟨some '"', false, 0⟩ (escapeChar c) =
    some ⟨some '"', false, 0⟩ := by
  have h := escaped c
  generalize escapeChar c = cs at h
  cases h with
  | marked d letter visible resolve => rfl
  | digits control =>
    have hmark : Nesting.scan? ⟨some '"', false, 0⟩ ['\\', 'u'] = some ⟨some '"', false, 0⟩ := rfl
    refine Nesting.scan?_append hmark (Nesting.scan?_of_quoted 0 ?_)
    intro d hd
    obtain ⟨double, -, backslash⟩ := ne_of_mem_hex4 hd
    exact ⟨double, backslash⟩
  | plain backslash double =>
    exact Nesting.scan?_singleton (Nesting.next?_of_quoted 0 double backslash)

/-- **Inside double quotes the scan passes over an escaped text.** -/
theorem scan?_escape : ∀ cs : List Char,
    Nesting.scan? ⟨some '"', false, 0⟩ (escape cs) = some ⟨some '"', false, 0⟩
  | [] => rfl
  | c :: cs => Nesting.scan?_append (scan?_escapeChar c) (scan?_escape cs)

end Text

namespace Value

/-- There is no floating-point number in the value, at any depth. -/
inductive FloatFree : Value → Prop
  | null : FloatFree null
  | bool (b : Bool) : FloatFree (bool b)
  | int (n : Int64) : FloatFree (int n)
  | string (s : String) : FloatFree (string s)
  | list {items : List Value} (h : ∀ v ∈ items, FloatFree v) : FloatFree (list items)

theorem FloatFree.nil : FloatFree (.list []) :=
  .list (List.forall_mem_nil _)

theorem FloatFree.cons {v : Value} {vs : List Value} (h : FloatFree v) (hs : FloatFree (.list vs)) :
    FloatFree (.list (v :: vs)) := by
  cases hs with
  | list hs => exact .list (List.forall_mem_cons.mpr ⟨h, hs⟩)

/-! ### The items of a displayed list -/

/-- The displayed items of a list, all but the first behind the space that separates them. -/
def spacedItems : List Value → List (List Char)
  | [] => []
  | v :: vs => v.displayChars :: vs.map fun w => ' ' :: w.displayChars

theorem displayItems_eq : ∀ items : List Value,
    displayItems items = [','].intercalate (spacedItems items)
  | [] => rfl
  | [v] => by rw [displayItems, spacedItems, List.map_nil, List.intercalate_singleton]
  | v :: w :: vs => by
    have ih := displayItems_eq (w :: vs)
    rw [displayItems, ih, spacedItems, spacedItems, List.map_cons, List.intercalate_cons_cons,
      List.append_assoc]
    refine congrArg (v.displayChars ++ ',' :: ·) ?_
    cases vs with
    | nil =>
      rw [List.map_nil, List.intercalate_singleton, List.intercalate_singleton]
      rfl
    | cons u us =>
      rw [List.map_cons, List.intercalate_cons_cons, List.intercalate_cons_cons]
      rfl

theorem mem_spacedItems {t : List Char} {items : List Value} (h : t ∈ spacedItems items) :
    ∃ v ∈ items, t = v.displayChars ∨ t = ' ' :: v.displayChars := by
  cases items with
  | nil => simp [spacedItems] at h
  | cons v vs =>
    rcases List.mem_cons.mp h with rfl | h
    · exact ⟨v, List.mem_cons_self .., .inl rfl⟩
    · obtain ⟨w, hw, rfl⟩ := List.mem_map.mp h
      exact ⟨w, List.mem_cons_of_mem _ hw, .inr rfl⟩

theorem mapM_spacedItems {items : List Value}
    (h : ∀ v ∈ items, Literal.read v.displayChars = .ok v) :
    (spacedItems items).mapM Literal.read = .ok items := by
  cases items with
  | nil => rfl
  | cons v vs =>
    have hrest : ∀ w ∈ vs, Literal.read (' ' :: w.displayChars) = .ok w := fun w hw => by
      rw [Literal.read_congr (trim_blank_cons (by decide) _)]
      exact h w (List.mem_cons_of_mem _ hw)
    have hall : vs.mapM (fun w => Literal.read (' ' :: w.displayChars)) = .ok vs :=
      Literal.mapM_eq_ok_iff.mpr (List.forall₂_same.mpr hrest)
    rw [spacedItems, Literal.mapM_cons_of_ok (h v (List.mem_cons_self ..)), List.mapM_map,
      Function.comp_def, hall]
    rfl

theorem mem_displayItems {c : Char} {items : List Value} (h : c ∈ displayItems items) :
    c = ',' ∨ c = ' ' ∨ ∃ v ∈ items, c ∈ v.displayChars := by
  rw [displayItems_eq] at h
  rcases mem_of_mem_intercalate h with h | ⟨t, ht, h⟩
  · exact .inl (List.mem_singleton.mp h)
  · obtain ⟨v, hv, rfl | rfl⟩ := mem_spacedItems ht
    · exact .inr (.inr ⟨v, hv, h⟩)
    · exact .inr ((List.mem_cons.mp h).imp_right fun h => ⟨v, hv, h⟩)

/-! ### The shape of a displayed value -/

namespace FloatFree

variable {v : Value}

theorem forall_mem_intChars {p : Char → Prop} [DecidablePred p]
    (h : Number.intAlphabet.all fun c => p c) (n : Int) : ∀ c ∈ Number.intChars n, p c :=
  fun c hc => List.all_iff_forall_prop.mp h c (Number.mem_intAlphabet_of_mem_intChars hc)

/-- **A displayed value is delimited.** -/
theorem delimited (h : FloatFree v) : Delimited v.displayChars := by
  induction h with
  | null => rfl
  | bool b => cases b <;> rfl
  | int n =>
    rw [displayChars]
    exact Nesting.scan?_of_plain 0 (forall_mem_intChars (by decide) n.toInt)
  | string s =>
    rw [displayChars]
    exact Nesting.scan?_enclosed 0 rfl (scan?_escape s.toList)
  | @list items h ih =>
    rw [displayChars, displayItems_eq]
    refine Delimited.bracketed fun t ht => ?_
    obtain ⟨w, hw, rfl | rfl⟩ := mem_spacedItems ht
    · exact ih w hw
    · exact (ih w hw).blank_cons

/-- **A displayed value has no control character in it.** -/
theorem not_isAsciiControl (h : FloatFree v) : ∀ c ∈ v.displayChars, ¬IsAsciiControl c := by
  induction h with
  | null => exact List.all_iff_forall_prop.mp (by decide)
  | bool b => cases b <;> exact List.all_iff_forall_prop.mp (by decide)
  | int n =>
    rw [displayChars]
    exact forall_mem_intChars (by decide) n.toInt
  | string s =>
    intro c hc
    rw [displayChars, List.cons_append, List.mem_cons, List.mem_append, List.mem_singleton] at hc
    rcases hc with rfl | hc | rfl
    · decide
    · exact not_isAsciiControl_of_mem_escape hc
    · decide
  | @list items h ih =>
    intro c hc
    rw [displayChars, List.cons_append, List.mem_cons, List.mem_append, List.mem_singleton] at hc
    rcases hc with rfl | hc | rfl
    · decide
    · rcases mem_displayItems hc with rfl | rfl | ⟨w, hw, hc⟩
      · decide
      · decide
      · exact ih w hw c hc
    · decide

theorem trimmed (h : FloatFree v) : Trimmed v.displayChars := by
  cases h with
  | null => exact .of_forall (List.all_iff_forall_prop.mp (by decide))
  | bool b => cases b <;> exact .of_forall (List.all_iff_forall_prop.mp (by decide))
  | int n =>
    rw [displayChars]
    exact .of_forall (forall_mem_intChars (by decide) n.toInt)
  | string s =>
    rw [displayChars]
    exact .enclosed (by decide) (by decide) _
  | list h =>
    rw [displayChars]
    exact .enclosed (by decide) (by decide) _

theorem displayChars_ne_nil (h : FloatFree v) : v.displayChars ≠ [] := by
  cases h with
  | null => decide
  | bool b => cases b <;> decide
  | int n =>
    rw [displayChars]
    exact Number.intChars_ne_nil n.toInt
  | string s =>
    rw [displayChars]
    exact List.cons_ne_nil _ _
  | list h =>
    rw [displayChars]
    exact List.cons_ne_nil _ _

/-! ### Reading back -/

theorem trim_displayItems_ne_nil (h : FloatFree v) (vs : List Value) :
    trim (displayItems (v :: vs)) ≠ [] := by
  intro htrim
  obtain ⟨c, cs, hc⟩ := List.exists_cons_of_ne_nil h.displayChars_ne_nil
  have hmem : c ∈ displayItems (v :: vs) := by
    rw [displayItems_eq, spacedItems]
    cases vs <;> simp [List.intercalate, hc]
  have hblank := isBlank_of_trim_eq_nil htrim hmem
  rw [h.trimmed.head c (by rw [hc]; rfl)] at hblank
  exact absurd hblank (by decide)

/-- **A displayed value is read as the value.** -/
theorem read_displayChars (h : FloatFree v) : Literal.read v.displayChars = .ok v := by
  induction h with
  | null => exact Literal.read_keyword rfl
  | bool b => cases b <;> exact Literal.read_keyword rfl
  | int n =>
    obtain ⟨c, cs, hc⟩ := List.exists_cons_of_ne_nil (Number.intChars_ne_nil n.toInt)
    have hmem : c ∈ Number.intAlphabet :=
      Number.mem_intAlphabet_of_mem_intChars (hc ▸ List.mem_cons_self ..)
    have hhead : (Number.intChars n.toInt).head? = some c := by
      rw [hc]
      rfl
    have hnumeral : ∀ d ∈ Number.intAlphabet, d.isAlpha = false ∧ isQuote d = false ∧ d ≠ '[' ∧
        d ≠ '{' :=
      List.all_iff_forall_prop.mp (by decide)
    obtain ⟨halpha, hquote, hlist, hobject⟩ := hnumeral c hmem
    have htrim := (trimmed (.int n)).trim_eq
    rw [displayChars] at htrim ⊢
    rw [Literal.read_bare htrim hhead halpha hquote hlist hobject, Literal.bare,
      Number.readInt?_intChars, Number.int64?_toInt]
  | string s =>
    rw [displayChars, Literal.read_quoted, unescape_escape, String.ofList_toList]
  | @list items h ih =>
    rw [displayChars]
    cases items with
    | nil => exact Literal.read_enclosed []
    | cons v vs =>
      have hv := h v (List.mem_cons_self ..)
      have hitems : ∀ t ∈ spacedItems (v :: vs), Delimited t := by
        intro t ht
        obtain ⟨w, hw, rfl | rfl⟩ := mem_spacedItems ht
        · exact (h w hw).delimited
        · exact (h w hw).delimited.blank_cons
      have hblank := hv.trim_displayItems_ne_nil vs
      have hne : spacedItems (v :: vs) ≠ [] := List.cons_ne_nil _ _
      rw [displayItems_eq] at hblank ⊢
      rw [Literal.read_bracketed hne hitems hblank, mapM_spacedItems ih]
      rfl

end FloatFree

/-- **Reading undoes displaying.** The display of a value without floating-point numbers is a
literal, and the literal writes this value. -/
theorem ofLiteral_display {v : Value} (h : FloatFree v) : ofLiteral v.display = .ok v := by
  rw [ofLiteral, display, String.toList_ofList, h.read_displayChars]

/-- Brackets, commas, quotes and a line feed in a text, and lists in lists. -/
theorem ofLiteral_display_nested :
    let v := list [string "a], \"b\\\n'", list [int (-20), list []], bool true, null]
    FloatFree v ∧ ofLiteral "[\"a], \\\"b\\\\\\n\\'\", [-20, []], true, null]" = .ok v := by
  intro v
  have hfree : FloatFree v :=
    .cons (.string _) (.cons (.cons (.int (-20)) (.cons .nil .nil))
      (.cons (.bool true) (.cons .null .nil)))
  have hdisplay : v.display = "[\"a], \\\"b\\\\\\n\\'\", [-20, []], true, null]" := by
    decide +kernel
  have hread := ofLiteral_display hfree
  rw [hdisplay] at hread
  exact ⟨hfree, hread⟩

end Value

end ScopedConfig
