import Mathlib.Data.List.Basic
import ScopedConfig.Proofs.Text.Blank
import ScopedConfig.Proofs.Text.Nesting
import ScopedConfig.Value.Literal

/-!
# Literals by their form

A literal is read by what trimming leaves of it. If that is no word with a value, it is a text in
quotes, a list in brackets, or a bare text, and its first character tells which. A list is read item
by item where its items are delimited texts with commas between them.

Key theorems: `Literal.read_congr`, `Literal.read_quoted`, `Literal.read_bracketed`,
`Literal.read_bare`.
-/

namespace ScopedConfig.Literal

open Text

variable {cs ds : List Char}

/-- **Blanks around a literal mean nothing.** -/
theorem read_congr (h : trim cs = trim ds) : read cs = read ds := by
  unfold Literal.read
  rw [h]

theorem read_keyword {v : Value} (h : keyword? (String.ofList (trim cs)) = some v) :
    read cs = .ok v := by
  rw [Literal.read]
  simp only [h]

theorem keyword?_eq_none {c : Char} (h : cs.head? = some c) (hc : c.isAlpha = false) :
    keyword? (String.ofList cs) = none := by
  have hne : ∀ word : String, word.toList.head?.all Char.isAlpha = true →
      String.ofList cs ≠ word := by
    rintro _ hword rfl
    rw [String.toList_ofList, h] at hword
    exact absurd hword (by simp [hc])
  simp only [keyword?, hne "" rfl, hne "null" rfl, hne "NULL" rfl, hne "Null" rfl, hne "true" rfl,
    hne "TRUE" rfl, hne "True" rfl, hne "false" rfl, hne "FALSE" rfl, hne "False" rfl, or_self,
    if_false]

/-- **A text in double quotes is what its escapes stand for.** -/
theorem read_quoted (inner : List Char) :
    read ('"' :: inner ++ ['"']) = .ok (.string (String.ofList (unescape inner))) := by
  have htrim : trim ('"' :: inner ++ ['"']) = '"' :: inner ++ ['"'] :=
    (Trimmed.enclosed (by decide) (by decide) inner).trim_eq
  have hkeyword : keyword? (String.ofList ('"' :: inner ++ ['"'])) = none :=
    keyword?_eq_none (c := '"') rfl rfl
  have hquoted : quoted? ('"' :: inner ++ ['"']) = some inner := by
    rw [quoted?, enclosed?_of_head_ne (by simp), enclosed?_cons_concat]
    rfl
  rw [Literal.read, htrim]
  simp only [hkeyword, hquoted]

/-- What a text in brackets is read as: no list of items if it is blank. -/
theorem read_enclosed (inner : List Char) : read ('[' :: inner ++ [']']) =
    if trim inner = [] then .ok (.list [])
    else ((splitItems .outside inner).mapM read).map .list := by
  have htrim : trim ('[' :: inner ++ [']']) = '[' :: inner ++ [']'] :=
    (Trimmed.enclosed (by decide) (by decide) inner).trim_eq
  have hkeyword : keyword? (String.ofList ('[' :: inner ++ [']'])) = none :=
    keyword?_eq_none (c := '[') rfl rfl
  have hquoted : quoted? ('[' :: inner ++ [']']) = none := quoted?_of_head (c := '[') rfl rfl
  have hmapM : ((splitItems .outside inner).attach.mapM fun item => read item.1) =
      (splitItems .outside inner).mapM read := by
    rw [List.mapM_subtype fun _ _ => rfl, List.unattach_attach]
  rw [Literal.read, htrim]
  simp only [hkeyword, hquoted]
  split
  · rename_i inner' henclosed
    obtain rfl := Option.some.inj ((enclosed?_cons_concat '[' ']' inner).symm.trans henclosed)
    rw [hmapM]
  · rename_i henclosed
    rw [enclosed?_cons_concat] at henclosed
    simp at henclosed

/-- **Delimited texts in brackets are read one by one**, and the first one that is refused refuses
the list. -/
theorem read_bracketed {items : List (List Char)} (hne : items ≠ [])
    (hitems : ∀ t ∈ items, Delimited t) (hblank : trim ([','].intercalate items) ≠ []) :
    read ('[' :: [','].intercalate items ++ [']']) = (items.mapM read).map .list := by
  rw [read_enclosed, if_neg hblank, splitItems_intercalate hne hitems]

/-- **A bare text is a number or stands for itself.** -/
theorem read_bare {c : Char} (htrim : trim cs = cs) (h : cs.head? = some c)
    (hc : c.isAlpha = false) (hquote : isQuote c = false) (hlist : c ≠ '[') (hobject : c ≠ '{') :
    read cs = .ok (bare cs) := by
  have hkeyword : keyword? (String.ofList cs) = none := keyword?_eq_none h hc
  have hquoted : quoted? cs = none := quoted?_of_head h hquote
  have hnolist : enclosed? '[' ']' cs = none := enclosed?_of_head_ne (by simpa [h] using hlist)
  have hnoobject : enclosed? '{' '}' cs = none :=
    enclosed?_of_head_ne (by simpa [h] using hobject)
  rw [Literal.read, htrim]
  simp only [hkeyword, hquoted, hnoobject]
  split
  · rename_i henclosed
    rw [hnolist] at henclosed
    simp at henclosed
  · rfl

end ScopedConfig.Literal
