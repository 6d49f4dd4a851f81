import ScopedConfig.Proofs.Address.Plain
import ScopedConfig.Proofs.Address.Stretch
import ScopedConfig.Proofs.Address.Substitution
import ScopedConfig.Proofs.Text.Blank
import ScopedConfig.Workspace.Assign

/-!
# Names of a list and of its entries

A list stands at the end of plain keys. With a dot behind them the keys are the name that opens a
new entry, and with a position in brackets they are the name of the entry there. No such name is
shorthand: the first is read as the keys with the marker of a new scope behind them, and the second
with an index into the list under the last key.

Key definitions: `Address.opener`, `Address.entry`.
Key theorems: `Address.ofName_opener`, `Address.ofName_entry`, `Address.ofName_entry_key`,
`Address.localKey_plain`.
-/

namespace ScopedConfig.Address

open Text

/-- The name that opens a new entry of the list at the end of keys. -/
def opener (path : List String) : String :=
  dotted path ++ "."

/-- The name of the entry at a position of the list at the end of keys. -/
def entry (path : List String) (i : Nat) : String :=
  dotted path ++ "[" ++ toString i ++ "]"

variable {name : String} {front path : List String} {key last : String} {tail : List Char}

/-! ### Behind plain keys -/

theorem toList_dotted_concat (last : String) : ∀ front : List String,
    (dotted (front ++ [last])).toList = pasted front ++ last.toList
  | [] => by
    rw [List.nil_append, toList_dotted]
    exact List.intercalate_singleton
  | key :: front => by
    have ih := toList_dotted_concat last front
    rw [toList_dotted] at ih ⊢
    rw [List.cons_append, List.map_cons, List.intercalate_cons_of_ne_nil (by simp), ih]
    simp [pasted]

/-- **Plain keys in front of a settled text** are no shorthand, and are read as the keys in front of
what the text is read as, whatever is remembered. -/
theorem ofName_pasted (hfront : ∀ key ∈ front, Segment.Plain key) (htail : Settled tail)
    (hname : name.toList = pasted front ++ tail) {segments : List Segment}
    (hread : parseSegments name (splitChars tail) = .ok segments) (remembered : List String) :
    ofName name remembered = .ok ⟨name, front.map .key ++ segments⟩ := by
  have hpieces : ∀ key ∈ front, IsPiece key.toList := fun key hkey =>
    isPiece_of_plain (hfront key hkey)
  have hexpand : expand name remembered = .ok name :=
    expand_of_settled (hname ▸ settled_pasted htail hpieces) remembered
  have hsplit : splitChars name.toList = front.map String.toList ++ splitChars tail := by
    rw [hname]
    exact splitChars_pasted tail fun key hkey => (hpieces key hkey).dot
  have hparse : parse name = .ok (front.map .key ++ segments) := by
    obtain ⟨hempty, hforall⟩ := parseSegments_eq_ok_iff.mp hread
    obtain ⟨hempty', hforall'⟩ := parseSegments_eq_ok_iff.mp (parseSegments_plain name hfront)
    have hne : splitChars tail ≠ [] := splitOutside_ne_nil '.' none tail
    rw [parse, hsplit]
    refine parseSegments_eq_ok_iff.mpr ⟨?_, List.rel_append hforall' hforall⟩
    rw [List.dropLast_append_of_ne_nil hne, List.mem_append, not_or]
    refine ⟨fun hnil => ?_, hempty⟩
    obtain ⟨key, hkey, hnil⟩ := List.mem_map.mp hnil
    exact (hpieces key hkey).nonempty hnil
  rw [ofName, hexpand]
  simp only [hparse]
  rfl

/-! ### Opening an entry -/

theorem IsPiece.settled_dot {cs : List Char} (h : IsPiece cs) : Settled (cs ++ ['.']) := by
  constructor
  · obtain ⟨c, rest, rfl, hdot, hspace⟩ := h.exists_cons
    exact ⟨c, rest ++ ['.'], rfl, hdot, hspace⟩
  · intro name afterDot
    rw [expandRest_piece h, expandRest, if_neg (by decide), if_pos rfl, if_neg Bool.false_ne_true]
    rfl

/-- **The name that opens an entry** ends in the marker of a new scope. -/
theorem ofName_opener (hne : path ≠ []) (h : ∀ key ∈ path, Segment.Plain key)
    (remembered : List String) :
    ofName (opener path) remembered = .ok ⟨opener path, path.map .key ++ [.anonymous]⟩ := by
  obtain ⟨front, last, rfl⟩ := (List.eq_nil_or_concat' path).resolve_left hne
  obtain ⟨hfront, hlast⟩ := List.forall_mem_append.mp h
  rw [List.forall_mem_singleton] at hlast
  have hpiece : IsPiece last.toList := isPiece_of_plain hlast
  have hname : (opener (front ++ [last])).toList = pasted front ++ (last.toList ++ ['.']) := by
    rw [opener, String.toList_append, toList_dotted_concat, List.append_assoc]
    rfl
  have hsplit : splitChars (last.toList ++ ['.']) = [last.toList, []] := by
    have hterminated := splitOutside_terminated [] (List.forall_mem_singleton.mpr hpiece.dot)
    rwa [List.flatMap_singleton, List.append_nil] at hterminated
  have hread : parseSegments (opener (front ++ [last])) (splitChars (last.toList ++ ['.'])) =
      .ok [.key last, .anonymous] := by
    rw [hsplit, parseSegments, if_neg hpiece.nonempty, Segment.parseChars_plain hlast]
    rfl
  rw [ofName_pasted hfront hpiece.settled_dot hname hread, List.map_append, List.append_assoc]
  rfl

/-! ### Entries -/

theorem keyText_plain (h : Segment.Plain key) : keyText key.toList = key.toList := by
  have hany : key.toList.any needsQuotes = false := by
    rw [List.any_eq_false]
    intro c hc
    have hplain := h.chars c hc
    rw [needsQuotes_eq_false_iff.mpr ⟨hplain.dot, hplain.space, hplain.quote, hplain.bracket⟩]
    exact Bool.false_ne_true
  rw [keyText, hany, if_neg Bool.false_ne_true]

theorem shown_indexed (h : Segment.Plain key) (i : Nat) : Stretch.Shown ⟨some key, [i]⟩ where
  quotable := fun _ hkey => by
    obtain rfl := Option.some.inj hkey
    exact ⟨h.nonempty, .inl fun hquote => absurd (h.chars _ hquote).quote (by decide)⟩
  nonempty := fun hnone => absurd hnone (by simp)

theorem toList_entry (h : Segment.Plain last) (front : List String) (i : Nat) :
    (entry (front ++ [last]) i).toList = pasted front ++ Stretch.text ⟨some last, [i]⟩ := by
  have hdigits : (toString i).toList = Nat.toDigits 10 i := String.toList_ofList
  rw [entry, String.toList_append, String.toList_append, String.toList_append, hdigits,
    toList_dotted_concat]
  simp [Stretch.text, Stretch.keyPart, indexText, keyText_plain h]

/-- **The name of an entry** ends in an index, if its position may stand in an address. -/
theorem ofName_entry (hfront : ∀ key ∈ front, Segment.Plain key) (hlast : Segment.Plain last)
    {i : Nat} (hi : i < Number.twoPow 64) (remembered : List String) :
    ofName (entry (front ++ [last]) i) remembered =
      .ok ⟨entry (front ++ [last]) i, front.map .key ++ [.index (some last) i]⟩ := by
  have hshown := shown_indexed hlast i
  refine ofName_pasted hfront hshown.isPiece.settled (toList_entry hlast front i) ?_ remembered
  rw [splitChars, splitOutside_of_pass? hshown.isPiece.dot, parseSegments,
    hshown.parseChars_single hi]
  rfl

theorem ofName_entry_key (hfront : ∀ key ∈ front, Segment.Plain key) (hlast : Segment.Plain last)
    {i : Nat} (hi : i < Number.twoPow 64) (hkey : Segment.Plain key) (remembered : List String) :
    ofName (entry (front ++ [last]) i ++ "." ++ key) remembered =
      .ok ⟨entry (front ++ [last]) i ++ "." ++ key,
        front.map .key ++ [.index (some last) i, .key key]⟩ := by
  have hshown := shown_indexed hlast i
  have hpiece : IsPiece key.toList := isPiece_of_plain hkey
  have hname : (entry (front ++ [last]) i ++ "." ++ key).toList =
      pasted front ++ (Stretch.text ⟨some last, [i]⟩ ++ '.' :: key.toList) := by
    rw [String.toList_append, String.toList_append, toList_entry hlast]
    simp
  have hsplit : splitChars (Stretch.text ⟨some last, [i]⟩ ++ '.' :: key.toList) =
      [Stretch.text ⟨some last, [i]⟩, key.toList] := by
    rw [splitChars, splitOutside_append _ hshown.isPiece.dot, splitOutside, if_pos ⟨rfl, rfl⟩,
      splitOutside_of_pass? hpiece.dot, foldr_consHead, List.append_nil]
  refine ofName_pasted hfront (hshown.isPiece.settled_append hpiece.settled) hname ?_ remembered
  rw [hsplit, parseSegments, if_neg hshown.text_ne_nil, hshown.parseChars_single hi]
  simp only [parseSegments, Segment.parseChars_plain hkey]
  rfl

/-! ### Local keys -/

theorem localKey_plain (h : Segment.Plain key) : localKey key = .ok key := by
  have hpiece : IsPiece key.toList := isPiece_of_plain h
  have htrim : trim key.toList = key.toList :=
    (Trimmed.of_forall fun c hc => (h.chars c hc).blank).trim_eq
  have hsingle : (splitChars key.toList).length = 1 := by
    rw [splitChars, splitOutside_of_pass? hpiece.dot]
    rfl
  have hlocal : ¬(key.toList = [] ∨ (splitChars key.toList).length ≠ 1) := by
    rw [not_or, not_not]
    exact ⟨hpiece.nonempty, hsingle⟩
  simp only [localKey, htrim, if_neg hlocal, Segment.parseChars_plain h]

end ScopedConfig.Address
