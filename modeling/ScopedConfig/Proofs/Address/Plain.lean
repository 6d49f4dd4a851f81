import Mathlib.Data.Bool.AllAny
import Mathlib.Data.List.Infix
import ScopedConfig.Proofs.Address.Pieces
import ScopedConfig.Proofs.Address.Reading
import ScopedConfig.Text.Blank

/-!
# Plain paths

A key that has no character with a meaning in it may stand in an address as it is. Such keys with
dots between them are an address without shorthand, and its segments are the keys.

Key definitions: `Segment.Plain`, `Address.dotted`.
Key theorems: `Address.ofName_dotted`.
-/

namespace ScopedConfig

open Text

/-- A character that means itself in an address. -/
structure Segment.PlainChar (c : Char) : Prop where
  quote : isQuote c = false
  bracket : Segment.isBracket c = false
  dot : c ≠ '.'
  blank : isBlank c = false

/-- A key that needs no quotes in an address. -/
structure Segment.Plain (key : String) : Prop where
  nonempty : key ≠ ""
  chars : ∀ c ∈ key.toList, PlainChar c

instance (c : Char) : Decidable (Segment.PlainChar c) :=
  decidable_of_iff
    (isQuote c = false ∧ Segment.isBracket c = false ∧ c ≠ '.' ∧ isBlank c = false)
    ⟨fun ⟨quote, bracket, dot, blank⟩ => ⟨quote, bracket, dot, blank⟩,
      fun h => ⟨h.quote, h.bracket, h.dot, h.blank⟩⟩

instance (key : String) : Decidable (Segment.Plain key) :=
  decidable_of_iff (key ≠ "" ∧ key.toList.all fun c => Segment.PlainChar c)
    ⟨fun ⟨nonempty, chars⟩ => ⟨nonempty, List.all_iff_forall_prop.mp chars⟩,
      fun h => ⟨h.nonempty, List.all_iff_forall_prop.mpr h.chars⟩⟩

theorem Segment.PlainChar.space {c : Char} (h : PlainChar c) : c ≠ ' ' := by
  rintro rfl
  exact absurd h.blank (by decide)

theorem Segment.Plain.exists_cons {key : String} (h : Plain key) :
    ∃ c cs, key.toList = c :: cs ∧ PlainChar c ∧ ∀ d ∈ cs, PlainChar d := by
  have hne : key.toList ≠ [] := fun hnil => h.nonempty (String.toList_eq_nil_iff.mp hnil)
  obtain ⟨c, cs, hc⟩ := List.exists_cons_of_ne_nil hne
  have hchars := h.chars
  rw [hc, List.forall_mem_cons] at hchars
  exact ⟨c, cs, hc, hchars⟩

theorem Segment.parseChars_plain {key : String} (h : Plain key) :
    parseChars key.toList = .ok (.key key) := by
  obtain ⟨c, cs, hc, hplain, hrest⟩ := h.exists_cons
  have hquoted : quoted? key.toList = none := quoted?_of_head (hc ▸ rfl) hplain.quote
  have hbracket : key.toList.any isBracket = false := by
    rw [List.any_eq_false]
    intro d hd
    rw [(h.chars d hd).bracket]
    exact Bool.false_ne_true
  rw [parseChars, if_neg (hc ▸ List.cons_ne_nil c cs), if_pos (.inr hbracket), Text.unquote,
    hquoted, Option.getD_none, String.ofList_toList]

namespace Address

/-- The address that keys lead along, as it is written. -/
def dotted (path : List String) : String :=
  ".".intercalate path

theorem toList_dotted (path : List String) :
    (dotted path).toList = ['.'].intercalate (path.map String.toList) :=
  String.toList_intercalate

theorem mem_dotted {c : Char} {path : List String} (h : c ∈ (dotted path).toList) :
    c = '.' ∨ ∃ key ∈ path, c ∈ key.toList := by
  rw [toList_dotted] at h
  rcases mem_of_mem_intercalate h with h | ⟨t, ht, h⟩
  · exact .inl (List.mem_singleton.mp h)
  · obtain ⟨key, hkey, rfl⟩ := List.mem_map.mp ht
    exact .inr ⟨key, hkey, h⟩

theorem exists_toList_dotted {key : String} (h : Segment.Plain key) (path : List String) :
    ∃ c text, (dotted (key :: path)).toList = c :: text ∧ Segment.PlainChar c := by
  obtain ⟨c, cs, hc, hplain, -⟩ := h.exists_cons
  rw [toList_dotted, List.map_cons, hc]
  cases path with
  | nil => exact ⟨c, cs, by rw [List.map_nil, List.intercalate_singleton], hplain⟩
  | cons next path =>
    rw [List.map_cons, List.intercalate_cons_cons, List.append_assoc, List.cons_append]
    exact ⟨c, _, rfl, hplain⟩

/-! ### The segments of a plain path -/

theorem isPiece_of_plain {key : String} (h : Segment.Plain key) : IsPiece key.toList where
  nonempty := fun hnil => h.nonempty (String.toList_eq_nil_iff.mp hnil)
  dot := pass?_of_plain fun c hc => ⟨(h.chars c hc).quote, (h.chars c hc).dot⟩
  space := pass?_of_plain fun c hc => ⟨(h.chars c hc).quote, (h.chars c hc).space⟩

theorem parseSegments_plain (address : String) {path : List String}
    (h : ∀ key ∈ path, Segment.Plain key) :
    parseSegments address (path.map String.toList) = .ok (path.map .key) := by
  refine parseSegments_eq_ok_iff.mpr ⟨fun hempty => ?_, ?_⟩
  · obtain ⟨key, hkey, hnil⟩ := List.mem_map.mp (List.mem_of_mem_dropLast hempty)
    exact (isPiece_of_plain (h key hkey)).nonempty hnil
  · rw [List.forall₂_map_left_iff, List.forall₂_map_right_iff, List.forall₂_same]
    exact fun key hkey => Segment.parseChars_plain (h key hkey)

/-- **A plain path is no shorthand**, and its segments are its keys, whatever is remembered. -/
theorem ofName_dotted {path : List String} (hne : path ≠ []) (h : ∀ key ∈ path, Segment.Plain key)
    (remembered : List String) :
    ofName (dotted path) remembered = .ok ⟨dotted path, path.map .key⟩ := by
  have hpieces : ∀ p ∈ path.map String.toList, IsPiece p :=
    List.forall_mem_map.mpr fun key hkey => isPiece_of_plain (h key hkey)
  rw [ofName_pieces (toList_dotted path) (by simpa using hne) hpieces, parseSegments_plain _ h]
  rfl

end Address

end ScopedConfig
