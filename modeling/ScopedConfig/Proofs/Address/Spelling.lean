import ScopedConfig.Proofs.Address.Reading
import ScopedConfig.Proofs.Text.Blank
import ScopedConfig.Proofs.Text.Quote
import ScopedConfig.Workspace.Assign

/-!
# The characters of addresses

To expand a name is to copy it, without some of its spaces and with remembered segments in front of
its leading dots. To read an address is to cut it and to take quotes away. Neither brings in a
character, so the characters of a segment that is remembered, and those of a key that is to be
written under, come from the name that was given or from segments that were remembered before.

Key theorems: `Address.mem_text_of_ofName`, `Address.mem_of_mem_remembered`,
`Address.mem_text_of_mem_key`, `Address.mem_of_mem_localKey`.
-/

namespace ScopedConfig

open Text

/-! ### Keys -/

theorem Segment.mem_of_mem_key {cs : List Char} {key : String} {d : Char}
    (h : parseChars cs = .ok (.key key)) (hd : d ∈ key.toList) : d ∈ cs := by
  rw [eq_unquote_of_parseChars h, String.toList_ofList] at hd
  exact mem_of_mem_unquote hd

namespace Address

variable {name : String} {remembered : List String} {a : Address} {d : Char}

theorem mem_of_mem_localKey {text key : String} (h : localKey text = .ok key)
    (hd : d ∈ key.toList) : d ∈ text.toList :=
  mem_of_mem_trim (Segment.mem_of_mem_key (parseChars_of_localKey h).1 hd)

/-! ### Expanded names -/

theorem mem_expandRest : ∀ {cs text : List Char} {q : Option Char} {afterDot : Bool},
    expandRest name q afterDot cs = .ok text → d ∈ text → d ∈ cs
  | [], text, none, _, h, hd => by
    rw [expandRest] at h
    rwa [← Except.ok.inj h] at hd
  | [], text, some _, _, h, hd => by
    rw [expandRest] at h
    rwa [← Except.ok.inj h] at hd
  | c :: cs, text, some q, _, h, hd => by
    rw [expandRest] at h
    obtain ⟨rest, hrest, rfl⟩ := exists_of_map h
    exact List.mem_cons.mpr ((List.mem_cons.mp hd).imp_right (mem_expandRest hrest))
  | c :: cs, text, none, afterDot, h, hd => by
    rw [expandRest] at h
    by_cases hspace : c = ' '
    · rw [if_pos hspace] at h
      exact List.mem_cons_of_mem c (mem_expandRest h hd)
    · rw [if_neg hspace] at h
      by_cases hdot : c = '.'
      · rw [if_pos hdot] at h
        cases afterDot with
        | true => simp at h
        | false =>
          rw [if_neg Bool.false_ne_true] at h
          obtain ⟨rest, hrest, rfl⟩ := exists_of_map h
          rw [hdot]
          exact List.mem_cons.mpr ((List.mem_cons.mp hd).imp_right (mem_expandRest hrest))
      · rw [if_neg hdot] at h
        obtain ⟨rest, hrest, rfl⟩ := exists_of_map h
        exact List.mem_cons.mpr ((List.mem_cons.mp hd).imp_right (mem_expandRest hrest))

theorem mem_slot {position : Nat} {text : List Char}
    (h : slot name remembered position = .ok text) (hd : d ∈ text) :
    ∃ s ∈ remembered, d ∈ s.toList := by
  unfold slot at h
  split at h
  · rename_i s hs
    obtain rfl := Except.ok.inj h
    exact ⟨s, List.mem_of_getElem? hs, hd⟩
  · simp at h

theorem mem_expandFrom : ∀ {cs text : List Char} {dots : Nat},
    expandFrom name remembered dots cs = .ok text → d ∈ text →
      d ∈ cs ∨ ∃ s ∈ remembered, d ∈ s.toList
  | [], _, _, h, hd => .inr (mem_slot h hd)
  | c :: cs, text, dots, h, hd => by
    have hbehind : d ∈ cs ∨ (∃ s ∈ remembered, d ∈ s.toList) →
        d ∈ c :: cs ∨ ∃ s ∈ remembered, d ∈ s.toList := Or.imp_left (List.mem_cons_of_mem c)
    rw [expandFrom] at h
    by_cases hspace : c = ' '
    · rw [if_pos hspace] at h
      exact hbehind (mem_expandFrom h hd)
    · rw [if_neg hspace] at h
      by_cases hdot : c = '.'
      · rw [if_pos hdot] at h
        cases hslot : slot name remembered dots with
        | error e => simp [hslot] at h
        | ok segment =>
          simp only [hslot] at h
          obtain ⟨rest, hrest, rfl⟩ := exists_of_map h
          rcases List.mem_append.mp hd with hd | hd
          · exact .inr (mem_slot hslot hd)
          · rcases List.mem_cons.mp hd with rfl | hd
            · exact .inl (hdot ▸ List.mem_cons_self ..)
            · exact hbehind (mem_expandFrom hrest hd)
      · rw [if_neg hdot] at h
        exact .inl (mem_expandRest h hd)

/-- **An address is spelled with the characters of its name and of what was remembered.** -/
theorem mem_text_of_ofName (h : ofName name remembered = .ok a) (hd : d ∈ a.text.toList) :
    d ∈ name.toList ∨ ∃ s ∈ remembered, d ∈ s.toList := by
  unfold ofName expand at h
  split at h
  · simp at h
  · rename_i text hexpand
    obtain ⟨segments, -, rfl⟩ := exists_of_map h
    obtain ⟨chars, hchars, rfl⟩ := exists_of_map hexpand
    rw [String.toList_ofList] at hd
    exact mem_expandFrom hchars hd

/-! ### Segments -/

theorem mem_of_mem_remembered {text s : String} (hs : s ∈ Address.remembered text)
    (hd : d ∈ s.toList) : d ∈ text.toList := by
  have hsplit : s ∈ split text := by
    unfold Address.remembered at hs
    simp only at hs
    split at hs
    · exact (List.dropLast_sublist _).subset hs
    · exact hs
  obtain ⟨piece, hpiece, rfl⟩ := List.mem_map.mp hsplit
  rw [String.toList_ofList] at hd
  exact mem_of_mem_splitOutside hpiece hd

/-- **The characters of a key in an address stand in the address.** -/
theorem mem_text_of_mem_key {key : String} (h : ofName name remembered = .ok a)
    (hkey : .key key ∈ a.segments) (hd : d ∈ key.toList) : d ∈ a.text.toList := by
  obtain ⟨piece, hpiece, hread⟩ := exists_piece_of_mem (parse_of_ofName h) (.key key) hkey
  exact mem_of_mem_splitOutside hpiece (Segment.mem_of_mem_key hread hd)

end Address

end ScopedConfig
