import ScopedConfig.Proofs.Address.Faults
import ScopedConfig.Proofs.Text.Quote

/-!
# Names that are written out

A name that consists of pieces with dots between them, none of them empty or with a dot or a space
outside quotes, is no shorthand: whatever segments are remembered it is left as it is, and it is
cut into these pieces. So what it stands for is what the pieces are read as.

Key definitions: `Address.IsPiece`.
Key theorems: `Address.expandRest_append`, `Address.ofName_pieces`.
-/

namespace ScopedConfig.Address

open Text

/-- A text that stands in an address as one segment and in a name as it is. -/
structure IsPiece (cs : List Char) : Prop where
  nonempty : cs ≠ []
  dot : pass? '.' none cs = some none
  space : pass? ' ' none cs = some none

theorem IsPiece.exists_cons {cs : List Char} (h : IsPiece cs) :
    ∃ c rest, cs = c :: rest ∧ c ≠ '.' ∧ c ≠ ' ' := by
  obtain ⟨c, rest, rfl⟩ := List.exists_cons_of_ne_nil h.nonempty
  have hdot := (pass?_cons_iff.mp h.dot).1
  have hspace := (pass?_cons_iff.mp h.space).1
  exact ⟨c, rest, rfl, fun hc => hdot ⟨rfl, hc⟩, fun hc => hspace ⟨rfl, hc⟩⟩

variable {name : String}

/-- Behind a character that is neither a space nor a dot it makes no difference whether a dot stood
in front of it. -/
theorem expandRest_content {c : Char} (hdot : c ≠ '.') (hspace : c ≠ ' ') (afterDot : Bool)
    (cs : List Char) :
    expandRest name none afterDot (c :: cs) = expandRest name none false (c :: cs) := by
  rw [expandRest, if_neg hspace, if_neg hdot, expandRest, if_neg hspace, if_neg hdot]

/-- **A text without dots and spaces outside quotes stays as it is.** -/
theorem expandRest_append (rest : List Char) : ∀ {cs : List Char} {q q' q'' : Option Char},
    pass? '.' q cs = some q' → pass? ' ' q cs = some q'' →
      expandRest name q false (cs ++ rest) = (expandRest name q' false rest).map (cs ++ ·)
  | [], q, q', _, hdot, _ => by
    obtain rfl := Option.some.inj hdot
    exact (map_nil_append _).symm
  | c :: cs, q, q', q'', hdot, hspace => by
    obtain ⟨hnedot, hdot⟩ := pass?_cons_iff.mp hdot
    obtain ⟨hnespace, hspace⟩ := pass?_cons_iff.mp hspace
    have ih := expandRest_append rest hdot hspace
    have hstep : expandRest name q false (c :: cs ++ rest) =
        (expandRest name (quoteAfter q c) false (cs ++ rest)).map (c :: ·) := by
      rw [List.cons_append]
      cases q with
      | some p => rw [expandRest]
      | none =>
        rw [expandRest, if_neg fun hc => hnespace ⟨rfl, hc⟩, if_neg fun hc => hnedot ⟨rfl, hc⟩]
    rw [hstep, ih, map_map]
    rfl

theorem expandRest_piece {cs : List Char} (h : IsPiece cs) (afterDot : Bool) (rest : List Char) :
    expandRest name none afterDot (cs ++ rest) =
      (expandRest name none false rest).map (cs ++ ·) := by
  rw [← expandRest_append rest h.dot h.space]
  obtain ⟨c, cs, rfl, hdot, hspace⟩ := h.exists_cons
  exact expandRest_content hdot hspace afterDot (cs ++ rest)

theorem expandRest_intercalate : ∀ {pieces : List (List Char)}, (∀ p ∈ pieces, IsPiece p) →
    ∀ afterDot, expandRest name none afterDot (['.'].intercalate pieces) =
      .ok (['.'].intercalate pieces)
  | [], _, _ => rfl
  | [p], h, afterDot => by
    have hp : expandRest name none afterDot (p ++ []) = _ :=
      expandRest_piece (h p (List.mem_cons_self ..)) afterDot []
    rw [List.append_nil] at hp
    rw [List.intercalate_singleton, hp]
    simp [expandRest, Except.map]
  | p :: next :: pieces, h, afterDot => by
    have ih := expandRest_intercalate (fun t ht => h t (List.mem_cons_of_mem p ht)) true
    have hdot : ∀ cs, expandRest name none false ('.' :: cs) =
        (expandRest name none true cs).map ('.' :: ·) := fun cs => by
      rw [expandRest, if_neg (by decide), if_pos rfl, if_neg Bool.false_ne_true]
    rw [List.intercalate_cons_cons, List.append_assoc, List.singleton_append,
      expandRest_piece (h p (List.mem_cons_self ..)), hdot, ih]
    rfl

/-- **Pieces with dots between them are no shorthand**, and stand for what they are read as. -/
theorem ofName_pieces {pieces : List (List Char)}
    (hname : name.toList = ['.'].intercalate pieces) (hne : pieces ≠ [])
    (h : ∀ p ∈ pieces, IsPiece p) (remembered : List String) :
    ofName name remembered = (parseSegments name pieces).map (Address.mk name) := by
  have hrest : expandRest name none false name.toList = .ok name.toList := by
    rw [hname]
    exact expandRest_intercalate h false
  have hsplit : splitChars name.toList = pieces := by
    rw [splitChars, hname]
    exact splitOutside_intercalate hne fun p hp => (h p hp).dot
  have hfrom : expandFrom name remembered 0 name.toList = .ok name.toList := by
    obtain ⟨first, others, rfl⟩ := List.exists_cons_of_ne_nil hne
    obtain ⟨c, cs, rfl, hdot, hspace⟩ := (h first (List.mem_cons_self ..)).exists_cons
    obtain ⟨text, htext⟩ : ∃ text, name.toList = c :: text := by
      rw [hname]
      cases others with
      | nil => exact ⟨cs, List.intercalate_singleton⟩
      | cons next others => exact ⟨_, by rw [List.intercalate_cons_cons]; rfl⟩
    rw [htext] at hrest ⊢
    rw [expandFrom, if_neg hspace, if_neg hdot, hrest]
  rw [ofName, expand, hfrom]
  simp only [Except.map, String.ofList_toList, parse, hsplit]

end ScopedConfig.Address
