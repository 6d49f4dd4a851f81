import ScopedConfig.Proofs.Address.Grammar

/-!
# What becomes of the segments put into a name

A segment that a dot stands for is put into the address as it is remembered. If it leaves no quote
open and has no dot outside quotes, the scan that cuts the address into segments meets it as one
piece: it is neither cut nor joined to what stands next to it, and behind it the scan reads the
remainder of the name as if nothing stood in front.

If such segments are also not empty and have no space outside quotes, the address is no shorthand
any more. It begins with a character that is neither a dot nor a space, nowhere do two dots meet
outside quotes, and its quotes are those of the segments and of the remainder, so a second scan
leaves it as it is, whatever segments are remembered then.

Key definitions: `Address.substituted`, `Address.Settled`.
Key theorems: `Address.split_expand`, `Address.settled_pasted`, `Address.expand_expand`.
-/

namespace ScopedConfig.Address

open Text

variable {name text : String} {remembered : List String}

/-- The remembered segments that are put into an address for a name. -/
def substituted (name : String) (remembered : List String) : List String :=
  remembered.take (if remainder name = [] then dotCount name + 1 else dotCount name)

/-! ### Cutting -/

/-- **Segments are substituted whole.** An address is cut into the segments that were put into it,
as they are remembered, and those of the remainder of the name. -/
theorem split_expand (h : expand name remembered = .ok text)
    (closed : ∀ s ∈ substituted name remembered, pass? '.' none s.toList = some none) :
    split text =
      if remainder name = [] then remembered.take (dotCount name + 1)
      else remembered.take (dotCount name) ++ split (String.ofList (remainder name)) := by
  obtain ⟨-, tail, htail, htext⟩ := exists_of_expand h
  have hkept : ∀ segments : List String,
      (segments.map String.toList).map String.ofList = segments := fun segments => by
    simp [Function.comp_def]
  rw [split, htext]
  rcases ending_eq_ok htail with ⟨hempty, s, hs, rfl⟩ | ⟨hne, -, rfl⟩
  · -- the last segment is what the address ends in
    have htake : remembered.take (dotCount name + 1) = remembered.take (dotCount name) ++ [s] := by
      rw [List.take_add_one, hs, Option.toList_some]
    rw [substituted, if_pos hempty, htake, List.forall_mem_append, List.forall_mem_singleton]
      at closed
    rw [if_pos hempty, htake, splitChars_pasted _ closed.1, splitChars,
      splitOutside_of_pass? closed.2, List.map_append, hkept]
    simp
  · rw [substituted, if_neg hne] at closed
    rw [if_neg hne, splitChars_pasted _ closed, List.map_append, hkept, split, String.toList_ofList]

/-- A segment in quotes that holds a dot and one without quotes, in front of a remainder that leaves
a quote open. -/
theorem split_expand_quoted :
    expand ".. 'b. ' .'c.d" ["'x. y'", "z", "w"] = .ok "'x. y'.z.'b. '.'c.d" ∧
      split "'x. y'.z.'b. '.'c.d" = ["'x. y'", "z", "'b. '", "'c.d"] := by
  have hexpand : expand ".. 'b. ' .'c.d" ["'x. y'", "z", "w"] = .ok "'x. y'.z.'b. '.'c.d" := by
    decide
  exact ⟨hexpand, (split_expand hexpand (by decide)).trans (by decide)⟩

/-! ### Scanning again -/

/-- A text that a scan leaves as it is, in front of which a dot may stand. -/
structure Settled (cs : List Char) : Prop where
  head : ∃ c rest, cs = c :: rest ∧ c ≠ '.' ∧ c ≠ ' '
  kept : ∀ (name : String) (afterDot : Bool), expandRest name none afterDot cs = .ok cs

theorem IsPiece.settled {cs : List Char} (h : IsPiece cs) : Settled cs :=
  ⟨h.exists_cons, fun name afterDot => by
    have hpiece := @expandRest_piece name cs h afterDot []
    rwa [List.append_nil, expandRest, Except.map, List.append_nil] at hpiece⟩

/-- The remainder of a name has lost its spaces, and a name that is accepted has no two dots in a
row there. -/
theorem settled_remainder (hne : remainder name ≠ [])
    (hsingle : ¬Doubled '.' none (remainder name)) : Settled (remainder name) := by
  obtain ⟨-, hrest⟩ := dotCount_remainder_eq name
  rcases dropOutside_behindDots name.toList with ⟨-, hnil⟩ | ⟨c, -, rest, -, hdot, hspace, hcons⟩
  · exact absurd (hrest.trans hnil) hne
  · have hdrop : dropOutside ' ' none (remainder name) = remainder name := by
      rw [hrest, dropOutside_dropOutside]
    rw [← hrest] at hcons
    refine ⟨⟨c, rest, hcons, hdot, hspace⟩, fun name' afterDot => ?_⟩
    rw [hcons, expandRest_content hdot hspace, ← hcons, expandRest_eq name' _ (by simp), hdrop,
      if_neg (by simpa using hsingle)]

/-- **A settled text is settled behind a piece and a dot.** -/
theorem IsPiece.settled_append {cs tail : List Char} (h : IsPiece cs) (htail : Settled tail) :
    Settled (cs ++ '.' :: tail) := by
  constructor
  · obtain ⟨c, rest, rfl, hdot, hspace⟩ := h.exists_cons
    exact ⟨c, rest ++ '.' :: tail, rfl, hdot, hspace⟩
  · intro name afterDot
    rw [expandRest_piece h, expandRest, if_neg (by decide), if_pos rfl, if_neg Bool.false_ne_true,
      htail.kept]
    rfl

theorem settled_pasted {tail : List Char} (htail : Settled tail) : ∀ {segments : List String},
    (∀ s ∈ segments, IsPiece s.toList) → Settled (pasted segments ++ tail)
  | [], _ => htail
  | s :: segments, h => by
    obtain ⟨hs, h⟩ := List.forall_mem_cons.mp h
    have ih := hs.settled_append (settled_pasted htail h)
    simpa [pasted] using ih

theorem expand_of_settled (h : Settled text.toList) (remembered : List String) :
    expand text remembered = .ok text := by
  obtain ⟨c, rest, hcons, hdot, hspace⟩ := h.head
  have hkept := h.kept text false
  rw [hcons] at hkept
  rw [expand, hcons, expandFrom, if_neg hspace, if_neg hdot, hkept, ← hcons]
  exact congrArg Except.ok String.ofList_toList

/-- **What a name stands for is no shorthand**: as a name it stands for itself, whatever is
remembered. -/
theorem expand_expand (h : expand name remembered = .ok text)
    (pieces : ∀ s ∈ substituted name remembered, IsPiece s.toList) (remembered' : List String) :
    expand text remembered' = .ok text := by
  obtain ⟨-, tail, htail, htext⟩ := exists_of_expand h
  refine expand_of_settled ?_ remembered'
  rw [htext]
  rcases ending_eq_ok htail with ⟨hempty, s, hs, rfl⟩ | ⟨hne, hsingle, rfl⟩
  · rw [substituted, if_pos hempty, List.take_add_one, hs, Option.toList_some,
      List.forall_mem_append, List.forall_mem_singleton] at pieces
    exact settled_pasted pieces.2.settled pieces.1
  · rw [substituted, if_neg hne] at pieces
    exact settled_pasted (settled_remainder hne hsingle) pieces

/-- A segment in quotes, in front of a quote that is left open. -/
theorem expand_expand_quoted :
    expand " .b . 'c. ..d" ["'x. y'"] = .ok "'x. y'.b.'c. ..d" ∧
      expand "'x. y'.b.'c. ..d" ["u", "v"] = .ok "'x. y'.b.'c. ..d" := by
  have hexpand : expand " .b . 'c. ..d" ["'x. y'"] = .ok "'x. y'.b.'c. ..d" := by decide
  have hpiece : IsPiece "'x. y'".toList := ⟨by decide, by decide, by decide⟩
  exact ⟨hexpand, expand_expand hexpand (List.forall_mem_singleton.mpr hpiece) ["u", "v"]⟩

end ScopedConfig.Address
