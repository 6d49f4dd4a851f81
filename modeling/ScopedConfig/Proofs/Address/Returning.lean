import ScopedConfig.Proofs.Address.Grammar

/-!
# Names and the segments of their own address

What is remembered of an address are the texts of the segments that lead to its scope; the marker of
a new anonymous scope is left out. The dots of the next name take these segments.

Dots alone, one less than there are segments, stand for all of them. They are joined with dots and
cut apart again at these, because none but the last leaves a quote open, so the name leads to the
scope that the address led to.

The name that the address was read of stands for it once more. Its dots took segments that leave no
quote open, and these are the first segments of the address, so its dots find at their places what
they found before.

Key definitions: `Address.scopeSegments`, `Address.dots`.
Key theorems: `Address.forall₂_remembered`, `Address.exists_ofName_dots`, `Address.ofName_again`.
-/

namespace ScopedConfig.Address

open Text

variable {name : String} {remembered : List String} {a : Address}

/-! ### What is remembered of an address -/

/-- The segments that lead to the scope of an address: the one it names, or the one that it opens an
anonymous scope in. -/
def scopeSegments (a : Address) : List Segment :=
  if a.isAnonymous then a.segments.dropLast else a.segments

theorem marker_not_mem_scopeSegments (h : ofName name remembered = .ok a) :
    .anonymous ∉ a.scopeSegments := by
  unfold scopeSegments
  by_cases ha : a.isAnonymous = true
  · rw [if_pos ha]
    exact marker_not_mem_dropLast h
  · rw [if_neg ha]
    exact marker_not_mem h (by simpa using ha)

/-- The marker is what an empty text is read as, and nothing else is. -/
theorem eq_nil_iff_of_parseChars {cs : List Char} {segment : Segment}
    (h : Segment.parseChars cs = .ok segment) : cs = [] ↔ segment = .anonymous := by
  constructor
  · rintro rfl
    exact (Except.ok.inj h).symm
  · rintro rfl
    by_cases hcs : cs = []
    · exact hcs
    · exact absurd rfl (Segment.ne_anonymous_of_parseChars hcs h)

theorem forall₂_split (h : ofName name remembered = .ok a) :
    List.Forall₂ (fun s segment => Segment.parse s = .ok segment) (split a.text) a.segments := by
  have hread := (parseSegments_eq_ok_iff.mp (parse_of_ofName h)).2
  rw [split, List.forall₂_map_left_iff]
  simpa [Segment.parse] using hread

theorem getLast?_split_eq_empty_iff (h : ofName name remembered = .ok a) :
    (split a.text).getLast? = some "" ↔ a.isAnonymous = true := by
  have hends := List.forall₂_reverse_iff.mpr (forall₂_split h)
  rw [isAnonymous, beq_iff_eq, ← List.head?_reverse, ← List.head?_reverse]
  generalize (split a.text).reverse = texts, a.segments.reverse = segments at hends
  cases hends with
  | nil => simp
  | cons hlast _ => simpa using eq_nil_iff_of_parseChars hlast

/-- **What is remembered of an address are the texts of the segments that lead to its scope.** -/
theorem forall₂_remembered (h : ofName name remembered = .ok a) :
    List.Forall₂ (fun s segment => Segment.parse s = .ok segment) (Address.remembered a.text)
      a.scopeSegments := by
  have hread := forall₂_split h
  have hmarker := getLast?_split_eq_empty_iff h
  rw [Address.remembered, scopeSegments]
  by_cases ha : a.isAnonymous = true
  · rw [if_pos (hmarker.mpr ha), if_pos ha, List.dropLast_eq_take, List.dropLast_eq_take,
      hread.length_eq]
    exact List.forall₂_take _ hread
  · rw [if_neg fun hlast => ha (hmarker.mp hlast), if_neg ha]
    exact hread

/-! ### Dots alone -/

/-- The name made of a number of dots. -/
def dots (n : Nat) : String :=
  String.ofList (List.replicate n '.')

theorem dotCount_dots (n : Nat) : dotCount (dots n) = n ∧ remainder (dots n) = [] := by
  have hlead : ∀ c ∈ List.replicate n '.', isLead c = true := fun c hc => by
    rw [List.eq_of_mem_replicate hc]
    rfl
  obtain ⟨hcount, hrest⟩ := dotCount_remainder_eq (dots n)
  rw [dots, String.toList_ofList] at hcount hrest
  constructor
  · rw [dots, hcount, leadingDots, List.takeWhile_eq_self_iff.mpr hlead, List.count_replicate_self]
  · rw [dots, hrest, behindDots, List.dropWhile_eq_nil_iff.mpr hlead]
    rfl

/-- **Dots alone stand for all remembered segments**, if there is one dot less than there are
segments. -/
theorem exists_ofName_dots {segments : List Segment} (h : Retained remembered)
    (hread : List.Forall₂ (fun s segment => Segment.parse s = .ok segment) remembered segments)
    (hne : remembered ≠ []) :
    ∃ b, ofName (dots (remembered.length - 1)) remembered = .ok b ∧ b.segments = segments := by
  obtain ⟨init, last, rfl⟩ := (List.eq_nil_or_concat' remembered).resolve_left hne
  obtain ⟨hcount, hrest⟩ := dotCount_dots init.length
  have hclosed : ∀ s ∈ init, pass? '.' none s.toList = some none := fun s hs =>
    h.closed s (by rwa [List.dropLast_concat])
  obtain ⟨q, hq⟩ := h.last last List.getLast?_concat
  have hexpand : expand (dots init.length) (init ++ [last]) =
      .ok (String.ofList (pasted init ++ last.toList)) := by
    rw [expand_eq_map_ending (by simp [hcount]), ending, if_pos hrest, slot, hcount,
      List.getElem?_concat_length, List.take_left]
    rfl
  have hpieces : splitChars (pasted init ++ last.toList) = (init ++ [last]).map String.toList := by
    rw [splitChars_pasted _ hclosed, splitChars, splitOutside_of_pass? hq, List.map_append]
    rfl
  have hparse : parse (String.ofList (pasted init ++ last.toList)) = .ok segments := by
    rw [parse, String.toList_ofList, hpieces]
    refine parseSegments_eq_ok_iff.mpr ⟨fun hm => ?_, List.forall₂_map_left_iff.mpr hread⟩
    obtain ⟨s, hs, hnil⟩ := List.mem_map.mp (List.mem_of_mem_dropLast hm)
    exact h.nonempty s hs hnil
  rw [List.length_append, List.length_singleton, Nat.add_sub_cancel]
  exact ⟨⟨_, segments⟩, ofName_eq_ok_iff.mpr ⟨hexpand, hparse⟩, rfl⟩

/-! ### The same name -/

/-- **A name stands for its address once more when this address is remembered**, if the segments
that were remembered before leave no quote open. -/
theorem ofName_again (h : ofName name remembered = .ok a) (ha : a.isAnonymous = false)
    (closed : ∀ s ∈ remembered, pass? '.' none s.toList = some none) :
    ofName name (Address.remembered a.text) = .ok a := by
  obtain ⟨hexpand, hparse⟩ := ofName_eq_ok_iff.mp h
  obtain ⟨hle, tail, htail, htext⟩ := exists_of_expand hexpand
  have hlength : (remembered.take (dotCount name)).length = dotCount name :=
    List.length_take_of_le hle
  have hremembered : Address.remembered a.text = split a.text :=
    if_neg fun hlast => by simp [(getLast?_split_eq_empty_iff h).mp hlast] at ha
  -- the first segments of the address are those that the dots took
  have hsplit : split a.text =
      remembered.take (dotCount name) ++ (splitChars tail).map String.ofList := by
    rw [split, htext, splitChars_pasted tail fun s hs => closed s (List.mem_of_mem_take hs),
      List.map_append, List.map_map]
    simp [Function.comp_def]
  have htake : (split a.text).take (dotCount name) = remembered.take (dotCount name) := by
    rw [hsplit, List.take_append_of_le_length (by omega), List.take_take, Nat.min_self]
  have hle' : dotCount name ≤ (split a.text).length := by
    rw [hsplit, List.length_append]
    omega
  have hending : ending name (split a.text) = .ok tail := by
    rcases ending_eq_ok htail with ⟨hempty, s, hs, rfl⟩ | ⟨hne, hsingle, rfl⟩
    · -- the segment behind the last dot is one piece, so it stands at its place again
      have hpiece := splitOutside_of_pass? (closed s (List.mem_of_getElem? hs))
      rw [splitChars, hpiece] at hsplit
      rw [ending, if_pos hempty, slot, hsplit, List.getElem?_append_right (by omega), hlength,
        Nat.sub_self]
      simp
    · rw [ending, if_neg hne, if_neg hsingle]
  refine ofName_eq_ok_iff.mpr ⟨?_, hparse⟩
  rw [hremembered, expand_eq_map_ending hle', hending, htake]
  show Except.ok (String.ofList (pasted (remembered.take (dotCount name)) ++ tail)) = _
  rw [← htext, String.ofList_toList]

end ScopedConfig.Address
