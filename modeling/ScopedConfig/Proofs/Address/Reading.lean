import Mathlib.Data.List.Forall2
import ScopedConfig.Proofs.Address.Faults

/-!
# What an address that was read looks like

The marker of a new anonymous scope is an empty segment, and only the last segment of an address
may be empty. So of the segments that were read all but the last are free of it, and all of them
are when the address is not anonymous or has a target.

Key theorems: `Address.parseSegments_eq_ok_iff`, `Address.marker_not_mem_dropLast`,
`Address.marker_not_mem`, `Address.marker_not_mem_target`.
-/

namespace ScopedConfig

theorem Segment.ne_anonymous_of_parseChars {cs : List Char} {segment : Segment} (hne : cs ≠ [])
    (h : parseChars cs = .ok segment) : segment ≠ .anonymous := by
  unfold parseChars at h
  rw [if_neg hne] at h
  split at h
  · obtain rfl := Except.ok.inj h
    simp
  · split at h
    · simp at h
    · split at h
      · simp at h
      · obtain rfl := Except.ok.inj h
        simp

theorem Segment.eq_unquote_of_parseChars {cs : List Char} {key : String}
    (h : parseChars cs = .ok (.key key)) : key = String.ofList (Text.unquote cs) := by
  unfold parseChars at h
  split at h
  · simp at h
  · split at h
    · exact (Segment.key.inj (Except.ok.inj h)).symm
    · split at h
      · simp at h
      · split at h <;> simp at h

namespace Address

/-- A text is a local key if it is one piece without the blanks around it, and this piece is a
key. -/
theorem parseChars_of_localKey {text key : String} (h : localKey text = .ok key) :
    Segment.parseChars (Text.trim text.toList) = .ok (.key key) ∧
      (splitChars (Text.trim text.toList)).length = 1 := by
  unfold localKey at h
  simp only at h
  split at h
  · simp at h
  · rename_i hlocal
    obtain ⟨-, hone⟩ := not_or.mp hlocal
    split at h
    · rename_i k hread
      obtain rfl := Except.ok.inj h
      exact ⟨hread, Decidable.not_not.mp hone⟩
    · simp at h

/-- **Pieces are read one by one**, and only the last one may be empty. -/
theorem parseSegments_eq_ok_iff {address : String} :
    ∀ {pieces : List (List Char)} {segments : List Segment},
      parseSegments address pieces = .ok segments ↔
        [] ∉ pieces.dropLast ∧
          List.Forall₂ (fun piece segment => Segment.parseChars piece = .ok segment) pieces segments
  | [], segments => by
    rw [parseSegments, List.forall₂_nil_left_iff]
    simp [eq_comm]
  | [last], segments => by
    rw [parseSegments, List.forall₂_cons_left_iff]
    cases Segment.parseChars last with
    | error e => simp [Except.map]
    | ok segment => simp [Except.map, eq_comm]
  | piece :: next :: rest, segments => by
    have ih := @parseSegments_eq_ok_iff address (next :: rest)
    rw [parseSegments, List.forall₂_cons_left_iff, List.dropLast_cons_cons, List.mem_cons, not_or]
    by_cases hempty : piece = []
    · rw [if_pos hempty]
      simp [hempty]
    · rw [if_neg hempty]
      cases Segment.parseChars piece with
      | error e => simp
      | ok segment =>
        constructor
        · intro h
          obtain ⟨tail, htail, rfl⟩ := exists_of_map h
          obtain ⟨hinner, hread⟩ := ih.mp htail
          exact ⟨⟨Ne.symm hempty, hinner⟩, segment, tail, rfl, hread, rfl⟩
        · rintro ⟨⟨-, hinner⟩, segment', tail, hsegment, hread, rfl⟩
          obtain rfl := Except.ok.inj hsegment
          simp only [ih.mpr ⟨hinner, hread⟩]
          rfl

theorem exists_parseChars_of_mem {address : String} {pieces : List (List Char)}
    {segments : List Segment} (h : parseSegments address pieces = .ok segments) :
    ∀ piece ∈ pieces, ∃ segment, Segment.parseChars piece = .ok segment := by
  have hread := (parseSegments_eq_ok_iff.mp h).2
  clear h
  induction hread with
  | nil => exact List.forall_mem_nil _
  | cons hsegment _ ih => exact List.forall_mem_cons.mpr ⟨⟨_, hsegment⟩, ih⟩

theorem exists_piece_of_mem {address : String} {pieces : List (List Char)}
    {segments : List Segment} (h : parseSegments address pieces = .ok segments) :
    ∀ segment ∈ segments, ∃ piece ∈ pieces, Segment.parseChars piece = .ok segment := by
  have hread := (parseSegments_eq_ok_iff.mp h).2
  clear h
  induction hread with
  | nil => exact List.forall_mem_nil _
  | @cons piece segment pieces segments hsegment _ ih =>
    refine List.forall_mem_cons.mpr ⟨⟨piece, List.mem_cons_self .., hsegment⟩, fun t ht => ?_⟩
    obtain ⟨p, hp, hread⟩ := ih t ht
    exact ⟨p, List.mem_cons_of_mem piece hp, hread⟩

theorem ne_nil_of_parseSegments {address : String} {piece : List Char} {rest : List (List Char)}
    {segments : List Segment} (h : parseSegments address (piece :: rest) = .ok segments) :
    segments ≠ [] := by
  obtain ⟨-, hread⟩ := parseSegments_eq_ok_iff.mp h
  rintro rfl
  exact absurd hread (by simp)

theorem marker_not_mem_of_parseSegments {address : String} :
    ∀ {pieces : List (List Char)} {segments : List Segment},
      parseSegments address pieces = .ok segments → .anonymous ∉ segments.dropLast
  | [], _, h => by
    obtain rfl := Except.ok.inj h
    simp
  | [last], _, h => by
    obtain ⟨segment, -, rfl⟩ := exists_of_map h
    simp
  | piece :: next :: rest, _, h => by
    rw [parseSegments] at h
    split at h
    · simp at h
    · rename_i hne
      split at h
      · simp at h
      · rename_i segment hp
        obtain ⟨tail, hr, rfl⟩ := exists_of_map h
        have hsegment := Segment.ne_anonymous_of_parseChars hne hp
        rw [List.dropLast_cons_of_ne_nil (ne_nil_of_parseSegments hr), List.mem_cons]
        rintro (hm | hm)
        · exact hsegment hm.symm
        · exact marker_not_mem_of_parseSegments hr hm

variable {name : String} {remembered : List String} {a : Address}

theorem ofName_eq_ok_iff : ofName name remembered = .ok a ↔
    expand name remembered = .ok a.text ∧ parse a.text = .ok a.segments := by
  unfold ofName
  constructor
  · intro h
    split at h
    · simp at h
    · rename_i hexpand
      obtain ⟨segments, hsegments, rfl⟩ := exists_of_map h
      exact ⟨hexpand, hsegments⟩
  · rintro ⟨hexpand, hparse⟩
    simp only [hexpand, hparse]
    rfl

theorem parse_of_ofName (h : ofName name remembered = .ok a) : parse a.text = .ok a.segments :=
  (ofName_eq_ok_iff.mp h).2

/-- **Only the last segment of an address can be the marker.** -/
theorem marker_not_mem_dropLast (h : ofName name remembered = .ok a) :
    .anonymous ∉ a.segments.dropLast :=
  marker_not_mem_of_parseSegments (parse_of_ofName h)

theorem marker_not_mem (h : ofName name remembered = .ok a) (ha : a.isAnonymous = false) :
    .anonymous ∉ a.segments := by
  have hinit := marker_not_mem_dropLast h
  rcases List.eq_nil_or_concat a.segments with hnil | ⟨init, last, hlast⟩
  · simp [hnil]
  · rw [isAnonymous, hlast, List.concat_eq_append, List.getLast?_concat] at ha
    rw [hlast, List.concat_eq_append, List.dropLast_concat] at hinit
    rw [hlast, List.concat_eq_append, List.mem_append, List.mem_singleton, not_or]
    exact ⟨hinit, fun hm => by simp [← hm] at ha⟩

theorem isAnonymous_of_not_mem (h : .anonymous ∉ a.segments) : a.isAnonymous = false := by
  have hlast : a.segments.getLast? ≠ some .anonymous := fun hl => h (List.mem_of_getLast? hl)
  simp [isAnonymous, hlast]

theorem segments_of_target {segments : List Segment} {key : String}
    (ht : a.target = .ok (segments, key)) : a.segments = segments ++ [.key key] := by
  unfold target at ht
  split at ht
  · rename_i k hlast
    obtain ⟨rfl, rfl⟩ := Prod.mk.inj (Except.ok.inj ht)
    obtain ⟨init, hinit⟩ := List.getLast?_eq_some_iff.mp hlast
    rw [hinit, List.dropLast_concat]
  · simp at ht
  · simp at ht
  · simp at ht

theorem marker_not_mem_target (h : ofName name remembered = .ok a) {segments : List Segment}
    {key : String} (ht : a.target = .ok (segments, key)) : .anonymous ∉ segments := by
  have hinit := marker_not_mem_dropLast h
  rwa [segments_of_target ht, List.dropLast_concat] at hinit

end Address

end ScopedConfig
