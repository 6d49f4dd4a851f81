import ScopedConfig.Workspace.Assign

/-!
# What can be wrong with a name

A name is refused for what it says, never for what the scopes are: whatever goes wrong while a name
is expanded, cut into segments and read is malformed, and so is what keeps an address from being
the target of a value or a text from being a local key.

Key theorems: `Address.code_of_parseSegments`, `Address.kind_of_ofName`, `Address.kind_of_target`,
`Address.kind_of_localKey`.
-/

namespace ScopedConfig

theorem eq_error_of_map {α β : Type} {f : α → β} {e : Fault} {x : Except Fault α}
    (h : x.map f = .error e) : x = .error e := by
  cases x with
  | error e' => exact congrArg _ (Except.error.inj h)
  | ok a => simp [Except.map] at h

theorem exists_of_map {α β : Type} {f : α → β} {y : β} {x : Except Fault α}
    (h : x.map f = .ok y) : ∃ a, x = .ok a ∧ f a = y := by
  cases x with
  | error e => simp [Except.map] at h
  | ok a => exact ⟨a, rfl, Except.ok.inj h⟩

theorem map_map {α β γ : Type} (f : α → β) (g : β → γ) (x : Except Fault α) :
    (x.map f).map g = x.map fun a => g (f a) := by
  cases x <;> rfl

theorem map_nil_append (x : Except Fault (List Char)) : x.map ([] ++ ·) = x := by
  cases x <;> rfl

namespace Segment

theorem code_of_parseChars {cs : List Char} {e : Fault} (h : parseChars cs = .error e) :
    e.code = .nameIndexSyntax ∨ e.code = .nameIndexInvalid := by
  unfold parseChars at h
  split at h
  · simp at h
  · split at h
    · simp at h
    · split at h
      · obtain rfl := Except.error.inj h
        exact .inl rfl
      · split at h
        · obtain rfl := Except.error.inj h
          exact .inr rfl
        · simp at h

end Segment

namespace Address

theorem code_of_slot {name : String} {remembered : List String} {position : Nat} {e : Fault}
    (h : slot name remembered position = .error e) : e.code = .nameTooManyDots := by
  unfold slot at h
  split at h
  · simp at h
  · obtain rfl := Except.error.inj h
    rfl

theorem code_of_expandRest {name : String} {e : Fault} :
    ∀ {cs : List Char} {quote : Option Char} {afterDot : Bool},
      expandRest name quote afterDot cs = .error e → e.code = .nameMisplacedDot
  | [], none, _, h => by simp [expandRest] at h
  | [], some _, _, h => by simp [expandRest] at h
  | c :: cs, some q, _, h => by
    rw [expandRest] at h
    exact code_of_expandRest (eq_error_of_map h)
  | c :: cs, none, afterDot, h => by
    rw [expandRest] at h
    split at h
    · exact code_of_expandRest h
    · split at h
      · split at h
        · obtain rfl := Except.error.inj h
          rfl
        · exact code_of_expandRest (eq_error_of_map h)
      · exact code_of_expandRest (eq_error_of_map h)

theorem code_of_expandFrom {name : String} {remembered : List String} {e : Fault} :
    ∀ {cs : List Char} {dots : Nat}, expandFrom name remembered dots cs = .error e →
      e.code = .nameTooManyDots ∨ e.code = .nameMisplacedDot
  | [], _, h => .inl (code_of_slot h)
  | c :: cs, dots, h => by
    rw [expandFrom] at h
    split at h
    · exact code_of_expandFrom h
    · split at h
      · split at h
        · rename_i e' hs
          obtain rfl := Except.error.inj h
          exact .inl (code_of_slot hs)
        · exact code_of_expandFrom (eq_error_of_map h)
      · exact .inr (code_of_expandRest h)

/-- Pieces are refused for a piece that is empty and not the last, or for a piece that is no
segment. -/
theorem code_of_parseSegments {address : String} {e : Fault} :
    ∀ {pieces : List (List Char)}, parseSegments address pieces = .error e →
      e.code = .nameEmptySegment ∧ [] ∈ pieces.dropLast ∨
        e.code = .nameIndexSyntax ∨ e.code = .nameIndexInvalid
  | [], h => by simp [parseSegments] at h
  | [last], h => .inr (Segment.code_of_parseChars (eq_error_of_map h))
  | piece :: next :: rest, h => by
    rw [parseSegments] at h
    split at h
    · rename_i hempty
      obtain rfl := Except.error.inj h
      exact .inl ⟨rfl, by rw [hempty, List.dropLast_cons_cons]; exact List.mem_cons_self ..⟩
    · split at h
      · rename_i e' hp
        obtain rfl := Except.error.inj h
        exact .inr (Segment.code_of_parseChars hp)
      · refine (code_of_parseSegments (eq_error_of_map h)).imp_left fun ⟨hcode, hm⟩ => ⟨hcode, ?_⟩
        rw [List.dropLast_cons_cons]
        exact List.mem_cons_of_mem piece hm

/-- **A name is refused for what it says.** -/
theorem kind_of_ofName {name : String} {remembered : List String} {e : Fault}
    (h : ofName name remembered = .error e) : e.kind = .malformed := by
  unfold ofName at h
  split at h
  · rename_i e' hx
    obtain rfl := Except.error.inj h
    rcases code_of_expandFrom (eq_error_of_map hx) with hc | hc <;> rw [Fault.kind, hc] <;> rfl
  · rcases code_of_parseSegments (eq_error_of_map h) with ⟨hc, -⟩ | hc | hc <;>
      rw [Fault.kind, hc] <;> rfl

theorem code_of_target {a : Address} {e : Fault} (h : a.target = .error e) :
    e.code = .nameIndexTarget ∨ e.code = .nameAnonymousTarget := by
  unfold target at h
  split at h
  · simp at h
  · exact .inl (Except.error.inj h ▸ rfl)
  · exact .inr (Except.error.inj h ▸ rfl)
  · exact .inr (Except.error.inj h ▸ rfl)

theorem kind_of_target {a : Address} {e : Fault} (h : a.target = .error e) :
    e.kind = .malformed := by
  rcases code_of_target h with hc | hc <;> rw [Fault.kind, hc] <;> rfl

theorem code_of_localKey {text : String} {e : Fault} (h : localKey text = .error e) :
    e.code = .nameLocalKey := by
  unfold localKey at h
  simp only at h
  split at h
  · exact Except.error.inj h ▸ rfl
  · split at h
    · simp at h
    · exact Except.error.inj h ▸ rfl

theorem kind_of_localKey {text : String} {e : Fault} (h : localKey text = .error e) :
    e.kind = .malformed := by
  rw [Fault.kind, code_of_localKey h]
  rfl

end Address

end ScopedConfig
