import ScopedConfig.Proofs.Address.Stretch
import ScopedConfig.Proofs.Arena.Refusing
import ScopedConfig.Proofs.Number.Reading
import ScopedConfig.Proofs.Table

/-!
# The keys of an arena

A key comes into an arena by a write alone, and a walk writes under no other keys than its segments
name. So the keys that are added between two arenas are followed as a relation: what is neither
there before nor named does not come in. A scope is described with keys of the arena, and otherwise
with quotes, dots, brackets and digits.

Key definitions: `Arena.HasKey`, `Arena.AddsKeys`, `Arena.describeAlphabet`.
Key theorems: `Arena.Sound.addsKeys_walk`, `Arena.mem_describe`.
-/

namespace ScopedConfig

variable {V : Type}

namespace Arena

/-- Some scope has an entry under the key. -/
def HasKey (a : Arena V) (key : String) : Prop :=
  ∃ (id : ScopeId) (s : Scope V), a.scopes[id]? = some s ∧ key ∈ s.entries.keys

/-- The keys that are new are among these. -/
def AddsKeys (a b : Arena V) (named : String → Prop) : Prop :=
  ∀ key, b.HasKey key → a.HasKey key ∨ named key

variable {a b c : Arena V} {named : String → Prop}

theorem not_hasKey_ofPolicy (policy : Policy) (key : String) :
    ¬(ofPolicy policy : Arena V).HasKey key := by
  rintro ⟨id, s, hs, hkey⟩
  have hmem : s ∈ (ofPolicy policy : Arena V).scopes := Array.mem_of_getElem? hs
  obtain rfl := Array.mem_singleton.mp hmem
  exact absurd hkey List.not_mem_nil

/-! ### What adds keys -/

namespace AddsKeys

theorem refl (a : Arena V) : a.AddsKeys a named :=
  fun _ => .inl

theorem trans (h : a.AddsKeys b named) (h' : b.AddsKeys c named) : a.AddsKeys c named :=
  fun key hkey => (h' key hkey).elim (h key) .inr

theorem of_extend (a : Arena V) (parent : ScopeId) : a.AddsKeys (a.extend parent) named := by
  rintro key ⟨id, s, hs, hkey⟩
  rw [getElem?_extend] at hs
  by_cases hid : id = a.size
  · rw [if_pos hid] at hs
    obtain rfl := Option.some.inj hs
    exact absurd hkey List.not_mem_nil
  · rw [if_neg hid] at hs
    exact .inl ⟨id, s, hs, hkey⟩

theorem of_update (a : Arena V) (id : ScopeId) {f : Scope V → Scope V}
    (hf : ∀ s, ∀ key ∈ (f s).entries.keys, key ∈ s.entries.keys ∨ named key) :
    a.AddsKeys (a.update id f) named := by
  rintro key ⟨other, s, hs, hkey⟩
  rw [getElem?_update] at hs
  by_cases hid : id = other
  · rw [if_pos hid] at hs
    obtain ⟨t, ht, rfl⟩ := Option.map_eq_some_iff.mp hs
    exact (hf t key hkey).imp_left fun hmem => ⟨other, t, ht, hmem⟩
  · rw [if_neg hid] at hs
    exact .inl ⟨other, s, hs, hkey⟩

theorem of_put (a : Arena V) (id : ScopeId) {key : String} (entry : Entry V) (hkey : named key) :
    a.AddsKeys (a.update id (·.put key entry)) named := by
  refine of_update a id fun s other hother => ?_
  rcases (Table.mem_keys_insert key other entry s.entries).mp hother with rfl | hmem
  · exact .inr hkey
  · exact .inl hmem

theorem of_sprout (a : Arena V) (id : ScopeId) {key : String} (hkey : named key) :
    a.AddsKeys (a.sprout id key) named :=
  (of_extend a id).trans (of_put (a.extend id) id _ hkey)

theorem of_write {id : ScopeId} {key : String} {v : V} (hw : a.write id key v = .ok b)
    (hkey : named key) : a.AddsKeys b named := by
  rw [eq_of_write hw]
  exact of_put a id _ hkey

theorem of_setPolicy {id : ScopeId} {policy : Policy} (hw : a.setPolicy id policy = .ok b) :
    a.AddsKeys b named := by
  rw [eq_of_setPolicy hw]
  exact of_update a id fun _ _ => .inl

end AddsKeys

/-- **A walk adds the keys that its segments name.** The induction is on the segments: where a scope
is created, it is put under the key of the segment. -/
theorem Sound.addsKeys_walk : ∀ {segments : List Segment} {a : Arena V} {id : ScopeId}
    {s : Scope V}, a.Sound → a.scopes[id]? = some s →
      (∀ key, .key key ∈ segments → named key) → a.AddsKeys (a.walk id segments).2 named
  | [], a, _, _, _, _, _ => .refl a
  | segment :: rest, a, id, s, h, hs, hnamed => by
    have hrest : ∀ key, .key key ∈ rest → named key := fun key hkey =>
      hnamed key (List.mem_cons_of_mem segment hkey)
    have hx := h.entering hs segment
    rw [walk]
    generalize a.enter id segment = x at hx ⊢
    cases hx with
    | found path =>
      obtain ⟨t, ht⟩ := h.exists_of_follow ⟨s, hs⟩ path
      exact addsKeys_walk h ht hrest
    | @created t key scope allowed noScope =>
      have hkey : named key := hnamed key (List.mem_cons_self ..)
      exact (AddsKeys.of_sprout a id hkey).trans
        (addsKeys_walk (h.sprout scope key) (getElem?_sprout_self key scope) hrest)
    | refused => exact .refl a

/-! ### What a scope is described with -/

theorem hasKey_of_climb {key : String} : ∀ {rounds id : Nat} {path path' : List Step},
    a.climb rounds id path = .root path' → .key key ∈ path' → .key key ∈ path ∨ a.HasKey key
  | 0, _, _, _, h, _ => by simp [climb] at h
  | rounds + 1, id, path, path', h, hkey => by
    rw [climb] at h
    split at h
    · simp at h
    · split at h
      · obtain rfl := Climb.root.inj h
        exact .inl hkey
      · rename_i parent hparent
        split at h
        · simp at h
        · rename_i step hstep
          rcases hasKey_of_climb h hkey with hmem | hkey
          · rcases List.mem_cons.mp hmem with rfl | hmem
            · -- the key that the parent holds the scope under
              obtain ⟨s, hs, hstep⟩ := Option.bind_eq_some_iff.mp hstep
              unfold Scope.stepTo? at hstep
              split at hstep
              · rename_i first hfirst
                obtain rfl := Step.key.inj (Option.some.inj hstep)
                obtain ⟨entry, hentry, -⟩ := Table.exists_of_firstKey? hfirst
                exact .inr ⟨parent, s, hs, List.mem_map_of_mem hentry⟩
              · simp at hstep
            · exact .inl hmem
          · exact .inr hkey

/-- The characters that a scope is described with besides its keys. -/
def describeAlphabet : List Char :=
  ['.', '\'', '"', '[', ']'] ++ Number.intAlphabet ++ "<detached>".toList

theorem mem_keyText {d : Char} {key : List Char} (h : d ∈ keyText key) :
    d ∈ describeAlphabet ∨ d ∈ key := by
  have hquoted : ∀ q ∈ describeAlphabet, d ∈ q :: key ++ [q] → d ∈ describeAlphabet ∨ d ∈ key := by
    intro q hq hd
    rw [List.cons_append, List.mem_cons, List.mem_append, List.mem_singleton] at hd
    rcases hd with rfl | hd | rfl
    · exact .inl hq
    · exact .inr hd
    · exact .inl hq
  unfold keyText at h
  split at h
  · split at h
    · exact hquoted '"' (by decide) h
    · exact hquoted '\'' (by decide) h
  · exact .inr h

theorem mem_describeAlphabet_of_mem_indexText {d : Char} {i : Nat} (h : d ∈ indexText i) :
    d ∈ describeAlphabet := by
  rcases mem_indexText h with rfl | rfl | hdigit
  · decide
  · decide
  · have hint : d ∈ Number.intAlphabet := Number.mem_intAlphabet_of_isDigit hdigit
    exact List.mem_append_left _ (List.mem_append_right _ hint)

theorem mem_appendTo {d : Char} {address : List Char} {step : Step}
    (h : d ∈ step.appendTo address) :
    d ∈ address ∨ d ∈ describeAlphabet ∨ ∃ key, step = .key key ∧ d ∈ key.toList := by
  cases step with
  | index i =>
    rw [Step.appendTo, List.append_assoc] at h
    exact (List.mem_append.mp h).imp_right fun h => .inl (mem_describeAlphabet_of_mem_indexText h)
  | key key =>
    rcases List.mem_append.mp h with h | h
    · split at h
      · exact absurd h List.not_mem_nil
      · rcases List.mem_append.mp h with h | h
        · exact .inl h
        · rw [List.mem_singleton.mp h]
          exact .inr (.inl (by decide))
    · exact .inr ((mem_keyText h).imp_right fun h => ⟨key, rfl, h⟩)

theorem mem_render {d : Char} : ∀ {path : List Step} {address : List Char},
    d ∈ path.foldl Step.appendTo address →
      d ∈ address ∨ d ∈ describeAlphabet ∨ ∃ key, .key key ∈ path ∧ d ∈ key.toList
  | [], _, h => .inl h
  | step :: path, address, h => by
    rw [List.foldl_cons] at h
    rcases mem_render h with h | h | ⟨key, hkey, hd⟩
    · rcases mem_appendTo h with h | h | ⟨key, rfl, hd⟩
      · exact .inl h
      · exact .inr (.inl h)
      · exact .inr (.inr ⟨key, List.mem_cons_self .., hd⟩)
    · exact .inr (.inl h)
    · exact .inr (.inr ⟨key, List.mem_cons_of_mem step hkey, hd⟩)

/-- **A scope is described with keys of the arena** and with characters of its own. -/
theorem mem_describe {d : Char} {id : ScopeId} (h : d ∈ (a.describe id).toList) :
    d ∈ describeAlphabet ∨ ∃ key, a.HasKey key ∧ d ∈ key.toList := by
  unfold describe at h
  split at h
  · rename_i path hclimb
    rw [Step.render, String.toList_ofList] at h
    rcases mem_render h with h | h | ⟨key, hkey, hd⟩
    · exact absurd h List.not_mem_nil
    · exact .inl h
    · rcases hasKey_of_climb hclimb hkey with hmem | hhas
      · exact absurd hmem List.not_mem_nil
      · exact .inr ⟨key, hhas, hd⟩
  · exact .inl (List.mem_append_right _ h)

end Arena

end ScopedConfig
