import ScopedConfig.Proofs.Address.Spelling
import ScopedConfig.Proofs.Arena.Keys
import ScopedConfig.Proofs.Workspace.Constancy
import ScopedConfig.Proofs.Workspace.Remembering

/-!
# What a workspace is spelled with

The keys that an operation adds are keys of the address that its name stands for, or the one local
key that its text is, and the segments that it remembers are those of that address. The address is
spelled with the characters of the name and of the segments that were remembered before. So if the
keys and the remembered segments of a workspace have only characters with a property in them, and so
have the texts that operations are given, then a run leaves no other characters.

Key definitions: `Workspace.NamesKey`, `Workspace.Spelled`, `Operation.text?`.
Key theorems: `Workspace.Sound.addsKeys_apply`, `Workspace.Sound.spelled_apply`,
`Workspace.run_spelled`.
-/

namespace ScopedConfig

variable {V : Type}

/-- The text that an operation is given: a name or a local key. -/
def Operation.text? : Operation V → Option String
  | assignLocal text _ => some text
  | op => op.name?

/-- Every character of the text has the property. -/
def Text.SpelledWith (p : Char → Prop) (s : String) : Prop :=
  ∀ c ∈ s.toList, p c

namespace Workspace

/-- The keys that an operation names. -/
inductive NamesKey (w : Workspace V) (op : Operation V) (key : String) : Prop
  | segment {name : String} {a : Address} (given : op.name? = some name)
      (read : w.address name = .ok a) (named : .key key ∈ a.segments)
  | localKey {text : String} {v : V} (given : op = .assignLocal text v)
      (read : Address.localKey text = .ok key)

/-- The keys and the remembered segments are spelled with characters of a property. -/
structure Spelled (p : Char → Prop) (w : Workspace V) : Prop where
  keys : ∀ key, w.arena.HasKey key → Text.SpelledWith p key
  remembered : ∀ s ∈ w.remembered, Text.SpelledWith p s

variable {w w' : Workspace V} {named : String → Prop} {segments : List Segment}

namespace Sound

/-! ### The keys that an operation adds -/

theorem addsKeys_popAnonymous (h : w.Sound) (hw : w.popAnonymous = .ok w') :
    w.arena.AddsKeys w'.arena named := by
  rintro key ⟨id, s', hs', hkey⟩
  obtain ⟨s, hs, hentries, -⟩ := h.scope_of_popAnonymous hw hs'
  exact .inl ⟨id, s, hs, hentries ▸ hkey⟩

theorem addsKeys_walk (h : w.Sound) (hnamed : ∀ key, .key key ∈ segments → named key) :
    w.arena.AddsKeys (w.arena.walk .root segments).2 named := by
  obtain ⟨s, hs⟩ := h.arena.root
  exact h.arena.addsKeys_walk hs hnamed

theorem addsKeys_openAt (h : w.Sound) (hc : w.cursor = none)
    (hnamed : ∀ key, .key key ∈ segments → named key) :
    w.arena.AddsKeys (w.openAt segments).2.arena named := by
  have hk := h.addsKeys_walk hnamed
  have hwalked := walked_root h hc segments
  unfold Workspace.openAt Workspace.createPath
  revert hk hwalked
  rcases w.arena.walk .root segments with ⟨_ | id, b⟩ <;> intro hk hwalked
  · exact hk
  · have hp := hwalked.resolves id rfl
    obtain ⟨s, hs⟩ := (hwalked.changes.sound h).arena.exists_of_resolve hp
    simp only [Except.map, hc]
    cases hclosed : s.policy.isClosed with
    | true =>
      rw [enter_eq_of_isClosed hp hs hclosed]
      exact hk
    | false =>
      rw [enter_eq hp hs hclosed]
      exact hk.trans (.of_extend b id)

theorem addsKeys_createNamed (h : w.Sound) {name : String}
    (hnamed : ∀ a key, w.address name = .ok a → .key key ∈ a.segments → named key) :
    w.arena.AddsKeys (w.createNamed name).2.arena named := by
  obtain ⟨w', hw, -⟩ := h.exists_popAnonymous
  obtain ⟨h', hc, -⟩ := h.popAnonymous_again hw
  have hpop : w.arena.AddsKeys w'.arena named := h.addsKeys_popAnonymous hw
  unfold Workspace.createNamed
  cases hn : w.address name with
  | error e => exact .refl w.arena
  | ok a =>
    have hsound : (w'.remember a).Sound := Change.sound h' (.remember _)
    simp only
    split
    · rw [h.createAnonymous_eq a hw]
      exact hpop.trans (hsound.addsKeys_openAt hc fun key hkey =>
        hnamed a key hn ((List.dropLast_sublist _).subset hkey))
    · simp only [hw]
      exact hpop.trans (hsound.addsKeys_walk fun key => hnamed a key hn)

theorem addsKeys_writeAt (h : w.Sound) {key : String} {v : V}
    (hsegments : ∀ key, .key key ∈ segments → named key) (hkey : named key) :
    w.arena.AddsKeys (w.writeAt segments key v).2.arena named := by
  have hk := h.addsKeys_walk hsegments
  unfold Workspace.writeAt
  revert hk
  rcases w.arena.walk .root segments with ⟨_ | id, b⟩ <;> intro hk
  · exact hk
  · cases hw : b.write id key v with
    | error e => simpa only [hw] using hk
    | ok c =>
      simp only [hw]
      exact hk.trans (.of_write hw hkey)

theorem addsKeys_assign (h : w.Sound) {name : String} {v : V}
    (hnamed : ∀ a key, w.address name = .ok a → .key key ∈ a.segments → named key) :
    w.arena.AddsKeys (w.assign name v).2.arena named := by
  obtain ⟨w', hw, -⟩ := h.exists_popAnonymous
  obtain ⟨h', -⟩ := h.popAnonymous_again hw
  unfold Workspace.assign
  cases hn : w.address name with
  | error e => exact .refl w.arena
  | ok a =>
    cases ht : a.target with
    | error e =>
      simp only [Except.bind, ht]
      exact .refl w.arena
    | ok target =>
      obtain ⟨segments, key⟩ := target
      have hmem : ∀ segment ∈ segments ++ [.key key], segment ∈ a.segments :=
        fun segment hs => Address.segments_of_target ht ▸ hs
      have hsegments : ∀ k, .key k ∈ segments → named k := fun k hk =>
        hnamed a k hn (hmem _ (List.mem_append_left _ hk))
      have hkey : named key := hnamed a key hn (hmem _ (by simp))
      simp only [Except.bind, ht, hw]
      exact (h.addsKeys_popAnonymous hw).trans (h'.addsKeys_writeAt hsegments hkey)

theorem addsKeys_assignLocal (h : w.Sound) {text : String} {v : V}
    (hnamed : ∀ key, Address.localKey text = .ok key → named key) :
    w.arena.AddsKeys (w.assignLocal text v).2.arena named := by
  unfold Workspace.assignLocal
  cases hk : Address.localKey text with
  | error e => exact .refl w.arena
  | ok key =>
    obtain ⟨id, s, hid, -⟩ := h.exists_currentScope
    simp only [hid, Except.bind]
    cases hw : w.arena.write id key v with
    | error e => exact .refl w.arena
    | ok b => exact .of_write hw (hnamed key hk)

theorem addsKeys_atMostLeft (h : w.Sound) {u : Workspace V} (hu : w.AtMostLeft u) :
    w.arena.AddsKeys u.arena named := by
  rcases hu with rfl | hw
  · exact .refl u.arena
  · exact h.addsKeys_popAnonymous hw

theorem addsKeys_protect (h : w.Sound) (name? : Option String) (move : Policy → Policy) :
    w.arena.AddsKeys (w.protect name? move).2.arena named := by
  obtain ⟨u, hu, hstate | ⟨id, policy, b, hb, hstate⟩⟩ := w.exists_atMostLeft_protect name? move
  · rw [hstate]
    exact h.addsKeys_atMostLeft hu
  · rw [hstate]
    exact (h.addsKeys_atMostLeft hu).trans (.of_setPolicy hb)

/-- **An operation adds the keys that it names**, and no others. -/
theorem addsKeys_apply (h : w.Sound) (op : Operation V) :
    w.arena.AddsKeys (w.apply op).2.arena (w.NamesKey op) := by
  cases op with
  | createNamed name => exact h.addsKeys_createNamed fun a key => .segment rfl
  | assign name v => exact h.addsKeys_assign fun a key => .segment rfl
  | assignLocal text v => exact h.addsKeys_assignLocal fun key => .localKey rfl
  | lookUp name => exact h.addsKeys_atMostLeft (w.atMostLeft_lookUp name)
  | finalize name? => exact h.addsKeys_protect name? _
  | close name? => exact h.addsKeys_protect name? _
  | policy name? => exact h.addsKeys_atMostLeft (w.atMostLeft_policyOf name?)
  | pop =>
    obtain ⟨w', hw, -⟩ := h.exists_popAnonymous
    simp only [Workspace.apply, hw]
    exact h.addsKeys_popAnonymous hw

/-! ### The characters that are left -/

end Sound

variable {p : Char → Prop} {op : Operation V}

theorem text?_of_name? {name : String} (hname : op.name? = some name) : op.text? = some name := by
  cases op with
  | assignLocal text v => exact absurd hname (by simp [Operation.name?])
  | _ => exact hname

theorem Spelled.address (hs : w.Spelled p) {name : String} (hname : Text.SpelledWith p name)
    {a : Address} (ha : w.address name = .ok a) : Text.SpelledWith p a.text := by
  intro c hc
  rcases Address.mem_text_of_ofName ha hc with hmem | ⟨s, hmem, hc⟩
  · exact hname c hmem
  · exact hs.remembered s hmem c hc

/-- **An operation leaves a workspace spelled as it was**, if its text is spelled so. -/
theorem Sound.spelled_apply (h : w.Sound) (hs : w.Spelled p)
    (htext : ∀ text, op.text? = some text → Text.SpelledWith p text) :
    (w.apply op).2.Spelled p := by
  constructor
  · intro key hkey
    rcases h.addsKeys_apply op key hkey with hold | hnew
    · exact hs.keys key hold
    · cases hnew with
      | @segment name a given read named =>
        have haddress := hs.address (htext name (text?_of_name? given)) read
        exact fun c hc => haddress c (Address.mem_text_of_mem_key read named hc)
      | @localKey text v given read =>
        have hlocal := htext text (by rw [given]; rfl)
        exact fun c hc => hlocal c (Address.mem_of_mem_localKey read hc)
  · intro s hmem
    rcases h.remembered_apply op with hsame | ⟨name, a, hname, ha, hnew⟩
    · exact hs.remembered s (hsame ▸ hmem)
    · have haddress := hs.address (htext name (text?_of_name? hname)) ha
      rw [hnew] at hmem
      exact fun c hc => haddress c (Address.mem_of_mem_remembered hmem hc)

theorem spelled_ofPolicy (policy : Policy) : (ofPolicy policy [] : Workspace V).Spelled p where
  keys key hkey := absurd hkey (Arena.not_hasKey_ofPolicy policy key)
  remembered := List.forall_mem_nil _

/-- **A run is spelled with the characters that it was given.** -/
theorem run_spelled (policy : Policy) {ops : List (Operation V)}
    (htexts : ∀ op ∈ ops, ∀ text, op.text? = some text → Text.SpelledWith p text) :
    ((ofPolicy policy []).run ops).Spelled p := by
  suffices hrun : ∀ {w : Workspace V}, w.Sound → w.Spelled p → (w.run ops).Spelled p from
    hrun (sound_ofPolicy policy []) (spelled_ofPolicy policy)
  induction ops with
  | nil => exact fun _ hs => hs
  | cons op ops ih =>
    intro w h hs
    obtain ⟨hop, hops⟩ := List.forall_mem_cons.mp htexts
    exact ih hops ((h.apply op).changes.sound h) (h.spelled_apply hs hop)

end Workspace

end ScopedConfig
