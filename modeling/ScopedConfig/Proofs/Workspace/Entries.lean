import ScopedConfig.Proofs.Workspace.Permanence
import ScopedConfig.Proofs.Workspace.Refusal

/-!
# Appended scopes stand in the order of their creation

A scope that is opened joins its parent's list late: whatever is asked next may be what appends it,
even if it is refused afterwards. So the list alone does not tell which scopes were opened, but the
list followed by the open scope does. An operation that opens a scope adds it at the end of what
stands under its parent, and every other operation leaves what stands under every scope as it is.
After a run, then, the scopes that were opened in a scope, in the order of the calls, are its list
and behind it the scope that is still open. None is lost, none is there twice, and none changes its
place.

Key definitions: `Workspace.entriesUnder`, `Workspace.opens?`, `Workspace.openedUnder`.
Key theorems: `Workspace.Sound.listing`, `Workspace.Sound.entriesUnder_run`,
`Workspace.run_entries_in_order`.
-/

namespace ScopedConfig

variable {V : Type}

/-! ### What stands under a scope -/

namespace Arena

/-- The list of a scope. -/
def appendedTo (a : Arena V) (p : ScopeId) : List ScopeId :=
  match a.scopes[p]? with
  | some s => s.appended
  | none => []

/-- The scope that a scope was created in. -/
def parentOf? (a : Arena V) (id : ScopeId) : Option ScopeId :=
  a.scopes[id]?.bind (·.parent?)

end Arena

namespace Workspace

/-- The open scope, if it was created in a scope. -/
def openUnder (w : Workspace V) (p : ScopeId) : List ScopeId :=
  match w.cursor with
  | some o => if w.arena.parentOf? o.id = some p then [o.id] else []
  | none => []

/-- The list of a scope, and behind it the open scope if it belongs there. -/
def entriesUnder (w : Workspace V) (p : ScopeId) : List ScopeId :=
  w.arena.appendedTo p ++ w.openUnder p

/-- The scope that an address leads to and the one that was opened in it, if that succeeded. -/
def opened? (address : Address) : Except Fault Unit × Workspace V → Option (ScopeId × ScopeId)
  | (.ok (), w) =>
    if address.isAnonymous then
      (w.arena.peek? .root address.segments.dropLast).bind fun parent =>
        w.cursor.map fun o => (parent, o.id)
    else none
  | (.error _, _) => none

/-- The scope that an operation opens one in, and the one it opens. -/
def opens? (w : Workspace V) : Operation V → Option (ScopeId × ScopeId)
  | .createNamed name =>
    match w.address name with
    | .ok address => opened? address (w.createNamed name)
    | .error _ => none
  | _ => none

/-- What a scope that is opened adds to the entries under a scope. -/
def addedUnder (p : ScopeId) : Option (ScopeId × ScopeId) → List ScopeId
  | some (parent, id) => if parent = p then [id] else []
  | none => []

/-- The scopes that operations open in a scope, in the order of the calls. -/
def openedUnder (w : Workspace V) (p : ScopeId) : List (Operation V) → List ScopeId
  | [] => []
  | op :: ops => addedUnder p (w.opens? op) ++ (w.apply op).2.openedUnder p ops

end Workspace

/-! ### Lists that are kept -/

namespace Arena

/-- The lists are the same, and no scope has another parent. -/
structure KeepsLists (a b : Arena V) : Prop where
  appended : ∀ p, b.appendedTo p = a.appendedTo p
  isChild : ∀ child parent, a.IsChild child parent → b.IsChild child parent

variable {a b c : Arena V}

theorem appendedTo_eq {p : ScopeId} {s : Scope V} (hs : a.scopes[p]? = some s) :
    a.appendedTo p = s.appended := by
  rw [appendedTo, hs]

theorem parentOf?_eq {child parent : ScopeId} (h : a.IsChild child parent) :
    a.parentOf? child = some parent := by
  obtain ⟨s, hs, hp⟩ := h
  rw [parentOf?, hs]
  exact hp

theorem Later.appendedTo (h : a.Later b) (p : ScopeId) : a.appendedTo p <+: b.appendedTo p := by
  cases hs : a.scopes[p]? with
  | none =>
    rw [Arena.appendedTo, hs]
    exact List.nil_prefix
  | some s =>
    obtain ⟨t, ht, hl⟩ := h p s hs
    rw [appendedTo_eq hs, appendedTo_eq ht]
    exact hl.appended

namespace KeepsLists

theorem refl (a : Arena V) : a.KeepsLists a :=
  ⟨fun _ => rfl, fun _ _ h => h⟩

theorem trans (h : a.KeepsLists b) (h' : b.KeepsLists c) : a.KeepsLists c :=
  ⟨fun p => (h'.appended p).trans (h.appended p),
    fun child parent hc => h'.isChild child parent (h.isChild child parent hc)⟩

theorem of_extend (a : Arena V) (parent : ScopeId) : a.KeepsLists (a.extend parent) := by
  refine ⟨fun p => ?_, fun _ _ => isChild_extend⟩
  rw [appendedTo, getElem?_extend, appendedTo]
  by_cases hp : p = a.size
  · rw [if_pos hp, hp, show a.scopes[a.size]? = none from Array.getElem?_eq_none (Nat.le_refl _)]
    rfl
  · rw [if_neg hp]

theorem of_update (a : Arena V) (id : ScopeId) {f : Scope V → Scope V}
    (hf : ∀ s, (f s).appended = s.appended) (hp : ∀ s, (f s).parent? = s.parent?) :
    a.KeepsLists (a.update id f) := by
  refine ⟨fun p => ?_, fun _ _ => (isChild_update_iff hp).mpr⟩
  rw [appendedTo, getElem?_update, appendedTo]
  by_cases he : id = p
  · rw [if_pos he]
    cases a.scopes[p]? with
    | none => rfl
    | some s => exact hf s
  · rw [if_neg he]

theorem of_sprout (a : Arena V) (id : ScopeId) (key : String) : a.KeepsLists (a.sprout id key) :=
  (of_extend a id).trans (of_update (a.extend id) id (fun _ => rfl) fun _ => rfl)

theorem of_write {id : ScopeId} {key : String} {v : V} (hw : a.write id key v = .ok b) :
    a.KeepsLists b := by
  rw [eq_of_write hw]
  exact of_update a id (fun _ => rfl) fun _ => rfl

theorem of_setPolicy {id : ScopeId} {policy : Policy} (hw : a.setPolicy id policy = .ok b) :
    a.KeepsLists b := by
  rw [eq_of_setPolicy hw]
  exact of_update a id (fun _ => rfl) fun _ => rfl

end KeepsLists

namespace Sound

theorem keepsLists_walk : ∀ {segments : List Segment} {a : Arena V} {id : ScopeId} {s : Scope V},
    a.Sound → a.scopes[id]? = some s → a.KeepsLists (a.walk id segments).2
  | [], a, _, _, _, _ => .refl a
  | segment :: rest, a, id, s, h, hs => by
    have hx := h.entering hs segment
    rw [walk]
    generalize a.enter id segment = x at hx ⊢
    cases hx with
    | found path =>
      obtain ⟨t, ht⟩ := h.exists_of_follow ⟨s, hs⟩ path
      exact keepsLists_walk h ht
    | @created t key scope allowed noScope =>
      exact (KeepsLists.of_sprout a id key).trans
        (keepsLists_walk (h.sprout scope key) (getElem?_sprout_self key scope))
    | refused => exact .refl a

end Sound

end Arena

/-! ### What an operation does to the entries -/

namespace Workspace

variable {w w' u : Workspace V} {segments : List Segment}

/-- What stands under every scope is the same. -/
def KeepsEntries (w w' : Workspace V) : Prop :=
  ∀ p, w'.entriesUnder p = w.entriesUnder p

namespace KeepsEntries

theorem refl (w : Workspace V) : w.KeepsEntries w :=
  fun _ => rfl

theorem trans (h : w.KeepsEntries w') (h' : w'.KeepsEntries u) : w.KeepsEntries u :=
  fun p => (h' p).trans (h p)

end KeepsEntries

theorem entriesUnder_of_global (hc : w.cursor = none) (p : ScopeId) :
    w.entriesUnder p = w.arena.appendedTo p := by
  rw [entriesUnder, openUnder, hc, List.append_nil]

theorem openUnder_cases (w : Workspace V) (p : ScopeId) :
    w.openUnder p = [] ∨ ∃ id, w.openUnder p = [id] := by
  unfold openUnder
  split
  · split
    · exact .inr ⟨_, rfl⟩
    · exact .inl rfl
  · exact .inl rfl

namespace Sound

theorem keepsEntries (h : w.Sound) (hk : w.arena.KeepsLists w'.arena)
    (hc : w'.cursor = w.cursor) : w.KeepsEntries w' := by
  intro p
  rw [entriesUnder, entriesUnder, hk.appended, openUnder, openUnder, hc]
  cases ho : w.cursor with
  | none => rfl
  | some o =>
    obtain ⟨parent, hl⟩ := h.live o ho
    simp only [Arena.parentOf?_eq hl.isChild, Arena.parentOf?_eq (hk.isChild _ _ hl.isChild)]

/-- **The open scope goes from behind the list into it.** -/
theorem keepsEntries_popAnonymous (h : w.Sound) (hw : w.popAnonymous = .ok w') :
    w.KeepsEntries w' := by
  cases ho : w.cursor with
  | none =>
    obtain rfl := Except.ok.inj ((h.popAnonymous_of_global ho).symm.trans hw)
    exact .refl w
  | some o =>
    obtain ⟨parent, hl⟩ := h.live o ho
    obtain ⟨s, hs⟩ := hl.exists_parent h.arena
    obtain rfl := Except.ok.inj ((h.popAnonymous_of_open ho hl).symm.trans hw)
    intro p
    rw [entriesUnder_of_global rfl, entriesUnder, openUnder, ho]
    simp only [Arena.parentOf?_eq hl.isChild, Option.some.injEq]
    by_cases hp : parent = p
    · subst hp
      rw [if_pos rfl, Arena.appendedTo_eq (Arena.getElem?_update_self _ hs),
        Arena.appendedTo_eq hs, Scope.adopt]
    · rw [if_neg hp, List.append_nil, Arena.appendedTo, Arena.getElem?_update_of_ne _ hp,
        Arena.appendedTo]

/-! ### Operations that open no scope -/

theorem keepsEntries_walk (h : w.Sound) (segments : List Segment) :
    w.KeepsEntries { w with arena := (w.arena.walk .root segments).2 } := by
  obtain ⟨s, hs⟩ := h.arena.root
  exact h.keepsEntries (Arena.Sound.keepsLists_walk h.arena hs) rfl

theorem keepsEntries_writeAt (h : w.Sound) (hc : w.cursor = none) (segments : List Segment)
    (key : String) (v : V) : w.KeepsEntries (w.writeAt segments key v).2 := by
  have hk := h.keepsEntries_walk segments
  have hwalked := walked_root h hc segments
  unfold Workspace.writeAt
  revert hk hwalked
  rcases w.arena.walk .root segments with ⟨_ | id, b⟩ <;> intro hk hwalked
  · exact hk
  · cases hw : b.write id key v with
    | error e => simpa only [hw] using hk
    | ok c =>
      simp only [hw]
      exact hk.trans ((hwalked.changes.sound h).keepsEntries (.of_write hw) rfl)

theorem keepsEntries_assign (h : w.Sound) (name : String) (v : V) :
    w.KeepsEntries (w.assign name v).2 := by
  unfold Workspace.assign
  cases (w.address name).bind Address.target with
  | error e => exact .refl w
  | ok target =>
    obtain ⟨w', hw, -⟩ := h.exists_popAnonymous
    obtain ⟨h', hc, -⟩ := h.popAnonymous_again hw
    simp only [hw]
    exact (h.keepsEntries_popAnonymous hw).trans (h'.keepsEntries_writeAt hc target.1 target.2 v)

theorem keepsEntries_assignLocal (h : w.Sound) (text : String) (v : V) :
    w.KeepsEntries (w.assignLocal text v).2 := by
  unfold Workspace.assignLocal
  cases Address.localKey text with
  | error e => exact .refl w
  | ok key =>
    obtain ⟨id, s, hid, -⟩ := h.exists_currentScope
    simp only [hid, Except.bind]
    cases hw : w.arena.write id key v with
    | error e => exact .refl w
    | ok b => exact h.keepsEntries (.of_write hw) rfl

theorem keepsEntries_atMostLeft (h : w.Sound) (hu : w.AtMostLeft u) : w.KeepsEntries u := by
  rcases hu with rfl | hw
  · exact .refl u
  · exact h.keepsEntries_popAnonymous hw

theorem keepsEntries_protect (h : w.Sound) (name? : Option String) (move : Policy → Policy) :
    w.KeepsEntries (w.protect name? move).2 := by
  obtain ⟨u, hu, hstate | ⟨id, policy, b, hb, hstate⟩⟩ := w.exists_atMostLeft_protect name? move
  · rw [hstate]
    exact h.keepsEntries_atMostLeft hu
  · rw [hstate]
    have hsound : u.Sound := hu.sound h
    exact (h.keepsEntries_atMostLeft hu).trans (hsound.keepsEntries (.of_setPolicy hb) rfl)

end Sound

/-! ### Every operation -/

/-- An operation keeps what stands under every scope, or it opens a scope: then what stood under
each scope is its list now, and the new scope stands behind the list of its parent. -/
inductive Listing (w w' : Workspace V) : Option (ScopeId × ScopeId) → Prop
  | kept (kept : w.KeepsEntries w') : Listing w w' none
  | opened {parent id : ScopeId} (left : ∀ p, w'.arena.appendedTo p = w.entriesUnder p)
      (behind : ∀ p, w'.openUnder p = addedUnder p (some (parent, id))) :
      Listing w w' (some (parent, id))

namespace Listing

variable {opened : Option (ScopeId × ScopeId)}

theorem after (hk : w.KeepsEntries w') (l : w'.Listing u opened) : w.Listing u opened := by
  cases l with
  | kept kept => exact .kept (hk.trans kept)
  | opened left behind => exact .opened (fun p => (left p).trans (hk p)) behind

theorem entriesUnder (l : w.Listing w' opened) (p : ScopeId) :
    w'.entriesUnder p = w.entriesUnder p ++ addedUnder p opened := by
  cases l with
  | kept kept => rw [kept p, addedUnder, List.append_nil]
  | opened left behind => rw [Workspace.entriesUnder, left, behind]

end Listing

namespace Sound

/-- A scope that is opened where segments lead stands behind the list there. -/
theorem listing_openAt (h : w.Sound) (hc : w.cursor = none) {address : Address}
    (hne : .anonymous ∉ address.segments.dropLast) (hanon : address.isAnonymous = true) :
    w.Listing (w.openAt address.segments.dropLast).2
        (opened? address (w.openAt address.segments.dropLast)) ∧
      ((w.openAt address.segments.dropLast).1 = .ok () →
        (opened? address (w.openAt address.segments.dropLast)).isSome = true) := by
  obtain ⟨s, hs⟩ := h.arena.root
  have hk : w.arena.KeepsLists (w.arena.walk .root address.segments.dropLast).2 :=
    Arena.Sound.keepsLists_walk h.arena hs
  have hwalked := walked_root h hc address.segments.dropLast
  unfold Workspace.openAt Workspace.createPath
  revert hk hwalked
  rcases w.arena.walk .root address.segments.dropLast with ⟨_ | parent, b⟩ <;> intro hk hwalked
  · exact ⟨.kept (h.keepsEntries hk rfl), fun hok => absurd hok (by simp [Except.map])⟩
  · have hp := hwalked.resolves parent rfl
    obtain ⟨t, ht⟩ := (hwalked.changes.sound h).arena.exists_of_resolve hp
    cases hclosed : t.policy.isClosed with
    | true =>
      simp only [Except.map, hc, enter_eq_of_isClosed hp ht hclosed, openWith, opened?]
      exact ⟨.kept (h.keepsEntries hk hc.symm), fun hok => absurd hok (by simp)⟩
    | false =>
      have hpeek : (b.extend parent).peek? .root address.segments.dropLast = some parent :=
        Arena.peek?_eq_some_iff.mpr
          ⟨hne, Arena.follow_mono (fun _ _ _ hh => Arena.holds_extend_iff.mpr hh) hp⟩
      simp only [Except.map, hc, enter_eq hp ht hclosed, openWith, opened?, hanon, if_true, hpeek,
        Option.bind_some, Option.map_some]
      refine ⟨.opened (fun p => ?_) fun p => ?_, fun _ => rfl⟩
      · have hextend := Arena.KeepsLists.of_extend b parent
        rw [entriesUnder_of_global hc, ← hk.appended, ← hextend.appended]
      · simp only [openUnder, Arena.parentOf?_eq (Arena.isChild_extend_self b parent), addedUnder,
          Option.some.injEq]

theorem listing_createNamed (h : w.Sound) (name : String) :
    w.Listing (w.createNamed name).2 (w.opens? (.createNamed name)) := by
  obtain ⟨w', hw, -⟩ := h.exists_popAnonymous
  obtain ⟨h', hc, -⟩ := h.popAnonymous_again hw
  rw [opens?]
  unfold Workspace.createNamed
  cases hn : w.address name with
  | error e => exact .kept (.refl w)
  | ok address =>
    have hsound : (w'.remember address).Sound := Change.sound h' (.remember _)
    have hk : w.KeepsEntries (w'.remember address) := fun p => h.keepsEntries_popAnonymous hw p
    simp only
    cases hanon : address.isAnonymous with
    | true =>
      simp only [if_true, h.createAnonymous_eq address hw]
      exact .after hk (hsound.listing_openAt hc (Address.marker_not_mem_dropLast hn) hanon).1
    | false =>
      simp only [Bool.false_eq_true, if_false, hw]
      have hnone : opened? address ((w'.remember address).createPath address.segments) = none := by
        rcases (w'.remember address).createPath address.segments with ⟨_ | _, u⟩
        · rfl
        · rw [opened?, hanon, if_neg Bool.false_ne_true]
      rw [hnone]
      exact .kept (hk.trans (hsound.keepsEntries_walk address.segments))

/-- **A call that succeeds at an address with the marker of a new scope opens one**, and it is open
under the scope that the address leads to. -/
theorem exists_opens? (h : w.Sound) {name : String} {address : Address}
    (ha : w.address name = .ok address) (hanon : address.isAnonymous = true)
    (hok : (w.createNamed name).1 = .ok ()) :
    ∃ parent id, w.opens? (.createNamed name) = some (parent, id) ∧
      (w.createNamed name).2.openUnder parent = [id] := by
  obtain ⟨w', hw, -⟩ := h.exists_popAnonymous
  obtain ⟨h', hc, -⟩ := h.popAnonymous_again hw
  have hsound : (w'.remember address).Sound := Change.sound h' (.remember _)
  have hcreate : w.createNamed name = (w'.remember address).openAt address.segments.dropLast := by
    simp only [Workspace.createNamed, ha, hanon, if_true, h.createAnonymous_eq address hw]
  obtain ⟨l, hsome⟩ := hsound.listing_openAt hc (Address.marker_not_mem_dropLast ha) hanon
  rw [hcreate] at hok
  simp only [opens?, ha, hcreate]
  have hsome := hsome hok
  generalize opened? address _ = opened at l hsome
  cases l with
  | kept kept => exact absurd hsome (by simp)
  | @opened parent id left behind =>
    exact ⟨parent, id, rfl, (behind parent).trans (if_pos rfl)⟩

/-- **An operation that opens a scope puts it behind the entries of its parent, and every other
operation keeps the entries.** -/
theorem listing (h : w.Sound) (op : Operation V) : w.Listing (w.apply op).2 (w.opens? op) := by
  cases op with
  | createNamed name => exact h.listing_createNamed name
  | assign name v => exact .kept (h.keepsEntries_assign name v)
  | assignLocal text v => exact .kept (h.keepsEntries_assignLocal text v)
  | lookUp name => exact .kept (h.keepsEntries_atMostLeft (w.atMostLeft_lookUp name))
  | finalize name? => exact .kept (h.keepsEntries_protect name? .finalized)
  | close name? => exact .kept (h.keepsEntries_protect name? .closed)
  | policy name? => exact .kept (h.keepsEntries_atMostLeft (w.atMostLeft_policyOf name?))
  | pop =>
    obtain ⟨w', hw, -⟩ := h.exists_popAnonymous
    simp only [Workspace.apply, hw]
    exact .kept (h.keepsEntries_popAnonymous hw)

/-- **A run adds the scopes it opens, in the order of the calls.** -/
theorem entriesUnder_run (p : ScopeId) : ∀ (ops : List (Operation V)) {w : Workspace V}, w.Sound →
    (w.run ops).entriesUnder p = w.entriesUnder p ++ w.openedUnder p ops
  | [], w, _ => (List.append_nil _).symm
  | op :: ops, w, h => by
    have ih := entriesUnder_run p ops ((h.apply op).changes.sound h)
    rw [openedUnder, ← List.append_assoc, ← (h.listing op).entriesUnder p, ← ih]
    rfl

/-- What stands under a scope is its list as soon as the open scope is left. -/
theorem appendedTo_popAnonymous (h : w.Sound) (hw : w.popAnonymous = .ok w') (p : ScopeId) :
    w'.arena.appendedTo p = w.entriesUnder p := by
  obtain ⟨-, hc, -⟩ := h.popAnonymous_again hw
  rw [← entriesUnder_of_global hc, h.keepsEntries_popAnonymous hw p]

theorem ascending_entriesUnder (h : w.Sound) (p : ScopeId) :
    (w.entriesUnder p).Pairwise (· < ·) := by
  obtain ⟨w', hw, -⟩ := h.exists_popAnonymous
  obtain ⟨h', -, -⟩ := h.popAnonymous_again hw
  rw [← h.appendedTo_popAnonymous hw, Arena.appendedTo]
  split
  · rename_i s hs
    exact (h'.arena.scope p s hs).ascending
  · exact List.Pairwise.nil

/-- **A list grows by one scope at a time.** -/
theorem appendedTo_apply (h : w.Sound) (op : Operation V) (p : ScopeId) :
    (w.apply op).2.arena.appendedTo p = w.arena.appendedTo p ∨
      ∃ id, (w.apply op).2.arena.appendedTo p = w.arena.appendedTo p ++ [id] := by
  have l := h.listing op
  obtain ⟨t, ht⟩ := ((h.apply op).changes.later h).appendedTo p
  generalize w.opens? op = opened at l
  rw [← ht]
  suffices hgrown : t = [] ∨ ∃ id, t = [id] from by
    rcases hgrown with rfl | ⟨id, rfl⟩
    · exact .inl (List.append_nil _)
    · exact .inr ⟨id, rfl⟩
  cases l with
  | kept kept =>
    -- what is new in the list stood behind it before
    have hkept := kept p
    rw [entriesUnder, ← ht, entriesUnder, List.append_assoc, List.append_cancel_left_eq] at hkept
    rcases openUnder_cases w p with hu | ⟨id, hu⟩
    · rw [hu] at hkept
      exact .inl (List.append_eq_nil_iff.mp hkept).1
    · rw [hu] at hkept
      rcases List.append_eq_singleton_iff.mp hkept with ⟨rfl, -⟩ | ⟨rfl, -⟩
      · exact .inl rfl
      · exact .inr ⟨id, rfl⟩
  | opened left behind =>
    have hleft := left p
    rw [← ht, entriesUnder, List.append_cancel_left_eq] at hleft
    rw [hleft]
    exact openUnder_cases w p

end Sound

/-- **No anonymous scope is lost, doubled or moved.** After every run the scopes that were opened in
a scope, in the order of the calls, are the list of the scope and behind it the open scope if it
belongs there, each of them once. Every call that succeeds at an address with the marker of a new
scope opens one under the scope that the address leads to. So an operation leaves each list as it is
or puts one scope behind it, and an index that leads to a scope leads to the same one for the rest
of the run. -/
theorem run_entries_in_order (policy : Policy) (remembered : List String)
    (ops : List (Operation V)) (p : ScopeId) :
    let start : Workspace V := ofPolicy policy remembered
    let w := start.run ops
    start.openedUnder p ops = w.arena.appendedTo p ++ w.openUnder p ∧
    (start.openedUnder p ops).Pairwise (· < ·) ∧
    (∀ name address, w.address name = .ok address → address.isAnonymous = true →
      (w.createNamed name).1 = .ok () → ∃ parent id,
        w.opens? (.createNamed name) = some (parent, id) ∧
          (w.createNamed name).2.openUnder parent = [id]) ∧
    (∀ op, (w.apply op).2.arena.appendedTo p = w.arena.appendedTo p ∨
      ∃ id, (w.apply op).2.arena.appendedTo p = w.arena.appendedTo p ++ [id]) ∧
    ∀ (more : List (Operation V)) (i : Nat) (id : ScopeId),
      (w.arena.appendedTo p)[i]? = some id → ((w.run more).arena.appendedTo p)[i]? = some id := by
  intro start w
  have hstart : start.Sound := sound_ofPolicy policy remembered
  have h : w.Sound := sound_run policy remembered ops
  have hempty : start.entriesUnder p = [] := by
    rw [entriesUnder_of_global rfl, Arena.appendedTo]
    split
    · rename_i s hs
      obtain ⟨hlt, rfl⟩ := Array.getElem?_eq_some_iff.mp hs
      obtain rfl : p = .root := Nat.lt_one_iff.mp hlt
      rfl
    · rfl
  have hlaw : start.openedUnder p ops = w.entriesUnder p := by
    rw [hstart.entriesUnder_run p ops, hempty, List.nil_append]
  refine ⟨hlaw, hlaw ▸ h.ascending_entriesUnder p, fun _ _ ha hanon hok => ?_,
    fun op => h.appendedTo_apply op p, fun more i id hi => ?_⟩
  · exact h.exists_opens? ha hanon hok
  · obtain ⟨hlt, rfl⟩ := List.getElem?_eq_some_iff.mp hi
    exact List.prefix_iff_getElem?.mp ((h.later_run more).appendedTo p) i hlt

/-- Entries of two lists are opened in turn, and the last one is open. -/
example : (ofPolicy .default [] : Workspace Nat).openedUnder 1
    [.createNamed "a.", .createNamed "b.", .assign "k" 1, .createNamed "a."] = [2, 5] := by
  rfl

end Workspace

end ScopedConfig
