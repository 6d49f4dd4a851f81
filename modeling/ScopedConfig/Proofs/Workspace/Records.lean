import ScopedConfig.Proofs.Address.Listing
import ScopedConfig.Proofs.Tree.Listing
import ScopedConfig.Proofs.Workspace.Entries
import ScopedConfig.Proofs.Workspace.Setting

/-!
# Records in a list

A record is written as a new entry of a list: the entry is opened by the name of the list, and each
value is assigned to a key of the open entry. The entry joins the list when the next one is opened,
or when the records are read. So while an entry is filled, the list at the end of the keys holds the
entries before it, and the open tree is the entry so far. Every local write changes the open tree
alone, and every opening moves it to the end of the list; the scope of the list is there and is not
closed since the first entry was opened, so no opening but the first can be refused.

In the end the list has become longer by the records, in their order. The record at a position is
found behind those that were there before.

Key definitions: `Operation.writeRecord`, `Workspace.AllDone`, `Workspace.Filling`.
Key theorems: `Workspace.Filling.assignLocal`, `Workspace.Filling.createNamed`,
`Workspace.Filling.records`, `Workspace.run_records_read_back`.
-/

namespace ScopedConfig

variable {V : Type}

/-- The operations that write a record as a new entry of the list at the end of keys. -/
def Operation.writeRecord (path : List String) (record : List (String × V)) : List (Operation V) :=
  .createNamed (Address.opener path) :: record.map fun p => .assignLocal p.1 p.2

/-- How many scopes are appended to the one that segments lead to; none if they lead to no scope. -/
def Arena.countAt (a : Arena V) (segments : List Segment) : Nat :=
  match a.peek? .root segments with
  | some id => (a.appendedTo id).length
  | none => 0

theorem Address.path_map_key (path : List String) :
    Address.path (path.map .key) = path.map Step.key := by
  rw [Address.path, List.flatMap_map]
  exact List.map_eq_flatMap.symm

/-! ### In an outline -/

namespace Outline

variable {o : Outline V} {path : List String} {root entry : Tree V} {key : String}

/-- The name of a list, with a dot behind it, opens an entry where the keys lead. -/
theorem createNamed_opener (o : Outline V) (hne : path ≠ [])
    (hpath : ∀ key ∈ path, Segment.Plain key) :
    o.createNamed (Address.opener path) =
      (o.pop.remember ⟨Address.opener path, path.map .key ++ [.anonymous]⟩).openAt
        (path.map .key) := by
  have haddress : o.address (Address.opener path) =
      .ok ⟨Address.opener path, path.map .key ++ [.anonymous]⟩ := by
    rw [address, Address.ofName_opener hne hpath]
    rfl
  have hmarker :
      Address.isAnonymous ⟨Address.opener path, path.map .key ++ [.anonymous]⟩ = true := by
    rw [Address.isAnonymous, List.getLast?_concat]
    rfl
  simp only [createNamed, haddress, hmarker, if_true, List.dropLast_concat]

/-- **An entry is opened where a visit makes way for it.** -/
theorem apply_opener (hne : path ≠ []) (hpath : ∀ key ∈ path, Segment.Plain key)
    (hvisit : o.pop.root.visit Tree.ensureOpen (path.map .key) = (.ok (), root)) :
    ∃ o', o.apply (.createNamed (Address.opener path)) = (.ok .done, o') ∧ o'.root = root ∧
      o'.opened = some ⟨path.map .key, .empty .default⟩ := by
  have hopen : (o.pop.remember ⟨Address.opener path, path.map .key ++ [.anonymous]⟩).root.visit
      Tree.ensureOpen (path.map .key) = (.ok (), root) := hvisit
  refine ⟨⟨root, Address.remembered (Address.opener path), some ⟨path.map .key, .empty .default⟩⟩,
    ?_, rfl, rfl⟩
  simp only [apply, createNamed_opener o hne hpath, openAt, visit, hopen, Address.path_map_key]
  rfl

theorem exists_visit_of_opener (hne : path ≠ []) (hpath : ∀ key ∈ path, Segment.Plain key)
    (h : (o.apply (.createNamed (Address.opener path))).1 = .ok .done) :
    ∃ root, o.pop.root.visit Tree.ensureOpen (path.map .key) = (.ok (), root) := by
  rcases hvisit : o.pop.root.visit Tree.ensureOpen (path.map .key) with ⟨c | _, root⟩
  · have hopen : (o.pop.remember ⟨Address.opener path, path.map .key ++ [.anonymous]⟩).root.visit
        Tree.ensureOpen (path.map .key) = (.error c, root) := hvisit
    simp [apply, createNamed_opener o hne hpath, openAt, visit, hopen, apply.answer,
      Except.map] at h
  · exact ⟨root, rfl⟩

theorem assignLocal_open {parentPath : List Step} (ho : o.opened = some ⟨parentPath, entry⟩)
    (hpolicy : entry.policy = .default) (hkey : Segment.Plain key) (v : V) :
    o.assignLocal key v = (.ok (), { o with
      opened := some ⟨parentPath, entry.put key (.value v)⟩ }) := by
  have hcurrent : o.current = entry := by rw [current, ho]
  have hwrite : entry.write key v = (.ok (), entry.put key (.value v)) := by
    simp [Tree.write, hpolicy, Policy.default]
  simp only [assignLocal, Address.localKey_plain hkey, Except.mapError, hcurrent, hwrite,
    setCurrent, ho]

end Outline

namespace Workspace

variable {w w' u : Workspace V} {path : List String} {listed : List (Tree V)} {entry : Tree V}
  {ops ops' : List (Operation V)}

/-! ### Operations that are all done -/

/-- Operations are done one after the other, each of them successfully, and end in a workspace. -/
inductive AllDone : Workspace V → List (Operation V) → Workspace V → Prop
  | nil {w : Workspace V} : AllDone w [] w
  | cons {w w' u : Workspace V} {op : Operation V} {ops : List (Operation V)}
      (done : w.apply op = (.ok .done, w')) (rest : AllDone w' ops u) : AllDone w (op :: ops) u

namespace AllDone

theorem append (h : w.AllDone ops w') (h' : w'.AllDone ops' u) : w.AllDone (ops ++ ops') u := by
  induction h with
  | nil => exact h'
  | cons done _ ih => exact .cons done (ih h')

theorem run_eq (h : w.AllDone ops u) : w.run ops = u := by
  induction h with
  | nil => rfl
  | cons done _ ih =>
    rw [run, List.foldl_cons, done]
    exact ih

theorem replies (h : w.AllDone ops u) : ∀ r ∈ w.trace ops, r.1 = .ok .done := by
  induction h with
  | nil => exact List.forall_mem_nil _
  | cons done _ ih =>
    rw [trace, done]
    exact List.forall_mem_cons.mpr ⟨rfl, ih⟩

end AllDone

/-! ### Filling an entry -/

/-- An entry of the list at the end of keys is open. The list holds others, and is not closed. -/
structure Filling (w : Workspace V) (path : List String) (listed : List (Tree V))
    (entry : Tree V) : Prop where
  sound : w.Sound
  opened : w.unfold.opened = some ⟨path.map .key, entry⟩
  list : ∃ parent, w.unfold.root.at? path = some parent ∧ parent.policy.isClosed = false ∧
    parent.appended = listed

/-- An entry is opened, once a visit makes way for it. -/
theorem Sound.filling_of_visit (h : w.Sound) (hne : path ≠ [])
    (hpath : ∀ key ∈ path, Segment.Plain key) {root : Tree V}
    (hvisit : w.unfold.pop.root.visit Tree.ensureOpen (path.map .key) = (.ok (), root)) :
    ∃ w', w.apply (.createNamed (Address.opener path)) = (.ok .done, w') ∧
      w'.Filling path (w.unfold.pop.root.listed path) (.empty .default) := by
  obtain ⟨o, happly, hroot, hopened⟩ := Outline.apply_opener hne hpath hvisit
  obtain ⟨w', hr, hsound, hw⟩ := h.exists_of_done happly
  refine ⟨w', hr, hsound, hw ▸ hopened, ?_⟩
  rw [hw, hroot]
  exact h.ordered_pop.opened path hvisit

/-- **The first entry is opened** if the operation is done. -/
theorem Sound.filling (h : w.Sound) (hne : path ≠ []) (hpath : ∀ key ∈ path, Segment.Plain key)
    (hdone : (w.apply (.createNamed (Address.opener path))).1 = .ok .done) :
    ∃ w', w.apply (.createNamed (Address.opener path)) = (.ok .done, w') ∧
      w'.Filling path (w.unfold.pop.root.listed path) (.empty .default) := by
  have hshown := congrArg Prod.fst (h.shown_apply (.createNamed (Address.opener path)))
  rw [shown, outlined, hdone] at hshown
  obtain ⟨root, hvisit⟩ := Outline.exists_visit_of_opener hne hpath hshown.symm
  exact h.filling_of_visit hne hpath hvisit

namespace Filling

/-- Once the open entry is left, it is the last one of the list. -/
theorem left (h : w.Filling path listed entry) :
    ∃ parent, w.unfold.pop.root.at? path = some parent ∧ parent.policy.isClosed = false ∧
      parent.appended = listed ++ [entry] := by
  obtain ⟨parent, hparent, hopen, hlisted⟩ := h.list
  refine ⟨parent.adopt entry, ?_, hopen, ?_⟩
  · rw [Outline.pop, h.opened]
    exact Tree.at?_modify (·.adopt entry) path hparent
  · rw [← hlisted]
    rfl

theorem assignLocal (h : w.Filling path listed entry) (hpolicy : entry.policy = .default)
    {key : String} (hkey : Segment.Plain key) (v : V) :
    ∃ w', w.apply (.assignLocal key v) = (.ok .done, w') ∧
      w'.Filling path listed (entry.put key (.value v)) := by
  have happly : w.unfold.apply (.assignLocal key v) = (.ok .done, { w.unfold with
      opened := some ⟨path.map .key, entry.put key (.value v)⟩ }) := by
    rw [Outline.apply, Outline.assignLocal_open h.opened hpolicy hkey]
    rfl
  obtain ⟨w', hr, hsound, hw⟩ := h.sound.exists_of_done happly
  refine ⟨w', hr, hsound, ?_, ?_⟩
  · rw [hw]
  · rw [hw]
    exact h.list

/-- **The next entry is opened, and the one before it has joined the list.** -/
theorem createNamed (h : w.Filling path listed entry) (hne : path ≠ [])
    (hpath : ∀ key ∈ path, Segment.Plain key) :
    ∃ w', w.apply (.createNamed (Address.opener path)) = (.ok .done, w') ∧
      w'.Filling path (listed ++ [entry]) (.empty .default) := by
  obtain ⟨parent, hparent, hopen, happended⟩ := h.left
  have hvisit := h.sound.ordered_pop.visit_ensureOpen path hparent hopen
  have hlisted : w.unfold.pop.root.listed path = listed ++ [entry] := by
    rw [Tree.listed, hparent, ← happended]
    rfl
  rw [← hlisted]
  exact h.sound.filling_of_visit hne hpath hvisit

theorem assignLocals : ∀ (front : List (String × V)) {record : List (String × V)}
    {w : Workspace V}, w.Filling path listed (.ofRecord front) →
      (∀ p ∈ record, Segment.Plain p.1) →
        ∃ u, w.AllDone (record.map fun p => .assignLocal p.1 p.2) u ∧
          u.Filling path listed (.ofRecord (front ++ record))
  | front, [], w, h, _ => ⟨w, .nil, by rwa [List.append_nil]⟩
  | front, (key, v) :: record, w, h, hplain => by
    obtain ⟨hkey, hplain⟩ := List.forall_mem_cons.mp hplain
    obtain ⟨w', hdone, hw'⟩ := h.assignLocal (Tree.policy_ofRecord front) hkey v
    rw [← Tree.ofRecord_concat] at hw'
    obtain ⟨u, hall, hu⟩ := assignLocals (front ++ [(key, v)]) hw' hplain
    refine ⟨u, .cons hdone hall, ?_⟩
    rwa [List.append_assoc] at hu

/-- **Records are written one after the other.** Behind the entries that were there, the open one
included, stand the records. -/
theorem records (hne : path ≠ []) (hpath : ∀ key ∈ path, Segment.Plain key) :
    ∀ {records : List (List (String × V))} {w : Workspace V} {listed : List (Tree V)}
      {entry : Tree V}, w.Filling path listed entry →
      (∀ record ∈ records, ∀ p ∈ record, Segment.Plain p.1) →
        ∃ u listed' entry', w.AllDone (records.flatMap (Operation.writeRecord path)) u ∧
          u.Filling path listed' entry' ∧
          listed' ++ [entry'] = listed ++ [entry] ++ records.map Tree.ofRecord
  | [], w, listed, entry, h, _ => ⟨w, listed, entry, .nil, h, by simp⟩
  | record :: records, w, listed, entry, h, hplain => by
    obtain ⟨hrecord, hplain⟩ := List.forall_mem_cons.mp hplain
    obtain ⟨w₁, hopened, h₁⟩ := h.createNamed hne hpath
    obtain ⟨w₂, hfilled, h₂⟩ := assignLocals [] h₁ hrecord
    obtain ⟨u, listed', entry', hall, hu, hlist⟩ := Filling.records hne hpath h₂ hplain
    refine ⟨u, listed', entry', ?_, hu, ?_⟩
    · rw [List.flatMap_cons, Operation.writeRecord]
      exact .cons hopened (hfilled.append hall)
    · rw [hlist]
      simp

/-! ### Reading entries -/

variable {front : List String} {last key : String} {i : Nat}

/-- **A key of an entry that was filled with a record** is looked up as the value that the record
gives to it last, or as nothing. -/
theorem lookUp_key (h : w.Filling (front ++ [last]) listed entry)
    (hfront : ∀ key ∈ front, Segment.Plain key) (hlast : Segment.Plain last)
    (hi : i < Number.twoPow 64) (hkey : Segment.Plain key) {record : List (String × V)}
    (hrecord : (listed ++ [entry])[i]? = some (.ofRecord record)) :
    (w.apply (.lookUp (Address.entry (front ++ [last]) i ++ "." ++ key))).1 =
      .ok (.found ((record.reverse.lookup key).elim .nothing .value)) := by
  obtain ⟨parent, hparent, -, happended⟩ := h.left
  have hread := Address.ofName_entry_key hfront hlast hi hkey w.unfold.remembered
  have happly := Outline.apply_lookUp_of_ofName hread (by simp)
  rw [Tree.lookUp_entry last i [.key key] front hparent, happended, hrecord] at happly
  simp only [Tree.lookUp, Tree.find?_ofRecord] at happly
  cases hvalue : record.reverse.lookup key with
  | none =>
    rw [hvalue] at happly
    obtain ⟨w', hr, -⟩ := eq_of_shown_nothing ((h.sound.shown_apply _).trans happly)
    exact congrArg Prod.fst hr
  | some v =>
    rw [hvalue] at happly
    obtain ⟨w', hr, -⟩ := eq_of_shown_value ((h.sound.shown_apply _).trans happly)
    exact congrArg Prod.fst hr

/-- **Behind the last entry nothing is found.** -/
theorem lookUp_behind (h : w.Filling (front ++ [last]) listed entry)
    (hfront : ∀ key ∈ front, Segment.Plain key) (hlast : Segment.Plain last)
    (hi : i < Number.twoPow 64) (hnone : (listed ++ [entry])[i]? = none) :
    (w.apply (.lookUp (Address.entry (front ++ [last]) i))).1 = .ok (.found .nothing) := by
  obtain ⟨parent, hparent, -, happended⟩ := h.left
  have hread := Address.ofName_entry hfront hlast hi w.unfold.remembered
  have happly := Outline.apply_lookUp_of_ofName hread (by simp)
  rw [Tree.lookUp_entry last i [] front hparent, happended, hnone] at happly
  obtain ⟨w', hr, -⟩ := eq_of_shown_nothing ((h.sound.shown_apply _).trans happly)
  exact congrArg Prod.fst hr

end Filling

/-! ### Records that are read back -/

theorem Sound.length_listed (h : w.Sound) (path : List String) :
    (w.unfold.root.listed path).length = w.arena.countAt (path.map .key) := by
  obtain ⟨r, hr⟩ := h.arena.root
  rw [Tree.listed, show w.unfold.root = w.arena.unfold .root from rfl, h.arena.at?_unfold hr,
    Arena.countAt]
  cases hpeek : w.arena.peek? .root (path.map .key) with
  | none => rfl
  | some id =>
    obtain ⟨s, hs⟩ := h.arena.exists_of_resolve (Arena.peek?_eq_some_iff.mp hpeek).2
    simp only [Option.map_some, Option.getD_some, h.arena.appended_unfold hs, List.length_map,
      Arena.appendedTo_eq hs]

/-- **A list of records reads back by position.** After every run that has left no scope open, let
records with plain keys be written, one after the other, into the list at the end of plain keys. If
the first entry can be opened, then every operation is done. Behind the entries that the list had
before, a record's key is then looked up at the record's position as the value that the record gives
to it last, and as nothing if the record does not give it a value; and behind the last record there
is nothing. The positions are those that an address may have, which are below `2 ^ 64`. -/
theorem run_records_read_back (policy : Policy) (remembered : List String)
    (ops : List (Operation V)) (path : List String) (records : List (List (String × V))) :
    let w := (ofPolicy policy remembered).run ops
    let writes := records.flatMap (Operation.writeRecord path)
    let after := w.run writes
    let m := w.arena.countAt (path.map .key)
    w.cursor = none → path ≠ [] → (∀ key ∈ path, Segment.Plain key) → records ≠ [] →
      (∀ record ∈ records, ∀ p ∈ record, Segment.Plain p.1) →
      (w.apply (.createNamed (Address.opener path))).1 = .ok .done →
    (∀ r ∈ w.trace writes, r.1 = .ok .done) ∧
      (∀ i record key, records[i]? = some record → Segment.Plain key → m + i < Number.twoPow 64 →
        (after.apply (.lookUp (Address.entry path (m + i) ++ "." ++ key))).1 =
          .ok (.found ((record.reverse.lookup key).elim .nothing .value))) ∧
      (m + records.length < Number.twoPow 64 →
        (after.apply (.lookUp (Address.entry path (m + records.length)))).1 =
          .ok (.found .nothing)) := by
  intro w writes after m hc hne hpath hrecords hplain hdone
  have h : w.Sound := sound_run policy remembered ops
  obtain ⟨record, rest, rfl⟩ := List.exists_cons_of_ne_nil hrecords
  obtain ⟨hrecord, hrest⟩ := List.forall_mem_cons.mp hplain
  -- the first entry is opened and filled, and then the others
  obtain ⟨w₁, hopened, h₁⟩ := h.filling hne hpath hdone
  obtain ⟨w₂, hfilled, h₂⟩ := Filling.assignLocals [] h₁ hrecord
  obtain ⟨u, listed, entry, hall, hu, hlist⟩ := Filling.records hne hpath h₂ hrest
  have hwrites : w.AllDone writes u := .cons hopened (hfilled.append hall)
  have hafter : after = u := hwrites.run_eq
  have hpop : w.unfold.pop = w.unfold := Outline.pop_of_none (by rw [unfold_of_global hc])
  have hm : (w.unfold.pop.root.listed path).length = m := by rw [hpop, h.length_listed]
  have hentries : listed ++ [entry] =
      w.unfold.pop.root.listed path ++ (record :: rest).map Tree.ofRecord := by
    rw [hlist]
    simp
  have hget : ∀ i, (listed ++ [entry])[m + i]? = (record :: rest)[i]?.map Tree.ofRecord :=
    fun i => by rw [hentries, ← hm, List.getElem?_append_right (Nat.le_add_right _ i),
      Nat.add_sub_cancel_left, List.getElem?_map]
  obtain ⟨front, last, rfl⟩ := (List.eq_nil_or_concat' path).resolve_left hne
  obtain ⟨hfront, hlast⟩ := List.forall_mem_append.mp hpath
  rw [List.forall_mem_singleton] at hlast
  refine ⟨hwrites.replies, fun i record' key hi hkey hsmall => ?_, fun hsmall => ?_⟩
  · rw [hafter]
    exact hu.lookUp_key hfront hlast hsmall hkey (by rw [hget, hi, Option.map_some])
  · rw [hafter]
    exact hu.lookUp_behind hfront hlast hsmall
      (by rw [hget, List.getElem?_eq_none (Nat.le_refl _), Option.map_none])

/-- Two records behind an entry that is there already. The first one gives two values to a key, and
the second one gives none. -/
theorem records_read_back_behind_entry :
    let w : Workspace Nat := (ofPolicy .default []).run
      [.createNamed "service.list.", .assignLocal "k" 0, .pop]
    let writes := [[("a", 1), ("b", 2), ("a", 3)], []].flatMap
      (Operation.writeRecord ["service", "list"])
    let after := w.run writes
    (∀ r ∈ w.trace writes, r.1 = .ok .done) ∧
      (after.apply (.lookUp "service.list[1].a")).1 = .ok (.found (.value 3)) ∧
      (after.apply (.lookUp "service.list[2].a")).1 = .ok (.found .nothing) ∧
      (after.apply (.lookUp "service.list[3]")).1 = .ok (.found .nothing) := by
  intro w writes after
  obtain ⟨hdone, hfound, hbehind⟩ := run_records_read_back (V := Nat) .default []
    [.createNamed "service.list.", .assignLocal "k" 0, .pop] ["service", "list"]
    [[("a", 1), ("b", 2), ("a", 3)], []] rfl (by simp) (by decide) (by simp) (by decide) rfl
  exact ⟨hdone, hfound 0 _ "a" rfl (by decide) (by decide),
    hfound 1 _ "a" rfl (by decide) (by decide), hbehind (by decide)⟩

end Workspace

end ScopedConfig
