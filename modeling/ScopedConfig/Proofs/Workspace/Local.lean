import ScopedConfig.Proofs.Address.Local
import ScopedConfig.Proofs.Workspace.Leaving

/-!
# Assigning locally at the root

While no scope is open, a local key is a key of the root, and so is the target of the same text as a
name, if the name has one. Both assignments then write the value at the root, under the key that
each has read. So they do the same where the two readings of the text leave the same. Where they do
not, the name has another key or none, and the two assignments can only agree about a value that the
root holds under the local key already.

Key theorems: `Workspace.find?_of_writeAt_root_eq`, `Workspace.run_local_at_root`.
-/

namespace ScopedConfig.Workspace

variable {V : Type} {w : Workspace V} {text key key' : String} {v : V}

theorem assignLocal_of_global (hc : w.cursor = none) (hkey : Address.localKey text = .ok key)
    (v : V) : w.assignLocal text v = w.writeAt [] key v := by
  have hcurrent : w.currentScope = .ok .root := by rw [currentScope, hc]; rfl
  simp only [assignLocal, hkey, hcurrent, Except.bind, writeAt, Arena.walk]

theorem Sound.assign_of_global (h : w.Sound) (hc : w.cursor = none)
    (ht : (w.address text).bind Address.target = .ok ([], key)) (v : V) :
    w.assign text v = w.writeAt [] key v := by
  simp only [Workspace.assign, ht, h.popAnonymous_of_global hc]

/-- A write at the root succeeds and changes the entry, or is refused with the key in the
complaint. -/
theorem writeAt_root_cases {s : Scope V} (hs : w.arena.scopes[ScopeId.root]? = some s)
    (key : String) (v : V) :
    w.writeAt [] key v =
        (.ok (), { w with arena := w.arena.update .root (·.put key (.value v)) }) ∨
      w.writeAt [] key v = (.error (.overwriteFinal key (w.arena.describe .root)), w) ∨
      w.writeAt [] key v = (.error (.addToClosed key (w.arena.describe .root)), w) := by
  simp only [writeAt, Arena.walk]
  rcases Arena.write_cases hs key v with ⟨-, hw⟩ | ⟨-, -, hw⟩ | ⟨-, -, hw⟩
  · exact .inl (by simp only [hw])
  · exact .inr (.inl (by simp only [hw]))
  · exact .inr (.inr (by simp only [hw]))

/-- **Writes at the root under two keys agree only about a value that is there.** -/
theorem find?_of_writeAt_root_eq {s : Scope V} (hs : w.arena.scopes[ScopeId.root]? = some s)
    (hne : key' ≠ key) (h : w.writeAt [] key v = w.writeAt [] key' v) :
    s.find? key = some (.value v) := by
  rcases writeAt_root_cases hs key v with hw | hw | hw <;>
    rcases writeAt_root_cases hs key' v with hw' | hw' | hw' <;> rw [hw, hw'] at h
  · -- one arena has the value under the key, and the other one has the entry that was there
    have harena : w.arena.update .root (·.put key (.value v)) =
        w.arena.update .root (·.put key' (.value v)) := by simpa using h
    have hput : s.put key (.value v) = s.put key' (.value v) := by
      have hroot := Arena.getElem?_update_self (·.put key (.value v)) hs
      rw [harena, Arena.getElem?_update_self _ hs] at hroot
      exact (Option.some.inj hroot).symm
    have hfind := congrArg (·.find? key) hput
    simpa [Scope.find?_put, Ne.symm hne] using hfind.symm
  all_goals exact absurd h (by simp [Ne.symm hne])

/-- A value that was written at the root under a local key is looked up by the text, if both
readings of the text leave the same. -/
theorem Sound.lookUp_of_writeAt_root (h : w.Sound) (hc : w.cursor = none)
    (hkey : Address.localKey text = .ok key) (hsame : Address.compact text = Text.trim text.toList)
    {u : Workspace V} (hu : w.writeAt [] key v = (.ok (), u)) :
    u.apply (.lookUp text) = (.ok (.found (.value v)), u) := by
  obtain ⟨s, hs⟩ := h.arena.root
  have hsound : u.Sound := by
    have hwritten := (h.writeAt hc [] key v).changes.sound h
    rwa [hu] at hwritten
  have hname := Address.ofName_eq_of_localKey hkey w.remembered
  rw [hsame, (Address.parseChars_of_localKey hkey).1] at hname
  rcases writeAt_root_cases hs key v with hw | hw | hw <;> rw [hw] at hu
  · obtain ⟨-, rfl⟩ := Prod.mk.inj hu
    have hroot := Arena.scope_eq (Arena.getElem?_update_self (·.put key (.value v)) hs)
    have hfind : (s.put key (.value v)).find? key = some (.value v) := by
      rw [Scope.find?_put, if_pos rfl]
    simp only [Workspace.apply, Workspace.lookUp, address, hname, Except.map,
      Address.isAnonymous_of_not_mem (a := ⟨_, [.key key]⟩) (by simp), Bool.false_eq_true, if_false,
      hsound.popAnonymous_of_global hc, Arena.lookUp, hroot, hfind, apply.reply]
  · simp at hu
  · simp at hu

theorem apply_assignLocal_eq_iff : w.apply (.assignLocal text v) = w.apply (.assign text v) ↔
    w.assignLocal text v = w.assign text v := by
  constructor
  · intro heq
    obtain ⟨hreply, hstate⟩ := Prod.mk.inj heq
    refine Prod.ext ?_ hstate
    revert hreply
    cases (w.assignLocal text v).1 <;> cases (w.assign text v).1 <;> simp [Except.map]
  · intro heq
    simp only [apply, heq]

/-- **Local keys and names at the root.** After every run that has left no scope open, and for every
text that is a local key and every value: if trimming leaves of the text what is left without its
spaces outside quotes, then assigning locally and assigning to the name are the same, and the value
that was assigned is found under the text. If it does not, then they are the same only where the
root holds this value under the local key already. -/
theorem run_local_at_root (policy : Policy) (remembered : List String) (ops : List (Operation V))
    (text key : String) (v : V) :
    let w := (ofPolicy policy remembered).run ops
    let after := (w.apply (.assignLocal text v)).2
    w.cursor = none → Address.localKey text = .ok key →
      (Address.compact text = Text.trim text.toList →
        w.apply (.assignLocal text v) = w.apply (.assign text v) ∧
        ((w.apply (.assignLocal text v)).1 = .ok .done →
          after.apply (.lookUp text) = (.ok (.found (.value v)), after))) ∧
      (Address.compact text ≠ Text.trim text.toList →
        w.apply (.assignLocal text v) = w.apply (.assign text v) →
          ∃ root, w.arena.scopes[ScopeId.root]? = some root ∧
            root.find? key = some (.value v)) := by
  intro w after hc hkey
  have h : w.Sound := sound_run policy remembered ops
  have hlocal := w.assignLocal_of_global hc hkey v
  obtain ⟨root, hroot⟩ := h.arena.root
  rw [apply_assignLocal_eq_iff]
  rcases Address.target_cases_of_localKey hkey w.remembered with
    ⟨e, ht, hmalformed, hne⟩ | ⟨key', ht, hiff⟩
  · -- the name is refused for what it says, a write at the root only for the policy
    refine ⟨fun hsame => absurd hsame hne, fun _ heq => ?_⟩
    have hassign : w.assign text v = (.error e, w) := by simp only [assign, address, ht]
    rw [hassign, hlocal] at heq
    rcases writeAt_root_cases hroot key v with hw | hw | hw <;> rw [hw] at heq
    · simp at heq
    · obtain rfl := Except.error.inj (Prod.mk.inj heq).1
      simp [Fault.kind, Fault.code, Code.kind] at hmalformed
    · obtain rfl := Except.error.inj (Prod.mk.inj heq).1
      simp [Fault.kind, Fault.code, Code.kind] at hmalformed
  · have hassign := h.assign_of_global hc ht v
    constructor
    · intro hsame
      rw [hiff.mpr hsame] at hassign
      refine ⟨hlocal.trans hassign.symm, fun hdone => ?_⟩
      obtain ⟨_, hok, -⟩ := exists_of_map hdone
      have hwrite : w.writeAt [] key v = (.ok (), after) := hlocal ▸ Prod.ext hok rfl
      exact h.lookUp_of_writeAt_root hc hkey hsame hwrite
    · intro hne heq
      rw [hlocal, hassign] at heq
      exact ⟨root, hroot, find?_of_writeAt_root_eq hroot (fun hk => hne (hiff.mp hk)) heq⟩

/-- A key in quotes between spaces, at a root that has an entry under another key and a list. -/
theorem local_at_root_in_quotes :
    let w : Workspace Nat := empty.run [.createNamed "x.", .pop, .assign "a" 1]
    let after := (w.apply (.assignLocal " 'a. [b'  " 2)).2
    w.cursor = none ∧ Address.localKey " 'a. [b'  " = .ok "a. [b" ∧
      Address.compact " 'a. [b'  " = Text.trim " 'a. [b'  ".toList ∧
      w.apply (.assignLocal " 'a. [b'  " 2) = w.apply (.assign " 'a. [b'  " 2) ∧
      after.apply (.lookUp " 'a. [b'  ") = (.ok (.found (.value 2)), after) := by
  intro w after
  have hc : w.cursor = none := rfl
  have hkey : Address.localKey " 'a. [b'  " = .ok "a. [b" := rfl
  have hsame : Address.compact " 'a. [b'  " = Text.trim " 'a. [b'  ".toList := rfl
  obtain ⟨hagree, hfound⟩ := (run_local_at_root .default []
    [.createNamed "x.", .pop, .assign "a" 1] " 'a. [b'  " "a. [b" 2 hc hkey).1 hsame
  exact ⟨hc, hkey, hsame, hagree, hfound rfl⟩

/-- With a space between two letters, the key that is assigned locally has the space and the name
has not: the value is not found under the text that it was assigned with. -/
theorem local_lost_with_space :
    let w : Workspace Nat := empty
    let after := (w.apply (.assignLocal "a b" 1)).2
    w.cursor = none ∧ Address.localKey "a b" = .ok "a b" ∧
      (w.apply (.assignLocal "a b" 1)).1 = .ok .done ∧ (w.apply (.assign "a b" 1)).1 = .ok .done ∧
      w.apply (.assignLocal "a b" 1) ≠ w.apply (.assign "a b" 1) ∧
      (after.apply (.lookUp "a b")).1 = .ok (.found .nothing) := by
  intro w after
  have hlocal : (after.apply (.lookUp "a b")).1 = .ok (.found .nothing) := rfl
  have hname : ((w.apply (.assign "a b" 1)).2.apply (.lookUp "a b")).1 = .ok (.found (.value 1)) :=
    rfl
  refine ⟨rfl, rfl, rfl, rfl, fun heq => ?_, hlocal⟩
  rw [← heq, hlocal] at hname
  exact absurd hname (by simp)

end ScopedConfig.Workspace
