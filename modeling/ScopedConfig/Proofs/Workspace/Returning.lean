import ScopedConfig.Proofs.Address.Returning
import ScopedConfig.Proofs.Workspace.Reading
import ScopedConfig.Proofs.Workspace.Remembering

/-!
# Coming back to a scope

A creation remembers the segments that lead to its scope, so the names that follow come back to it.
Dots alone stand for all these segments, and a look-up takes the way that the creation made. The
name of the creation itself, shorthand or not, stands for the same address once more, and a second
creation walks along scopes that are there: it creates none, whatever the policies are, and
remembers the same segments.

Key theorems: `Workspace.Sound.exists_of_createNamed`, `Workspace.run_dots_lead_back`,
`Workspace.run_created_again`.
-/

namespace ScopedConfig.Workspace

variable {V : Type} {w t u : Workspace V} {name : String}

/-! ### What a creation does -/

/-- Where a creation at an address ends whose walk came to a scope and left an arena: an anonymous
address has a new scope opened there. -/
def createdAt (t : Workspace V) (a : Address) (id : ScopeId) (b : Arena V) : Workspace V :=
  if a.isAnonymous then
    ⟨b.extend id, some ⟨Address.path a.scopeSegments, b.size⟩, Address.remembered a.text, true⟩
  else ⟨b, t.cursor, Address.remembered a.text, t.isUsingArray⟩

theorem remembered_createdAt (t : Workspace V) (a : Address) (id : ScopeId) (b : Arena V) :
    (t.createdAt a id b).remembered = Address.remembered a.text := by
  unfold createdAt
  split <;> rfl

/-- **What a creation that succeeds has done.** It has left the open scope, walked to the scope of
the address, and opened a new one there for an anonymous address. -/
theorem Sound.exists_of_createNamed (h : w.Sound) (hdone : w.createNamed name = (.ok (), u)) :
    ∃ a t id b, w.address name = .ok a ∧ w.popAnonymous = .ok t ∧
      t.arena.walk .root a.scopeSegments = (.ok id, b) ∧
      u = t.createdAt a id b := by
  obtain ⟨t, ht, c, hc⟩ := h.exists_popAnonymous
  have hsound := c.sound h
  unfold Workspace.createNamed at hdone
  cases ha : w.address name with
  | error e => simp [ha] at hdone
  | ok a =>
    simp only [ha] at hdone
    refine ⟨a, t, ?_⟩
    by_cases hanon : a.isAnonymous = true
    · have hscope : a.scopeSegments = a.segments.dropLast := if_pos hanon
      rw [if_pos hanon, h.createAnonymous_eq a ht, Workspace.openAt, Workspace.createPath] at hdone
      rw [hscope]
      rcases hwalk : t.arena.walk .root a.segments.dropLast with ⟨e | id, b⟩
      · simp [remember, hwalk, Except.map] at hdone
      · obtain ⟨hb, hpath⟩ := hsound.arena.of_walk hwalk
        obtain ⟨s, hs⟩ := hb.exists_of_resolve hpath
        simp only [remember, hwalk, Except.map, hc] at hdone
        cases hclosed : s.policy.isClosed with
        | true => simp [openWith, enter_eq_of_isClosed hpath hs hclosed] at hdone
        | false =>
          simp only [openWith, enter_eq hpath hs hclosed, Prod.mk.injEq, true_and] at hdone
          refine ⟨id, b, rfl, ht, rfl, ?_⟩
          rw [createdAt, if_pos hanon, hscope, ← hdone]
    · have hscope : a.scopeSegments = a.segments := if_neg hanon
      rw [if_neg hanon, ht] at hdone
      simp only [Workspace.createPath] at hdone
      rw [hscope]
      rcases hwalk : t.arena.walk .root a.segments with ⟨e | id, b⟩
      · simp [remember, hwalk, Except.map] at hdone
      · simp only [remember, hwalk, Except.map, Prod.mk.injEq, true_and] at hdone
        refine ⟨id, b, rfl, ht, rfl, ?_⟩
        rw [createdAt, if_neg hanon, ← hdone]

/-- To leave the scope that an anonymous creation has opened appends it to the list of its parent,
and every way that the creation found leads where it led. -/
theorem Sound.popAnonymous_createdAt {a : Address} {id : ScopeId} {b : Arena V} {s : Scope V}
    (h : (t.createdAt a id b).Sound) (hanon : a.isAnonymous = true)
    (hs : b.scopes[id]? = some s) :
    ∃ o p, (t.createdAt a id b).cursor = some o ∧ b.scopes[o.id]? = none ∧
      (t.createdAt a id b).arena.IsChild o.id id ∧ (t.createdAt a id b).popAnonymous = .ok p ∧
      p.arena.scopes[id]? = some { s with appended := s.appended ++ [o.id] } ∧
      ∀ ss found, b.resolve ss = .ok found → p.arena.resolve ss = .ok found := by
  rw [createdAt, if_pos hanon] at h ⊢
  have hchild : (b.extend id).IsChild b.size id := Arena.isChild_extend_self b id
  have hl := h.liveUnder rfl hchild
  refine ⟨_, _, rfl, Array.getElem?_eq_none (Nat.le_refl _), hchild,
    h.popAnonymous_of_open rfl hl, ?_, fun ss found hway => ?_⟩
  · exact Arena.getElem?_update_self _ (Arena.getElem?_extend_of_some id hs)
  · have hextended : (b.extend id).resolve ss = .ok found :=
      Arena.follow_mono (fun _ _ _ hh => Arena.holds_extend_iff.mpr hh) hway
    exact Arena.follow_mono (fun _ _ _ hh => Arena.holds_adopt hh) hextended

theorem Sound.lookUp_of_resolve (h : u.Sound) {a : Address} {id : ScopeId}
    (ha : u.address name = .ok a) (hnamed : .anonymous ∉ a.segments) (ht : u.popAnonymous = .ok t)
    (hpath : t.arena.resolve (Address.path a.segments) = .ok id) :
    u.apply (.lookUp name) = (.ok (.found (.scope id)), t) := by
  have hid := (h.popAnonymous_again ht).1.arena.exists_of_resolve hpath
  have hlook := Arena.lookUp_of_follow a.text hid hnamed hpath
  simp only [Workspace.apply, Workspace.lookUp, ha, Address.isAnonymous_of_not_mem hnamed,
    Bool.false_eq_true, if_false, ht, hlook]
  rfl

/-! ### Dots alone -/

/-- **Dots alone lead back to the scope of the last creation.** After every run and a creation that
succeeds and leaves segments remembered, a look-up of as many dots as there are segments, less one,
finds the scope that the creation walked to. For a named address this is the scope that was created
or was there, and the look-up changes nothing. For an anonymous one it is the parent of the scope
that was opened, which the look-up appends to the list of its parent. -/
theorem run_dots_lead_back (policy : Policy) (remembered : List String) (ops : List (Operation V))
    (name : String) :
    let w := (ofPolicy policy remembered).run ops
    let after := (w.apply (.createNamed name)).2
    let answer := after.apply (.lookUp (Address.dots (after.remembered.length - 1)))
    (w.apply (.createNamed name)).1 = .ok .done → after.remembered ≠ [] →
    ∃ a t id b, w.address name = .ok a ∧ w.popAnonymous = .ok t ∧
      t.arena.walk .root a.scopeSegments = (.ok id, b) ∧
      answer.1 = .ok (.found (.scope id)) ∧
      (a.isAnonymous = false → after.arena = b ∧ answer.2 = after) ∧
      (a.isAnonymous = true → ∃ o s, after.cursor = some o ∧ b.scopes[o.id]? = none ∧
        after.arena.IsChild o.id id ∧ b.scopes[id]? = some s ∧
        answer.2.arena.scopes[id]? = some { s with appended := s.appended ++ [o.id] }) := by
  intro w after answer hdone hne
  have h : w.Sound := sound_run policy remembered ops
  have hafter : after.Sound := (h.apply (.createNamed name)).changes.sound h
  obtain ⟨_, hok, -⟩ := exists_of_map hdone
  obtain ⟨a, t, id, b, ha, ht, hwalk, hu⟩ := h.exists_of_createNamed (u := after) (Prod.ext hok rfl)
  obtain ⟨hb, hpath⟩ := (h.popAnonymous_again ht).1.arena.of_walk hwalk
  refine ⟨a, t, id, b, ha, ht, hwalk, ?_⟩
  have hremembered : after.remembered = Address.remembered a.text :=
    hu ▸ remembered_createdAt t a id b
  have hread := Address.forall₂_remembered ha
  have hretained := Address.retained_remembered ha
  rw [← hremembered] at hread hretained
  obtain ⟨d, hd, hsegments⟩ := Address.exists_ofName_dots hretained hread hne
  have hnamed : .anonymous ∉ d.segments := by
    rw [hsegments]
    exact Address.marker_not_mem_scopeSegments ha
  rw [← hsegments] at hpath
  by_cases hanon : a.isAnonymous = true
  · obtain ⟨s, hs⟩ := hb.exists_of_resolve hpath
    obtain ⟨o, p, ho, hnew, hchild, hpop, hs', hways⟩ :=
      (hu ▸ hafter).popAnonymous_createdAt hanon hs
    rw [← hu] at ho hchild hpop
    have hanswer : answer = (.ok (.found (.scope id)), p) :=
      hafter.lookUp_of_resolve hd hnamed hpop (hways _ _ hpath)
    rw [hanswer]
    exact ⟨rfl, fun h => absurd hanon (by simp [h]), fun _ => ⟨o, s, ho, hnew, hchild, hs, hs'⟩⟩
  · rw [createdAt, if_neg hanon] at hu
    have hpop : after.popAnonymous = .ok after := hafter.popAnonymous_of_global (by
      rw [hu]
      exact (h.popAnonymous_again ht).2.1)
    have hanswer : answer = (.ok (.found (.scope id)), after) :=
      hafter.lookUp_of_resolve hd hnamed hpop (by
        rw [hu]
        exact hpath)
    rw [hanswer]
    refine ⟨rfl, fun _ => ⟨?_, rfl⟩, fun h => absurd h hanon⟩
    rw [hu]

/-- While a scope is open in `a`, another one is opened by shorthand behind a key in quotes. -/
theorem dots_lead_back_behind_entry :
    let w : Workspace Nat := empty.run [.createNamed "a.", .assignLocal "k" 1]
    let after := (w.apply (.createNamed ".'b. c'.")).2
    (w.apply (.createNamed ".'b. c'.")).1 = .ok .done ∧ after.remembered = ["a", "'b. c'"] ∧
      ∃ id o, (after.apply (.lookUp ".")).1 = .ok (.found (.scope id)) ∧ after.cursor = some o ∧
        after.arena.IsChild o.id id := by
  intro w after
  have hdone : (w.apply (.createNamed ".'b. c'.")).1 = .ok .done := rfl
  have hremembered : after.remembered = ["a", "'b. c'"] := rfl
  have hne : after.remembered ≠ [] := by simp [hremembered]
  have haddress : w.address ".'b. c'." =
      .ok ⟨"a.'b. c'.", [.key "a", .key "b. c", .anonymous]⟩ := rfl
  obtain ⟨a, t, id, b, ha, -, -, hanswer, -, hopened⟩ :=
    run_dots_lead_back .default [] _ ".'b. c'." hdone hne
  obtain rfl := Except.ok.inj (ha.symm.trans haddress)
  obtain ⟨o, -, ho, -, hchild, -⟩ := hopened rfl
  exact ⟨hdone, hremembered, id, o, hanswer, ho, hchild⟩

/-! ### The same name -/

/-- **To create a named scope again changes nothing.** After every run that started with nothing
remembered, where no remembered segment leaves a quote open: a creation that succeeds at a named
address succeeds again with the same name, and leaves the whole workspace as it is. The name itself
may leave a quote open. -/
theorem run_created_again (policy : Policy) (ops : List (Operation V)) (name : String) :
    let w := (ofPolicy policy []).run ops
    let after := (w.apply (.createNamed name)).2
    (∀ s ∈ w.remembered, s.toList.foldl Text.quoteAfter none = none) →
    (∀ a, w.address name = .ok a → a.isAnonymous = false) →
    (w.apply (.createNamed name)).1 = .ok .done →
      after.apply (.createNamed name) = (.ok .done, after) := by
  intro w after hclosed hnamed hdone
  have h : w.Sound := sound_run policy [] ops
  have hafter : after.Sound := (h.apply (.createNamed name)).changes.sound h
  obtain ⟨_, hok, -⟩ := exists_of_map hdone
  obtain ⟨a, t, id, b, ha, ht, hwalk, hu⟩ := h.exists_of_createNamed (u := after) (Prod.ext hok rfl)
  obtain ⟨hsound, hc, -⟩ := h.popAnonymous_again ht
  have hanon : ¬a.isAnonymous = true := by simp [hnamed a ha]
  have hscope : a.scopeSegments = a.segments := if_neg hanon
  rw [hscope] at hwalk
  rw [createdAt, if_neg hanon] at hu
  -- the name stands for the same address
  have hretained : Address.Retained w.remembered :=
    (sound_ofPolicy policy []).retained_run ops Address.retained_nil
  have hpieces : ∀ s ∈ w.remembered, Text.pass? '.' none s.toList = some none := fun s hs => by
    obtain ⟨q, hq⟩ := hretained.exists_pass? hs
    rwa [← (Text.pass?_eq_some_iff.mp hq).2, hclosed s hs] at hq
  have hagain : after.address name = .ok a := by
    rw [hu]
    exact Address.ofName_again ha (hnamed a ha) hpieces
  -- the scopes on the way are there, so the walk creates none
  have hpop : after.popAnonymous = .ok after := hafter.popAnonymous_of_global (hu ▸ hc)
  have hremember : after.remember a = after := by
    rw [hu]
    rfl
  obtain ⟨hb, hpath⟩ := hsound.arena.of_walk hwalk
  have hwalk' : after.arena.walk .root a.segments = (.ok id, after.arena) := by
    rw [hu]
    exact Arena.walk_of_follow (Address.marker_not_mem ha (hnamed a ha)) hpath
  simp only [apply, createNamed, hagain, if_neg hanon, hpop, hremember, createPath, hwalk']
  rfl

/-- Behind a scope that is final, two segments are taken by shorthand, and the name leaves a quote
open. -/
theorem created_again_behind_final :
    let w : Workspace Nat := empty.run [.createNamed "x.'y. z'", .finalize (some "x")]
    let after := (w.apply (.createNamed ".. 'q. r")).2
    w.remembered = ["x", "'y. z'"] ∧ (w.apply (.createNamed ".. 'q. r")).1 = .ok .done ∧
      after.apply (.createNamed ".. 'q. r") = (.ok .done, after) := by
  intro w after
  have hremembered : w.remembered = ["x", "'y. z'"] := rfl
  have hdone : (w.apply (.createNamed ".. 'q. r")).1 = .ok .done := rfl
  have hclosed : ∀ s ∈ w.remembered, s.toList.foldl Text.quoteAfter none = none := by
    rw [hremembered]
    decide
  have haddress : w.address ".. 'q. r" =
      .ok ⟨"x.'y. z'.'q. r", [.key "x", .key "y. z", .key "'q. r"]⟩ := rfl
  have hnamed : ∀ a, w.address ".. 'q. r" = .ok a → a.isAnonymous = false := fun a ha => by
    obtain rfl := Except.ok.inj (haddress.symm.trans ha)
    rfl
  exact ⟨hremembered, hdone, run_created_again .default
    [.createNamed "x.'y. z'", .finalize (some "x")] _ hclosed hnamed hdone⟩

end ScopedConfig.Workspace
