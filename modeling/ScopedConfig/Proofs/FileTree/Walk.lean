import Mathlib.Data.List.Lex
import ScopedConfig.FileTree
import ScopedConfig.Proofs.Table

/-!
# Walking a file tree

A walk through a directory comes to each entry in the order of the directory, and to what is below
an entry right behind it. It comes to every place once: a place is the list of the names that lead
to it, and if the names in each directory ascend, the places of the walk ascend name by name.

Key definitions: `FileTree.LeadsTo`, `FileTree.walk`, `FileTree.Ordered`.
Key theorems: `FileTree.mem_walk_iff`, `FileTree.pairwise_walk`, `FileTree.nodup_walk`.
-/

namespace ScopedConfig.FileTree

/-- Names that lead from the entries of a directory to a tree, through directories. -/
inductive LeadsTo : List (String × FileTree) → List String → FileTree → Prop
  | entry {entries : List (String × FileTree)} {name : String} {t : FileTree}
      (mem : (name, t) ∈ entries) : LeadsTo entries [name] t
  | through {entries inner : List (String × FileTree)} {name : String} {path : List String}
      {t : FileTree} (mem : (name, directory inner) ∈ entries) (rest : LeadsTo inner path t) :
      LeadsTo entries (name :: path) t

/-- The place behind a name in front of it. -/
def under (name : String) (p : List String × FileTree) : List String × FileTree :=
  (name :: p.1, p.2)

mutual

/-- What a walk comes to below a tree. -/
def walkBelow : FileTree → List (List String × FileTree)
  | directory entries => walk entries
  | file _ => []
  | unreadable _ => []
  | special => []

/-- What a walk through the entries of a directory comes to, each with its place. -/
def walk : List (String × FileTree) → List (List String × FileTree)
  | [] => []
  | (name, t) :: rest => ([name], t) :: (walkBelow t).map (under name) ++ walk rest

end

/-- The names in the directory and in each directory below it ascend, so that none of them stands
twice. The order is that of their bytes (`Text.bytes_lt_iff`). -/
def Ordered (entries : List (String × FileTree)) : Prop :=
  Table.Sorted entries ∧
    ∀ path inner, LeadsTo entries path (directory inner) → Table.Sorted inner

variable {entries rest : List (String × FileTree)} {name : String} {path : List String}
  {t : FileTree}

/-! ### Places -/

theorem LeadsTo.ne_nil (h : LeadsTo entries path t) : path ≠ [] := by
  cases h <;> exact List.cons_ne_nil _ _

theorem LeadsTo.mono (h : LeadsTo rest path t) (hsub : rest ⊆ entries) :
    LeadsTo entries path t := by
  cases h with
  | entry mem => exact .entry (hsub mem)
  | through mem h => exact .through (hsub mem) h

/-! ### What a walk comes to -/

theorem walk_singleton (name : String) (t : FileTree) :
    walk [(name, t)] = ([name], t) :: (walkBelow t).map (under name) := by
  rw [walk, walk, List.append_nil]

theorem walk_cons (name : String) (t : FileTree) (rest : List (String × FileTree)) :
    walk ((name, t) :: rest) = walk [(name, t)] ++ walk rest := by
  rw [walk_singleton, walk]

theorem mem_walk_cons {p : List String × FileTree} : p ∈ walk ((name, t) :: rest) ↔
    p = ([name], t) ∨ (∃ q ∈ walkBelow t, p = under name q) ∨ p ∈ walk rest := by
  rw [walk, List.cons_append, List.mem_cons, List.mem_append, List.mem_map]
  simp only [eq_comm]

mutual

theorem mem_walkBelow_iff : ∀ {t u : FileTree} {path : List String}, (path, u) ∈ walkBelow t ↔
    ∃ inner, t = directory inner ∧ LeadsTo inner path u
  | directory inner, u, path => by
    rw [walkBelow, mem_walk_iff]
    exact ⟨fun h => ⟨inner, rfl, h⟩, fun ⟨_, heq, h⟩ => by cases heq; exact h⟩
  | file _, _, _ => by simp [walkBelow]
  | unreadable _, _, _ => by simp [walkBelow]
  | special, _, _ => by simp [walkBelow]

/-- **A walk comes to the trees that names lead to.** -/
theorem mem_walk_iff : ∀ {entries : List (String × FileTree)} {path : List String} {u : FileTree},
    (path, u) ∈ walk entries ↔ LeadsTo entries path u
  | [], path, u => by
    rw [walk]
    refine ⟨fun h => absurd h List.not_mem_nil, ?_⟩
    rintro (mem | ⟨mem, -⟩) <;> exact absurd mem List.not_mem_nil
  | (name, t) :: rest, path, u => by
    have hbelow : ∀ p, p ∈ walkBelow t ↔ ∃ inner, t = directory inner ∧ LeadsTo inner p.1 p.2 :=
      fun p => mem_walkBelow_iff
    have hrest : (path, u) ∈ walk rest ↔ LeadsTo rest path u := mem_walk_iff
    rw [mem_walk_cons, hrest]
    constructor
    · rintro (heq | ⟨q, hq, heq⟩ | h)
      · cases heq
        exact .entry (List.mem_cons_self ..)
      · obtain ⟨inner, rfl, h⟩ := (hbelow q).mp hq
        cases heq
        exact .through (List.mem_cons_self ..) h
      · exact h.mono (List.subset_cons_self ..)
    · rintro (mem | ⟨mem, h⟩)
      · rcases List.mem_cons.mp mem with heq | mem
        · cases heq
          exact .inl rfl
        · exact .inr (.inr (.entry mem))
      · rcases List.mem_cons.mp mem with heq | mem
        · cases heq
          exact .inr (.inl ⟨_, (hbelow (_, u)).mpr ⟨_, rfl, h⟩, rfl⟩)
        · exact .inr (.inr (.through mem h))

end

/-! ### The order of a walk -/

theorem Ordered.tail (h : Ordered ((name, t) :: rest)) : Ordered rest :=
  ⟨(Table.sorted_cons.mp h.1).2,
    fun path inner hinner => h.2 path inner (hinner.mono (List.subset_cons_self ..))⟩

theorem Ordered.inner {inner : List (String × FileTree)} (h : Ordered entries)
    (hmem : (name, directory inner) ∈ entries) : Ordered inner :=
  ⟨h.2 [name] inner (.entry hmem), fun path _ hinner => h.2 (name :: path) _ (.through hmem hinner)⟩

theorem LeadsTo.exists_eq_cons (h : LeadsTo entries path t) :
    ∃ name ∈ Table.keys entries, ∃ behind, path = name :: behind := by
  cases h with
  | entry mem => exact ⟨_, List.mem_map.mpr ⟨_, mem, rfl⟩, _, rfl⟩
  | through mem => exact ⟨_, List.mem_map.mpr ⟨_, mem, rfl⟩, _, rfl⟩

mutual

theorem pairwise_walkBelow : ∀ t : FileTree, (∀ inner, t = directory inner → Ordered inner) →
    (walkBelow t).Pairwise fun p q => p.1 < q.1
  | directory inner, h => by
    rw [walkBelow]
    exact pairwise_walk inner (h inner rfl)
  | file _, _ => by rw [walkBelow]; exact .nil
  | unreadable _, _ => by rw [walkBelow]; exact .nil
  | special, _ => by rw [walkBelow]; exact .nil

/-- **The places of a walk ascend**, name by name, and a place stands in front of those below
it. -/
theorem pairwise_walk : ∀ entries : List (String × FileTree), Ordered entries →
    (walk entries).Pairwise fun p q => p.1 < q.1
  | [], _ => by rw [walk]; exact .nil
  | (name, t) :: rest, h => by
    have hbelow : (walkBelow t).Pairwise fun p q => p.1 < q.1 :=
      pairwise_walkBelow t fun inner heq => h.inner (by rw [heq]; exact List.mem_cons_self ..)
    have hrest : (walk rest).Pairwise fun p q => p.1 < q.1 := pairwise_walk rest h.tail
    have hnames : ∀ name' ∈ Table.keys rest, name < name' := (Table.sorted_cons.mp h.1).1
    -- what stands at the entry or below it has the name in front, what follows a greater one
    have hcross : ∀ behind, ∀ q ∈ walk rest, name :: behind < q.1 := by
      intro behind q hq
      obtain ⟨name', hname', behind', heq⟩ := (mem_walk_iff.mp hq).exists_eq_cons
      rw [heq]
      exact .rel (hnames name' hname')
    rw [walk, List.cons_append, List.pairwise_cons, List.pairwise_append, List.pairwise_map]
    refine ⟨?_, hbelow.imp fun hlt => .cons hlt, hrest, ?_⟩
    · intro p hp
      rcases List.mem_append.mp hp with hp | hp
      · obtain ⟨q, hq, rfl⟩ := List.mem_map.mp hp
        obtain ⟨inner, -, hleads⟩ := mem_walkBelow_iff.mp hq
        obtain ⟨b, bs, heq⟩ := List.exists_cons_of_ne_nil hleads.ne_nil
        show [name] < name :: q.1
        rw [heq]
        exact .cons .nil
      · exact hcross [] p hp
    · intro p hp q hq
      obtain ⟨p, -, rfl⟩ := List.mem_map.mp hp
      exact hcross p.1 q hq

end

/-- **A walk comes to each place once.** -/
theorem nodup_walk (h : Ordered entries) : ((walk entries).map (·.1)).Nodup := by
  rw [List.Nodup, List.pairwise_map]
  refine (pairwise_walk entries h).imp fun {p q} hlt heq => ?_
  rw [heq] at hlt
  exact List.lt_irrefl q.1 hlt

end ScopedConfig.FileTree
