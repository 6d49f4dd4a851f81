import Mathlib.Data.List.Chain
import Mathlib.Data.List.Infix
import ScopedConfig.Proofs.Address.Reading
import ScopedConfig.Proofs.Address.Stretch

/-!
# Addresses of paths read back

The address of a path has a dot in front of every key but the first step, and none in front of an
index. So it consists of stretches with dots between them, and it is read as the path again exactly
if each stretch is one segment: if no two steps in a row are indices, and the positions are below
`2 ^ 64`, as the indices of an address have to be.

Key definitions: `Stretch.cut`, `Step.Addressable`.
Key theorems: `Stretch.toList_render`, `Stretch.isSegment_cut_iff`, `Address.ofName_render`,
`Address.ofName_render_of_not_addressable`.
-/

namespace ScopedConfig

open Text

/-! ### The stretches of a path -/

namespace Stretch

/-- The stretches of a path behind the steps of one that is not ended yet. -/
def cutFrom (s : Stretch) : List Step → List Stretch
  | [] => [s]
  | .key k :: path => s :: cutFrom ⟨some k, []⟩ path
  | .index i :: path => cutFrom { s with positions := s.positions ++ [i] } path

/-- The stretches of a path. -/
def cut : List Step → List Stretch
  | [] => []
  | .key k :: path => cutFrom ⟨some k, []⟩ path
  | .index i :: path => cutFrom ⟨none, [i]⟩ path

theorem cutFrom_ne_nil : ∀ (path : List Step) (s : Stretch), cutFrom s path ≠ []
  | [], _ => List.cons_ne_nil _ _
  | .key _ :: _, _ => List.cons_ne_nil _ _
  | .index _ :: path, _ => cutFrom_ne_nil path _

theorem steps_cutFrom : ∀ (path : List Step) (s : Stretch),
    (cutFrom s path).flatMap steps = s.steps ++ path
  | [], s => by simp [cutFrom]
  | .key k :: path, s => by
    rw [cutFrom, List.flatMap_cons, steps_cutFrom path]
    rfl
  | .index i :: path, s => by
    rw [cutFrom, steps_cutFrom path]
    simp [steps]

theorem steps_cut : ∀ path : List Step, (cut path).flatMap steps = path
  | [] => rfl
  | .key _ :: path => steps_cutFrom path _
  | .index _ :: path => steps_cutFrom path _

theorem shown_key {key : String} (h : Segment.Quotable key) : Shown ⟨some key, []⟩ :=
  ⟨fun _ hkey => Option.some.inj hkey ▸ h, fun hnone => absurd hnone (by simp)⟩

theorem shown_index (i : Nat) : Shown ⟨none, [i]⟩ :=
  ⟨fun _ hkey => absurd hkey (by simp), fun _ => List.cons_ne_nil i []⟩

theorem Shown.concat {s : Stretch} (h : s.Shown) (i : Nat) :
    Shown { s with positions := s.positions ++ [i] } :=
  ⟨h.quotable, fun _ => by simp⟩

theorem shown_cutFrom : ∀ {path : List Step} {s : Stretch}, s.Shown →
    (∀ key, Step.key key ∈ path → Segment.Quotable key) → ∀ t ∈ cutFrom s path, t.Shown
  | [], _, hs, _ => List.forall_mem_singleton.mpr hs
  | .key k :: path, s, hs, h => by
    have hk : Segment.Quotable k := h k (List.mem_cons_self ..)
    have ih := shown_cutFrom (shown_key hk) fun key hkey => h key (List.mem_cons_of_mem _ hkey)
    exact List.forall_mem_cons.mpr ⟨hs, ih⟩
  | .index i :: path, s, hs, h => by
    have ih := shown_cutFrom (hs.concat i) fun key hkey => h key (List.mem_cons_of_mem _ hkey)
    exact ih

theorem shown_cut : ∀ {path : List Step},
    (∀ key, Step.key key ∈ path → Segment.Quotable key) → ∀ s ∈ cut path, s.Shown
  | [], _ => List.forall_mem_nil _
  | .key k :: _, h =>
    shown_cutFrom (shown_key (h k (List.mem_cons_self ..)))
      fun key hkey => h key (List.mem_cons_of_mem _ hkey)
  | .index i :: _, h =>
    shown_cutFrom (shown_index i) fun key hkey => h key (List.mem_cons_of_mem _ hkey)

/-! ### The address of a path -/

theorem foldl_appendTo : ∀ {path : List Step} {s : Stretch} (front : List Char), s.Shown →
    (∀ key, Step.key key ∈ path → Segment.Quotable key) →
      path.foldl Step.appendTo (front ++ s.text) =
        front ++ ['.'].intercalate ((cutFrom s path).map text)
  | [], s, front, _, _ => by simp [cutFrom]
  | .key k :: path, s, front, hs, h => by
    have hk : Segment.Quotable k := h k (List.mem_cons_self ..)
    have ih := foldl_appendTo (front ++ s.text ++ ['.']) (shown_key hk)
      fun key hkey => h key (List.mem_cons_of_mem _ hkey)
    have hne : front ++ s.text ≠ [] := List.append_ne_nil_of_right_ne_nil _ hs.text_ne_nil
    have hstep : Step.appendTo (front ++ s.text) (.key k) =
        front ++ s.text ++ ['.'] ++ text ⟨some k, []⟩ := by
      rw [Step.appendTo, if_neg hne]
      simp [text, keyPart]
    obtain ⟨first, others, hcut⟩ := List.exists_cons_of_ne_nil (cutFrom_ne_nil path ⟨some k, []⟩)
    rw [List.foldl_cons, hstep, ih, cutFrom, hcut]
    simp [List.intercalate_cons_cons]
  | .index i :: path, s, front, hs, h => by
    have ih := foldl_appendTo front (hs.concat i) fun key hkey =>
      h key (List.mem_cons_of_mem _ hkey)
    have hstep : Step.appendTo (front ++ s.text) (.index i) =
        front ++ text { s with positions := s.positions ++ [i] } := by
      simp [Step.appendTo, text, keyPart, indexText]
    rw [List.foldl_cons, hstep, ih, cutFrom]

/-- **The address of a path is its stretches with dots between them.** -/
theorem toList_render : ∀ {path : List Step},
    (∀ key, Step.key key ∈ path → Segment.Quotable key) →
      (Step.render path).toList = ['.'].intercalate ((cut path).map text)
  | [], _ => rfl
  | .key k :: path, h => by
    have hk : Segment.Quotable k := h k (List.mem_cons_self ..)
    have hfold := foldl_appendTo [] (shown_key hk) fun key hkey =>
      h key (List.mem_cons_of_mem _ hkey)
    have hstep : Step.appendTo [] (.key k) = [] ++ text ⟨some k, []⟩ := by
      simp [Step.appendTo, text, keyPart]
    rw [Step.render, String.toList_ofList, List.foldl_cons, hstep, hfold]
    rfl
  | .index i :: path, h => by
    have hfold := foldl_appendTo [] (shown_index i) fun key hkey =>
      h key (List.mem_cons_of_mem _ hkey)
    have hstep : Step.appendTo [] (.index i) = [] ++ text ⟨none, [i]⟩ := by
      simp [Step.appendTo, text, keyPart, indexText]
    rw [Step.render, String.toList_ofList, List.foldl_cons, hstep, hfold]
    rfl

end Stretch

/-! ### Paths that can be addressed -/

namespace Step

/-- Not both steps are indices. -/
def Apart : Step → Step → Prop
  | index _, index _ => False
  | _, _ => True

/-- No two steps in a row are indices, and no index is too great for an address. -/
structure Addressable (path : List Step) : Prop where
  apart : path.IsChain Apart
  small : ∀ i, index i ∈ path → i < Number.twoPow 64

theorem apart_key_left (key : String) (step : Step) : Apart (.key key) step := by
  cases step <;> trivial

theorem apart_key_right (key : String) (step : Step) : Apart step (.key key) := by
  cases step <;> trivial

end Step

namespace Stretch

theorem isChain_map_index {positions : List Nat} :
    (positions.map Step.index).IsChain Step.Apart ↔ positions.length ≤ 1 := by
  match positions with
  | [] => simp
  | [i] => simp
  | i :: j :: rest => simp [Step.Apart]

theorem isChain_cons_key {key : String} {path : List Step} :
    (Step.key key :: path).IsChain Step.Apart ↔ path.IsChain Step.Apart := by
  rw [List.isChain_cons]
  exact ⟨fun h => h.2, fun h => ⟨fun step _ => Step.apart_key_left key step, h⟩⟩

theorem single_cutFrom_iff : ∀ {path : List Step} {s : Stretch},
    (∀ t ∈ cutFrom s path, t.positions.length ≤ 1) ↔
      (s.positions.map Step.index ++ path).IsChain Step.Apart
  | [], s => by
    rw [List.append_nil, isChain_map_index]
    exact List.forall_mem_singleton
  | .key k :: path, s => by
    have ih := @single_cutFrom_iff path ⟨some k, []⟩
    rw [List.map_nil, List.nil_append] at ih
    rw [cutFrom, List.forall_mem_cons, ih, List.isChain_append, isChain_map_index, isChain_cons_key]
    refine and_congr_right fun _ => ⟨fun h => ⟨h, fun step _ next hnext => ?_⟩, fun h => h.1⟩
    obtain rfl := Option.some.inj hnext
    exact Step.apart_key_right k step
  | .index i :: path, s => by
    have ih := @single_cutFrom_iff path { s with positions := s.positions ++ [i] }
    rw [cutFrom, ih]
    simp

theorem single_cut_iff : ∀ {path : List Step},
    (∀ s ∈ cut path, s.positions.length ≤ 1) ↔ path.IsChain Step.Apart
  | [] => by simp [cut]
  | .key k :: path => by
    rw [cut, single_cutFrom_iff, isChain_cons_key]
    rfl
  | .index i :: path => single_cutFrom_iff

/-- **The stretches of a path are segments exactly if the path can be addressed.** -/
theorem isSegment_cut_iff {path : List Step} :
    (∀ s ∈ cut path, s.IsSegment) ↔ Step.Addressable path := by
  have hsmall : (∀ s ∈ cut path, ∀ i ∈ s.positions, i < Number.twoPow 64) ↔
      ∀ i, Step.index i ∈ path → i < Number.twoPow 64 := by
    have hmem : ∀ i, Step.index i ∈ path ↔ ∃ s ∈ cut path, i ∈ s.positions := fun i => by
      conv => lhs; rw [← steps_cut path]
      simp [steps]
    simp only [hmem]
    exact ⟨fun h i ⟨s, hs, hi⟩ => h s hs i hi, fun h s hs i hi => h i ⟨s, hs, hi⟩⟩
  constructor
  · intro h
    exact ⟨single_cut_iff.mp fun s hs => (h s hs).single, hsmall.mp fun s hs => (h s hs).small⟩
  · intro h s hs
    exact ⟨single_cut_iff.mpr h.apart s hs, hsmall.mpr h.small s hs⟩

end Stretch

/-! ### Reading the address of a path -/

namespace Address

variable {path : List Step}

theorem ofName_render_eq (hne : path ≠ [])
    (hkeys : ∀ key, Step.key key ∈ path → Segment.Quotable key) (remembered : List String) :
    ofName (Step.render path) remembered =
      (parseSegments (Step.render path) ((Stretch.cut path).map Stretch.text)).map
        (Address.mk (Step.render path)) := by
  have hcut : (Stretch.cut path).map Stretch.text ≠ [] := by
    intro hnil
    have hsteps := Stretch.steps_cut path
    rw [List.map_eq_nil_iff.mp hnil] at hsteps
    exact hne hsteps.symm
  refine ofName_pieces (Stretch.toList_render hkeys) hcut ?_ remembered
  exact List.forall_mem_map.mpr fun s hs => (Stretch.shown_cut hkeys s hs).isPiece

theorem exists_forall₂_parseChars : ∀ {stretches : List Stretch},
    (∀ s ∈ stretches, s.Shown) → (∀ s ∈ stretches, s.IsSegment) →
      ∃ segments, List.Forall₂ (fun piece segment => Segment.parseChars piece = .ok segment)
        (stretches.map Stretch.text) segments ∧ .anonymous ∉ segments ∧
          Address.path segments = stretches.flatMap Stretch.steps
  | [], _, _ => ⟨[], .nil, List.not_mem_nil, rfl⟩
  | s :: stretches, hshown, hsegment => by
    obtain ⟨hs, hshown⟩ := List.forall_mem_cons.mp hshown
    obtain ⟨hone, hsegment⟩ := List.forall_mem_cons.mp hsegment
    obtain ⟨segment, hread, hne, hsteps⟩ := hs.exists_segment hone
    obtain ⟨segments, hall, hmarker, hpath⟩ := exists_forall₂_parseChars hshown hsegment
    refine ⟨segment :: segments, .cons hread hall, ?_, ?_⟩
    · rw [List.mem_cons, not_or]
      exact ⟨Ne.symm hne, hmarker⟩
    · rw [Address.path, List.flatMap_cons, hsteps, List.flatMap_cons, ← hpath]
      rfl

theorem empty_not_mem_text {stretches : List Stretch} (h : ∀ s ∈ stretches, s.Shown) :
    [] ∉ (stretches.map Stretch.text).dropLast := fun hm => by
  obtain ⟨s, hs, hnil⟩ := List.mem_map.mp (List.mem_of_mem_dropLast hm)
  exact (h s hs).text_ne_nil hnil

/-- **The address of a path that can be addressed leads along the path**, whatever is
remembered. -/
theorem ofName_render (hne : path ≠ [])
    (hkeys : ∀ key, Step.key key ∈ path → Segment.Quotable key) (h : Step.Addressable path)
    (remembered : List String) :
    ∃ segments, ofName (Step.render path) remembered = .ok ⟨Step.render path, segments⟩ ∧
      .anonymous ∉ segments ∧ Address.path segments = path := by
  have hshown := Stretch.shown_cut hkeys
  obtain ⟨segments, hall, hmarker, hpath⟩ :=
    exists_forall₂_parseChars hshown (Stretch.isSegment_cut_iff.mpr h)
  refine ⟨segments, ?_, hmarker, hpath.trans (Stretch.steps_cut path)⟩
  rw [ofName_render_eq hne hkeys, parseSegments_eq_ok_iff.mpr ⟨empty_not_mem_text hshown, hall⟩]
  rfl

/-- **The address of any other path is no address**: one of its indices cannot be read. -/
theorem ofName_render_of_not_addressable (hne : path ≠ [])
    (hkeys : ∀ key, Step.key key ∈ path → Segment.Quotable key) (h : ¬Step.Addressable path)
    (remembered : List String) :
    ∃ e, ofName (Step.render path) remembered = .error e ∧
      (e.code = .nameIndexSyntax ∨ e.code = .nameIndexInvalid) := by
  have hshown := Stretch.shown_cut hkeys
  obtain ⟨s, hs, hsegment⟩ : ∃ s ∈ Stretch.cut path, ¬s.IsSegment := by
    simpa using mt Stretch.isSegment_cut_iff.mp h
  rw [ofName_render_eq hne hkeys]
  cases hparse : parseSegments (Step.render path) ((Stretch.cut path).map Stretch.text) with
  | ok segments =>
    obtain ⟨segment, hread⟩ := exists_parseChars_of_mem hparse s.text (List.mem_map_of_mem hs)
    exact absurd hread ((hshown s hs).parseChars_ne_ok hsegment segment)
  | error e =>
    refine ⟨e, rfl, ?_⟩
    exact (code_of_parseSegments hparse).resolve_left fun hc => empty_not_mem_text hshown hc.2

end Address

end ScopedConfig
