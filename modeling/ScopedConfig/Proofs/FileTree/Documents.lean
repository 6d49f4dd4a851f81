import ScopedConfig.Command
import ScopedConfig.Proofs.FileTree.Walk
import ScopedConfig.Proofs.Text.Bytes

/-!
# The documents of a directory

The documents below a directory are the regular files whose path ends as that of a document, each of
them once with its text. They are collected in the order of a walk and then sorted by their names.
The order of the names is another one than that of the walk, which compares name by name, and a
backslash in a name counts as a slash, so two documents may have one name; these stay in the order
of the walk.

Key definitions: `FileTree.relative`, `FileTree.IsDocumentPath`, `FileTree.Readable`,
`FileTree.found?`, `FileTree.listing`.
Key theorems: `FileTree.collectAll_eq`, `FileTree.mem_listing_iff`, `FileTree.nodup_listing`,
`FileTree.filter_listing_sublist`, `FileTree.documents_exact`.
-/

namespace ScopedConfig.FileTree

/-! ### Paths -/

/-- The path of a place, from the top of the walk. -/
def relative (path : List String) : String :=
  "/".intercalate path

/-- The name of a document at a place. -/
def documentName (path : List String) : String :=
  slashed (relative path)

/-- The text ends as the path of a document. -/
def EndsAsDocument (text : String) : Prop :=
  ".stml".toList <:+ text.toList

/-- The path of the place ends as that of a document. Where the top of the walk is does not count
for it (`endsAsDocument_append_slash`). -/
def IsDocumentPath (path : List String) : Prop :=
  EndsAsDocument (relative path)

instance (path : List String) : Decidable (IsDocumentPath path) :=
  inferInstanceAs (Decidable (_ <:+ _))

/-- The tree is a regular file, whether it can be read or not. -/
def IsRegular : FileTree → Prop
  | file _ => True
  | unreadable _ => True
  | special => False
  | directory _ => False

/-- Every document below the directory can be read, and its bytes are those of a text. -/
def Readable (entries : List (String × FileTree)) : Prop :=
  ∀ path t, LeadsTo entries path t → IsDocumentPath path → t.IsRegular →
    ∃ source : String, t = file source.toUTF8

/-- The place and the text of what a walk comes to, if it is a document. -/
def found? : List String × FileTree → Option (List String × String)
  | (path, file content) =>
    if IsDocumentPath path then (String.fromUTF8? content).map (path, ·) else none
  | (_, unreadable _) => none
  | (_, special) => none
  | (_, directory _) => none

/-- The document that is found at a place, below a path. -/
def documentAt (front : String) (f : List String × String) : Document :=
  ⟨slashed (front ++ relative f.1), f.2⟩

variable {entries rest : List (String × FileTree)} {name : String} {path : List String}
  {t : FileTree} {source : String}

theorem relative_singleton (name : String) : relative [name] = name :=
  String.intercalate_singleton

theorem relative_cons (name : String) (h : path ≠ []) :
    relative (name :: path) = name ++ "/" ++ relative path :=
  String.intercalate_cons_of_ne_nil h

theorem endsAsDocument_append_slash (front text : String) :
    EndsAsDocument (front ++ "/" ++ text) ↔ EndsAsDocument text := by
  have hnot : '/' ∉ ".stml".toList := by decide
  have htext : (front ++ "/" ++ text).toList = front.toList ++ '/' :: text.toList := by
    simp [String.toList_append]
  rw [EndsAsDocument, htext, EndsAsDocument]
  constructor
  · intro h
    rcases List.suffix_or_suffix_of_suffix h (List.suffix_append front.toList _) with h | h
    · rcases List.suffix_cons_iff.mp h with heq | h
      · exact absurd (heq ▸ List.mem_cons_self ..) hnot
      · exact h
    · exact absurd (h.subset (List.mem_cons_self ..)) hnot
  · intro h
    exact (h.trans (List.suffix_cons ..)).trans (List.suffix_append ..)

theorem isDocumentPath_cons (name : String) (h : path ≠ []) :
    IsDocumentPath (name :: path) ↔ IsDocumentPath path := by
  rw [IsDocumentPath, relative_cons name h, endsAsDocument_append_slash]
  rfl

theorem isDocumentName_iff (name : String) :
    isDocumentName name = true ↔ IsDocumentPath [name] := by
  rw [IsDocumentPath, relative_singleton]
  exact List.isSuffixOf_iff_suffix

/-! ### What is found -/

theorem fromUTF8?_eq_some_iff (content : ByteArray) :
    String.fromUTF8? content = some source ↔ content = source.toUTF8 := by
  unfold String.fromUTF8?
  constructor
  · intro h
    split at h
    · rw [← Option.some.inj h]
      rfl
    · exact nomatch h
  · rintro rfl
    exact dif_pos source.isValidUTF8

theorem found?_eq_some_iff {p : List String × FileTree} :
    found? p = some (path, source) ↔ IsDocumentPath path ∧ p = (path, file source.toUTF8) := by
  obtain ⟨place, t⟩ := p
  cases t with
  | file content =>
    rw [found?]
    by_cases hdoc : IsDocumentPath place
    · rw [if_pos hdoc, Option.map_eq_some_iff]
      constructor
      · rintro ⟨text, htext, heq⟩
        cases heq
        rw [(fromUTF8?_eq_some_iff content).mp htext]
        exact ⟨hdoc, rfl⟩
      · rintro ⟨-, heq⟩
        cases heq
        exact ⟨source, (fromUTF8?_eq_some_iff _).mpr rfl, rfl⟩
    · rw [if_neg hdoc]
      constructor
      · exact fun h => nomatch h
      rintro ⟨hpath, heq⟩
      cases heq
      exact absurd hpath hdoc
  | unreadable reason => simp [found?]
  | special => simp [found?]
  | directory inner => simp [found?]

/-- **The documents at their places** are what a walk finds. -/
theorem mem_found_iff : (path, source) ∈ (walk entries).filterMap found? ↔
    IsDocumentPath path ∧ LeadsTo entries path (file source.toUTF8) := by
  rw [List.mem_filterMap]
  constructor
  · rintro ⟨p, hp, hfound⟩
    obtain ⟨hdoc, rfl⟩ := found?_eq_some_iff.mp hfound
    exact ⟨hdoc, mem_walk_iff.mp hp⟩
  · rintro ⟨hdoc, h⟩
    exact ⟨_, mem_walk_iff.mpr h, found?_eq_some_iff.mpr ⟨hdoc, rfl⟩⟩

theorem found?_under (name : String) {p : List String × FileTree} (h : p.1 ≠ []) :
    found? (under name p) = (found? p).map fun f => (name :: f.1, f.2) := by
  obtain ⟨path, t⟩ := p
  cases t with
  | file content =>
    simp only [under, found?, isDocumentPath_cons name h]
    split
    · rw [Option.map_map]
      rfl
    · rfl
  | unreadable reason => rfl
  | special => rfl
  | directory inner => rfl

theorem found_under (name : String) (inner : List (String × FileTree)) :
    (([name], directory inner) :: (walk inner).map (under name)).filterMap found? =
      ((walk inner).filterMap found?).map fun f => (name :: f.1, f.2) := by
  rw [List.filterMap_cons_none rfl, List.filterMap_map, List.map_filterMap]
  refine List.filterMap_congr fun p hp => found?_under name ?_
  exact (mem_walk_iff.mp hp).ne_nil

theorem map_fst_found_sublist : ∀ l : List (List String × FileTree),
    ((l.filterMap found?).map (·.1)).Sublist (l.map (·.1))
  | [] => .slnil
  | p :: l => by
    have ih := map_fst_found_sublist l
    rw [List.filterMap_cons]
    cases hfound : found? p with
    | none => exact ih.cons _
    | some f =>
      obtain ⟨-, rfl⟩ := found?_eq_some_iff.mp (show found? p = some (f.1, f.2) from hfound)
      exact ih.cons_cons _

/-! ### Collecting -/

theorem Readable.mono (h : Readable entries) (hsub : rest ⊆ entries) : Readable rest :=
  fun path t hleads => h path t (hleads.mono hsub)

theorem Readable.inner {inner : List (String × FileTree)}
    (h : Readable [(name, directory inner)]) : Readable inner := by
  intro path t hleads hdoc
  refine h (name :: path) t (.through (List.mem_cons_self ..) hleads) ?_
  exact (isDocumentPath_cons name hleads.ne_nil).mpr hdoc

theorem document_of_not {front : String} {text : Except Fault String}
    (h : ¬ IsDocumentPath [name]) : document front name text = .ok [] :=
  if_neg fun hname => h ((isDocumentName_iff name).mp hname)

theorem document_of_isDocumentPath {front : String} (h : IsDocumentPath [name]) :
    document front name (decode source.toUTF8) = .ok [documentAt front ([name], source)] := by
  have hdecode : decode source.toUTF8 = .ok source := by
    rw [decode, (fromUTF8?_eq_some_iff _).mpr rfl]
  rw [document, if_pos ((isDocumentName_iff name).mpr h), hdecode, documentAt, relative_singleton]
  rfl

mutual

theorem collect_eq (front name : String) : ∀ t : FileTree, Readable [(name, t)] →
    collect front name t = .ok (((walk [(name, t)]).filterMap found?).map (documentAt front))
  | directory inner, h => by
    have hinner := collectAll_eq (front ++ name ++ "/") inner h.inner
    rw [collect, hinner, walk_singleton, walkBelow, found_under, List.map_map]
    congr 1
    refine List.map_congr_left fun f hf => ?_
    obtain ⟨-, hleads⟩ := mem_found_iff.mp hf
    simp only [Function.comp_apply, documentAt, relative_cons name hleads.ne_nil,
      String.append_assoc]
  | file content, h => by
    rw [collect, walk_singleton, walkBelow, List.map_nil]
    by_cases hdoc : IsDocumentPath [name]
    · obtain ⟨source, heq⟩ := h [name] _ (.entry (List.mem_cons_self ..)) hdoc trivial
      cases heq
      rw [document_of_isDocumentPath hdoc, List.filterMap_cons_some
        (found?_eq_some_iff.mpr ⟨hdoc, rfl⟩)]
      rfl
    · have hnone : found? ([name], file content) = none := if_neg hdoc
      rw [document_of_not hdoc, List.filterMap_cons_none hnone]
      rfl
  | unreadable reason, h => by
    have hnot : ¬ IsDocumentPath [name] := by
      intro hdoc
      obtain ⟨source, heq⟩ := h [name] _ (.entry (List.mem_cons_self ..)) hdoc trivial
      exact nomatch heq
    rw [collect, document_of_not hnot]
    rfl
  | special, _ => rfl

/-- **What is collected is what a walk finds**, in the order of the walk. -/
theorem collectAll_eq (front : String) : ∀ entries : List (String × FileTree), Readable entries →
    collectAll front entries = .ok (((walk entries).filterMap found?).map (documentAt front))
  | [], _ => rfl
  | (name, t) :: rest, h => by
    have hentry := collect_eq front name t (h.mono (by simp))
    have hrest := collectAll_eq front rest (h.mono (List.subset_cons_self ..))
    rw [collectAll, hentry, hrest, walk_cons name t rest, List.filterMap_append, List.map_append]
    rfl

end

/-! ### Sorting -/

/-- Two names, the lesser one first. -/
def inOrder (f g : List String × String) : Bool :=
  decide (documentName f.1 ≤ documentName g.1)

/-- What is found below a directory, in the order of the names. -/
def listing (entries : List (String × FileTree)) : List (List String × String) :=
  ((walk entries).filterMap found?).mergeSort inOrder

theorem inOrder_trans (f g h : List String × String) (hfg : inOrder f g = true)
    (hgh : inOrder g h = true) : inOrder f h = true :=
  decide_eq_true (le_trans (of_decide_eq_true hfg) (of_decide_eq_true hgh))

theorem inOrder_total (f g : List String × String) : (inOrder f g || inOrder g f) = true := by
  rw [Bool.or_eq_true, inOrder, inOrder, decide_eq_true_iff, decide_eq_true_iff]
  exact le_total _ _

/-- **Equal names keep their order.** What has one name stands in its order before the sort, so it
is a part of the sorted list, and the sort adds nothing with the name. -/
theorem filter_mergeSort (l : List (List String × String)) (name : String) :
    ((l.mergeSort inOrder).filter fun f => documentName f.1 = name) =
      l.filter fun f => documentName f.1 = name := by
  have hequal : (l.filter fun f => documentName f.1 = name).Pairwise
      fun f g => inOrder f g = true := by
    refine List.pairwise_of_forall_mem_list fun f hf g hg => decide_eq_true ?_
    rw [of_decide_eq_true (List.mem_filter.mp hf).2, of_decide_eq_true (List.mem_filter.mp hg).2]
  have hsub : (l.filter fun f => documentName f.1 = name).Sublist (l.mergeSort inOrder) :=
    List.sublist_mergeSort inOrder_trans inOrder_total hequal List.filter_sublist
  have hfilter := hsub.filter fun f => documentName f.1 = name
  rw [List.filter_filter] at hfilter
  simp only [Bool.and_self] at hfilter
  refine (hfilter.eq_of_length ?_).symm
  exact ((List.mergeSort_perm l inOrder).filter _).length_eq.symm

theorem documents_eq (h : Readable entries) :
    documents entries = .ok ((listing entries).map fun f => ⟨documentName f.1, f.2⟩) := by
  have hmap : ((walk entries).filterMap found?).map (documentAt "") =
      ((walk entries).filterMap found?).map fun f => ⟨documentName f.1, f.2⟩ := by
    refine List.map_congr_left fun f _ => ?_
    rw [documentAt, String.empty_append, documentName]
  have hsort : (listing entries).map (fun f => (⟨documentName f.1, f.2⟩ : Document)) =
      (((walk entries).filterMap found?).map fun f => ⟨documentName f.1, f.2⟩).mergeSort
        fun d e => decide (d.name ≤ e.name) :=
    List.map_mergeSort fun _ _ _ _ => rfl
  rw [documents, collectAll_eq "" entries h, hmap, hsort]
  rfl

/-! ### What is loaded -/

theorem listing_perm (entries : List (String × FileTree)) :
    (listing entries).Perm ((walk entries).filterMap found?) :=
  List.mergeSort_perm _ inOrder

/-- **The documents at their places** are what is listed. -/
theorem mem_listing_iff : (path, source) ∈ listing entries ↔
    IsDocumentPath path ∧ LeadsTo entries path (file source.toUTF8) :=
  (listing_perm entries).mem_iff.trans mem_found_iff

theorem nodup_listing (h : Ordered entries) : ((listing entries).map (·.1)).Nodup := by
  have hfound : (((walk entries).filterMap found?).map (·.1)).Nodup :=
    (nodup_walk h).sublist (map_fst_found_sublist (walk entries))
  exact ((listing_perm entries).map (·.1)).nodup_iff.mpr hfound

/-- **The names are listed in the order of their bytes.** -/
theorem pairwise_listing (entries : List (String × FileTree)) :
    (listing entries).Pairwise fun f g =>
      Text.bytes (documentName f.1) ≤ Text.bytes (documentName g.1) := by
  have hsorted : (listing entries).Pairwise fun f g => inOrder f g = true :=
    List.pairwise_mergeSort inOrder_trans inOrder_total _
  exact hsorted.imp fun hfg => Text.bytes_le_iff.mpr (of_decide_eq_true hfg)

/-- **Documents with one name are listed as a walk comes to them.** -/
theorem filter_listing_sublist (entries : List (String × FileTree)) (name : String) :
    (((listing entries).map (·.1)).filter fun path => documentName path = name).Sublist
      ((walk entries).map (·.1)) := by
  have hnamed : ((listing entries).filter fun f => documentName f.1 = name) =
      ((walk entries).filterMap found?).filter fun f => documentName f.1 = name :=
    filter_mergeSort _ name
  have hsub : (((walk entries).filterMap found?).filter fun f => documentName f.1 = name).Sublist
      ((walk entries).filterMap found?) := List.filter_sublist
  rw [List.filter_map]
  show (((listing entries).filter fun f => documentName f.1 = name).map (·.1)).Sublist _
  rw [hnamed]
  exact (hsub.map (·.1)).trans (map_fst_found_sublist (walk entries))

/-- **A batch loads exactly the documents, in order.** In a directory whose names ascend and whose
documents can be read, and which holds a document, each document is loaded once, with its text and
with its path from the directory, and nothing else is. The bytes of the names do not descend, and
documents with the same name stand in the order of the walk. The batch then runs what was loaded. -/
theorem documents_exact (hordered : Ordered entries) (hreadable : Readable entries)
    (hsome : ∃ path t, LeadsTo entries path t ∧ IsDocumentPath path ∧ t.IsRegular) :
    ∃ loaded : List (List String × String),
      documents entries = .ok (loaded.map fun f => ⟨documentName f.1, f.2⟩) ∧ loaded ≠ [] ∧
      (∀ path source, (path, source) ∈ loaded ↔
        IsDocumentPath path ∧ LeadsTo entries path (file source.toUTF8)) ∧
      (loaded.map (·.1)).Nodup ∧
      (loaded.Pairwise fun f g =>
        Text.bytes (documentName f.1) ≤ Text.bytes (documentName g.1)) ∧
      (∀ name, ((loaded.map (·.1)).filter fun path => documentName path = name).Sublist
        ((walk entries).map (·.1))) ∧
      ∀ top, Request.runDirectory top (some (directory entries)) =
        Document.runAll (loaded.map fun f => ⟨documentName f.1, f.2⟩) := by
  have hdocs := documents_eq hreadable
  have hne : listing entries ≠ [] := by
    obtain ⟨path, t, hleads, hdoc, hregular⟩ := hsome
    obtain ⟨source, rfl⟩ := hreadable path t hleads hdoc hregular
    exact List.ne_nil_of_mem (mem_listing_iff.mpr ⟨hdoc, hleads⟩)
  refine ⟨listing entries, hdocs, hne, fun _ _ => mem_listing_iff, nodup_listing hordered,
    pairwise_listing entries, filter_listing_sublist entries, fun top => ?_⟩
  rw [Request.runDirectory, hdocs]
  exact if_neg (by simpa using hne)

/-- The file in front of the directory in the order of the names stands behind it in the walk, two
files have one name, and a directory has the name of a document. -/
theorem documents_exact_of_same_name :
    let entries : List (String × FileTree) :=
      [("a", directory [("b.stml", file "get x".toUTF8)]), ("a.stml", file "get y".toUTF8),
        ("a\\b.stml", file "get z".toUTF8), ("c.stml", directory [])]
    Ordered entries ∧ Readable entries ∧
      documents entries = .ok [⟨"a.stml", "get y"⟩, ⟨"a/b.stml", "get x"⟩, ⟨"a/b.stml", "get z"⟩] ∧
      ∀ top, Request.runDirectory top (some (directory entries)) =
        Document.runAll [⟨"a.stml", "get y"⟩, ⟨"a/b.stml", "get x"⟩, ⟨"a/b.stml", "get z"⟩] := by
  intro entries
  have hwalk : walk entries = [(["a"], directory [("b.stml", file "get x".toUTF8)]),
      (["a", "b.stml"], file "get x".toUTF8), (["a.stml"], file "get y".toUTF8),
      (["a\\b.stml"], file "get z".toUTF8), (["c.stml"], directory [])] := rfl
  have hordered : Ordered entries := by
    refine ⟨by decide, fun path inner h => ?_⟩
    have hmem := mem_walk_iff.mpr h
    simp only [hwalk, List.mem_cons, Prod.mk.injEq, directory.injEq, reduceCtorEq, and_false,
      false_or, List.not_mem_nil, or_false] at hmem
    rcases hmem with ⟨-, rfl⟩ | ⟨-, rfl⟩ <;> decide
  have hreadable : Readable entries := by
    intro path t h hdoc hregular
    have hmem := mem_walk_iff.mpr h
    simp only [hwalk, List.mem_cons, Prod.mk.injEq, List.not_mem_nil, or_false] at hmem
    rcases hmem with ⟨-, rfl⟩ | ⟨-, rfl⟩ | ⟨-, rfl⟩ | ⟨-, rfl⟩ | ⟨-, rfl⟩
    · exact hregular.elim
    · exact ⟨_, rfl⟩
    · exact ⟨_, rfl⟩
    · exact ⟨_, rfl⟩
    · exact hregular.elim
  have hlisting : listing entries =
      [(["a.stml"], "get y"), (["a", "b.stml"], "get x"), (["a\\b.stml"], "get z")] := by
    have hfound : (walk entries).filterMap found? =
        [(["a", "b.stml"], "get x"), (["a.stml"], "get y"), (["a\\b.stml"], "get z")] := rfl
    have hfirst : inOrder (["a", "b.stml"], "get x") (["a.stml"], "get y") = false := by decide
    have hlast : inOrder (["a.stml"], "get y") (["a\\b.stml"], "get z") = true := by decide
    have hsame : inOrder (["a", "b.stml"], "get x") (["a\\b.stml"], "get z") = true := by decide
    simp [listing, hfound, List.mergeSort, List.MergeSort.Internal.splitInTwo, hfirst, hlast, hsame]
  have hdocs : documents entries =
      .ok [⟨"a.stml", "get y"⟩, ⟨"a/b.stml", "get x"⟩, ⟨"a/b.stml", "get z"⟩] := by
    rw [documents_eq hreadable, hlisting]
    rfl
  obtain ⟨loaded, hloaded, -, -, -, -, -, hrun⟩ := documents_exact hordered hreadable
    ⟨["a.stml"], _, .entry (List.mem_cons_of_mem _ (List.mem_cons_self ..)), by decide, trivial⟩
  refine ⟨hordered, hreadable, hdocs, fun top => ?_⟩
  rw [hrun top, Except.ok.inj (hloaded.symm.trans hdocs)]

end ScopedConfig.FileTree
