import Mathlib.Data.List.Forall2
import ScopedConfig.Proofs.Address.Faults
import ScopedConfig.Proofs.Value.Literal

/-!
# Lists of literals

A list in brackets is read item by item. Where its items are delimited texts with commas between
them, what it is read as follows from what each item is read as by itself: the list of the values if
every item is accepted, and the refusal of the first item that is not. So literals compose, and what
stands next to an item has no part in how it is read.

Key definitions: `Literal.FirstRefused`.
Key theorems: `Literal.mapM_eq_ok_iff`, `Literal.mapM_eq_error_iff`, `Value.ofLiteral_items`.
-/

namespace ScopedConfig

open Text

namespace Literal

variable {α β : Type} {f : α → Except Fault β} {e : Fault}

/-! ### One after the other -/

theorem mapM_cons_of_error {a : α} (h : f a = .error e) (as : List α) :
    (a :: as).mapM f = .error e := by
  rw [List.mapM_cons, h]
  rfl

theorem mapM_cons_of_ok {a : α} {b : β} (h : f a = .ok b) (as : List α) :
    (a :: as).mapM f = (as.mapM f).map (b :: ·) := by
  rw [List.mapM_cons, h]
  cases as.mapM f <;> rfl

/-- **All are accepted** exactly if each is. -/
theorem mapM_eq_ok_iff : ∀ {as : List α} {bs : List β},
    as.mapM f = .ok bs ↔ List.Forall₂ (fun a b => f a = .ok b) as bs
  | [], bs => by
    rw [List.forall₂_nil_left_iff]
    exact ⟨fun h => (Except.ok.inj h).symm, fun h => h ▸ rfl⟩
  | a :: as, bs => by
    rw [List.forall₂_cons_left_iff]
    cases ha : f a with
    | error e => simp [mapM_cons_of_error ha]
    | ok b =>
      rw [mapM_cons_of_ok ha]
      constructor
      · intro h
        obtain ⟨cs, hcs, rfl⟩ := exists_of_map h
        exact ⟨b, cs, rfl, mapM_eq_ok_iff.mp hcs, rfl⟩
      · rintro ⟨b', cs, hb, hcs, rfl⟩
        obtain rfl := Except.ok.inj hb
        rw [mapM_eq_ok_iff.mpr hcs]
        rfl

/-- The first one that is refused is refused for this fault. -/
def FirstRefused (f : α → Except Fault β) (e : Fault) (as : List α) : Prop :=
  ∃ front a behind, as = front ++ a :: behind ∧ (∀ t ∈ front, ∃ b, f t = .ok b) ∧ f a = .error e

theorem firstRefused_cons_iff {a : α} {as : List α} : FirstRefused f e (a :: as) ↔
    f a = .error e ∨ (∃ b, f a = .ok b) ∧ FirstRefused f e as := by
  constructor
  · rintro ⟨front, a', behind, has, hfront, ha'⟩
    cases front with
    | nil =>
      obtain ⟨rfl, -⟩ := List.cons.inj has
      exact .inl ha'
    | cons t front =>
      obtain ⟨rfl, rfl⟩ := List.cons.inj has
      obtain ⟨ha, hfront⟩ := List.forall_mem_cons.mp hfront
      exact .inr ⟨ha, front, a', behind, rfl, hfront, ha'⟩
  · rintro (ha | ⟨ha, front, a', behind, rfl, hfront, ha'⟩)
    · exact ⟨[], a, as, rfl, List.forall_mem_nil _, ha⟩
    · exact ⟨a :: front, a', behind, rfl, List.forall_mem_cons.mpr ⟨ha, hfront⟩, ha'⟩

/-- **The first refusal is the answer.** -/
theorem mapM_eq_error_iff : ∀ {as : List α}, as.mapM f = .error e ↔ FirstRefused f e as
  | [] => by
    constructor
    · intro h
      exact absurd h (by simp [pure, Except.pure])
    · rintro ⟨front, a, behind, has, -⟩
      exact absurd has (by simp)
  | a :: as => by
    rw [firstRefused_cons_iff, ← mapM_eq_error_iff]
    cases ha : f a with
    | error e' => simp [mapM_cons_of_error ha]
    | ok b =>
      rw [mapM_cons_of_ok ha]
      constructor
      · intro h
        exact .inr ⟨⟨b, rfl⟩, eq_error_of_map h⟩
      · rintro (h | ⟨-, h⟩)
        · exact absurd h (by simp)
        · rw [h]
          rfl

end Literal

namespace Value

variable {items : List String}

/-- Delimited texts with commas between them are read one after the other. -/
theorem ofLiteral_bracketed (hne : items ≠ []) (hitems : ∀ t ∈ items, Delimited t.toList)
    (hblank : trim (",".intercalate items).toList ≠ []) :
    ofLiteral ("[" ++ ",".intercalate items ++ "]") = (items.mapM ofLiteral).map .list := by
  have htexts : ∀ t ∈ items.map String.toList, Delimited t := List.forall_mem_map.mpr hitems
  rw [String.toList_intercalate] at hblank
  have hlist := Literal.read_bracketed (by simpa using hne) htexts hblank
  rw [List.mapM_map] at hlist
  rw [ofLiteral, String.toList_append, String.toList_append, String.toList_intercalate]
  exact hlist

/-- **Literals compose to lists.** In brackets and with commas between them, texts that are
delimited and not all blank are a list that is accepted exactly if each text is a literal, and then
holds their values in order. It is refused for what the first text is refused for that is none. -/
theorem ofLiteral_items (hne : items ≠ []) (hitems : ∀ t ∈ items, Delimited t.toList)
    (hblank : trim (",".intercalate items).toList ≠ []) :
    (∀ v, ofLiteral ("[" ++ ",".intercalate items ++ "]") = .ok v ↔
      ∃ vs, v = .list vs ∧ List.Forall₂ (fun t v => ofLiteral t = .ok v) items vs) ∧
    ∀ e, ofLiteral ("[" ++ ",".intercalate items ++ "]") = .error e ↔
      Literal.FirstRefused ofLiteral e items := by
  rw [ofLiteral_bracketed hne hitems hblank]
  constructor
  · intro v
    constructor
    · intro h
      obtain ⟨vs, hvs, rfl⟩ := exists_of_map h
      exact ⟨vs, rfl, Literal.mapM_eq_ok_iff.mp hvs⟩
    · rintro ⟨vs, rfl, hvs⟩
      rw [Literal.mapM_eq_ok_iff.mpr hvs]
      rfl
  · intro e
    constructor
    · exact fun h => Literal.mapM_eq_error_iff.mp (eq_error_of_map h)
    · intro h
      rw [Literal.mapM_eq_error_iff.mpr h]
      rfl

/-- Brackets and a comma behind an escaped quote, brackets of two kinds, and lists in a list. Where
two items are refused, the first one is what the list is refused for. -/
theorem ofLiteral_items_mixed :
    ofLiteral "['a\\',]', [1\x7d ,[true, [ ]]]" = .ok (.list
      [.string "a',]", .string "[1\x7d", .list [.bool true, .list []]]) ∧
    ofLiteral "[b c,\x7ba, b\x7d,\x7bc\x7d]" = .error (.objectLiteral "\x7ba, b\x7d") := by
  have hescaped : ofLiteral "'a\\',]'" = .ok (.string "a',]") := by
    rw [ofLiteral, Literal.read]
    rfl
  have hmixed : ofLiteral " [1\x7d " = .ok (.string "[1\x7d") := by
    rw [ofLiteral, Literal.read]
    rfl
  have htrue : ofLiteral "true" = .ok (.bool true) := Literal.read_keyword rfl
  have hempty : ofLiteral " [ ]" = .ok (.list []) := by
    rw [ofLiteral, Literal.read]
    rfl
  have hnested : ofLiteral "[true, [ ]]" = .ok (.list [.bool true, .list []]) :=
    ((@ofLiteral_items ["true", " [ ]"] (by decide) (by decide) (by decide)).1 _).mpr
      ⟨_, rfl, .cons htrue (.cons hempty .nil)⟩
  have hwords : ofLiteral "b c" = .ok (.string "b c") := by
    rw [ofLiteral, Literal.read]
    rfl
  have hbraces : ofLiteral "\x7ba, b\x7d" = .error (.objectLiteral "\x7ba, b\x7d") := by
    rw [ofLiteral, Literal.read]
    rfl
  have hlist := (@ofLiteral_items ["'a\\',]'", " [1\x7d ", "[true, [ ]]"] (by decide) (by decide)
    (by decide)).1
  have hrefused := (@ofLiteral_items ["b c", "\x7ba, b\x7d", "\x7bc\x7d"] (by decide) (by decide)
    (by decide)).2
  refine ⟨(hlist _).mpr ⟨_, rfl, .cons hescaped (.cons hmixed (.cons hnested .nil))⟩, ?_⟩
  exact (hrefused _).mpr ⟨["b c"], _, _, rfl, List.forall_mem_singleton.mpr ⟨_, hwords⟩, hbraces⟩

end Value

end ScopedConfig
