import Letterhead.Proofs.Text.Pieces
import Letterhead.Setting.Constraint
import Mathlib.Data.List.Forall2
/-
# Lists among the settings

A source that has no lists gives one as a text with commas. Which items a value gives is a
relation (`Setting.Gives`), and the constraint looks at a value through it alone
(`coerce_of_gives`): so a text and a list of the same items come to the same
(`list_settings_agree`). What it makes of the items has a normal form, the items that are not
blank without the blanks around them, and what is in it stays as it is.
-/
namespace Letterhead

open Text

namespace Setting

variable {v : Setting} {vs : List Setting} {items kept : List Text}

/-! ## The items of a value -/

/-- The value gives these items: it is a list of them, or a tuple, or a text that has commas
between them and nowhere else. -/
inductive Gives : Setting → List Text → Prop
  | list (items : List Text) : Gives (.list (items.map .text)) items
  | tuple (items : List Text) : Gives (.tuple (items.map .text)) items
  | text {items : List Text} (hne : items ≠ []) (hfree : ∀ s ∈ items, ',' ∉ s) :
    Gives (.text (joinWith [','] items)) items

theorem texts?_map_text (items : List Text) : texts? (items.map .text) = some items := by
  induction items with
  | nil => rfl
  | cons s items ih => simp [texts?, ih]

theorem texts?_eq_some_iff : texts? vs = some items ↔ vs = items.map .text := by
  constructor
  · intro h
    induction vs generalizing items with
    | nil =>
      obtain rfl : items = [] := by simpa [texts?, eq_comm] using h
      rfl
    | cons v vs ih =>
      cases v with
      | text s =>
        obtain ⟨rest, hrest, rfl⟩ := Option.map_eq_some_iff.1 h
        rw [ih hrest, List.map_cons]
      | _ => simp [texts?] at h
  · rintro rfl
    exact texts?_map_text items

theorem items?_eq_some_iff : items? v = some items ↔ v.Gives items := by
  constructor
  · intro h
    cases v with
    | text s =>
      obtain rfl : splitOn ',' s = items := Option.some.inj h
      have hgives := Gives.text (splitOn_ne_nil ',' s) fun _ hp => notMem_of_mem_splitOn hp
      rwa [joinWith_splitOn] at hgives
    | list vs =>
      obtain rfl := texts?_eq_some_iff.1 h
      exact .list items
    | tuple vs =>
      obtain rfl := texts?_eq_some_iff.1 h
      exact .tuple items
    | _ => simp [items?] at h
  · intro h
    cases h with
    | list => exact texts?_map_text items
    | tuple => exact texts?_map_text items
    | text hne hfree => exact congrArg some (splitOn_joinWith hne hfree)

/-! ## What is kept of the items -/

/-- What is kept of items: of each that is not blank, in their order, what stripping leaves. -/
def Keeps (items kept : List Text) : Prop :=
  List.Forall₂ Strips (items.filter fun s => !s.all isBlank) kept

/-- No item is empty, and none has blanks at its ends. -/
def IsClean (items : List Text) : Prop := ∀ s ∈ items, s ≠ [] ∧ s.Trimmed

theorem isEmpty_strip (s : Text) : (strip s).isEmpty = s.all isBlank := by
  rw [Bool.eq_iff_iff, List.isEmpty_iff, strip_eq_nil_iff, List.all_eq_true]

theorem cleaned_cons (s : Text) (items : List Text) :
    cleaned (s :: items) = if s.all isBlank then cleaned items else strip s :: cleaned items := by
  unfold cleaned
  rw [List.map_cons, List.filter_cons, isEmpty_strip]
  by_cases hs : s.all isBlank = true <;> simp [hs]

theorem keeps_cleaned (items : List Text) : Keeps items (cleaned items) := by
  unfold Keeps
  induction items with
  | nil => exact .nil
  | cons s items ih =>
    rw [cleaned_cons, List.filter_cons]
    by_cases hs : s.all isBlank = true
    · simpa [hs] using ih
    · simpa [hs] using ⟨strips_strip s, ih⟩

theorem isClean_cleaned (items : List Text) : IsClean (cleaned items) := by
  intro s hs
  obtain ⟨hmem, hne⟩ := List.mem_filter.1 hs
  obtain ⟨t, -, rfl⟩ := List.mem_map.1 hmem
  obtain ⟨-, -, -, -, -, htrimmed⟩ := strips_strip t
  exact ⟨by simpa using hne, htrimmed⟩

/-- Clean items are all kept, as they are. -/
theorem cleaned_of_isClean (h : IsClean items) : cleaned items = items := by
  induction items with
  | nil => rfl
  | cons s items ih =>
    obtain ⟨⟨hne, hs⟩, hitems⟩ := List.forall_mem_cons.1 h
    have hstrip : strip s = s := strip_eq_iff.2 hs.strips
    have hsolid : ¬ s.all isBlank = true := by
      rw [← isEmpty_strip, hstrip]
      simpa using hne
    rw [cleaned_cons, if_neg hsolid, hstrip, ih hitems]

theorem cleaned_ne_nil_iff : cleaned items ≠ [] ↔ ∃ s ∈ items, ∃ c ∈ s, isBlank c = false := by
  induction items with
  | nil => simp [cleaned]
  | cons s items ih =>
    rw [cleaned_cons, List.exists_mem_cons_iff]
    by_cases hs : s.all isBlank = true
    · have hblank : ¬ ∃ c ∈ s, isBlank c = false := by
        rintro ⟨c, hc, hsolid⟩
        have := List.all_eq_true.1 hs c hc
        simp [hsolid] at this
      rw [if_pos hs, ih, or_iff_right hblank]
    · have hsolid : ∃ c ∈ s, isBlank c = false := by simpa using hs
      rw [if_neg hs]
      exact iff_of_true (by simp) (.inl hsolid)

end Setting

open Setting

namespace Constraint

variable {v w : Setting} {items : List Text}

/-- What the constraint makes of a value is a matter of its items. -/
theorem coerce_of_gives (h : v.Gives items) (allowEmpty : Bool) :
    (list allowEmpty).coerce v =
      if allowEmpty ∨ cleaned items ≠ [] then .ok (.list ((cleaned items).map .text))
      else .error .emptyList := by
  rw [coerce, asList, items?_eq_some_iff.2 h]
  by_cases hkept : allowEmpty ∨ cleaned items ≠ []
  · have hif : (allowEmpty || !(cleaned items).isEmpty) = true := by simpa using hkept
    simp [hif, hkept, Except.map]
  · have hif : ¬ (allowEmpty || !(cleaned items).isEmpty) = true := by simpa using hkept
    simp only [if_neg hif, if_neg hkept, Except.map]

theorem coerce_list_eq_ok {allowEmpty : Bool} :
    (list allowEmpty).coerce v = .ok w ↔ ∃ items, v.Gives items ∧
      (allowEmpty ∨ cleaned items ≠ []) ∧ w = .list ((cleaned items).map .text) := by
  constructor
  · intro h
    cases hv : items? v with
    | none => simp [coerce, asList, hv, Except.map] at h
    | some items =>
      have hgives := items?_eq_some_iff.1 hv
      rw [coerce_of_gives hgives] at h
      by_cases hkept : allowEmpty ∨ cleaned items ≠ []
      · rw [if_pos hkept] at h
        exact ⟨items, hgives, hkept, (Except.ok.inj h).symm⟩
      · rw [if_neg hkept] at h
        cases h
  · rintro ⟨items, hgives, hkept, rfl⟩
    rw [coerce_of_gives hgives, if_pos hkept]

/-- The joined text of no items gives one item, which is blank, so that nothing is kept of it
either. -/
theorem coerce_joinWith (hfree : ∀ s ∈ items, ',' ∉ s) (allowEmpty : Bool) :
    (list allowEmpty).coerce (.text (joinWith [','] items)) =
      (list allowEmpty).coerce (.list (items.map .text)) := by
  rw [coerce_of_gives (.list items)]
  by_cases hnil : items = []
  · subst hnil
    have hone : (Setting.text (joinWith [','] [[]])).Gives [[]] := .text (by simp) (by simp)
    exact coerce_of_gives hone allowEmpty
  · rw [coerce_of_gives (.text hnil hfree)]

/-- What the constraint makes of a value it makes of itself. -/
theorem coerce_again {allowEmpty : Bool} (h : (list allowEmpty).coerce v = .ok w) :
    (list allowEmpty).coerce w = .ok w := by
  obtain ⟨items, -, hkept, rfl⟩ := coerce_list_eq_ok.1 h
  have hclean : cleaned (cleaned items) = cleaned items :=
    cleaned_of_isClean (isClean_cleaned items)
  exact coerce_list_eq_ok.2 ⟨_, .list _, by rwa [hclean], by rw [hclean]⟩

end Constraint

/-- A text with commas between its items and a list of them come to the same list, or are refused
for the same reason. A value is accepted if it gives items, and if nothing may be left out, one
that is not blank. It comes to its items, in their order, without those that are blank and
without the blanks around the others; and what it comes to stays as it is. -/
theorem list_settings_agree (allowEmpty : Bool) :
    (∀ items : List Text, (∀ s ∈ items, ',' ∉ s) →
      (Constraint.list allowEmpty).coerce (.text (joinWith [','] items)) =
        (Constraint.list allowEmpty).coerce (.list (items.map .text))) ∧
    (∀ v, (∃ w, (Constraint.list allowEmpty).coerce v = .ok w) ↔ ∃ items, v.Gives items ∧
      (allowEmpty ∨ ∃ s ∈ items, ∃ c ∈ s, isBlank c = false)) ∧
    ∀ v w, (Constraint.list allowEmpty).coerce v = .ok w →
      (∃ items kept, v.Gives items ∧ w = .list (kept.map .text) ∧ Keeps items kept ∧
        IsClean kept) ∧
      (Constraint.list allowEmpty).coerce w = .ok w := by
  refine ⟨fun items hfree => Constraint.coerce_joinWith hfree allowEmpty, fun v => ?_,
    fun v w h => ⟨?_, Constraint.coerce_again h⟩⟩
  · simp only [Constraint.coerce_list_eq_ok, cleaned_ne_nil_iff]
    constructor
    · rintro ⟨w, items, hgives, hkept, -⟩
      exact ⟨items, hgives, hkept⟩
    · rintro ⟨items, hgives, hkept⟩
      exact ⟨_, items, hgives, hkept, rfl⟩
  · obtain ⟨items, hgives, -, rfl⟩ := Constraint.coerce_list_eq_ok.1 h
    exact ⟨items, cleaned items, hgives, rfl, keeps_cleaned items, isClean_cleaned items⟩

/-- Items with blanks around them, and one between them that is blank. -/
def paddedItems : List Text := [" js".toList, "\t".toList, "html twig\n".toList]

theorem list_settings_agree_padded :
    (∀ s ∈ paddedItems, ',' ∉ s) ∧
    (Constraint.list false).coerce (.text " js,\t,html twig\n".toList) =
      (Constraint.list false).coerce (.list (paddedItems.map .text)) ∧
    (∃ w, (Constraint.list false).coerce (.tuple (paddedItems.map .text)) = .ok w) ∧
    (Constraint.list false).coerce (.tuple (paddedItems.map .text)) =
      .ok (.list (["js".toList, "html twig".toList].map .text)) ∧
    (Constraint.list false).coerce (.list (["js".toList, "html twig".toList].map .text)) =
      .ok (.list (["js".toList, "html twig".toList].map .text)) := by
  have hfree : ∀ s ∈ paddedItems, ',' ∉ s := by decide +kernel
  have hsolid : ∃ s ∈ paddedItems, ∃ c ∈ s, isBlank c = false :=
    ⟨" js".toList, List.mem_cons_self, 'j', by decide, by decide⟩
  have hcoerce : (Constraint.list false).coerce (.tuple (paddedItems.map .text)) =
      .ok (.list (["js".toList, "html twig".toList].map .text)) := by
    have hkept : cleaned paddedItems = ["js".toList, "html twig".toList] := by decide +kernel
    rw [Constraint.coerce_of_gives (.tuple paddedItems), hkept]
    simp
  obtain ⟨hagree, haccepts, hagain⟩ := list_settings_agree false
  exact ⟨hfree, hagree paddedItems hfree, (haccepts _).2 ⟨_, .tuple paddedItems, .inr hsolid⟩,
    hcoerce, (hagain _ _ hcoerce).2⟩

end Letterhead
