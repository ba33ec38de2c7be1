import Letterhead.Proofs.Comment.Closing
import Mathlib.Order.Bounds.Basic
/-
# The pattern of a comment as a scan

Where a text meets the pattern of a block comment can be told by offsets alone
(`block_pattern_scans`): the comment begins at the last offset, behind nothing but blanks, at
which the opening stands and from which on the closing is still to come, and it ends with the
first closing behind the opening. That holds of any two delimiters, also of an opening that
begins with blanks, which takes some of those in front of it, and of empty ones.
-/
namespace Letterhead

namespace Text

variable {needle s w : Text} {i k : Nat}

/-- The needle stands in the text at this offset. -/
def StandsAt (needle s : Text) (i : Nat) : Prop := i ≤ s.length ∧ needle <+: s.drop i

/-- The offsets, from one on, at which the needle stands. -/
def occurrencesFrom (needle s : Text) (m : Nat) : Set Nat := {k | m ≤ k ∧ StandsAt needle s k}

theorem standsAt_iff : StandsAt needle s i ↔ ∃ u r, s = u ++ (needle ++ r) ∧ u.length = i := by
  constructor
  · rintro ⟨hi, r, hr⟩
    exact ⟨s.take i, r, by rw [hr, List.take_append_drop], by simpa using hi⟩
  · rintro ⟨u, r, rfl, rfl⟩
    exact ⟨by simp, by simp⟩

theorem standsAt_append : StandsAt needle (w ++ s) (w.length + i) ↔ StandsAt needle s i := by
  unfold StandsAt
  rw [List.length_append, ← List.drop_drop, List.drop_left, Nat.add_le_add_iff_left]

/-- What search finds is the least offset at which the needle stands. -/
theorem isLeast_of_find? (h : find? needle s = some i) : IsLeast {k | StandsAt needle s k} i := by
  obtain ⟨u, r, rfl, rfl, hclear⟩ := find?_eq_some_iff.1 h
  refine ⟨standsAt_iff.2 ⟨u, r, rfl, rfl⟩, fun k hk => ?_⟩
  obtain ⟨v, t, hcut, rfl⟩ := standsAt_iff.1 hk
  by_contra hlt
  obtain ⟨x, rfl⟩ : v <+: u :=
    List.prefix_of_prefix_length_le ⟨_, hcut.symm⟩ (List.prefix_append _ _) (by omega)
  refine hclear x (List.suffix_append v x) ?_ ⟨t, ?_⟩
  · rintro rfl
    simp at hlt
  · rw [List.append_assoc] at hcut
    exact (List.append_cancel_left hcut).symm

theorem exists_find?_iff : (∃ i, find? needle s = some i) ↔ ∃ k, StandsAt needle s k := by
  constructor
  · rintro ⟨i, hi⟩
    exact ⟨i, (isLeast_of_find? hi).1⟩
  · rintro ⟨k, hk⟩
    obtain ⟨u, r, hcut, -⟩ := standsAt_iff.1 hk
    exact Option.isSome_iff_exists.1 (includes_iff.2 ⟨u, r, hcut⟩)

/-- Behind a piece the first occurrence is what search finds in the rest. -/
theorem isLeast_occurrencesFrom_iff :
    IsLeast (occurrencesFrom needle (w ++ s) w.length) k ↔
      ∃ i, find? needle s = some i ∧ k = w.length + i := by
  constructor
  · rintro ⟨⟨hle, hk⟩, hleast⟩
    obtain ⟨i, rfl⟩ := Nat.exists_eq_add_of_le hle
    rw [standsAt_append] at hk
    obtain ⟨j, hj⟩ := exists_find?_iff.2 ⟨i, hk⟩
    have hji : j ≤ i := (isLeast_of_find? hj).2 hk
    have hij := hleast ⟨Nat.le_add_right _ j, standsAt_append.2 (isLeast_of_find? hj).1⟩
    exact ⟨j, hj, by omega⟩
  · rintro ⟨i, hi, rfl⟩
    obtain ⟨hstands, hleast⟩ := isLeast_of_find? hi
    refine ⟨⟨Nat.le_add_right _ i, standsAt_append.2 hstands⟩, fun k hk => ?_⟩
    obtain ⟨j, rfl⟩ := Nat.exists_eq_add_of_le hk.1
    exact Nat.add_le_add_left (hleast (standsAt_append.1 hk.2)) _

theorem exists_find?_of_nonempty (h : (occurrencesFrom needle (w ++ s) w.length).Nonempty) :
    ∃ i, find? needle s = some i := by
  obtain ⟨k, hle, hk⟩ := h
  obtain ⟨i, rfl⟩ := Nat.exists_eq_add_of_le hle
  exact exists_find?_iff.2 ⟨i, standsAt_append.1 hk⟩

end Text

namespace Delimiters

open Text

variable {d : Delimiters} {s w r : Text} {i n : Nat}

/-- A comment can open at an offset: nothing but blanks stands in front of it, the opening
stands there, and the closing stands somewhere behind the opening. -/
structure OpensAt (d : Delimiters) (s : Text) (i : Nat) : Prop where
  blank : ∀ c ∈ s.take i, isBlank c
  opening : StandsAt d.opening s i
  closing : (occurrencesFrom d.closing s (i + d.opening.length)).Nonempty

theorem scan?_opening_append (d : Delimiters) (v : Text) :
    d.scan? (d.opening ++ v) =
      (find? d.closing v).map fun i => d.opening.length + i + d.closing.length := by
  rw [scan?, if_pos (List.isPrefixOf_iff_prefix.2 (List.prefix_append _ _)), List.drop_left]

/-- The scan behind a piece: it succeeds where the opening stands, and goes on to the end of the
first closing behind it. -/
theorem scan?_eq_some_iff_isLeast : d.scan? r = some n ↔
    StandsAt d.opening (w ++ r) w.length ∧
      ∃ k, IsLeast (occurrencesFrom d.closing (w ++ r) (w.length + d.opening.length)) k ∧
        w.length + n = k + d.closing.length := by
  have hopening : StandsAt d.opening (w ++ r) w.length ↔ d.opening <+: r := by
    simp [StandsAt]
  rw [hopening]
  by_cases hp : d.opening <+: r
  · obtain ⟨v, rfl⟩ := hp
    rw [scan?_opening_append, Option.map_eq_some_iff, ← List.append_assoc, ← List.length_append]
    simp only [isLeast_occurrencesFrom_iff, List.prefix_append, true_and]
    constructor
    · rintro ⟨j, hj, rfl⟩
      exact ⟨_, ⟨j, hj, rfl⟩, by rw [List.length_append]; omega⟩
    · rintro ⟨k, ⟨j, hj, rfl⟩, hn⟩
      exact ⟨j, hj, by rw [List.length_append] at hn; omega⟩
  · simp [scan?, hp]

/-- A comment can open behind blanks if the scan succeeds there, and nowhere else. -/
theorem opensAt_iff : d.OpensAt s i ↔ ∃ w r n, s = w ++ r ∧ w.length = i ∧
    (∀ c ∈ w, isBlank c) ∧ d.scan? r = some n := by
  constructor
  · rintro ⟨hblank, ⟨hi, v, hv⟩, hclosing⟩
    obtain ⟨w, r, rfl, rfl⟩ : ∃ w r, s = w ++ r ∧ w.length = i :=
      ⟨s.take i, s.drop i, (List.take_append_drop i s).symm, by simpa using hi⟩
    rw [List.take_left] at hblank
    rw [List.drop_left] at hv
    subst hv
    rw [← List.append_assoc, ← List.length_append] at hclosing
    obtain ⟨j, hj⟩ := exists_find?_of_nonempty hclosing
    exact ⟨w, _, _, rfl, rfl, hblank, by rw [scan?_opening_append, hj, Option.map_some]⟩
  · rintro ⟨w, r, n, rfl, rfl, hblank, hn⟩
    obtain ⟨hopening, k, hk, -⟩ := scan?_eq_some_iff_isLeast.1 hn
    exact ⟨by rwa [List.take_left], hopening, k, hk.1⟩

/-- The offset at which a comment is found is the last at which one can open. -/
theorem isGreatest_opensAt (hblank : ∀ c ∈ w, isBlank c) (hn : d.scan? r = some n)
    (hmost : ∀ v u, w ++ r = v ++ u → (∀ b ∈ v, isBlank b) → w.length < v.length →
      d.scan? u = none) : IsGreatest {i | d.OpensAt (w ++ r) i} w.length := by
  refine ⟨opensAt_iff.2 ⟨w, r, n, rfl, rfl, hblank, hn⟩, fun i hi => ?_⟩
  obtain ⟨v, u, m, hcut, rfl, hv, hm⟩ := opensAt_iff.1 hi
  by_contra hlt
  rw [hmost v u hcut hv (by omega)] at hm
  cases hm

theorem leading?_block_iff_isGreatest {x : Span} :
    d.block.leading? s = some x ↔ IsGreatest {i | d.OpensAt s i} x.start ∧
      ∃ k, IsLeast (occurrencesFrom d.closing s (x.start + d.opening.length)) k ∧
        x.stop = k + d.closing.length := by
  rw [leading?_block_iff]
  constructor
  · rintro ⟨w, r, n, rfl, hw, hn, rfl, hmost⟩
    exact ⟨isGreatest_opensAt hw hn hmost, (scan?_eq_some_iff_isLeast.1 hn).2⟩
  · obtain ⟨start, stop⟩ := x
    rintro ⟨⟨hopens, hgreatest⟩, k, hk, rfl⟩
    obtain ⟨w, r, n, rfl, rfl, hw, hn⟩ := opensAt_iff.1 hopens
    obtain ⟨-, k', hk', hstop⟩ := scan?_eq_some_iff_isLeast.1 hn
    refine ⟨w, r, n, rfl, hw, hn, by rw [hstop, hk.unique hk'], fun v u hcut hv hlt => ?_⟩
    cases hm : d.scan? u with
    | none => rfl
    | some m =>
      have hle : v.length ≤ w.length := hgreatest (opensAt_iff.2 ⟨v, u, m, hcut, rfl, hv, hm⟩)
      omega

theorem exists_leading?_block_iff :
    (∃ x, d.block.leading? s = some x) ↔ ∃ i, d.OpensAt s i := by
  constructor
  · rintro ⟨x, hx⟩
    exact ⟨_, (leading?_block_iff_isGreatest.1 hx).1.1⟩
  · rintro ⟨i, hi⟩
    obtain ⟨w, r, n, hcut, -, hw, hn⟩ := opensAt_iff.1 hi
    refine Option.ne_none_iff_exists'.1 fun hnone => ?_
    have hrests := Pattern.leading?_eq_none_iff.1 hnone w r hcut hw
    simp [rests_block, hn] at hrests

end Delimiters

open Delimiters Text

/-- The pattern of a block comment is met at the top of a text if and only if there is an offset
at which a comment can open. The comment that is found runs from the last such offset to the end
of the first closing behind the opening. -/
theorem block_pattern_scans (d : Delimiters) (s : Text) :
    ((∃ x, d.block.leading? s = some x) ↔ ∃ i, d.OpensAt s i) ∧
    ∀ x, d.block.leading? s = some x ↔ IsGreatest {i | d.OpensAt s i} x.start ∧
      ∃ k, IsLeast (occurrencesFrom d.closing s (x.start + d.opening.length)) k ∧
        x.stop = k + d.closing.length :=
  ⟨exists_leading?_block_iff, fun _ => leading?_block_iff_isGreatest⟩

/-- An opening that begins with a blank takes the last of those in front of it, and the closing
may not share a character with it. -/
example : (Delimiters.mk " /*".toList "*/".toList).block.leading? "   /*/ */ */".toList =
    some ⟨2, 9⟩ := by decide +kernel

end Letterhead
