import Letterhead.Comment.Block
import Letterhead.Proofs.Comment.Ways
/-
# A block comment ends at its first closing

The pattern of a block comment and the scan for its closing find the same comment
(`rests_block`): the pattern can be met in one way at most. So what follows a comment
has no say in where it ends (`scan?_append`).
-/
namespace Letterhead.Delimiters

open Pattern

variable {d : Delimiters} {s h tail : Text}

/-! ## The scan -/

/-- A text is one comment: the scan ends where the text does. -/
def IsComment (d : Delimiters) (h : Text) : Prop := d.scan? h = some h.length

instance (d : Delimiters) (h : Text) : Decidable (d.IsComment h) :=
  inferInstanceAs (Decidable (d.scan? h = some h.length))

theorem scan?_eq_some_iff {n : Nat} :
    d.scan? s = some n ↔ ∃ body r, s = d.opening ++ (body ++ (d.closing ++ r)) ∧
      n = d.opening.length + body.length + d.closing.length ∧
      Text.Clear d.closing body (d.closing ++ r) := by
  unfold scan?
  constructor
  · intro h
    split at h
    · next hp =>
      obtain ⟨v, rfl⟩ := List.isPrefixOf_iff_prefix.1 hp
      rw [List.drop_left, Option.map_eq_some_iff] at h
      obtain ⟨i, hi, rfl⟩ := h
      obtain ⟨u, r, rfl, rfl, hu⟩ := Text.find?_eq_some_iff.1 hi
      exact ⟨u, r, rfl, rfl, hu⟩
    · simp at h
  · rintro ⟨body, r, rfl, rfl, hc⟩
    rw [if_pos (List.isPrefixOf_iff_prefix.2 (List.prefix_append _ _)), List.drop_left,
      Text.find?_of_clear hc, Option.map_some]

theorem isComment_iff :
    d.IsComment h ↔ ∃ body, h = d.opening ++ (body ++ d.closing) ∧
      Text.Clear d.closing body d.closing := by
  unfold IsComment
  rw [scan?_eq_some_iff]
  constructor
  · rintro ⟨body, r, rfl, hlen, hc⟩
    have hr : r = [] := by
      simp only [List.length_append] at hlen
      exact List.length_eq_zero_iff.1 (by omega)
    subst hr
    rw [List.append_nil] at hc ⊢
    exact ⟨body, rfl, hc⟩
  · rintro ⟨body, rfl, hc⟩
    refine ⟨body, [], by simp, ?_, by simpa using hc⟩
    simp only [List.length_append]
    omega

/-- What follows a comment has no say in where it ends. -/
theorem scan?_append (hh : d.IsComment h) (tail : Text) : d.scan? (h ++ tail) = some h.length := by
  obtain ⟨body, rfl, hc⟩ := isComment_iff.1 hh
  refine scan?_eq_some_iff.2 ⟨body, tail, by simp, ?_, hc.extend⟩
  simp only [List.length_append]
  omega

/-- The scan finds the one comment that the text begins with. -/
theorem scan?_eq_some_iff_isComment {n : Nat} :
    d.scan? s = some n ↔ ∃ h tail, s = h ++ tail ∧ d.IsComment h ∧ n = h.length := by
  constructor
  · intro hn
    obtain ⟨body, r, rfl, rfl, hc⟩ := scan?_eq_some_iff.1 hn
    refine ⟨d.opening ++ (body ++ d.closing), r, by simp, ?_, by simp [Nat.add_assoc]⟩
    exact isComment_iff.2 ⟨body, rfl, hc.restrict⟩
  · rintro ⟨h, tail, rfl, hh, rfl⟩
    exact scan?_append hh tail

/-! ## The pattern -/

/-- Going on to where the closing can be met leads to its first occurrence only. -/
theorem closing_behind_strides (closing s : Text) :
    (strides (fun s => !closing.isPrefixOf s) s).flatMap (rests (.text closing)) =
      (Text.find? closing s).toList.map fun i => s.drop (i + closing.length) := by
  induction s with
  | nil => cases closing <;> simp [strides, rests, Text.find?]
  | cons c s ih =>
    by_cases hp : closing <+: c :: s
    · have hb : closing.isPrefixOf (c :: s) = true := List.isPrefixOf_iff_prefix.2 hp
      simp [strides, Text.find?_cons_of_begins hp, hb, hp, rests]
    · have hb : closing.isPrefixOf (c :: s) = false := by
        rwa [Bool.eq_false_iff, ne_eq, List.isPrefixOf_iff_prefix]
      have hgo : strides (fun s => !closing.isPrefixOf s) (c :: s) =
          strides (fun s => !closing.isPrefixOf s) s ++ [c :: s] := by
        simp [strides, hb]
      rw [hgo, List.flatMap_append, ih, List.flatMap_singleton, rests_text_of_not_begins hp,
        Text.find?_cons_of_not_begins hp, List.append_nil]
      cases Text.find? closing s <;> simp [Nat.add_right_comm]

theorem rests_inside (d : Delimiters) (s : Text) :
    rests (.many (.seq (.unlessNext d.closing) (.oneOf fun _ => true))) s =
      strides (fun s => !d.closing.isPrefixOf s) s := by
  refine rests_many_of_step ?_ (fun c s => ?_) s
  · simp only [rests]
    split <;> rfl
  · simp only [rests]
    split <;> simp_all [rests]

/-- The pattern of a block comment is met in the way that the scan finds, or in none. -/
theorem rests_block (d : Delimiters) (s : Text) :
    rests d.block s = (d.scan? s).toList.map fun n => s.drop n := by
  unfold block scan?
  simp only [Pattern.all]
  rw [rests]
  by_cases hp : d.opening <+: s
  · obtain ⟨v, rfl⟩ := hp
    rw [rests_text_append, List.flatMap_singleton, rests, rests_inside, closing_behind_strides,
      if_pos (List.isPrefixOf_iff_prefix.2 (List.prefix_append _ _)), List.drop_left]
    cases Text.find? d.closing v <;> simp [← List.drop_drop, Nat.add_assoc]
  · simp [rests_text_of_not_begins hp, hp]

theorem mem_rests_block {r : Text} :
    r ∈ rests d.block s ↔ ∃ body, s = d.opening ++ (body ++ (d.closing ++ r)) ∧
      Text.Clear d.closing body (d.closing ++ r) := by
  simp only [rests_block, List.mem_map, Option.mem_toList, scan?_eq_some_iff]
  have hdrop : ∀ body r : Text, (d.opening ++ (body ++ (d.closing ++ r))).drop
      (d.opening.length + body.length + d.closing.length) = r := by
    intro body r
    rw [← List.append_assoc, ← List.append_assoc]
    exact List.drop_left' (by simp [Nat.add_assoc])
  constructor
  · rintro ⟨n, ⟨body, r', rfl, rfl, hc⟩, rfl⟩
    rw [hdrop]
    exact ⟨body, rfl, hc⟩
  · rintro ⟨body, rfl, hc⟩
    exact ⟨_, ⟨body, r, rfl, rfl, hc⟩, hdrop body r⟩

/-- A comment is found behind as many blanks as possible, where the scan finds it. -/
theorem leading?_block_iff {x : Span} :
    d.block.leading? s = some x ↔ ∃ w r n, s = w ++ r ∧ (∀ b ∈ w, Text.isBlank b) ∧
      d.scan? r = some n ∧ x = ⟨w.length, w.length + n⟩ ∧
      ∀ v u, s = v ++ u → (∀ b ∈ v, Text.isBlank b) → w.length < v.length → d.scan? u = none := by
  have hnone : ∀ u, rests d.block u = [] ↔ d.scan? u = none := by
    intro u
    rw [rests_block]
    cases d.scan? u <;> simp
  have hstop : ∀ {w r : Text} {n : Nat}, d.scan? r = some n →
      (w ++ r).length - (r.drop n).length = w.length + n := by
    intro w r n hn
    obtain ⟨h, tail, rfl, -, rfl⟩ := scan?_eq_some_iff_isComment.1 hn
    simp only [List.drop_left, List.length_append]
    omega
  rw [leading?_eq_some_iff]
  simp only [hnone]
  constructor
  · rintro ⟨w, r, e, rfl, hw, he, rfl, hmost⟩
    rw [rests_block, List.head?_map, Option.map_eq_some_iff] at he
    obtain ⟨n, hn, rfl⟩ := he
    rw [Option.head?_toList] at hn
    exact ⟨w, r, n, rfl, hw, hn, by rw [hstop hn], hmost⟩
  · rintro ⟨w, r, n, rfl, hw, hn, rfl, hmost⟩
    exact ⟨w, r, r.drop n, rfl, hw, by simp [rests_block, hn], by rw [hstop hn], hmost⟩

/-- Where a comment is found whose opening begins with no blank: behind all blanks, and it
ends at its first closing. -/
theorem leading?_block_eq_some_iff {c : Char} {o : Text} (ho : d.opening = c :: o)
    (hc : Text.isBlank c = false) {x : Span} :
    d.block.leading? s = some x ↔ ∃ w h tail, s = w ++ (h ++ tail) ∧
      (∀ b ∈ w, Text.isBlank b) ∧ d.IsComment h ∧ x = ⟨w.length, w.length + h.length⟩ := by
  rw [leading?_block_iff]
  constructor
  · rintro ⟨w, r, n, rfl, hw, hn, rfl, -⟩
    obtain ⟨h, tail, rfl, hh, rfl⟩ := scan?_eq_some_iff_isComment.1 hn
    exact ⟨w, h, tail, rfl, hw, hh, rfl⟩
  · rintro ⟨w, h, tail, rfl, hw, hh, rfl⟩
    refine ⟨w, h ++ tail, h.length, rfl, hw, scan?_append hh tail, rfl, fun v u hcut hv hlt => ?_⟩
    -- more blanks than these would take in the first character of the opening
    obtain ⟨body, rfl, -⟩ := isComment_iff.1 hh
    obtain ⟨b, rfl⟩ : w <+: v :=
      List.prefix_of_prefix_length_le (List.prefix_append _ _) ⟨u, hcut.symm⟩ (by omega)
    rw [List.append_assoc w, List.append_cancel_left_eq, ho] at hcut
    cases b with
    | nil => simp at hlt
    | cons b bs =>
      have hb : b = c := (List.cons.inj hcut).1.symm
      have := hv b (by simp)
      rw [hb, hc] at this
      cases this

/-- A comment behind blanks is found, whatever follows it. -/
theorem leading?_block_append {c : Char} {o : Text} (ho : d.opening = c :: o)
    (hc : Text.isBlank c = false) {w : Text} (hw : ∀ b ∈ w, Text.isBlank b) (hh : d.IsComment h)
    (tail : Text) :
    d.block.leading? (w ++ (h ++ tail)) = some ⟨w.length, w.length + h.length⟩ :=
  (leading?_block_eq_some_iff ho hc).2 ⟨w, h, tail, rfl, hw, hh, rfl⟩

/-- A text that is found to be a comment from its first to its last character is one. -/
theorem isComment_of_leading? {c : Char} {o : Text} (ho : d.opening = c :: o)
    (hc : Text.isBlank c = false) (hh : d.block.leading? h = some ⟨0, h.length⟩) :
    d.IsComment h := by
  obtain ⟨w, t, tail, hcut, -, ht, hspan⟩ := (leading?_block_eq_some_iff ho hc).1 hh
  obtain ⟨hw, hlen⟩ := Span.mk.inj hspan
  obtain rfl : w = [] := List.length_eq_zero_iff.1 hw.symm
  obtain rfl : tail = [] := by
    have := congrArg List.length hcut
    simp only [List.length_append, List.length_nil] at this hlen
    exact List.length_eq_zero_iff.1 (by omega)
  simpa [hcut] using ht

/-! ## Blocks -/

/-- A text is one block: it opens with the opening, and behind that the closing stands at
its end and nowhere else. -/
structure IsBlock (d : Delimiters) (h : Text) : Prop where
  encloses : ∃ body, h = d.opening ++ (body ++ d.closing)
  once : ∀ u v, h = d.opening ++ (u ++ (d.closing ++ v)) → v = []

/-- The comments are the blocks. -/
theorem isBlock_iff : d.IsBlock h ↔ d.IsComment h := by
  rw [isComment_iff]
  constructor
  · rintro ⟨⟨body, rfl⟩, honce⟩
    refine ⟨body, rfl, ?_⟩
    rintro w ⟨u, rfl⟩ hne ⟨v, hv⟩
    -- a closing that began inside the body would not stand at the end
    obtain rfl : v = [] := honce u v (by rw [hv, List.append_assoc])
    exact hne (by simpa using hv)
  · rintro ⟨body, rfl, hclear⟩
    refine ⟨⟨body, rfl⟩, fun u v h => ?_⟩
    have hcut : body ++ d.closing = u ++ (d.closing ++ v) := List.append_cancel_left h
    by_contra hv
    have hlen : u.length < body.length := by
      have := congrArg List.length hcut
      have := List.length_pos_iff.2 hv
      simp only [List.length_append] at *
      omega
    obtain ⟨w, rfl⟩ : u <+: body :=
      List.prefix_of_prefix_length_le ⟨_, hcut.symm⟩ (List.prefix_append _ _)
        (Nat.le_of_lt hlen)
    refine hclear w (List.suffix_append u w) ?_ ⟨v, ?_⟩
    · rintro rfl
      simp at hlen
    · rw [List.append_assoc] at hcut
      exact (List.append_cancel_left hcut).symm

end Letterhead.Delimiters

namespace Letterhead

/-- A comment of a type opens with a character that is no blank. -/
theorem FileType.exists_opening (t : FileType) :
    ∃ c o, t.profile.comment.opening = c :: o ∧ Text.isBlank c = false := by
  cases t <;> exact ⟨_, _, rfl, by decide⟩

end Letterhead
