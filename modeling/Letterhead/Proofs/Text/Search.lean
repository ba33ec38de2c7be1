import Letterhead.Text.Basic
import Mathlib.Data.List.Infix
/-
# Where a needle first occurs

`find?` answers with the first occurrence: the needle stands at the offset and
begins nowhere before it. "Begins nowhere" is `Clear`, which looks past the end of
a piece into what follows it, so that it can be put together piece by piece.
-/
namespace Letterhead.Text

/-- No occurrence of the needle begins in the first text, when the second follows it. -/
def Clear (needle u r : Text) : Prop := ∀ w, w <:+ u → w ≠ [] → ¬ needle <+: w ++ r

section
variable {needle u v r s : Text}

@[simp] theorem clear_nil : Clear needle [] r := by
  intro w hw hne
  exact absurd (List.suffix_nil.1 hw) hne

theorem clear_cons {c : Char} :
    Clear needle (c :: u) r ↔ ¬ needle <+: c :: (u ++ r) ∧ Clear needle u r := by
  constructor
  · intro h
    exact ⟨h _ (List.suffix_refl _) (by simp), fun w hw => h w (hw.trans (List.suffix_cons c u))⟩
  · rintro ⟨h, hu⟩ w hw hne
    rcases List.suffix_cons_iff.1 hw with rfl | hw
    · exact h
    · exact hu w hw hne

/-- A needle does not begin where its first character does not stand. -/
theorem clear_of_notMem {c : Char} {n : Text} (h : c ∉ u) : Clear (c :: n) u r := by
  induction u with
  | nil => simp
  | cons d u ih =>
    rw [List.mem_cons, not_or] at h
    refine clear_cons.2 ⟨fun hp => h.1 ?_, ih h.2⟩
    exact (List.cons_prefix_cons.1 hp).1

/-- What does not begin in a text ended by the needle does not begin in it when
more follows: the needle at the end decides. -/
theorem Clear.extend (h : Clear needle u needle) : Clear needle u (needle ++ r) := by
  intro w hw hne hp
  have hlen : needle.length ≤ (w ++ needle).length := by simp
  rw [← List.append_assoc] at hp
  exact h w hw hne (List.prefix_of_prefix_length_le hp (List.prefix_append _ _) hlen)

theorem Clear.append (hu : Clear needle u (v ++ r)) (hv : Clear needle v r) :
    Clear needle (u ++ v) r := by
  induction u with
  | nil => exact hv
  | cons c u ih =>
    obtain ⟨hc, hu⟩ := clear_cons.1 hu
    refine clear_cons.2 ⟨?_, ih hu⟩
    rwa [← List.append_assoc] at hc

/-- What does not begin in a text does not begin in it when less follows. -/
theorem Clear.restrict (h : Clear needle u (needle ++ r)) : Clear needle u needle := by
  intro w hw hne hp
  refine h w hw hne ?_
  rw [← List.append_assoc]
  exact hp.trans (List.prefix_append _ _)

theorem find?_cons_of_begins {c : Char} (h : needle <+: c :: s) :
    find? needle (c :: s) = some 0 := by
  simp [find?, h]

theorem find?_cons_of_not_begins {c : Char} (h : ¬ needle <+: c :: s) :
    find? needle (c :: s) = (find? needle s).map (· + 1) := by
  simp [find?, h]

/-- The offset found is that of the first occurrence. -/
theorem find?_eq_some_iff {i : Nat} :
    find? needle s = some i ↔
      ∃ u r, s = u ++ (needle ++ r) ∧ u.length = i ∧ Clear needle u (needle ++ r) := by
  induction s generalizing i with
  | nil =>
    constructor
    · intro h
      cases needle with
      | nil => exact ⟨[], [], by simp, by simpa [find?] using h, clear_nil⟩
      | cons c n => simp [find?] at h
    · rintro ⟨u, r, hs, rfl, -⟩
      obtain ⟨rfl, h⟩ := List.append_eq_nil_iff.1 hs.symm
      obtain ⟨rfl, rfl⟩ := List.append_eq_nil_iff.1 h
      simp [find?]
  | cons c s ih =>
    by_cases hp : needle <+: c :: s
    · rw [find?_cons_of_begins hp]
      obtain ⟨r, hr⟩ := hp
      constructor
      · intro h
        exact ⟨[], r, by simpa using hr.symm, by simpa using h, clear_nil⟩
      · rintro ⟨u, r', hs, rfl, hu⟩
        cases u with
        | nil => simp
        | cons d u =>
          refine absurd ?_ (clear_cons.1 hu).1
          rw [← List.cons_append, ← hs]
          exact ⟨r, hr⟩
    · rw [find?_cons_of_not_begins hp, Option.map_eq_some_iff]
      constructor
      · rintro ⟨j, hj, rfl⟩
        obtain ⟨u, r, rfl, rfl, hu⟩ := ih.1 hj
        exact ⟨c :: u, r, rfl, rfl, clear_cons.2 ⟨hp, hu⟩⟩
      · rintro ⟨u, r, hs, rfl, hu⟩
        cases u with
        | nil => exact absurd ⟨r, hs.symm⟩ hp
        | cons d u =>
          obtain ⟨rfl, rfl⟩ := List.cons.inj hs
          exact ⟨u.length, ih.2 ⟨u, r, rfl, rfl, (clear_cons.1 hu).2⟩, rfl⟩

theorem find?_of_clear (h : Clear needle u (needle ++ r)) :
    find? needle (u ++ (needle ++ r)) = some u.length :=
  find?_eq_some_iff.2 ⟨u, r, rfl, rfl, h⟩

/-- Where a needle occurs, one of its occurrences is the first. -/
theorem exists_first_of_includes (h : includes s needle) :
    ∃ u r, s = u ++ (needle ++ r) ∧ Clear needle u (needle ++ r) := by
  obtain ⟨i, hi⟩ := Option.isSome_iff_exists.1 h
  obtain ⟨u, r, hs, -, hclear⟩ := find?_eq_some_iff.1 hi
  exact ⟨u, r, hs, hclear⟩

theorem includes_iff : includes s needle ↔ ∃ u r, s = u ++ (needle ++ r) := by
  constructor
  · intro h
    obtain ⟨u, r, hs, -⟩ := exists_first_of_includes h
    exact ⟨u, r, hs⟩
  · rintro ⟨u, r, rfl⟩
    unfold includes
    induction u with
    | nil =>
      cases needle with
      | nil => cases r <;> simp [find?]
      | cons c n => simp [find?]
    | cons c u ih =>
      by_cases hp : needle <+: c :: (u ++ (needle ++ r))
      · simp [find?_cons_of_begins hp]
      · simp [find?_cons_of_not_begins hp, ih]

theorem includes_cons {c : Char} :
    includes (c :: s) needle ↔ needle <+: c :: s ∨ includes s needle := by
  by_cases hp : needle <+: c :: s
  · simp [includes, find?_cons_of_begins hp, hp]
  · simp [includes, find?_cons_of_not_begins hp, hp]

theorem includes_nil (s : Text) : includes s [] := by
  cases s <;> simp [includes, find?]

/-- A needle that is not in a text does not begin in it, if what follows is not its rest. -/
theorem clear_of_not_includes {c : Char} {n : Text} (h : ¬ includes u (c :: n))
    (hr : ∀ x, r.head? = some x → x ∉ n) : Clear (c :: n) u r := by
  rintro w ⟨a, rfl⟩ hne ⟨z, hz⟩
  rcases List.append_eq_append_iff.1 hz with ⟨b, rfl, -⟩ | ⟨b, hb, rfl⟩
  · exact h (includes_iff.2 ⟨a, b, rfl⟩)
  · cases b with
    | nil =>
      obtain rfl : c :: n = w := by simpa using hb
      exact h (includes_iff.2 ⟨a, [], by simp⟩)
    | cons x b =>
      cases w with
      | nil => exact hne rfl
      | cons d w =>
        obtain ⟨-, rfl⟩ := List.cons.inj hb
        exact hr x rfl (by simp)

end

end Letterhead.Text
