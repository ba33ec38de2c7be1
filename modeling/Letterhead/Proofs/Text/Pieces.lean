import Letterhead.Text.Basic
import Mathlib.Data.List.TakeWhile
/-
# Pieces of a text

What splitting and stripping leave of a text. The pieces between separators hold none, and
pieces that hold none are found again in what they are joined to (`splitOn_joinWith`).
Stripping takes all blanks away at both ends and nothing else, which decides what it leaves
(`strip_eq_iff`), so that a text without blanks at its ends is left as it is.
-/
namespace Letterhead.Text

section
variable {sep : Char} {s t : Text} {ps : List Text}

/-! ## Splitting -/

theorem splitOn_of_not_mem (h : sep ∉ s) : splitOn sep s = [s] := by
  induction s with
  | nil => rfl
  | cons c s ih =>
    have hc : c ≠ sep := fun h' => h (by simp [h'])
    have hs : sep ∉ s := fun h' => h (List.mem_cons_of_mem c h')
    rw [splitOn, if_neg hc, ih hs]

theorem splitOn_append_sep (h : sep ∉ s) (t : Text) :
    splitOn sep (s ++ sep :: t) = s :: splitOn sep t := by
  induction s with
  | nil => simp [splitOn]
  | cons c s ih =>
    have hc : c ≠ sep := fun h' => h (by simp [h'])
    have hs : sep ∉ s := fun h' => h (List.mem_cons_of_mem c h')
    rw [List.cons_append, splitOn, if_neg hc, ih hs]

/-- Pieces that do not hold the separator are found again in what they are joined to. -/
theorem splitOn_joinWith (hne : ps ≠ []) (h : ∀ p ∈ ps, sep ∉ p) :
    splitOn sep (joinWith [sep] ps) = ps := by
  induction ps with
  | nil => exact absurd rfl hne
  | cons p ps ih =>
    obtain ⟨hp, hps⟩ := List.forall_mem_cons.1 h
    cases ps with
    | nil => exact splitOn_of_not_mem hp
    | cons q ps =>
      rw [joinWith, List.append_assoc, List.singleton_append, splitOn_append_sep hp,
        ih (by simp) hps]

theorem notMem_of_mem_splitOn {p : Text} (h : p ∈ splitOn sep s) : sep ∉ p := by
  induction s generalizing p with
  | nil => simp_all [splitOn]
  | cons c s ih =>
    unfold splitOn at h
    split at h
    · rcases List.mem_cons.1 h with rfl | h
      · simp
      · exact ih h
    · next hc =>
      split at h
      · next hs => exact absurd hs (splitOn_ne_nil sep s)
      · next p ps hs =>
        rw [hs] at ih
        rcases List.mem_cons.1 h with rfl | h
        · have hp := ih List.mem_cons_self
          simpa [hp] using Ne.symm hc
        · exact ih (List.mem_cons_of_mem p h)

/-! ## Stripping -/

/-- Neither the first nor the last character is a blank. -/
def Trimmed (s : Text) : Prop :=
  ∀ c, s.head? = some c ∨ s.getLast? = some c → isBlank c = false

instance (s : Text) : Decidable s.Trimmed :=
  decidable_of_iff (s.head?.all (!isBlank ·) ∧ s.getLast?.all (!isBlank ·)) <| by
    simp only [Trimmed, Option.all_eq_true, Bool.not_eq_true', or_imp, forall_and]

/-- The second text is the first without the blanks at its ends. -/
def Strips (s t : Text) : Prop :=
  ∃ a b, s = a ++ (t ++ b) ∧ (∀ c ∈ a, isBlank c) ∧ (∀ c ∈ b, isBlank c) ∧ t.Trimmed

theorem dropWhile_not_blank {c : Char} (h : (s.dropWhile isBlank).head? = some c) :
    isBlank c = false := by
  have := List.head?_dropWhile_not isBlank s
  rw [h] at this
  simpa using this

theorem dropWhile_of_head? (h : ∀ c, s.head? = some c → isBlank c = false) :
    s.dropWhile isBlank = s := by
  cases s with
  | nil => rfl
  | cons c s =>
    have hc : isBlank c = false := h c rfl
    simp [hc]

theorem strips_strip (s : Text) : Strips s (strip s) := by
  let u := s.dropWhile isBlank
  have hs : s = s.takeWhile isBlank ++ u := (List.takeWhile_append_dropWhile).symm
  have hu : u = strip s ++ (u.reverse.takeWhile isBlank).reverse := by
    have := congrArg List.reverse (List.takeWhile_append_dropWhile (p := isBlank) (l := u.reverse))
    rw [List.reverse_append, List.reverse_reverse] at this
    exact this.symm
  refine ⟨s.takeWhile isBlank, (u.reverse.takeWhile isBlank).reverse, ?_, ?_, ?_, fun c hc => ?_⟩
  · rw [← hu]
    exact hs
  · exact fun c hc => List.mem_takeWhile_imp hc
  · intro c hc
    exact List.mem_takeWhile_imp (List.mem_reverse.1 hc)
  · rcases hc with hc | hc
    · refine dropWhile_not_blank (s := s) ?_
      show u.head? = some c
      rw [hu, List.head?_append, hc, Option.some_or]
    · rw [strip, trimBy, List.getLast?_reverse] at hc
      exact dropWhile_not_blank hc

/-- What stripping leaves is the one piece with blanks around it that has none at its ends. -/
theorem strip_eq_iff : strip s = t ↔ Strips s t := by
  constructor
  · rintro rfl
    exact strips_strip s
  · rintro ⟨a, b, rfl, ha, hb, ht⟩
    rw [strip, trimBy, List.dropWhile_append_of_pos ha]
    by_cases hnil : t = []
    · subst hnil
      have hdrop : b.dropWhile isBlank = [] := List.dropWhile_eq_nil_iff.2 hb
      rw [List.nil_append, hdrop]
      rfl
    · have hhead : ∀ c, (t ++ b).head? = some c → isBlank c = false := by
        intro c hc
        cases t with
        | nil => exact absurd rfl hnil
        | cons d t => exact ht c (.inl hc)
      have hlast : ∀ c, t.reverse.head? = some c → isBlank c = false := by
        intro c hc
        rw [List.head?_reverse] at hc
        exact ht c (.inr hc)
      have hb' : ∀ c ∈ b.reverse, isBlank c := fun c hc => hb c (List.mem_reverse.1 hc)
      rw [dropWhile_of_head? hhead, List.reverse_append, List.dropWhile_append_of_pos hb',
        dropWhile_of_head? hlast, List.reverse_reverse]

theorem Trimmed.strips (h : s.Trimmed) : Strips s s := ⟨[], [], by simp, by simp, by simp, h⟩

theorem strip_eq_nil_iff : strip s = [] ↔ ∀ c ∈ s, isBlank c := by
  rw [strip_eq_iff]
  constructor
  · rintro ⟨a, b, rfl, ha, hb, -⟩ c hc
    rw [List.nil_append] at hc
    exact (List.mem_append.1 hc).elim (ha c) (hb c)
  · intro h
    exact ⟨s, [], by simp, h, by simp, by simp [Trimmed]⟩

end

end Letterhead.Text
