import Letterhead.Comment.FileType
import Letterhead.Finder.Basic
import Letterhead.Proofs.Text.Lowering
/-
# The type of a file

Two supported extensions may find one file, as `twig` and `html.twig` do. They have one type
then, so that a file is of one type, whichever extension finds it first
(`fileType_unique`).
-/
namespace Letterhead.Finder

open Text (lower lowerFrom lowerChar)

variable {e e' name : Text} {t t' : FileType}

theorem dot_caseless : Text.isCaseIgnorable '.' = true ∧ lowerChar '.' = '.' := by decide +kernel

theorem lower_dot (s : Text) : lower ('.' :: s) = '.' :: lower s := by
  simp [lower, lowerFrom, dot_caseless]

/-- Leading dots may be dropped before or after lowering. -/
theorem dropWhile_lower (s : Text) :
    (lower s).dropWhile (· == '.') = lower (s.dropWhile (· == '.')) := by
  induction s with
  | nil => rfl
  | cons c s ih =>
    by_cases hc : c = '.'
    · subst hc
      rw [lower_dot, List.dropWhile_cons_of_pos (by simp), List.dropWhile_cons_of_pos (by simp),
        ih]
    · -- nothing but a dot is lowered to a dot
      obtain ⟨d, r, hd, hcases⟩ := Text.exists_lowerFrom_cons false c s
      have hne : d ≠ '.' := by
        rintro rfl
        rcases hcases with h | h
        · exact hc (Text.eq_of_lowerChar (by decide) (by decide) h).symm
        · exact absurd h (by decide)
      rw [List.dropWhile_cons_of_neg (by simpa using hc), lower, hd,
        List.dropWhile_cons_of_neg (by simpa using hne)]

theorem extensions_ascii : ∀ p ∈ FileType.extensions, ∀ c ∈ p.1, c.toNat < 128 := by
  have h : (FileType.extensions.all fun p => p.1.all fun c => c.toNat < 128) = true := by
    decide
  simpa only [List.all_eq_true, decide_eq_true_eq] using h

/-- Where one supported suffix ends with another, both are of one type. -/
theorem extensions_suffix : ∀ p ∈ FileType.extensions, ∀ q ∈ FileType.extensions,
    ('.' :: p.1) <:+ ('.' :: q.1) → p.2 = q.2 := by
  decide

/-- A supported extension is lowered letter by letter. -/
theorem exists_lowered_suffix (h : FileType.ofExtension? e = some t) :
    ∃ p ∈ FileType.extensions, p.2 = t ∧ (suffixOf e).map lowerChar = '.' :: p.1 := by
  rw [FileType.ofExtension?, dropWhile_lower] at h
  obtain ⟨before, behind, hlist, -⟩ := List.lookup_eq_some_iff.1 h
  have hmem : (lower (e.dropWhile (· == '.')), t) ∈ FileType.extensions := by simp [hlist]
  refine ⟨_, hmem, rfl, ?_⟩
  have hplain := Text.plain_of_lowerFrom (extensions_ascii _ hmem)
  rw [suffixOf, List.map_cons, dot_caseless.2, Text.lower_of_plain hplain]

/-- A name that ends as two supported extensions ask for has one type. -/
theorem fileType_unique (h : FileType.ofExtension? e = some t)
    (h' : FileType.ofExtension? e' = some t') (hs : suffixOf e <:+ name)
    (hs' : suffixOf e' <:+ name) : t = t' := by
  obtain ⟨p, hp, rfl, hmap⟩ := exists_lowered_suffix h
  obtain ⟨q, hq, rfl, hmap'⟩ := exists_lowered_suffix h'
  rcases List.suffix_or_suffix_of_suffix hs hs' with hsub | hsub
  · exact extensions_suffix p hp q hq (hmap ▸ hmap' ▸ hsub.map lowerChar)
  · exact (extensions_suffix q hq p hp (hmap ▸ hmap' ▸ hsub.map lowerChar)).symm

end Letterhead.Finder
