import Letterhead.Proofs.Header.LineEnds
import Mathlib.Data.List.TakeWhile
/-
# The blank line behind a new header

A header that goes behind the open tag gets lines of its own, with a blank line behind it where
the file leaves room for one. What counts as a line without text is said by cuts of the file
(`EndsLine`), and the test for a blank line that is there already is proved to decide it
(`startsBlankLine_iff`): an existing blank line serves, and is not doubled
(`insertBehindTag_exact`).
-/
namespace Letterhead.Placement

open Text

variable {nl rest s r content : Text}

/-! ## Lines without text -/

/-- Nothing but spaces and tabs is left of the line that a text begins in, and this is what
stands behind its end. -/
def EndsLine (s r : Text) : Prop :=
  ∃ margin e, s = margin ++ (e ++ r) ∧ (∀ c ∈ margin, c = ' ' ∨ c = '\t') ∧ (e = lf ∨ e = crlf)

/-- The line that a text begins in ends without text, and so does the line behind it. -/
def BlankLineFollows (s : Text) : Prop := ∃ r r', EndsLine s r ∧ EndsLine r r'

theorem EndsLine.of_lineEnd (hnl : nl = lf ∨ nl = crlf) (r : Text) : EndsLine (nl ++ r) r :=
  ⟨[], nl, rfl, by simp, hnl⟩

theorem behindLineEnd?_eq_some_iff : behindLineEnd? s = some r ↔ EndsLine s r := by
  constructor
  · intro h
    have hcut := List.takeWhile_append_dropWhile (p := fun c => c == ' ' || c == '\t') (l := s)
    have hmargin : ∀ c ∈ s.takeWhile fun c => c == ' ' || c == '\t', c = ' ' ∨ c = '\t' := by
      intro c hc
      simpa using List.mem_takeWhile_imp hc
    unfold behindLineEnd? at h
    split at h
    · next hdrop =>
      obtain rfl := Option.some.inj h
      rw [hdrop] at hcut
      exact ⟨_, lf, hcut.symm, hmargin, .inl rfl⟩
    · next hdrop =>
      obtain rfl := Option.some.inj h
      rw [hdrop] at hcut
      exact ⟨_, crlf, hcut.symm, hmargin, .inr rfl⟩
    · cases h
  · rintro ⟨margin, e, rfl, hmargin, he⟩
    have hpass : ∀ c ∈ margin, (c == ' ' || c == '\t') = true := by
      intro c hc
      simpa using hmargin c hc
    unfold behindLineEnd?
    rw [List.dropWhile_append_of_pos hpass]
    rcases he with rfl | rfl <;> rfl

theorem startsBlankLine_iff : startsBlankLine s = true ↔ BlankLineFollows s := by
  unfold startsBlankLine BlankLineFollows
  rw [Option.isSome_iff_exists]
  simp only [Option.bind_eq_some_iff, behindLineEnd?_eq_some_iff]
  constructor
  · rintro ⟨r', r, hr, hr'⟩
    exact ⟨r, r', hr, hr'⟩
  · rintro ⟨r, r', hr, hr'⟩
    exact ⟨r', r, hr, hr'⟩

/-! ## Insertion -/

/-- What goes between the header and what followed the tag. -/
def gapBefore (nl rest : Text) : Text := if startsBlankLine rest then [] else nl

theorem gapBefore_cases (nl rest : Text) :
    BlankLineFollows rest ∧ gapBefore nl rest = [] ∨
      ¬ BlankLineFollows rest ∧ gapBefore nl rest = nl := by
  unfold gapBefore
  by_cases h : startsBlankLine rest = true
  · exact .inl ⟨startsBlankLine_iff.1 h, if_pos h⟩
  · exact .inr ⟨fun hb => h (startsBlankLine_iff.2 hb), if_neg h⟩

theorem insertBehindTag_eq (nl rest rendered : Text) :
    insertBehindTag nl (openTag ++ rest) rendered =
      openTag ++ (nl ++ (rendered ++ (gapBefore nl rest ++ rest))) := by
  have hopen : openTag.isPrefixOf (openTag ++ rest) = true := by simp
  have hrest : (openTag ++ rest).drop openTag.length = rest := List.drop_left
  unfold insertBehindTag
  rw [if_pos hopen]
  simp only [hrest, List.append_assoc, gapBefore]

/-- Behind the open tag go a line end, the header and at most one more line end. -/
theorem insertBehindTag_append (nl rest rendered : Text) :
    ∃ gap, (gap = [] ∨ gap = nl) ∧ insertBehindTag nl (openTag ++ rest) rendered =
      openTag ++ (nl ++ (rendered ++ (gap ++ rest))) :=
  ⟨gapBefore nl rest, (gapBefore_cases nl rest).imp And.right And.right,
    insertBehindTag_eq nl rest rendered⟩

theorem insertBehindTag_of_not_prefix (h : ¬ openTag <+: content) (nl rendered : Text) :
    insertBehindTag nl content rendered = content := by
  have hopen : ¬ openTag.isPrefixOf content = true := by simpa using h
  rw [insertBehindTag, if_neg hopen]

/-- The line that the header ends in holds no other text. -/
theorem exists_endsLine_gapBefore (hnl : nl = lf ∨ nl = crlf) (rest : Text) :
    ∃ r, EndsLine (gapBefore nl rest ++ rest) r := by
  rcases gapBefore_cases nl rest with ⟨⟨r, -, hr, -⟩, hgap⟩ | ⟨-, hgap⟩
  · exact ⟨r, by rwa [hgap]⟩
  · exact ⟨rest, by rw [hgap]; exact .of_lineEnd hnl rest⟩

/-- A line end is put in where, and only where, there is no blank line yet. -/
theorem gapBefore_eq_nil_iff (hnl : nl = lf ∨ nl = crlf) :
    gapBefore nl rest = [] ↔ BlankLineFollows rest := by
  have hne : nl ≠ [] := by
    rcases hnl with rfl | rfl <;> decide
  rcases gapBefore_cases nl rest with ⟨hblank, hgap⟩ | ⟨hblank, hgap⟩
  · exact iff_of_true hgap hblank
  · exact iff_of_false (by rwa [hgap]) hblank

/-- Where no code stands in the line of the tag, a blank line separates header and code. -/
theorem blankLineFollows_gapBefore (hnl : nl = lf ∨ nl = crlf) (hr : EndsLine rest r) :
    BlankLineFollows (gapBefore nl rest ++ rest) := by
  rcases gapBefore_cases nl rest with ⟨hblank, hgap⟩ | ⟨-, hgap⟩
  · rwa [hgap]
  · rw [hgap]
    exact ⟨rest, r, .of_lineEnd hnl rest, hr⟩

/-- Behind the open tag go a line end, the header, and one more line end unless a blank line
follows the tag already. So no text shares a line with the end of the header, and where the line
of the tag holds no code the header has at least one blank line behind it. A text that does not
begin with the tag stays as it is. -/
theorem insertBehindTag_exact (hnl : nl = lf ∨ nl = crlf) (content rendered : Text) :
    (∀ rest, content = openTag ++ rest → ∃ gap, (gap = [] ∨ gap = nl) ∧
      insertBehindTag nl content rendered = openTag ++ (nl ++ (rendered ++ (gap ++ rest))) ∧
      (∃ r, EndsLine (gap ++ rest) r) ∧
      (gap = [] ↔ BlankLineFollows rest) ∧
      ((∃ r, EndsLine rest r) → BlankLineFollows (gap ++ rest))) ∧
    (¬ openTag <+: content → insertBehindTag nl content rendered = content) := by
  refine ⟨?_, fun h => insertBehindTag_of_not_prefix h nl rendered⟩
  rintro rest rfl
  refine ⟨gapBefore nl rest, (gapBefore_cases nl rest).imp And.right And.right,
    insertBehindTag_eq nl rest rendered, exists_endsLine_gapBefore hnl rest,
    gapBefore_eq_nil_iff hnl, ?_⟩
  rintro ⟨r, hr⟩
  exact blankLineFollows_gapBefore hnl hr

/-- A tag with a blank line behind it: the lines end in different ways, and a tab stands in the
second. -/
theorem insertBehindTag_exact_mixedEnds :
    BlankLineFollows " \r\n\t\n$x;".toList ∧
    insertBehindTag lf "<?php \r\n\t\n$x;".toList "/** */".toList =
      "<?php\n/** */ \r\n\t\n$x;".toList ∧
    EndsLine "\r\n$x;".toList "$x;".toList ∧ ¬ BlankLineFollows "\r\n$x;".toList ∧
    insertBehindTag crlf "<?php\r\n$x;".toList "/** */".toList =
      "<?php\r\n/** */\r\n\r\n$x;".toList := by
  have hblank : BlankLineFollows " \r\n\t\n$x;".toList := startsBlankLine_iff.1 (by decide +kernel)
  have hline : EndsLine "\r\n$x;".toList "$x;".toList :=
    behindLineEnd?_eq_some_iff.1 (by decide +kernel)
  have hcode : ¬ BlankLineFollows "\r\n$x;".toList :=
    fun h => absurd (startsBlankLine_iff.2 h) (by decide +kernel)
  obtain ⟨gap, -, hkept, -, hgap, -⟩ := (insertBehindTag_exact (.inl rfl)
    "<?php \r\n\t\n$x;".toList "/** */".toList).1 " \r\n\t\n$x;".toList (by decide +kernel)
  obtain ⟨gap', hgap', hput, -, hnone, -⟩ := (insertBehindTag_exact (.inr rfl)
    "<?php\r\n$x;".toList "/** */".toList).1 "\r\n$x;".toList (by decide +kernel)
  obtain rfl : gap = [] := hgap.2 hblank
  obtain rfl : gap' = crlf := hgap'.resolve_left fun h => hcode (hnone.1 h)
  exact ⟨hblank, hkept, hline, hcode, hput⟩

end Letterhead.Placement
