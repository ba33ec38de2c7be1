import Letterhead.Proofs.Header.Rendering
/-
# What rendering leaves as it is

A header is its licence text in other delimiters. A text that comes as a doc block is its own
header in the types that write doc blocks, and a header of these types is rendered to itself.
In every type the same text stands between the delimiters, but for the stars that lead the lines
of a template's header (`render_keeps_text`).
-/
namespace Letterhead

open Text

namespace Render

variable {licence : Text} {t : FileType}

/-! ## Doc blocks -/

/-- A licence text that is a doc block once it is stripped is its interior in these delimiters. -/
theorem enclosed_interior (h : isDocBlock (strip licence)) :
    docBlock.opening ++ (interior licence ++ docBlock.closing) = strip licence := by
  obtain ⟨i, hs, hi⟩ := exists_inside h
  have hinterior : interior licence = i := by
    rw [interior, if_pos h, hi]
  rw [hinterior, hs]
  rfl

theorem trimmed_enclosed (i : Text) : Trimmed (docBlock.opening ++ (i ++ docBlock.closing)) := by
  have hend : docBlock.opening ++ (i ++ docBlock.closing) =
      docBlock.opening ++ (i ++ ['*']) ++ ['/'] := by simp [docBlock]
  rintro c (hc | hc)
  · obtain rfl : '/' = c := by simpa [docBlock] using hc
    decide
  · rw [hend, List.getLast?_concat, Option.some.injEq] at hc
    exact hc ▸ by decide

/-- What is put between the delimiters of a doc block is found there again. -/
theorem interior_enclosed (i : Text) :
    interior (docBlock.opening ++ (i ++ docBlock.closing)) = i := by
  have hstrip := strip_eq_iff.2 (trimmed_enclosed i).strips
  have hdoc : isDocBlock (strip (docBlock.opening ++ (i ++ docBlock.closing))) := by
    rw [hstrip, isDocBlock_iff]
    refine ⟨List.prefix_append _ _, ?_, by simp [docBlock]⟩
    rw [← List.append_assoc]
    exact List.suffix_append _ _
  have henclosed := enclosed_interior hdoc
  rw [hstrip] at henclosed
  exact List.append_cancel_right (List.append_cancel_left henclosed)

/-! ## Lines -/

/-- The second line is the first, with a `#` for the star if this is the first character past
spaces and tabs. -/
inductive MarksLine : Text → Text → Prop
  | star {indent rest : Text} (h : ∀ c ∈ indent, c = ' ' ∨ c = '\t') :
    MarksLine (indent ++ '*' :: rest) (indent ++ '#' :: rest)
  | other {l : Text} (h : ¬ StarLed l) : MarksLine l l

theorem marksLine_markLine (l : Text) : MarksLine l (markLine ['#'] l) := by
  rcases markLine_cases l with ⟨h, hl⟩ | ⟨indent, rest, rfl, hi, h⟩
  · rw [h]
    exact .other hl
  · rw [h]
    exact .star hi

/-- Marking lines neither joins lines nor parts them. -/
theorem splitOn_markLines (s : Text) :
    splitOn '\n' (markLines ['#'] s) = (splitOn '\n' s).map (markLine ['#']) := by
  refine splitOn_joinWith (by simp [splitOn_ne_nil]) fun marked hmarked => ?_
  obtain ⟨l, hl, rfl⟩ := List.mem_map.1 hmarked
  exact fun h => notMem_of_mem_splitOn hl ((restarred_markLine l).mem_feed.1 h)

theorem forall₂_lines (s : Text) :
    List.Forall₂ MarksLine (splitOn '\n' s) (splitOn '\n' (markLines ['#'] s)) := by
  rw [splitOn_markLines, List.forall₂_map_right_iff, List.forall₂_same]
  exact fun l _ => marksLine_markLine l

/-! ## Headers by type -/

/-- The types whose headers are doc blocks. -/
def docBlockTypes : List FileType := [.php, .js, .ts, .css, .scss, .json]

theorem render_of_ne_twig (ht : t ≠ .twig) (licence : Text) : render licence t.profile =
    t.profile.header.opening ++ (interior licence ++ t.profile.header.closing) := by
  rw [render_eq, body, if_neg ht]

theorem render_docBlock (ht : t ∈ docBlockTypes) (licence : Text) :
    render licence t.profile = docBlock.opening ++ (interior licence ++ docBlock.closing) := by
  have htwig : t ≠ .twig := by
    rintro rfl
    exact absurd ht (by decide)
  have hheader : t.profile.header = docBlock := by
    cases t <;> first | rfl | exact absurd ht (by decide)
  rw [render_of_ne_twig htwig, hheader]

end Render

open Render

/-- What rendering does to a licence text. In the types that write doc blocks a text that is one,
once it is stripped, is its own header, and a header is rendered to itself. In all types but
templates the interior of the text stands between the delimiters as it is; in templates it stands
there with a `#` for the star that leads a line, in every line that leads with one, and nothing
else is changed. -/
theorem render_keeps_text (licence : Text) :
    (∀ t ∈ docBlockTypes,
      (docBlock.opening <+: strip licence → docBlock.closing <:+ strip licence →
        5 ≤ (strip licence).length → render licence t.profile = strip licence) ∧
      render (render licence t.profile) t.profile = render licence t.profile) ∧
    (∀ t : FileType, t ≠ .twig → render licence t.profile =
      t.profile.header.opening ++ (interior licence ++ t.profile.header.closing)) ∧
    ∃ inner, render licence FileType.twig.profile = ['{', '#'] ++ (inner ++ ['#', '}']) ∧
      List.Forall₂ MarksLine (splitOn '\n' (interior licence)) (splitOn '\n' inner) := by
  refine ⟨fun t ht => ⟨fun ho hc hlen => ?_, ?_⟩, fun t ht => render_of_ne_twig ht licence,
    markLines ['#'] (interior licence), ?_, forall₂_lines _⟩
  · rw [render_docBlock ht, enclosed_interior (isDocBlock_iff.2 ⟨ho, hc, hlen⟩)]
  · rw [render_docBlock ht, render_docBlock ht, interior_enclosed]
  · rw [render_eq, body, if_pos rfl]
    rfl

/-- A licence text with blanks around it, with line ends of two characters, and with stars that
lead a line, or the text, and one that does not. -/
def starredLicence : Text := "\r\n/*** A\r\n \t* B * C\r\n**/ \n".toList

theorem render_keeps_text_starredLicence :
    docBlock.opening <+: strip starredLicence ∧ docBlock.closing <:+ strip starredLicence ∧
    render starredLicence FileType.js.profile = "/*** A\r\n \t* B * C\r\n**/".toList ∧
    render "/*** A\r\n \t* B * C\r\n**/".toList FileType.js.profile =
      "/*** A\r\n \t* B * C\r\n**/".toList ∧
    render starredLicence FileType.html.profile = "<!--*** A\r\n \t* B * C\r\n**-->".toList ∧
    render starredLicence FileType.twig.profile = "\x7b## A\r\n \t# B * C\r\n##\x7d".toList := by
  have hstrip : strip starredLicence = "/*** A\r\n \t* B * C\r\n**/".toList := by decide +kernel
  have ho : docBlock.opening <+: strip starredLicence := by
    rw [hstrip]
    exact ⟨"* A\r\n \t* B * C\r\n**/".toList, by decide +kernel⟩
  have hc : docBlock.closing <:+ strip starredLicence := by
    rw [hstrip]
    exact ⟨"/*** A\r\n \t* B * C\r\n*".toList, by decide +kernel⟩
  have hlen : 5 ≤ (strip starredLicence).length := by
    rw [hstrip]
    decide +kernel
  obtain ⟨hdoc, hplain, -⟩ := render_keeps_text starredLicence
  obtain ⟨hsame, hagain⟩ := hdoc .js (by decide)
  have hinterior : interior starredLicence = "* A\r\n \t* B * C\r\n*".toList := by decide +kernel
  have hjs := hsame ho hc hlen
  rw [hjs, hstrip] at hagain
  refine ⟨ho, hc, hjs.trans hstrip, hagain, ?_, by decide +kernel⟩
  rw [hplain .html (by decide), hinterior]
  decide +kernel

end Letterhead
