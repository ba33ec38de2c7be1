import Letterhead.Proofs.Header.TwigExtent
/-
# When a template has a header

Four formats are tried on a template, three of them with repeated lines and markers. That a
header is found has a plain description all the same: behind its blanks the template opens a
comment, and somewhere behind the opening there is a closing (`twig_detects_top_comment`). For
what any format finds is such a comment, and the plain format, which is tried last, is met
wherever there is one.
-/
namespace Letterhead

open Text

variable {marker content : Text} {f : TwigFormat} {x : Span} {c : Found} {d : Detection}

namespace TwigFormat

/-- Behind blanks the text goes on with `{#`, and `#}` occurs somewhere behind these two
characters. -/
def HasTopComment (content : Text) : Prop :=
  ∃ w inner behind, content = w ++ '{' :: '#' :: (inner ++ '#' :: '}' :: behind) ∧
    ∀ b ∈ w, isBlank b

/-- The format is met on its own, here, and none of those that are tried before it is met. -/
def IsFirstMet (content : Text) (f : TwigFormat) (x : Span) : Prop :=
  f.leading? content = some x ∧
    ∃ before after, all = before ++ f :: after ∧ ∀ g ∈ before, g.leading? content = none

theorem hasTopComment_of_leading? (h : f.leading? content = some x) : HasTopComment content := by
  obtain ⟨w, body, tail, rfl, hw, -⟩ := exists_comment_of_leading? h
  exact ⟨w, body, tail, by simp, hw⟩

/-- Some format is met if and only if there is a comment at the top. -/
theorem firstFormat?_all_eq_none_iff :
    Matcher.firstFormat? content all = none ↔ ¬ HasTopComment content := by
  rw [Matcher.firstFormat?_eq_none_iff]
  constructor
  · rintro hnone ⟨w, inner, behind, rfl, hw⟩
    obtain ⟨x, hx⟩ := exists_leading?_hash hw inner behind
    rw [hnone hash (by decide)] at hx
    cases hx
  · intro htop f _
    cases hf : f.leading? content with
    | none => rfl
    | some x => exact absurd (hasTopComment_of_leading? hf) htop

end TwigFormat

open TwigFormat

/-- The comment that a template opens with behind its blanks, as it is reported: its text is a cut
of the template, from the first character that is no blank to a closing, and its style is that of
the first format that is met. -/
structure Found.IsTopComment (content : Text) (c : Found) : Prop where
  cut : ∃ w body tail, content = w ++ (c.text ++ tail) ∧ (∀ b ∈ w, isBlank b) ∧
    c.text = '{' :: '#' :: (body ++ ['#', '}']) ∧ c.span = ⟨w.length, w.length + c.text.length⟩
  text : c.text = c.span.of content
  style : ∃ f, c.style = .twig f ∧ IsFirstMet content f c.span

theorem isTopComment_of_firstFormat? (h : Matcher.firstFormat? content all = some (f, x)) :
    Found.IsTopComment content ⟨x.of content, x, .twig f⟩ := by
  have hfirst := Matcher.firstFormat?_eq_some_iff.1 h
  obtain ⟨w, body, tail, rfl, hw, rfl⟩ := exists_comment_of_leading? hfirst.1
  refine ⟨⟨w, body, tail, ?_, hw, ?_, ?_⟩, rfl, f, rfl, hfirst⟩ <;> rw [Span.of_append]

/-- What the twig matcher answers in either case. -/
theorem detect_twig_cases (marker content : Text) :
    ¬ HasTopComment content ∧ Matcher.twig.detect marker content = .ok (.absent .top) ∨
      HasTopComment content ∧ ∃ c, Found.IsTopComment content c ∧
        Matcher.twig.detect marker content =
          .ok (if includesIgnoringCase c.text marker then .ours c else .foreign c .top) := by
  cases hf : Matcher.firstFormat? content all with
  | none => exact .inl ⟨firstFormat?_all_eq_none_iff.1 hf, by simp only [Matcher.detect, hf]⟩
  | some y =>
    obtain ⟨f, x⟩ := y
    have hfirst := Matcher.firstFormat?_eq_some hf
    refine .inr ⟨hasTopComment_of_leading? hfirst.2, _, isTopComment_of_firstFormat? hf, ?_⟩
    simp only [Matcher.detect, hf, Matcher.detected]

/-- A template is found to have a header if and only if it opens with a comment behind its blanks.
The header is the comment that stands there, from the first character that is no blank to a
closing; its style is the first format, in the order in which they are tried, that is met on its
own; and it is ours if and only if its text holds the marker. -/
theorem twig_detects_top_comment (marker content : Text) :
    ∃ d, Matcher.twig.detect marker content = .ok d ∧
      ((∃ c, d.comment? = some c) ↔ HasTopComment content) ∧
      (d.comment? = none → d = .absent .top) ∧
      ∀ c, d.comment? = some c → Found.IsTopComment content c ∧
        d = if includesIgnoringCase c.text marker then .ours c else .foreign c .top := by
  rcases detect_twig_cases marker content with ⟨htop, hd⟩ | ⟨htop, c, hc, hd⟩
  · refine ⟨_, hd, iff_of_false ?_ htop, fun _ => rfl, ?_⟩
    · rintro ⟨c, hc⟩
      cases hc
    · intro c hc
      cases hc
  · have hcomment : (if includesIgnoringCase c.text marker then Detection.ours c
        else .foreign c .top).comment? = some c := by
      split <;> rfl
    refine ⟨_, hd, iff_of_true ⟨c, hcomment⟩ htop, ?_, ?_⟩
    · intro hnone
      cases hcomment.symm.trans hnone
    · intro c' hc'
      obtain rfl := Option.some.inj (hcomment.symm.trans hc')
      exact ⟨hc, rfl⟩

/-- A template with blanks in front of a comment whose second line leads with a star, and the
comment that is found. -/
def starredPage : Text := " \n\x7b#\n  * Notice of License\n#\x7d\n<b>".toList
def starredFound : Found :=
  ⟨"\x7b#\n  * Notice of License\n#\x7d".toList, ⟨2, 29⟩, .twig .asterisk⟩

theorem twig_detects_top_comment_starredPage :
    HasTopComment starredPage ∧ Found.IsTopComment starredPage starredFound ∧
    Matcher.twig.detect "NOTICE OF LICENSE".toList starredPage = .ok (.ours starredFound) ∧
    ¬ HasTopComment "a \x7b# b #\x7d".toList := by
  have htop : HasTopComment starredPage :=
    ⟨" \n".toList, "\n  * Notice of License\n".toList, "\n<b>".toList, by decide +kernel,
      List.all_eq_true.1 (by decide +kernel)⟩
  have hours : Matcher.twig.detect "NOTICE OF LICENSE".toList starredPage =
      .ok (.ours starredFound) := by decide +kernel
  have habsent : Matcher.twig.detect "NOTICE OF LICENSE".toList "a \x7b# b #\x7d".toList =
      .ok (.absent .top) := by decide +kernel
  obtain ⟨d, hd, -, -, hfound⟩ := twig_detects_top_comment "NOTICE OF LICENSE".toList starredPage
  obtain rfl := Except.ok.inj (hd.symm.trans hours)
  obtain ⟨d', hd', hiff, -⟩ :=
    twig_detects_top_comment "NOTICE OF LICENSE".toList "a \x7b# b #\x7d".toList
  obtain rfl := Except.ok.inj (hd'.symm.trans habsent)
  refine ⟨htop, (hfound starredFound rfl).1, hours, fun h => ?_⟩
  obtain ⟨c, hc⟩ := hiff.2 h
  cases hc

end Letterhead
