import Letterhead.Proofs.Comment.Twig
import Letterhead.Proofs.Header.Matching
/-
# How far a twig header reaches

A header that is replaced takes with it what the match takes in, so the match should be
one comment. It is, in every format but the one whose lines lead with `#`: there a closing
that leads a line passes for a marker, and the match runs on to a later closing.
-/
namespace Letterhead

namespace Matcher

variable {marker content : Text}

/-- A comment that the twig matcher tells of is a cut of the text that one of the formats
takes for a header. -/
theorem exists_format_of_detect_twig {d : Detection} {c : Found}
    (h : Matcher.twig.detect marker content = .ok d) (hc : d.comment? = some c) :
    ∃ f : TwigFormat, c.style = .twig f ∧ f.leading? content = some c.span ∧
      c.text = c.span.of content := by
  simp only [detect, Except.ok.injEq] at h
  subst h
  cases hf : firstFormat? content TwigFormat.all with
  | none => simp [hf, Detection.comment?] at hc
  | some x =>
    obtain ⟨f, span⟩ := x
    simp only [hf, comment?_detected, Option.some.injEq] at hc
    subst hc
    exact ⟨f, rfl, (firstFormat?_eq_some hf).2, rfl⟩

end Matcher

namespace TwigFormat

/-- A twig comment that closes only where it ends: behind its opening, every closing is
the end of the text. -/
def ClosesOnce (text : Text) : Prop :=
  ∀ u v, text = '{' :: '#' :: (u ++ '#' :: '}' :: v) → v = []

/-- A line of the text, past its indentation, leads with a closing, and the text goes on
behind it. -/
def RunsPastClosing (text : Text) : Prop :=
  ∃ u indent v, text = '{' :: '#' :: (u ++ '\n' :: (indent ++ '#' :: '}' :: v)) ∧
    (∀ c ∈ indent, c = ' ' ∨ c = '\t') ∧ v ≠ []

/-- A closing inside a comment begins inside its body. -/
theorem exists_body_of_closing {body u v : Text} (hv : v ≠ [])
    (h : body ++ closing = u ++ '#' :: '}' :: v) :
    ∃ w, body = u ++ w ∧ w ≠ [] ∧ closing <+: w ++ closing := by
  rcases List.append_eq_append_iff.1 h with ⟨b, rfl, hb⟩ | ⟨b, rfl, hb⟩
  · -- the closing would begin at or behind the one that ends the comment
    match b, hb with
    | [], hb => simp_all
    | [_], hb => simp at hb
    | _ :: _ :: b, hb => simp at hb
  · refine ⟨b, rfl, ?_, v, ?_⟩
    · rintro rfl
      simp at hb
      exact hv hb
    · simpa using hb

theorem closesOnce_iff {allowed : Prop} {body : Text} (h : OnlyLeads allowed body closing) :
    ClosesOnce ('{' :: '#' :: (body ++ closing)) ↔
      ¬ (allowed ∧ RunsPastClosing ('{' :: '#' :: (body ++ closing))) := by
  constructor
  · rintro honce ⟨-, u, indent, v, htext, -, hv⟩
    exact hv (honce (u ++ '\n' :: indent) v (by simp [htext]))
  · intro hruns u v htext
    by_contra hv
    have hcut : body ++ closing = u ++ '#' :: '}' :: v := by simpa using htext
    obtain ⟨w, rfl, hw, hp⟩ := exists_body_of_closing hv hcut
    obtain ⟨hal, before, indent, rfl, hi⟩ := h u w rfl hw hp
    exact hruns ⟨hal, before, indent, v, by simpa using htext, hi, hv⟩

end TwigFormat

open TwigFormat in
/-- A twig header that is reported is a comment, and it is replaced from its first to its
last character. It is one comment, which ends at the first closing behind its opening,
unless it was met in the padded format with `#` markers and a closing that leads one of
its lines passed for a marker. -/
theorem twig_header_closes_once_iff {marker content : Text} {d : Detection} {c : Found}
    (h : Matcher.twig.detect marker content = .ok d) (hc : d.comment? = some c) :
    (∃ body, c.text = '{' :: '#' :: (body ++ ['#', '}'])) ∧
    (ClosesOnce c.text ↔ ¬ (c.style = .twig .paddedHash ∧ RunsPastClosing c.text)) ∧
    ∃ lead behind, content = lead ++ (c.text ++ behind) ∧
      ∀ rendered, place content (.ours c) rendered =
        lead ++ Text.withLineEnding (Text.lineEnding content) rendered ++ behind := by
  obtain ⟨f, hstyle, hspan, htext⟩ := Matcher.exists_format_of_detect_twig h hc
  obtain ⟨w, t, r, rfl, -, hx, hrest⟩ := Pattern.leading?_eq_some hspan
  have ht : c.text = t := by rw [htext, hx, Span.of_append]
  obtain ⟨body, hbody, hleads⟩ := mem_rests_pattern hrest
  have hcut : t = '{' :: '#' :: (body ++ closing) := by
    have : t ++ r = '{' :: '#' :: (body ++ closing) ++ r := by simpa using hbody
    exact List.append_cancel_right this
  have hleads' : OnlyLeads (f = .paddedHash) body closing := by
    intro v w hvw hne hp
    refine hleads v w hvw hne ?_
    have : closing <+: w ++ closing ++ r := List.prefix_append_of_prefix hp
    simpa using this
  refine ⟨⟨body, by rw [ht, hcut]⟩, ?_, w, r, by rw [ht], fun rendered => ?_⟩
  · rw [ht, hcut, closesOnce_iff hleads', hstyle]
    simp
  · simp only [place, hx, Placement.replace_append, List.append_assoc]

/-- A template with a padded header, whose closing leads a line, and another comment
further down. -/
def paddedPage : Text :=
  "\x7b# NOTICE OF LICENSE\n#\x7d<b>hi</b>\x7b# end #\x7d\n".toList

/-- The comment that is found on it: all of it but the last line end. -/
def paddedFound : Found := ⟨paddedPage.take 41, ⟨0, 41⟩, .twig .paddedHash⟩

open TwigFormat in
theorem twig_header_closes_once_iff_paddedPage :
    Matcher.twig.detect "NOTICE OF LICENSE".toList paddedPage = .ok (.ours paddedFound) ∧
    (ClosesOnce paddedFound.text ↔
      ¬ (paddedFound.style = .twig .paddedHash ∧ RunsPastClosing paddedFound.text)) :=
  have h : Matcher.twig.detect "NOTICE OF LICENSE".toList paddedPage = .ok (.ours paddedFound) := by
    decide +kernel
  ⟨h, (twig_header_closes_once_iff h rfl).2.1⟩

open TwigFormat in
/-- The header found on the page closes twice, and what stands between its closings is
replaced with it. -/
theorem paddedFound_takes_code :
    Matcher.twig.detect "NOTICE OF LICENSE".toList paddedPage = .ok (.ours paddedFound) ∧
    ¬ ClosesOnce paddedFound.text ∧
    place paddedPage (.ours paddedFound) "header".toList = "header\n".toList := by
  refine ⟨by decide +kernel, fun h => ?_, by decide +kernel⟩
  have hnil := h " NOTICE OF LICENSE\n".toList "<b>hi</b>\x7b# end #\x7d".toList (by decide +kernel)
  exact absurd hnil (by decide +kernel)

end Letterhead
