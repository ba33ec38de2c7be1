import Letterhead.Header.Placement
import Letterhead.Proofs.Comment.Closing
/-
# What matchers find

A matcher that goes by patterns answers with a cut of the text: the comment of the
detection is the text of the cut, and it is ours if and only if it holds the marker.
-/
namespace Letterhead

open Text

/-- The comment that a detection is about. -/
def Detection.comment? : Detection → Option Found
  | .absent _ => none
  | .foreign c _ | .ours c => some c

namespace Matcher

variable {read : Php.Reader} {marker content header : Text} {style : Style} {t : FileType}

theorem comment?_detected (marker content : Text) (style : Style) (span : Span) :
    (detected marker content style span).comment? = some ⟨span.of content, span, style⟩ := by
  unfold detected
  dsimp only
  split <;> rfl

theorem firstFormat?_eq_none_iff {fs : List TwigFormat} :
    firstFormat? content fs = none ↔ ∀ f ∈ fs, f.leading? content = none := by
  induction fs with
  | nil => simp [firstFormat?]
  | cons g fs ih =>
    unfold firstFormat?
    cases hg : g.leading? content <;> simp [hg, ih]

/-- The format that is found is met, and none of those that are tried before it is. -/
theorem firstFormat?_eq_some_iff {fs : List TwigFormat} {f : TwigFormat} {span : Span} :
    firstFormat? content fs = some (f, span) ↔ f.leading? content = some span ∧
      ∃ before after, fs = before ++ f :: after ∧ ∀ g ∈ before, g.leading? content = none := by
  induction fs with
  | nil => simp [firstFormat?]
  | cons g fs ih =>
    unfold firstFormat?
    cases hg : g.leading? content with
    | some x =>
      constructor
      · intro h
        obtain ⟨rfl, rfl⟩ := Prod.mk.inj (Option.some.inj h)
        exact ⟨hg, [], fs, rfl, by simp⟩
      · rintro ⟨hf, before, after, hfs, hnone⟩
        cases before with
        | nil =>
          obtain ⟨rfl, -⟩ := List.cons.inj hfs
          rw [hg] at hf
          rw [Option.some.inj hf]
        | cons g' before =>
          obtain ⟨rfl, -⟩ := List.cons.inj hfs
          simp [hg] at hnone
    | none =>
      rw [ih]
      refine and_congr_right fun hf => ⟨?_, ?_⟩
      · rintro ⟨before, after, rfl, hnone⟩
        exact ⟨g :: before, after, rfl, List.forall_mem_cons.2 ⟨hg, hnone⟩⟩
      · rintro ⟨before, after, hfs, hnone⟩
        cases before with
        | nil =>
          obtain ⟨rfl, -⟩ := List.cons.inj hfs
          simp [hg] at hf
        | cons g' before =>
          obtain ⟨rfl, rfl⟩ := List.cons.inj hfs
          exact ⟨before, after, rfl, (List.forall_mem_cons.1 hnone).2⟩

theorem firstFormat?_eq_some {fs : List TwigFormat} {f : TwigFormat} {span : Span}
    (h : firstFormat? content fs = some (f, span)) : f ∈ fs ∧ f.leading? content = some span := by
  obtain ⟨hf, before, after, rfl, -⟩ := firstFormat?_eq_some_iff.1 h
  exact ⟨by simp, hf⟩

theorem detected_ours {span : Span} {c : Found}
    (h : detected marker content style span = .ours c) :
    c = ⟨span.of content, span, style⟩ ∧ includesIgnoringCase c.text marker := by
  unfold detected at h
  dsimp only at h
  split at h
  · next hm =>
    obtain rfl := Detection.ours.inj h
    exact ⟨rfl, hm⟩
  · cases h

theorem detected_behind (hm : includesIgnoringCase header marker) (w tail : Text) (style : Style) :
    detected marker (w ++ (header ++ tail)) style ⟨w.length, w.length + header.length⟩ =
      .ours ⟨header, ⟨w.length, w.length + header.length⟩, style⟩ := by
  simp [detected, Span.of_append, hm]

theorem ofType_of_ne_twig (read : Php.Reader) (ht : t ≠ .php) (htwig : t ≠ .twig) :
    ofType read t = block t := by
  cases t <;> first | rfl | contradiction

end Matcher

/-- A cut that is given by the lengths of what it leaves out is replaced. -/
theorem Placement.replace_append (w old tail rendered : Text) :
    replace (w ++ (old ++ tail)) rendered ⟨w.length, w.length + old.length⟩ =
      w ++ (rendered ++ tail) := by
  have hdrop : (w ++ (old ++ tail)).drop (w.length + old.length) = tail := by
    rw [← List.append_assoc]
    exact List.drop_left' (by simp)
  simp [replace, hdrop]

end Letterhead
