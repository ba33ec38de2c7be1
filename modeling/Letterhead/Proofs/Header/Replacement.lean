import Letterhead.Header.Stamp
import Letterhead.Proofs.Header.Matching
/-
# What a stamp replaces

Where comments are blocks, a stamp cuts out one thing only: a block with the marker that
stands on top of the text behind blanks (`OursOnTop`). All else of the text stays, and
where there is no such block the text stays as a whole behind the header, a foreign header
too (`stamp_replaces_ours_only`).
-/
namespace Letterhead

open Text

/-- A text that begins with blanks and a block with the marker, and what follows them. -/
structure OursOnTop (d : Delimiters) (marker content w old tail : Text) : Prop where
  cut : content = w ++ (old ++ tail)
  blanks : ∀ c ∈ w, isBlank c
  block : d.IsBlock old
  marked : includesIgnoringCase old marker

namespace Matcher

variable {t : FileType} {marker content w old tail : Text}

/-- Ours is found where it stands on top. -/
theorem detect_block_of_ours (h : OursOnTop t.profile.comment marker content w old tail) :
    (block t).detect marker content =
      .ok (.ours ⟨old, ⟨w.length, w.length + old.length⟩, .plain t⟩) := by
  obtain ⟨rfl, hw, hblock, hm⟩ := h
  obtain ⟨c, o, ho, hc⟩ := FileType.exists_opening t
  have hfound := Delimiters.leading?_block_append ho hc hw (Delimiters.isBlock_iff.1 hblock) tail
  simp only [detect, hfound, detected_behind hm]

/-- Where ours does not stand on top, a header goes to the top. -/
theorem detect_block_of_not_ours
    (h : ¬ ∃ w old tail, OursOnTop t.profile.comment marker content w old tail) :
    (block t).detect marker content = .ok (.absent .top) ∨
      ∃ c, (block t).detect marker content = .ok (.foreign c .top) := by
  simp only [detect]
  cases hx : t.profile.comment.block.leading? content with
  | none => exact .inl rfl
  | some x =>
    obtain ⟨c, o, ho, hc⟩ := FileType.exists_opening t
    obtain ⟨w, old, tail, rfl, hw, hcomment, rfl⟩ :=
      (Delimiters.leading?_block_eq_some_iff ho hc).1 hx
    have hm : ¬ includesIgnoringCase old marker := fun hm =>
      h ⟨w, old, tail, rfl, hw, Delimiters.isBlock_iff.2 hcomment, hm⟩
    refine .inr ⟨⟨old, ⟨w.length, w.length + old.length⟩, .plain t⟩, ?_⟩
    simp [detected, Span.of_append, hm]

end Matcher

namespace Stamp

variable {bom b : Text}

/-- A byte order mark and what stands behind it. -/
theorem mark_body_append (h : bom = [byteOrderMark] ∨ bom = [] ∧ b.head? ≠ some byteOrderMark) :
    mark (bom ++ b) = bom ∧ body (bom ++ b) = b := by
  rcases h with rfl | ⟨rfl, h⟩
  · exact ⟨rfl, rfl⟩
  · simp [mark, body, h]

end Stamp

open Stamp in
/-- On a file with block comments a stamp replaces a block with the marker that stands on
top, behind a byte order mark and blanks: what is in front of it and behind it stays. On
every other file the header goes to the top, behind the byte order mark, and the text
stays. -/
theorem stamp_replaces_ours_only (read : Php.Reader) {t : FileType} (hphp : t ≠ .php)
    (htwig : t ≠ .twig) (marker rendered : Text) {bom b : Text}
    (hbom : bom = [byteOrderMark] ∨ bom = [] ∧ b.head? ≠ some byteOrderMark) :
    (∀ w old tail, OursOnTop t.profile.comment marker b w old tail →
      apply ⟨t, .ofType read t, marker, rendered⟩ (bom ++ b) =
        .ok (bom ++ (w ++ (withLineEnding (lineEnding b) rendered ++ tail)))) ∧
    ((¬ ∃ w old tail, OursOnTop t.profile.comment marker b w old tail) →
      apply ⟨t, .ofType read t, marker, rendered⟩ (bom ++ b) =
        .ok (bom ++ (withLineEnding (lineEnding b) rendered ++ (lineEnding b ++ b)))) := by
  obtain ⟨hmark, hbody⟩ := mark_body_append hbom
  have happly : ∀ d, (Matcher.block t).detect marker b = .ok d →
      apply ⟨t, .ofType read t, marker, rendered⟩ (bom ++ b) =
        .ok (bom ++ place b d rendered) := by
    intro d hd
    simp only [apply, detect, hbody, Matcher.ofType_of_ne_twig read hphp htwig, hd, Except.map,
      applyTo, hmark]
  constructor
  · intro w old tail h
    rw [happly _ (Matcher.detect_block_of_ours h)]
    obtain ⟨rfl, -, -, -⟩ := h
    simp only [place, Placement.replace_append]
  · intro h
    rcases Matcher.detect_block_of_not_ours h with hd | ⟨c, hd⟩
    · rw [happly _ hd]
      simp [place, Placement.prepend]
    · rw [happly _ hd]
      simp [place, Placement.prepend]

/-- A page with a header of ours behind a byte order mark and a blank line. -/
def markedPage : Text := "\r\n<!-- Notice of licence -->-->\r\n".toList

open Stamp in
theorem stamp_replaces_ours_only_markedPage :
    OursOnTop FileType.html.profile.comment "NOTICE".toList markedPage "\r\n".toList
      "<!-- Notice of licence -->".toList "-->\r\n".toList ∧
    apply ⟨.html, .ofType (fun _ => .ok []) .html, "NOTICE".toList, "a\nb".toList⟩
      ([byteOrderMark] ++ markedPage) = .ok ([byteOrderMark] ++ "\r\na\r\nb-->\r\n".toList) := by
  have hours : OursOnTop FileType.html.profile.comment "NOTICE".toList markedPage "\r\n".toList
      "<!-- Notice of licence -->".toList "-->\r\n".toList :=
    ⟨rfl, List.all_eq_true.1 (by decide +kernel), Delimiters.isBlock_iff.2 (by decide +kernel),
      by decide +kernel⟩
  refine ⟨hours, ?_⟩
  rw [(stamp_replaces_ours_only (fun _ => .ok []) (by decide) (by decide) "NOTICE".toList
    "a\nb".toList (.inl rfl)).1 _ _ _ hours]
  decide +kernel

end Letterhead
