import Letterhead.Proofs.Header.BlankLines
import Letterhead.Proofs.Header.Idempotence
import Letterhead.Proofs.Header.Replacement
/-
# Stamping by leading comments

A PHP file is stamped by the comments that lead its first statement, whoever tells them. The
first that holds the marker is replaced, and else the header goes behind the open tag
(`stamp_by_comments`). Where the header went in, it has the line ending of what the first line
is now, so that a reader who finds it there leaves the text as it is
(`withLineEnding_of_placed`).
-/
namespace Letterhead

open Text

namespace Php

/-- The comment is a piece of the text, and its offsets are those of the piece. -/
def Comment.StandsIn (c : Comment) (b : Text) : Prop :=
  ∃ pre post, b = pre ++ (c.text ++ post) ∧ c.span = ⟨pre.length, pre.length + c.text.length⟩

/-- The first comment that holds the marker. -/
def firstMarked? (marker : Text) (comments : List Comment) : Option Comment :=
  comments.find? fun c => includesIgnoringCase c.text marker

end Php

open Php

variable {marker licence b rendered nl rest pre post : Text} {comments : List Comment}
  {c : Comment} {read : Reader}

/-! ## Where the header goes -/

/-- A comment with the marker is replaced. -/
theorem place_of_marked (hc : firstMarked? marker comments = some c) (b rendered : Text) :
    place b (Matcher.ofComments marker comments) rendered =
      Placement.replace b (withLineEnding (lineEnding b) rendered) c.span := by
  unfold Matcher.ofComments
  rw [show comments.find? _ = some c from hc]
  rfl

theorem place_of_marked_append (hc : firstMarked? marker comments = some c)
    (hb : b = pre ++ (c.text ++ post)) (hspan : c.span = ⟨pre.length, pre.length + c.text.length⟩)
    (rendered : Text) :
    place b (Matcher.ofComments marker comments) rendered =
      pre ++ (withLineEnding (lineEnding b) rendered ++ post) := by
  rw [place_of_marked hc, hspan]
  simp only [hb, Placement.replace_append]

/-- Without such a comment the header goes behind the open tag. -/
theorem place_of_unmarked (hc : firstMarked? marker comments = none) (b rendered : Text) :
    place b (Matcher.ofComments marker comments) rendered =
      Placement.insertBehindTag (lineEnding b) b (withLineEnding (lineEnding b) rendered) := by
  unfold Matcher.ofComments
  rw [show comments.find? _ = none from hc]
  cases comments <;> rfl

/-- The second text is the first with the header in it, behind a part of it that decides the line
ending of the first line if it holds a line end. -/
def Placed (header b r : Text) : Prop :=
  ∃ w tail, r = w ++ (header ++ tail) ∧ ('\n' ∈ w → lineEnding w = lineEnding b) ∧
    (w = [] ∨ w.head? = b.head?)

theorem placed_replaced (header b : Text) (span : Span) :
    Placed header b (Placement.replace b header span) := by
  have hb := List.take_append_drop span.start b
  refine ⟨b.take span.start, b.drop span.stop, by simp [Placement.replace], fun h => ?_, ?_⟩
  · rw [← lineEnding_append h (b.drop span.start), hb]
  · cases hw : b.take span.start with
    | nil => exact .inl rfl
    | cons d w => exact .inr (by rw [← hb, hw]; rfl)

theorem placed_inserted (header gap : Text) (hb : b = Placement.openTag ++ rest) :
    Placed header b (Placement.openTag ++ (lineEnding b ++ (header ++ (gap ++ rest)))) := by
  refine ⟨Placement.openTag ++ lineEnding b, gap ++ rest, by simp, fun _ => ?_, .inr ?_⟩
  · rcases lineEnding_eq b with h | h <;> rw [h] <;> decide
  · rw [hb]
    rfl

/-- The header stands in the text that it was put into as it would be put there again. -/
theorem withLineEnding_of_placed {r : Text} (hp : PairedReturns licence) (t : FileType)
    (h : Placed (withLineEnding (lineEnding b) (render licence t.profile)) b r) :
    withLineEnding (lineEnding r) (render licence t.profile) =
      withLineEnding (lineEnding b) (render licence t.profile) := by
  obtain ⟨w, tail, rfl, hfeed, -⟩ := h
  exact withLineEnding_placed hp hfeed t tail

/-- A text that begins with no byte order mark begins with none when a header is put in. -/
theorem head?_of_placed {r : Text} {t : FileType}
    (h : Placed (withLineEnding nl (render licence t.profile)) b r)
    (hb : b.head? ≠ some Stamp.byteOrderMark) : r.head? ≠ some Stamp.byteOrderMark := by
  obtain ⟨w, tail, rfl, -, hw⟩ := h
  cases w with
  | nil =>
    obtain ⟨c, s, hs, -, hc, hconv⟩ := exists_render licence t
    simpa [hs, hconv] using hc
  | cons d w =>
    rw [List.cons_append, List.head?_cons]
    have hd : some d = b.head? := by simpa using hw
    rwa [hd]

/-- Putting a header in by comments puts it somewhere, or leaves the text as it is. -/
theorem place_cases (marker : Text) (comments : List Comment) (b rendered : Text) :
    Placed (withLineEnding (lineEnding b) rendered) b
        (place b (Matcher.ofComments marker comments) rendered) ∨
      firstMarked? marker comments = none ∧
        place b (Matcher.ofComments marker comments) rendered = b := by
  cases hc : firstMarked? marker comments with
  | some c =>
    rw [place_of_marked hc]
    exact .inl (placed_replaced _ b c.span)
  | none =>
    rw [place_of_unmarked hc]
    by_cases hopen : Placement.openTag <+: b
    · obtain ⟨rest, hb⟩ := hopen
      obtain ⟨gap, -, hr⟩ := Placement.insertBehindTag_append (lineEnding b) rest
        (withLineEnding (lineEnding b) rendered)
      rw [hb] at hr
      rw [hr]
      exact .inl (placed_inserted _ gap hb.symm)
    · exact .inr ⟨rfl, Placement.insertBehindTag_of_not_prefix hopen _ _⟩

/-- A header that is found where it was put is replaced by itself. -/
theorem place_again {r : Text} (hp : PairedReturns licence)
    (hr : Placed (withLineEnding (lineEnding b) (render licence FileType.php.profile)) b r)
    (hc : firstMarked? marker comments = some c)
    (htext : c.text = withLineEnding (lineEnding b) (render licence FileType.php.profile))
    (hin : c.StandsIn r) :
    place r (Matcher.ofComments marker comments) (render licence FileType.php.profile) = r := by
  obtain ⟨pre, post, hcut, hspan⟩ := hin
  rw [place_of_marked_append hc hcut hspan, withLineEnding_of_placed hp .php hr, ← htext, ← hcut]

/-! ## Stamping -/

namespace Stamp

/-- A text is a byte order mark and what stands behind it, or begins with none. -/
theorem exists_mark_append (content : Text) : ∃ bom b, content = bom ++ b ∧
    (bom = [byteOrderMark] ∨ bom = [] ∧ b.head? ≠ some byteOrderMark) := by
  by_cases h : content.head? = some byteOrderMark
  · obtain ⟨b, rfl⟩ := List.head?_eq_some_iff.1 h
    exact ⟨[byteOrderMark], b, rfl, .inl rfl⟩
  · exact ⟨[], content, rfl, .inr ⟨rfl, h⟩⟩

/-- A text is stamped behind its byte order mark, by what is detected in the rest. -/
theorem apply_mark_append {bom : Text}
    (hbom : bom = [byteOrderMark] ∨ bom = [] ∧ b.head? ≠ some byteOrderMark)
    (read : Reader) (marker licence : Text) (t : FileType) :
    (ofLicence read marker licence t).apply (bom ++ b) =
      ((Matcher.ofType read t).detect marker b).map fun d =>
        bom ++ place b d (render licence t.profile) := by
  obtain ⟨hmark, hbody⟩ := mark_body_append hbom
  unfold apply applyTo detect
  rw [hmark, hbody]
  rfl

theorem apply_of_read {bom : Text}
    (hbom : bom = [byteOrderMark] ∨ bom = [] ∧ b.head? ≠ some byteOrderMark)
    (hread : read b = .ok comments) (marker licence : Text) :
    (ofLicence read marker licence .php).apply (bom ++ b) =
      .ok (bom ++ place b (Matcher.ofComments marker comments)
        (render licence FileType.php.profile)) := by
  simp only [apply_mark_append hbom, Matcher.ofType, Matcher.detect, hread, Except.map]

end Stamp

open Stamp in
/-- Whatever comments a reader tells of the text behind the byte order mark, if each is a piece
of it: the first with the marker is replaced by the header, in the line ending of the first
line; without one the header goes behind the open tag, between a line end and at most one more;
without a tag the text stays. A result in which the reader tells the header, wherever it stands,
to be the first comment with the marker stays as it is when it is stamped again. -/
theorem stamp_by_comments (hp : PairedReturns licence) {bom : Text}
    (hbom : bom = [byteOrderMark] ∨ bom = [] ∧ b.head? ≠ some byteOrderMark)
    (hread : read b = .ok comments) (hin : ∀ c ∈ comments, c.StandsIn b) (marker : Text) :
    (∀ c, firstMarked? marker comments = some c → ∃ pre post,
      b = pre ++ (c.text ++ post) ∧ c.span = ⟨pre.length, pre.length + c.text.length⟩ ∧
      (ofLicence read marker licence .php).apply (bom ++ b) = .ok (bom ++ (pre ++
        (withLineEnding (lineEnding b) (render licence FileType.php.profile) ++ post)))) ∧
    ((∀ c ∈ comments, ¬ includesIgnoringCase c.text marker) →
      (∀ rest, b = Placement.openTag ++ rest → ∃ gap, (gap = [] ∨ gap = lineEnding b) ∧
        (ofLicence read marker licence .php).apply (bom ++ b) =
          .ok (bom ++ (Placement.openTag ++ (lineEnding b ++
            (withLineEnding (lineEnding b) (render licence FileType.php.profile) ++
              (gap ++ rest)))))) ∧
      (¬ Placement.openTag <+: b →
        (ofLicence read marker licence .php).apply (bom ++ b) = .ok (bom ++ b))) ∧
    ∀ r comments' c, (ofLicence read marker licence .php).apply (bom ++ b) = .ok (bom ++ r) →
      read r = .ok comments' → firstMarked? marker comments' = some c →
      c.text = withLineEnding (lineEnding b) (render licence FileType.php.profile) →
      c.StandsIn r → (ofLicence read marker licence .php).apply (bom ++ r) = .ok (bom ++ r) := by
  have happly := apply_of_read hbom hread marker licence
  refine ⟨fun c hc => ?_, fun hnone => ⟨fun rest hb => ?_, fun hopen => ?_⟩, ?_⟩
  · obtain ⟨pre, post, hb, hspan⟩ := hin c (List.mem_of_find?_eq_some hc)
    exact ⟨pre, post, hb, hspan, by rw [happly, place_of_marked_append hc hb hspan]⟩
  · have hc : firstMarked? marker comments = none := List.find?_eq_none.2 hnone
    obtain ⟨gap, hgap, hr⟩ := Placement.insertBehindTag_append (lineEnding b) rest
      (withLineEnding (lineEnding b) (render licence FileType.php.profile))
    rw [← hb] at hr
    exact ⟨gap, hgap, by rw [happly, place_of_unmarked hc, hr]⟩
  · have hc : firstMarked? marker comments = none := List.find?_eq_none.2 hnone
    rw [happly, place_of_unmarked hc, Placement.insertBehindTag_of_not_prefix hopen]
  · intro r comments' c hr hread' hc htext hstands
    obtain rfl : place b (Matcher.ofComments marker comments)
        (render licence FileType.php.profile) = r :=
      List.append_cancel_left (Except.ok.inj (happly.symm.trans hr))
    rcases place_cases marker comments b (render licence FileType.php.profile) with
      hplaced | ⟨hunmarked, hsame⟩
    · have hbom' : bom = [byteOrderMark] ∨ bom = [] ∧
          (place b (Matcher.ofComments marker comments)
            (render licence FileType.php.profile)).head? ≠ some byteOrderMark :=
        hbom.imp_right fun h => ⟨h.1, head?_of_placed hplaced h.2⟩
      rw [apply_of_read hbom' hread', place_again hp hplaced hc htext hstands]
    · -- the reader says of the same text what it said before
      rw [hsame, hread, Except.ok.injEq] at hread'
      rw [← hread', hunmarked] at hc
      cases hc

/-- A script with two comments behind the tag, the second of which is ours. -/
def markedScript : Text := "<?php\n// é\n# notice\n$x;".toList

/-- The script with a header in place of the comment that was ours. -/
def stampedScript : Text := "<?php\n// é\n/** NOTICE\n */\n$x;".toList

/-- A reader of both scripts, and of no other text. -/
def readScripts : Reader := fun s =>
  if s = markedScript then
    .ok [⟨"// é".toList, ⟨6, 10⟩⟩, ⟨"# notice".toList, ⟨11, 19⟩⟩]
  else if s = stampedScript then
    .ok [⟨"// é".toList, ⟨6, 10⟩⟩, ⟨"/** NOTICE\n */".toList, ⟨11, 25⟩⟩]
  else .error (.syntaxError 1)

/-- A licence text of two lines, whose line end is of two characters. -/
def noticeBlock : Text := "/** NOTICE\r\n */".toList

theorem pairedReturns_noticeBlock : PairedReturns noticeBlock := by
  have hcut : noticeBlock = "/** NOTICE".toList ++ '\r' :: '\n' :: " */".toList := by
    decide +kernel
  rw [hcut]
  refine (pairedReturns_of_notMem (by decide +kernel)).append (pairedReturns_cons.2 ⟨by simp, ?_⟩)
  exact pairedReturns_of_notMem (by decide +kernel)

open Stamp in
theorem stamp_by_comments_markedScript :
    PairedReturns noticeBlock ∧
    (ofLicence readScripts "notice".toList noticeBlock .php).apply
      ([byteOrderMark] ++ markedScript) = .ok ([byteOrderMark] ++ stampedScript) ∧
    (ofLicence readScripts "notice".toList noticeBlock .php).apply
      ([byteOrderMark] ++ stampedScript) = .ok ([byteOrderMark] ++ stampedScript) := by
  have hread : readScripts markedScript =
      .ok [⟨"// é".toList, ⟨6, 10⟩⟩, ⟨"# notice".toList, ⟨11, 19⟩⟩] := by decide +kernel
  have hin : ∀ c ∈ [(⟨"// é".toList, ⟨6, 10⟩⟩ : Comment), ⟨"# notice".toList, ⟨11, 19⟩⟩],
      c.StandsIn markedScript := by
    intro c hc
    rcases List.mem_pair.1 hc with rfl | rfl
    · exact ⟨"<?php\n".toList, "\n# notice\n$x;".toList, by decide +kernel, by decide +kernel⟩
    · exact ⟨"<?php\n// é\n".toList, "\n$x;".toList, by decide +kernel, by decide +kernel⟩
  obtain ⟨hmarked, -, hagain⟩ := stamp_by_comments pairedReturns_noticeBlock
    (.inl rfl) hread hin "notice".toList
  obtain ⟨pre, post, hb, hspan, hfirst⟩ :=
    hmarked ⟨"# notice".toList, ⟨11, 19⟩⟩ (by decide +kernel)
  have hcut : "<?php\n// é\n".toList ++ ("# notice".toList ++ "\n$x;".toList) =
      pre ++ ("# notice".toList ++ post) := by
    rw [← hb]
    decide +kernel
  have hlen : ("<?php\n// é\n".toList : Text).length = pre.length := by
    rw [← (Span.mk.inj hspan).1]
    decide +kernel
  obtain ⟨rfl, hpost⟩ := List.append_inj hcut hlen
  obtain rfl := List.append_cancel_left hpost
  have hstamped : "<?php\n// é\n".toList ++ (withLineEnding (lineEnding markedScript)
      (render noticeBlock FileType.php.profile) ++ "\n$x;".toList) = stampedScript := by
    decide +kernel
  rw [hstamped] at hfirst
  refine ⟨pairedReturns_noticeBlock, hfirst, hagain _
    [⟨"// é".toList, ⟨6, 10⟩⟩, ⟨"/** NOTICE\n */".toList, ⟨11, 25⟩⟩]
    ⟨"/** NOTICE\n */".toList, ⟨11, 25⟩⟩ hfirst ?_ ?_ ?_ ?_⟩
  · decide +kernel
  · decide +kernel
  · decide +kernel
  · exact ⟨"<?php\n// é\n".toList, "\n$x;".toList, by decide +kernel, by decide +kernel⟩

end Letterhead
