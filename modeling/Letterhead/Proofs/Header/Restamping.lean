import Letterhead.Proofs.Header.LeadingComments
/-
# Stamping what was stamped

To stamp a text that a stamp has made changes nothing. For most types this is a matter of the
licence text alone (`Stampable.apply_again`). For PHP files it takes a parser that parses what it
parsed once the header is put in, and that tells the header where it was put
(`KeepsHeaders.apply_again`).
-/
namespace Letterhead

open Text

variable {marker licence content b r : Text}

namespace Php

variable {read : Reader} {comments : List Comment}

/-- The header of a PHP file, in the line ending of its first line. -/
def headerFor (licence b : Text) : Text :=
  withLineEnding (lineEnding b) (render licence FileType.php.profile)

/-- The reader tells that the first comment with the marker is this header, and stands here. -/
def Tells (read : Reader) (marker header text : Text) (offset : Nat) : Prop :=
  ∃ comments, read text = .ok comments ∧
    firstMarked? marker comments = some ⟨header, ⟨offset, offset + header.length⟩⟩

/-- What a parser of PHP is relied on for: a text that it parses, it parses with the header in
place of the first comment with the marker, and if there is none with the header behind the open
tag, and then it tells the header to be that comment, at the place where it was put. -/
structure KeepsHeaders (read : Reader) (marker licence : Text) : Prop where
  replaced : ∀ b comments c, read b = .ok comments → firstMarked? marker comments = some c →
    Tells read marker (headerFor licence b) (Placement.replace b (headerFor licence b) c.span)
      (b.take c.span.start).length
  inserted : ∀ b comments, read b = .ok comments → firstMarked? marker comments = none →
    Placement.openTag <+: b →
    Tells read marker (headerFor licence b)
      (Placement.insertBehindTag (lineEnding b) b (headerFor licence b))
      (Placement.openTag ++ lineEnding b).length

/-- What a reader that keeps headers tells of a text that a header was put into, and where the
header stands, unless the text is as it was. -/
theorem KeepsHeaders.tells_of_place (h : KeepsHeaders read marker licence)
    (hread : read b = .ok comments) :
    place b (Matcher.ofComments marker comments) (render licence FileType.php.profile) = b ∨
      ∃ pre post, place b (Matcher.ofComments marker comments)
          (render licence FileType.php.profile) = pre ++ (headerFor licence b ++ post) ∧
        Tells read marker (headerFor licence b) (pre ++ (headerFor licence b ++ post))
          pre.length := by
  cases hc : firstMarked? marker comments with
  | some c =>
    have hcut : Placement.replace b (headerFor licence b) c.span =
        b.take c.span.start ++ (headerFor licence b ++ b.drop c.span.stop) := by
      simp [Placement.replace]
    refine .inr ⟨b.take c.span.start, b.drop c.span.stop, ?_, ?_⟩
    · rw [place_of_marked hc, ← hcut, headerFor]
    · rw [← hcut]
      exact h.replaced b comments c hread hc
  | none =>
    rw [place_of_unmarked hc]
    by_cases hopen : Placement.openTag <+: b
    · obtain ⟨rest, hb⟩ := hopen
      obtain ⟨gap, -, hcut⟩ :=
        Placement.insertBehindTag_append (lineEnding b) rest (headerFor licence b)
      rw [hb, ← List.append_assoc] at hcut
      refine .inr ⟨Placement.openTag ++ lineEnding b, gap ++ rest, hcut, ?_⟩
      rw [← hcut]
      exact h.inserted b comments hread hc ⟨rest, hb⟩
    · exact .inl (Placement.insertBehindTag_of_not_prefix hopen _ _)

open Stamp in
/-- A PHP file that was stamped is stamped. -/
theorem KeepsHeaders.apply_again (h : KeepsHeaders read marker licence)
    (hp : PairedReturns licence)
    (hr : (ofLicence read marker licence .php).apply content = .ok r) :
    (ofLicence read marker licence .php).apply r = .ok r := by
  obtain ⟨bom, b, rfl, hbom⟩ := exists_mark_append content
  cases hread : read b with
  | error e =>
    simp [apply_mark_append hbom, Matcher.ofType, Matcher.detect, hread, Except.map] at hr
  | ok comments =>
    have happly := apply_of_read hbom hread marker licence
    obtain rfl := Except.ok.inj (happly.symm.trans hr)
    by_cases hsame : place b (Matcher.ofComments marker comments)
        (render licence FileType.php.profile) = b
    · rw [hsame, happly, hsame]
    · have hplaced := (place_cases marker comments b
        (render licence FileType.php.profile)).resolve_right fun hsame' => hsame hsame'.2
      obtain ⟨pre, post, hcut, comments', hread', hc⟩ :=
        (h.tells_of_place hread).resolve_left hsame
      rw [hcut] at hplaced ⊢
      have hbom' : bom = [byteOrderMark] ∨ bom = [] ∧
          (pre ++ (headerFor licence b ++ post)).head? ≠ some byteOrderMark :=
        hbom.imp_right fun hbom => ⟨hbom.1, head?_of_placed hplaced hbom.2⟩
      rw [apply_of_read hbom' hread', place_again hp hplaced hc rfl ⟨pre, post, rfl, rfl⟩]

end Php

open Stamp in
/-- A file of another type that was stamped is stamped, if its header is found again. -/
theorem Stampable.apply_again {read : Php.Reader} {t : FileType}
    (h : Stampable read marker licence t) (ht : t ≠ .php)
    (hr : (ofLicence read marker licence t).apply content = .ok r) :
    (ofLicence read marker licence t).apply r = .ok r := by
  obtain ⟨bom, b, rfl, hbom⟩ := exists_mark_append content
  obtain ⟨d, hd, r', c, hplace, hhead, hd', -, -, hagain⟩ := h.exists_place_again ht b
  obtain rfl : bom ++ r' = r := by
    simpa [apply_mark_append hbom, hd, hplace, Except.map] using hr
  have hbom' : bom = [byteOrderMark] ∨ bom = [] ∧ r'.head? ≠ some byteOrderMark :=
    hbom.imp_right fun hbom => ⟨hbom.1, hhead⟩
  simp only [apply_mark_append hbom', hd', Except.map, hagain]

end Letterhead
