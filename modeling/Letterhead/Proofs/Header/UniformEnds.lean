import Letterhead.Proofs.Header.LeadingComments
import Letterhead.Proofs.Header.TwigExtent
/-
# Uniform line ends

A text whose line ends are all of one kind has line ends of that kind only when a header is
put on it (`place_keeps_line_ends`). The kind is read off the first line and the header is
converted to it, so all that is left to see to are the seams: no piece that is put together
begins with a line feed of its own, unless a cut goes through a line end.
-/
namespace Letterhead

open Text

namespace Text

/-- Whether a carriage return stands in front of a cut and its line feed behind it. -/
def SplitsLineEnd (s : Text) (i : Nat) : Prop :=
  (s.take i).getLast? = some '\r' ∧ (s.drop i).head? = some '\n'

instance (s : Text) (i : Nat) : Decidable (s.SplitsLineEnd i) :=
  inferInstanceAs (Decidable (_ ∧ _))

/-- All line ends of a text are this one. Where they are line feeds, no carriage return stands
anywhere; where they are pairs, no line feed stands alone. -/
inductive Uniform : Text → Text → Prop
  | feeds {s : Text} (h : '\r' ∉ s) : Uniform lf s
  | pairs {s : Text} (h : PairedFeeds s) : Uniform crlf s

section
variable {s u v nl : Text} {i : Nat}

/-! ## Line feeds behind carriage returns -/

theorem PairedFeeds.append (hu : PairedFeeds u) (hv : PairedFeeds v) : PairedFeeds (u ++ v) := by
  intro a b hab
  rcases List.append_eq_append_iff.1 hab with ⟨m, rfl, hm⟩ | ⟨m, rfl, hm⟩
  · -- the line feed is one of the second text
    have hlast := hv m b hm
    rw [List.getLast?_append, hlast, Option.some_or]
  · cases m with
    | nil =>
      have hlast := hv [] b (by simpa using hm.symm)
      simp at hlast
    | cons d m =>
      obtain ⟨rfl, -⟩ := List.cons.inj hm
      exact hu a m rfl

theorem PairedFeeds.of_append_left (h : PairedFeeds (u ++ v)) : PairedFeeds u := by
  rintro a b rfl
  exact h a (b ++ v) (by simp)

theorem PairedFeeds.of_append_right (h : PairedFeeds (u ++ v))
    (hcut : ¬ (u.getLast? = some '\r' ∧ v.head? = some '\n')) : PairedFeeds v := by
  rintro a b rfl
  have hlast : (u ++ a).getLast? = some '\r' := h (u ++ a) b (by simp)
  cases a with
  | nil => exact absurd ⟨by simpa using hlast, rfl⟩ hcut
  | cons d a => rwa [List.getLast?_append_of_ne_nil u (by simp)] at hlast

theorem lineEnding_of_pairedFeeds (h : PairedFeeds s) (hs : '\n' ∈ s) : lineEnding s = crlf := by
  obtain ⟨u, v, rfl, hu⟩ := List.eq_append_cons_of_mem hs
  rw [lineEnding_append_feed hu, if_pos (h u v rfl)]

theorem lineEnding_of_notMem_return (h : '\r' ∉ s) : lineEnding s = lf := by
  by_cases hs : '\n' ∈ s
  · obtain ⟨u, v, rfl, hu⟩ := List.eq_append_cons_of_mem hs
    have hlast : u.getLast? ≠ some '\r' := fun hl =>
      h (List.mem_append_left _ (List.mem_of_getLast? hl))
    rw [lineEnding_append_feed hu, if_neg hlast]
  · exact lineEnding_of_notMem hs

/-! ## Pieces of a uniform text -/

namespace Uniform

theorem append (hu : Uniform nl u) (hv : Uniform nl v) : Uniform nl (u ++ v) := by
  cases hu with
  | feeds hu =>
    cases hv with
    | feeds hv => exact .feeds (by simp [hu, hv])
  | pairs hu =>
    cases hv with
    | pairs hv => exact .pairs (hu.append hv)

theorem take (h : Uniform nl s) (i : Nat) : Uniform nl (s.take i) := by
  cases h with
  | feeds h => exact .feeds fun hr => h (List.mem_of_mem_take hr)
  | pairs h =>
    rw [← List.take_append_drop i s] at h
    exact .pairs h.of_append_left

theorem drop (h : Uniform nl s) (hcut : ¬ s.SplitsLineEnd i) : Uniform nl (s.drop i) := by
  cases h with
  | feeds h => exact .feeds fun hr => h (List.mem_of_mem_drop hr)
  | pairs h =>
    rw [← List.take_append_drop i s] at h
    exact .pairs (h.of_append_right hcut)

/-- A line end by itself. -/
theorem self (h : Uniform nl s) : Uniform nl nl := by
  cases h with
  | feeds => exact .feeds (by decide)
  | pairs => exact .pairs (pairedFeeds_withLineEnding_crlf lf)

theorem nil (h : Uniform nl s) : Uniform nl [] := h.take 0

/-- A header takes the line end that it is converted to. Where that is a line feed, a carriage
return that stands alone would be left. -/
theorem converted (h : Uniform nl s) {header : Text} (hp : nl = lf → PairedReturns header) :
    Uniform nl (withLineEnding nl header) := by
  cases h with
  | feeds => exact .feeds (notMem_withLineEnding_lf_return (hp rfl))
  | pairs => exact .pairs (pairedFeeds_withLineEnding_crlf header)

end Uniform

end

end Text

/-! ## A header put on a uniform text -/

section
variable {content rendered header nl : Text} {d : Detection}

namespace Placement

theorem uniform_replace {span : Span} (hc : Uniform nl content) (hh : Uniform nl header)
    (hcut : ¬ content.SplitsLineEnd span.stop) : Uniform nl (replace content header span) :=
  ((hc.take span.start).append hh).append (hc.drop hcut)

theorem uniform_prepend (hc : Uniform nl content) (hh : Uniform nl header) :
    Uniform nl (prepend nl content header) :=
  (hh.append hc.self).append hc

theorem uniform_insertBehindTag (hc : Uniform nl content) (hh : Uniform nl header) :
    Uniform nl (insertBehindTag nl content header) := by
  by_cases hopen : openTag <+: content
  · obtain ⟨rest, rfl⟩ := hopen
    obtain ⟨gap, hgap, hr⟩ := insertBehindTag_append nl rest header
    have htag : Uniform nl openTag := by simpa using hc.take openTag.length
    -- the tag ends with a letter, so it takes no part in a line end
    have hrest : Uniform nl rest := by
      have hcut : ¬ (openTag ++ rest).SplitsLineEnd openTag.length := by
        simp [SplitsLineEnd, openTag]
      simpa using hc.drop hcut
    have hgap : Uniform nl gap := by
      rcases hgap with rfl | rfl
      · exact hc.nil
      · exact hc.self
    rw [hr]
    exact htag.append (hc.self.append (hh.append (hgap.append hrest)))
  · have hsame := insertBehindTag_of_not_prefix hopen nl header
    rwa [hsame]

end Placement

/-- Wherever a header is put, in place of ours, behind the open tag or in front. -/
theorem uniform_place (rendered : Text) (hc : Uniform (lineEnding content) content)
    (hd : ∀ c, d = .ours c → ¬ content.SplitsLineEnd c.span.stop)
    (hp : lineEnding content = lf → PairedReturns rendered) :
    Uniform (lineEnding content) (place content d rendered) := by
  have hh : Uniform (lineEnding content) (withLineEnding (lineEnding content) rendered) :=
    hc.converted hp
  unfold place
  split
  · exact Placement.uniform_replace hc hh (hd _ rfl)
  · exact Placement.uniform_insertBehindTag hc hh
  · exact Placement.uniform_insertBehindTag hc hh
  · exact Placement.uniform_prepend hc hh
  · exact Placement.uniform_prepend hc hh

/-- A text of paired line ends stays one. -/
theorem pairedFeeds_place (hd : ∀ c, d = .ours c → ¬ content.SplitsLineEnd c.span.stop)
    (hn : '\n' ∈ content) (h : PairedFeeds content) (rendered : Text) :
    PairedFeeds (place content d rendered) := by
  have hnl : lineEnding content = crlf := lineEnding_of_pairedFeeds h hn
  have hc : Uniform (lineEnding content) content := hnl ▸ .pairs h
  have hne : lineEnding content ≠ lf := by
    rw [hnl]
    decide
  have hplace := uniform_place rendered hc hd fun hlf => absurd hlf hne
  rw [hnl] at hplace
  cases hplace with
  | pairs hplace => exact hplace

/-- A text without carriage returns stays one. -/
theorem notMem_return_place (hd : ∀ c, d = .ours c → ¬ content.SplitsLineEnd c.span.stop)
    (h : '\r' ∉ content) (hp : PairedReturns rendered) : '\r' ∉ place content d rendered := by
  have hnl : lineEnding content = lf := lineEnding_of_notMem_return h
  have hc : Uniform (lineEnding content) content := hnl ▸ .feeds h
  have hplace := uniform_place rendered hc hd fun _ => hp
  rw [hnl] at hplace
  cases hplace with
  | feeds hplace => exact hplace

/-- Line ends stay uniform, whatever is put on the text and wherever: over ours, behind the open
tag or in front. Where each line feed of a text stands behind a carriage return, and there is
one, each does so in the text with the header. Where there is no carriage return, none comes in,
if the header has none but in front of line feeds. What is cut out must not end within a line
end. -/
theorem place_keeps_line_ends (content rendered : Text) (d : Detection)
    (hd : ∀ c, d = .ours c → ¬ content.SplitsLineEnd c.span.stop) :
    ('\n' ∈ content → PairedFeeds content → PairedFeeds (place content d rendered)) ∧
      ('\r' ∉ content → PairedReturns rendered → '\r' ∉ place content d rendered) :=
  ⟨fun hn h => pairedFeeds_place hd hn h rendered, fun h hp => notMem_return_place hd h hp⟩

/-- A notice of ours over a line of code, and where it stands. -/
def noticeAbove : Text := "/* ours */\r\nf()\r\n".toList
def noticeFound : Found := ⟨"/* ours */".toList, ⟨0, 10⟩, .plain .js⟩

theorem place_keeps_line_ends_noticeAbove :
    ¬ noticeAbove.SplitsLineEnd noticeFound.span.stop ∧
      PairedFeeds (place noticeAbove (.ours noticeFound) "/**\n * ours\r\n */".toList) ∧
      place noticeAbove (.ours noticeFound) "/**\n * ours\r\n */".toList =
        "/**\r\n * ours\r\n */\r\nf()\r\n".toList ∧
      '\r' ∉ place "<?php\nf();".toList (.absent .behindOpenTag) noticeBlock := by
  have hcut : ¬ noticeAbove.SplitsLineEnd noticeFound.span.stop := by decide +kernel
  have hfeeds : PairedFeeds noticeAbove :=
    pairedFeeds_withLineEnding_crlf "/* ours */\nf()\n".toList
  obtain ⟨hpairs, -⟩ := place_keeps_line_ends noticeAbove "/**\n * ours\r\n */".toList
    (.ours noticeFound) (by rintro c ⟨⟩; exact hcut)
  obtain ⟨-, hnone⟩ := place_keeps_line_ends "<?php\nf();".toList noticeBlock
    (.absent .behindOpenTag) (by rintro c ⟨⟩)
  exact ⟨hcut, hpairs (by decide +kernel) hfeeds, by decide +kernel,
    hnone (by decide +kernel) pairedReturns_noticeBlock⟩

end

/-! ## Stamping -/

section
variable {read : Php.Reader} {marker content old : Text} {t : FileType} {c : Found}

/-- A cut behind a character that is no carriage return is within no line end. -/
theorem Text.not_splitsLineEnd_append {last : Char} (hlast : old.getLast? = some last)
    (hne : last ≠ '\r') (w tail : Text) :
    ¬ (w ++ (old ++ tail)).SplitsLineEnd (w.length + old.length) := by
  rintro ⟨hr, -⟩
  have htake : (w ++ (old ++ tail)).take (w.length + old.length) = w ++ old := by
    rw [← List.append_assoc]
    exact List.take_left' (by simp)
  rw [htake, List.getLast?_append, hlast, Option.some_or, Option.some.injEq] at hr
  exact hne hr

namespace Matcher

theorem not_splitsLineEnd_of_block (h : (block t).detect marker content = .ok (.ours c)) :
    ¬ content.SplitsLineEnd c.span.stop := by
  simp only [detect, Except.ok.injEq] at h
  cases hx : t.profile.comment.block.leading? content with
  | none => simp [hx] at h
  | some x =>
    rw [hx] at h
    obtain ⟨rfl, -⟩ := detected_ours h
    obtain ⟨d, o, ho, hd⟩ := FileType.exists_opening t
    obtain ⟨w, old, tail, rfl, -, hold, rfl⟩ :=
      (Delimiters.leading?_block_eq_some_iff ho hd).1 hx
    obtain ⟨body, rfl, -⟩ := Delimiters.isComment_iff.1 hold
    obtain ⟨last, hlast, hne⟩ : ∃ last, t.profile.comment.closing.getLast? = some last ∧
        last ≠ '\r' := by
      cases t <;> exact ⟨_, rfl, by decide⟩
    have hend : (t.profile.comment.opening ++ (body ++ t.profile.comment.closing)).getLast? =
        some last := by
      rw [List.getLast?_append, List.getLast?_append, hlast, Option.some_or, Option.some_or]
    exact not_splitsLineEnd_append hend hne w tail

theorem not_splitsLineEnd_of_twig (h : twig.detect marker content = .ok (.ours c)) :
    ¬ content.SplitsLineEnd c.span.stop := by
  obtain ⟨f, -, hspan, -⟩ := exists_format_of_detect_twig h rfl
  obtain ⟨w, body, tail, rfl, -, hx⟩ := TwigFormat.exists_comment_of_leading? hspan
  have hlast : ('{' :: '#' :: (body ++ TwigFormat.closing)).getLast? = some '}' := by
    rw [← List.cons_append, ← List.cons_append, List.getLast?_append]
    rfl
  rw [hx]
  exact not_splitsLineEnd_append hlast (by decide) w tail

/-- What a pattern finds ends with a closing, never within a line end. -/
theorem not_splitsLineEnd (ht : t ≠ .php)
    (h : (ofType read t).detect marker content = .ok (.ours c)) :
    ¬ content.SplitsLineEnd c.span.stop := by
  by_cases htwig : t = .twig
  · subst htwig
    exact not_splitsLineEnd_of_twig h
  · rw [ofType_of_ne_twig read ht htwig] at h
    exact not_splitsLineEnd_of_block h

end Matcher

/-- A stamp keeps the line ends of a file uniform, if it finds headers by patterns. -/
theorem Stamp.keeps_line_ends (read : Php.Reader) (marker licence content : Text)
    (ht : t ≠ .php) :
    ∃ stamped, (ofLicence read marker licence t).apply content = .ok stamped ∧
      ('\n' ∈ content → PairedFeeds content → PairedFeeds stamped) ∧
      ('\r' ∉ content → PairedReturns licence → '\r' ∉ stamped) := by
  obtain ⟨bom, b, rfl, hbom⟩ := exists_mark_append content
  obtain ⟨d, hdetect⟩ : ∃ d, (Matcher.ofType read t).detect marker b = .ok d := by
    cases t with
    | php => contradiction
    | _ => exact ⟨_, rfl⟩
  have hcut : ∀ c, d = .ours c → ¬ b.SplitsLineEnd c.span.stop := by
    rintro c rfl
    exact Matcher.not_splitsLineEnd ht hdetect
  -- a byte order mark takes no part in a line end
  have hbom' : '\n' ∉ bom ∧ '\r' ∉ bom := by
    rcases hbom with rfl | ⟨rfl, -⟩ <;> decide
  have hlast : bom.getLast? ≠ some '\r' := fun h => hbom'.2 (List.mem_of_getLast? h)
  refine ⟨_, by rw [apply_mark_append hbom, hdetect]; rfl, fun hn h => ?_, fun h hp => ?_⟩
  · have hb : PairedFeeds b := h.of_append_right fun hcut => hlast hcut.1
    have hn : '\n' ∈ b := (List.mem_append.1 hn).resolve_left hbom'.1
    exact h.of_append_left.append (pairedFeeds_place hcut hn hb _)
  · rw [List.mem_append, not_or] at h ⊢
    exact ⟨h.1, notMem_return_place hcut h.2 (pairedReturns_render hp t)⟩

end

end Letterhead
