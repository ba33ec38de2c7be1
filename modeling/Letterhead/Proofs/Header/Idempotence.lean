import Letterhead.Config.Basic
import Letterhead.Header.Stamp
import Letterhead.Licence.Bundled
import Letterhead.Proofs.Header.Recognition
import Letterhead.Proofs.Header.TwigExtent
import Letterhead.Proofs.Text.Lowering
/-
# Stamping twice

A stamped text is found to be stamped: the header is ours, it is the whole header and
nothing else, and a second stamp changes nothing. The header of a template is found in
the plain format, although three older formats are tried first.
-/
namespace Letterhead

open Text

variable {marker licence w tail : Text} {t : FileType}

/-! ## The formats of templates -/

namespace TwigFormat

open Pattern

variable {s body : Text}

theorem begins_of_mem_rests_marked {r o m : Text} (h : r ∈ rests (marked o m) s) : o <+: s := by
  simp only [marked, Pattern.all, mem_rests_seq, mem_rests_text] at h
  obtain ⟨u, rfl, -⟩ := h
  exact List.prefix_append o u

theorem leading?_eq_none_behind {f : TwigFormat} (hw : ∀ b ∈ w, isBlank b)
    (hs : s.head? = some '{') (h : rests f.pattern s = []) : f.leading? (w ++ s) = none := by
  have hstop : s.dropWhile isBlank = s := by
    cases s with
    | nil => rfl
    | cons c s =>
      obtain rfl : c = '{' := by simpa using hs
      rfl
  rw [leading?, leading?_of_rests_blank fun _ => rests_pattern_of_blank,
    List.dropWhile_append_of_pos hw, hstop, h]
  rfl

/-- A star that leads a line behind the comment is not the comment's. -/
theorem rests_asterisk (hclear : Clear closing body (closing ++ tail)) (hstar : Unstarred body) :
    rests asterisk.pattern ('{' :: '#' :: (body ++ (closing ++ tail))) = [] := by
  refine List.eq_nil_iff_forall_not_mem.2 fun r hr => ?_
  simp only [pattern, marked, oneOrMore, Pattern.all, mem_rests_seq, mem_rests_text,
    mem_rests_line] at hr
  obtain ⟨s₁, hs₁, s₂, ⟨l, rfl, hl, -⟩, s₃, ⟨s₄, hfirst, -⟩, -⟩ := hr
  obtain ⟨indent, l', rfl, hi, -⟩ := mem_rests_markedLine hfirst
  have hcut : body ++ (closing ++ tail) = l ++ '\n' :: (indent ++ '*' :: (l' ++ s₄)) := by
    simpa using hs₁
  rcases List.append_eq_append_iff.1 hcut with ⟨b, rfl, hb⟩ | ⟨b, rfl, hb⟩
  · -- the first line would take in the closing
    by_cases hnil : b = []
    · simp [hnil] at hb
    · exact hl b (List.suffix_append body b) hnil (hb ▸ List.prefix_append closing tail)
  · cases b with
    | nil => simp at hb
    | cons c b =>
      obtain ⟨rfl, hrest⟩ := List.cons.inj hb
      refine hstar l b rfl ?_
      rcases List.append_eq_append_iff.1 hrest with ⟨x, rfl, hx⟩ | ⟨x, rfl, hx⟩
      · cases x with
        | nil => simp at hx
        | cons e x =>
          obtain ⟨rfl, -⟩ := List.cons.inj hx
          exact ⟨indent, x, rfl, hi⟩
      · cases x with
        | nil => simp at hx
        | cons e x =>
          obtain ⟨rfl, -⟩ := List.cons.inj hx
          exact absurd (hi '#' (by simp)) (by decide)

/-- A comment with no star in front of a line is met in the plain format, unless it opens
with a blank. -/
theorem firstFormat?_hash (hw : ∀ b ∈ w, isBlank b) (hclear : Clear closing body closing)
    (hstar : Unstarred body) (hpad : ¬ ['{', '#', ' '] <+: '{' :: '#' :: (body ++ closing))
    (tail : Text) :
    Matcher.firstFormat? (w ++ ('{' :: '#' :: (body ++ closing) ++ tail)) all =
      some (hash, ⟨w.length, w.length + ('{' :: '#' :: (body ++ closing)).length⟩) := by
  set h := '{' :: '#' :: (body ++ closing) with hh
  have hopen : (h ++ tail).head? = some '{' := rfl
  have hpadded : ∀ m, rests (marked ['{', '#', ' '] m) (h ++ tail) = [] := by
    intro m
    refine List.eq_nil_iff_forall_not_mem.2 fun r hr => hpad ?_
    refine List.prefix_of_prefix_length_le (begins_of_mem_rests_marked hr)
      (List.prefix_append _ _) ?_
    simp [hh]
  have hasterisk : rests asterisk.pattern (h ++ tail) = [] := by
    rw [hh, List.cons_append, List.cons_append, List.append_assoc]
    exact rests_asterisk hclear.extend hstar
  have hhash : hash.leading? (w ++ (h ++ tail)) = some ⟨w.length, w.length + h.length⟩ :=
    Delimiters.leading?_block_append (c := '{') (o := ['#']) rfl rfl hw
      (Delimiters.isComment_iff.2 ⟨body, rfl, hclear⟩) tail
  simp only [Matcher.firstFormat?, all, leading?_eq_none_behind hw hopen hasterisk, hhash,
    leading?_eq_none_behind (f := paddedAsterisk) hw hopen (hpadded _),
    leading?_eq_none_behind (f := paddedHash) hw hopen (hpadded _)]

/-- A comment that the formats find to be one, and that does not open with a blank, closes
only at its end. -/
theorem clear_of_leading? {f : TwigFormat}
    (hpad : ¬ ['{', '#', ' '] <+: '{' :: '#' :: (body ++ closing))
    (h : f.leading? ('{' :: '#' :: (body ++ closing)) =
      some ⟨0, ('{' :: '#' :: (body ++ closing)).length⟩) : Clear closing body closing := by
  obtain ⟨v, s, r, hcut, -, hx, hr⟩ := leading?_eq_some h
  obtain ⟨hv, hs⟩ := Span.mk.inj hx
  obtain rfl : v = [] := List.length_eq_zero_iff.1 hv.symm
  obtain rfl : r = [] := by
    have := congrArg List.length hcut
    simp only [List.length_append] at this
    exact List.length_eq_zero_iff.1 (by omega)
  rw [List.nil_append, List.append_nil] at hcut
  rw [List.append_nil, ← hcut] at hr
  obtain ⟨body', hbody, hleads⟩ := mem_rests_pattern hr
  have hf : f ≠ .paddedHash := by
    rintro rfl
    exact hpad (begins_of_mem_rests_marked hr)
  obtain rfl : body = body' := by simpa using hbody
  rintro u ⟨v, rfl⟩ hne hp
  exact hf (hleads v u rfl hne hp).1

end TwigFormat

/-! ## Detection -/

namespace Matcher

variable {read : Php.Reader} {style : Style} {header content : Text}

/-- Behind blanks, and whatever follows it, the header is found to be ours. -/
def Recognises (m : Matcher) (marker header : Text) (style : Style) : Prop :=
  ∀ w tail, (∀ b ∈ w, isBlank b) →
    m.detect marker (w ++ (header ++ tail)) =
      .ok (.ours ⟨header, ⟨w.length, w.length + header.length⟩, style⟩)

/-- A matcher that goes by patterns finds nothing at the top, or a comment behind blanks. -/
theorem detect_cases (read : Php.Reader) (ht : t ≠ .php) (marker content : Text) :
    (ofType read t).detect marker content = .ok (.absent .top) ∨
      ∃ w comment tail style, content = w ++ (comment ++ tail) ∧ (∀ b ∈ w, isBlank b) ∧
        (ofType read t).detect marker content =
          .ok (detected marker content style ⟨w.length, w.length + comment.length⟩) := by
  by_cases htwig : t = .twig
  · subst htwig
    simp only [ofType, detect]
    cases hf : firstFormat? content TwigFormat.all with
    | none => exact .inl rfl
    | some x =>
      obtain ⟨f, span⟩ := x
      obtain ⟨w, comment, tail, hcut, hw, rfl, -⟩ :=
        Pattern.leading?_eq_some (firstFormat?_eq_some hf).2
      exact .inr ⟨w, comment, tail, .twig f, hcut, hw, rfl⟩
  · rw [ofType_of_ne_twig read ht htwig]
    simp only [detect]
    cases hl : t.profile.comment.block.leading? content with
    | none => exact .inl rfl
    | some span =>
      obtain ⟨w, comment, tail, hcut, hw, rfl, -⟩ := Pattern.leading?_eq_some hl
      exact .inr ⟨w, comment, tail, .plain t, hcut, hw, rfl⟩

/-- The style in which a header of ours is found. -/
def styleOf (t : FileType) : Style := if t = .twig then .twig .hash else .plain t

/-- What the header of a template looks like: no star leads a line, and no blank follows
the opening. -/
def IsBare (header : Text) : Prop :=
  ∃ body, header = '{' :: '#' :: (body ++ TwigFormat.closing) ∧ Unstarred body ∧
    ¬ ['{', '#', ' '] <+: header

/-- A comment with the marker is recognised, and for templates in the plain format if it
is bare. -/
theorem recognises_of_isComment (read : Php.Reader) (ht : t ≠ .php)
    (hbare : t = .twig → IsBare header) (hh : t.profile.comment.IsComment header)
    (hm : includesIgnoringCase header marker) :
    (ofType read t).Recognises marker header (styleOf t) := by
  intro w tail hw
  by_cases htwig : t = .twig
  · obtain ⟨body, rfl, hstar, hpad⟩ := hbare htwig
    subst htwig
    have hclear : Clear TwigFormat.closing body TwigFormat.closing := by
      obtain ⟨body', hbody, hclear⟩ := Delimiters.isComment_iff.1 hh
      obtain rfl : body = body' := by simpa [FileType.profile] using hbody
      exact hclear
    simp only [ofType, detect, TwigFormat.firstFormat?_hash hw hclear hstar hpad tail,
      detected_behind hm]
    rfl
  · rw [ofType_of_ne_twig read ht htwig, styleOf, if_neg htwig]
    obtain ⟨c, o, ho, hc⟩ := FileType.exists_opening t
    simp only [detect, Delimiters.leading?_block_append ho hc hw hh tail, detected_behind hm]

/-- A header that is found to be ours on its own, from its first to its last character, is
a comment with the marker. -/
theorem isComment_of_detect (ht : t ≠ .php) (hbare : t = .twig → IsBare header)
    (h : (ofType read t).detect marker header = .ok (.ours ⟨header, ⟨0, header.length⟩, style⟩)) :
    t.profile.comment.IsComment header ∧ includesIgnoringCase header marker := by
  by_cases htwig : t = .twig
  · obtain ⟨body, hbody, -, hpad⟩ := hbare htwig
    subst htwig
    simp only [ofType, detect, Except.ok.injEq] at h
    cases hf : firstFormat? header TwigFormat.all with
    | none => simp [hf] at h
    | some x =>
      obtain ⟨f, span⟩ := x
      rw [hf] at h
      obtain ⟨hfound, hm⟩ := detected_ours h
      obtain rfl := (Found.mk.inj hfound).2.1
      refine ⟨?_, hm⟩
      rw [hbody] at hf hpad ⊢
      have hclear := TwigFormat.clear_of_leading? hpad (firstFormat?_eq_some hf).2
      exact Delimiters.isComment_iff.2 ⟨body, rfl, hclear⟩
  · rw [ofType_of_ne_twig read ht htwig] at h
    obtain ⟨c, o, ho, hc⟩ := FileType.exists_opening t
    simp only [detect, Except.ok.injEq] at h
    cases hl : t.profile.comment.block.leading? header with
    | none => simp [hl] at h
    | some span =>
      rw [hl] at h
      obtain ⟨hfound, hm⟩ := detected_ours h
      obtain rfl := (Found.mk.inj hfound).2.1
      exact ⟨Delimiters.isComment_of_leading? ho hc hl, hm⟩

end Matcher

/-! ## Headers -/

/-- A header begins with its opening, and so it does with its line ends converted: no blank,
and no byte order mark. -/
theorem exists_render (licence : Text) (t : FileType) :
    ∃ c s, render licence t.profile = c :: s ∧ isBlank c = false ∧ c ≠ Stamp.byteOrderMark ∧
      ∀ nl, withLineEnding nl (c :: s) = c :: withLineEnding nl s := by
  cases t <;>
    exact ⟨_, _, rfl, by decide, by decide,
      fun nl => withLineEnding_cons (by decide) (by decide) nl _⟩

/-- The header of a template with its line ends converted is a comment still, and leads no
line with a star. -/
theorem exists_render_twig {nl : Text} (hnl : nl = lf ∨ nl = crlf) (licence : Text) :
    ∃ body, withLineEnding nl (render licence FileType.twig.profile) =
      '{' :: '#' :: (body ++ TwigFormat.closing) ∧ Unstarred body := by
  let body := Render.markLines ['#'] (Render.interior licence)
  have hrender : render licence FileType.twig.profile =
      ['{', '#'] ++ (body ++ TwigFormat.closing) := rfl
  refine ⟨withLineEnding nl body, ?_, (Render.unstarred_markLines _).withLineEnding hnl⟩
  rw [hrender, withLineEnding_enclosed (by decide) (by decide) (by decide)]
  rfl

/-- What a licence text needs for its header to be found again: the header on its own, with
either line ending, is found to be ours and whole, its carriage returns stand in front of
line feeds, and the header of a template does not open like the padded formats. -/
structure Stampable (read : Php.Reader) (marker licence : Text) (t : FileType) : Prop where
  alone : ∀ nl, nl = lf ∨ nl = crlf →
    ∃ style, (Matcher.ofType read t).detect marker (withLineEnding nl (render licence t.profile)) =
      .ok (.ours ⟨withLineEnding nl (render licence t.profile),
        ⟨0, (withLineEnding nl (render licence t.profile)).length⟩, style⟩)
  paired : PairedReturns licence
  unpadded : t = .twig → ¬ ['{', '#', ' '] <+: render licence t.profile

namespace Stampable

variable {read : Php.Reader} {nl : Text}

theorem isBare (hnl : nl = lf ∨ nl = crlf)
    (hpad : ¬ ['{', '#', ' '] <+: render licence FileType.twig.profile) :
    Matcher.IsBare (withLineEnding nl (render licence FileType.twig.profile)) := by
  obtain ⟨body, hbody, hstar⟩ := exists_render_twig hnl licence
  refine ⟨body, hbody, hstar, fun h => hpad ?_⟩
  exact begins_of_withLineEnding hnl (by decide) (by decide) h

theorem recognises (h : Stampable read marker licence t) (ht : t ≠ .php)
    (hnl : nl = lf ∨ nl = crlf) :
    (Matcher.ofType read t).Recognises marker (withLineEnding nl (render licence t.profile))
      (Matcher.styleOf t) := by
  have hbare : t = .twig → Matcher.IsBare (withLineEnding nl (render licence t.profile)) := by
    rintro rfl
    exact isBare hnl (h.unpadded rfl)
  obtain ⟨style, halone⟩ := h.alone nl hnl
  obtain ⟨hcomment, hm⟩ := Matcher.isComment_of_detect ht hbare halone
  exact Matcher.recognises_of_isComment read ht hbare hcomment hm

/-- It is enough that the headers are comments with the marker. -/
theorem of_isComment (read : Php.Reader) (ht : t ≠ .php) (hp : PairedReturns licence)
    (hpad : t = .twig → ¬ ['{', '#', ' '] <+: render licence t.profile)
    (h : ∀ nl, nl = lf ∨ nl = crlf →
      t.profile.comment.IsComment (withLineEnding nl (render licence t.profile)) ∧
        includesIgnoringCase (withLineEnding nl (render licence t.profile)) marker) :
    Stampable read marker licence t := by
  refine ⟨fun nl hnl => ⟨Matcher.styleOf t, ?_⟩, hp, hpad⟩
  have hbare : t = .twig → Matcher.IsBare (withLineEnding nl (render licence t.profile)) := by
    rintro rfl
    exact isBare hnl (hpad rfl)
  have := Matcher.recognises_of_isComment read ht hbare (h nl hnl).1 (h nl hnl).2 [] [] (by simp)
  simpa using this

end Stampable

/-! ## Stamping -/

/-- Where a header goes: behind blanks, which decide its line ending if they hold one. -/
theorem exists_place (read : Php.Reader) (ht : t ≠ .php) (marker content : Text) :
    ∃ d w tail, (Matcher.ofType read t).detect marker content = .ok d ∧ (∀ b ∈ w, isBlank b) ∧
      ('\n' ∈ w → lineEnding w = lineEnding content) ∧
      ∀ rendered, place content d rendered =
        w ++ (withLineEnding (lineEnding content) rendered ++ tail) := by
  rcases Matcher.detect_cases read ht marker content with
    h | ⟨w, comment, tail, style, rfl, hw, h⟩
  · exact ⟨_, [], lineEnding content ++ content, h, by simp, by simp, by simp [place,
      Placement.prepend]⟩
  · by_cases hm : includesIgnoringCase comment marker
    · rw [Matcher.detected_behind hm] at h
      refine ⟨_, w, tail, h, hw, fun hmem => (lineEnding_append hmem _).symm, fun rendered => ?_⟩
      simp only [place, Placement.replace_append]
    · refine ⟨_, [], lineEnding (w ++ (comment ++ tail)) ++ (w ++ (comment ++ tail)), h, by simp,
        by simp, fun rendered => ?_⟩
      simp [Matcher.detected, Span.of_append, hm, place, Placement.prepend]

/-- A header that was put behind blanks takes the same line ending again. -/
theorem withLineEnding_placed {content : Text} (h : PairedReturns licence)
    (hfeed : '\n' ∈ w → lineEnding w = lineEnding content) (t : FileType) (tail : Text) :
    withLineEnding (lineEnding
        (w ++ (withLineEnding (lineEnding content) (render licence t.profile) ++ tail)))
      (render licence t.profile) =
    withLineEnding (lineEnding content) (render licence t.profile) := by
  by_cases hmem : '\n' ∈ w
  · rw [lineEnding_append hmem, hfeed hmem]
  · obtain ⟨c, s, hs, hc, -⟩ := exists_render licence t
    have hhead : ∀ d, isBlank d → (render licence t.profile).head? ≠ some d := by
      rintro d hd hcd
      rw [hs, List.head?_cons, Option.some.injEq] at hcd
      simp [hcd, hd] at hc
    exact withLineEnding_lineEnding_behind (lineEnding_eq content) (pairedReturns_render h t)
      (hhead _ (by decide)) (hhead _ (by decide)) hmem tail

/-- A stamped text: what is found in it, and that the header goes where it stands. -/
theorem Stampable.exists_place_again {read : Php.Reader} (h : Stampable read marker licence t)
    (ht : t ≠ .php) (content : Text) :
    ∃ d, (Matcher.ofType read t).detect marker content = .ok d ∧
      ∃ r c, place content d (render licence t.profile) = r ∧
        r.head? ≠ some Stamp.byteOrderMark ∧
        (Matcher.ofType read t).detect marker r = .ok (.ours c) ∧
        c.text = withLineEnding (lineEnding r) (render licence t.profile) ∧
        c.style = Matcher.styleOf t ∧
        place r (.ours c) (render licence t.profile) = r := by
  obtain ⟨d, w, tail, hd, hw, hfeed, hplace⟩ := exists_place read ht marker content
  have hsame := withLineEnding_placed h.paired hfeed t tail
  refine ⟨d, hd, _, _, hplace _, ?_, h.recognises ht (lineEnding_eq content) w tail hw,
    hsame.symm, rfl, ?_⟩
  · obtain ⟨c, s, hs, -, hc, hconv⟩ := exists_render licence t
    cases w with
    | nil => simpa [hs, hconv] using hc
    | cons b w =>
      have hb : isBlank b := hw b List.mem_cons_self
      rw [List.cons_append, List.head?_cons, ne_eq, Option.some.injEq]
      rintro rfl
      exact absurd hb (by decide)
  · simp only [place, hsame, Placement.replace_append]

/-! ## The licences that come along -/

/-- A line of a doc block by its characters, so that no string has to be decoded. -/
theorem line_ofList (l : List Char) :
    (if (String.ofList l).isEmpty then [] else ' ' :: (String.ofList l).toList) =
      match l with
      | [] => []
      | c :: l => ' ' :: c :: l := by
  cases l <;> simp

/-- The scans that show the headers of a licence text to be comments with the marker. Types
with the same delimiters have the same header. -/
def scansFind (marker licence : Text) : Prop :=
  '\r' ∉ licence ∧ ¬ ['{', '#', ' '] <+: render licence FileType.twig.profile ∧
  ∀ nl ∈ [lf, crlf], ∀ t ∈ [FileType.js, .tpl, .twig, .html],
    t.profile.comment.IsComment (withLineEnding nl (render licence t.profile)) ∧
      includes (withLineEnding nl (render licence t.profile)) marker

/-- What a licence text holds inside decides what the scans of its headers find. -/
theorem scansFind_of_interior (hfree : ∀ c ∈ marker, c ≠ '*' ∧ c ≠ '\r' ∧ c ≠ '\n')
    (h : '\r' ∉ licence ∧ ¬ ['{', '#', ' '] <+: render licence FileType.twig.profile ∧
      Render.LeavesOpen licence ∧ includes (Render.interior licence) marker) :
    scansFind marker licence := by
  obtain ⟨hr, hpad, hopen, hm⟩ := h
  refine ⟨hr, hpad, fun nl hmem t _ => ?_⟩
  have hnl : nl = lf ∨ nl = crlf := by simpa using hmem
  exact ⟨hopen.isComment hnl t, includes_render hnl t hfree hm⟩

theorem stampable_of_scansFind (read : Php.Reader) (hm : Plain marker)
    (h : scansFind marker licence) (ht : t ≠ .php) : Stampable read marker licence t := by
  obtain ⟨hr, hpad, hscan⟩ := h
  refine .of_isComment read ht (pairedReturns_of_notMem hr) (by rintro rfl; exact hpad) ?_
  intro nl hnl
  have hmem : nl ∈ [lf, crlf] := by simpa using hnl
  have hscript := hscan nl hmem .js (by decide)
  have key : t.profile.comment.IsComment (withLineEnding nl (render licence t.profile)) ∧
      includes (withLineEnding nl (render licence t.profile)) marker := by
    cases t with
    | php => contradiction
    | tpl => exact hscan nl hmem .tpl (by decide)
    | twig => exact hscan nl hmem .twig (by decide)
    | html => exact hscan nl hmem .html (by decide)
    | _ => exact hscript
  exact key.imp_right (includesIgnoringCase_of_includes hm)

theorem plain_defaultMarker : Plain Config.defaultMarker := ⟨by decide +kernel, by decide +kernel⟩

theorem free_defaultMarker : ∀ c ∈ Config.defaultMarker, c ≠ '*' ∧ c ≠ '\r' ∧ c ≠ '\n' := by
  have h : (Config.defaultMarker.all fun c => c ≠ '*' ∧ c ≠ '\r' ∧ c ≠ '\n') = true := by
    decide +kernel
  simpa only [List.all_eq_true, decide_eq_true_eq] using h

/-- The licence texts that come along are found again by the scans. -/
theorem scansFind_of_mem {licence : Text} (h : licence ∈ Licence.Bundled.files.map Prod.snd) :
    scansFind Config.defaultMarker licence := by
  refine scansFind_of_interior free_defaultMarker ?_
  rcases List.mem_pair.1 h with hl | hl
  all_goals
    clear h
    revert hl
    simp only [Licence.Bundled.openSoftware, Licence.Bundled.academicFree,
      Licence.Bundled.docBlock, Licence.Bundled.notice, Licence.Bundled.disclaimer,
      Licence.Bundled.tags, List.cons_append, List.nil_append, List.flatMap_cons,
      List.flatMap_nil]
    repeat rw [line_ofList]
    repeat rw [String.toList_ofList]
    rintro rfl
    decide +kernel

namespace Stamp

/-- What stands behind a byte order mark, or the whole text, has its line ending. -/
theorem lineEnding_mark_append (content s : Text) :
    lineEnding (mark content ++ s) = lineEnding s := by
  unfold mark
  split
  · exact lineEnding_append_left (by decide) (.inl (by decide))
  · rfl

/-- A text that does not begin with a byte order mark keeps the one that is put in front. -/
theorem body_mark_append (content : Text) {s : Text} (hs : s.head? ≠ some byteOrderMark) :
    body (mark content ++ s) = s ∧ mark (mark content ++ s) = mark content := by
  by_cases h : content.head? = some byteOrderMark
  · simp [mark, body, h]
  · simp [mark, body, h, hs]

end Stamp

open Stamp in
/-- A stamped text has our header on top, in the line ending of its first line and for
templates in the plain format, and to stamp it again changes nothing: for every licence
text whose header is found again, such as both that come along. -/
theorem stamp_settles (read : Php.Reader) :
    (∀ t ≠ .php, ∀ marker licence, Stampable read marker licence t → ∀ content,
      ∃ r c, (ofLicence read marker licence t).apply content = .ok r ∧
        (ofLicence read marker licence t).detect r = .ok (.ours c) ∧
        c.text = withLineEnding (lineEnding r) (render licence t.profile) ∧
        (t = .twig → c.style = .twig .hash) ∧
        (ofLicence read marker licence t).apply r = .ok r) ∧
    ∀ t ≠ .php, ∀ licence ∈ [Licence.Bundled.openSoftware, Licence.Bundled.academicFree],
      Stampable read Config.defaultMarker licence t := by
  refine ⟨fun t ht marker licence h content => ?_, fun t ht licence hl => ?_⟩
  · obtain ⟨d, hd, s, c, hs, hhead, hdetect, htext, hstyle, hagain⟩ :=
      h.exists_place_again ht (body content)
    obtain ⟨hbody, hmark⟩ := body_mark_append content hhead
    have hfirst : (ofLicence read marker licence t).detect content = .ok d := hd
    have hsecond : (ofLicence read marker licence t).detect (mark content ++ s) =
        .ok (.ours c) := by
      rw [detect, hbody]
      exact hdetect
    refine ⟨mark content ++ s, c, ?_, hsecond, ?_, ?_, ?_⟩
    · rw [apply, hfirst, ← hs]
      rfl
    · rw [lineEnding_mark_append, htext]
    · rintro rfl
      exact hstyle
    · have hkept : (ofLicence read marker licence t).applyTo (mark content ++ s) (.ours c) =
          mark content ++ place s (.ours c) (render licence t.profile) := by
        rw [applyTo, hbody, hmark]
        rfl
      rw [apply, hsecond, Except.map, hkept, hagain]
  · exact stampable_of_scansFind read plain_defaultMarker (scansFind_of_mem hl) ht

open Stamp in
theorem stamp_settles_template :
    Stampable (fun _ => .ok []) Config.defaultMarker Licence.Bundled.academicFree .twig ∧
    ∃ r c, (ofLicence (fun _ => .ok []) Config.defaultMarker Licence.Bundled.academicFree
        .twig).apply "\uFEFF\n<p>\r\n".toList = .ok r ∧
      (ofLicence (fun _ => .ok []) Config.defaultMarker Licence.Bundled.academicFree
        .twig).detect r = .ok (.ours c) ∧ c.style = .twig .hash := by
  have h := stamp_settles fun _ => .ok []
  have hs := h.2 .twig (by decide) Licence.Bundled.academicFree (by simp)
  obtain ⟨r, c, happly, hdetect, -, hstyle, -⟩ :=
    h.1 .twig (by decide) _ _ hs "\uFEFF\n<p>\r\n".toList
  exact ⟨hs, r, c, happly, hdetect, hstyle rfl⟩

end Letterhead
