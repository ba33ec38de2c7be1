import Letterhead.Proofs.Comment.Twig
import Letterhead.Proofs.Header.Matching
import Letterhead.Proofs.Header.Respelling
/-
# Rendered headers are recognised

A header that was rendered for a type is found in files of the type, whole and with nothing
more, provided that what the licence text brings inside closes no comment; and it is ours if
the licence text holds the marker (`render_is_recognised`).
-/
namespace Letterhead

open Text

variable {s licence marker nl : Text} {t : FileType}

/-- Converting line ends brings nothing in that is of one line. -/
theorem Text.includes_of_withLineEnding {needle : Text} (hnl : nl = lf ∨ nl = crlf)
    (hr : '\r' ∉ needle) (hn : '\n' ∉ needle) (h : includes (withLineEnding nl s) needle) :
    includes s needle := by
  cases needle with
  | nil => exact includes_nil s
  | cons d n =>
    have hfeed : ∀ s, includes (nl ++ s) (d :: n) → includes s (d :: n) := by
      intro s hs
      have hd : d ≠ '\r' ∧ d ≠ '\n' := ⟨by rintro rfl; simp at hr, by rintro rfl; simp at hn⟩
      rcases hnl with rfl | rfl
      · simpa [lf, includes_cons, hd] using hs
      · simpa [crlf, includes_cons, hd] using hs
    unfold withLineEnding at h
    fun_induction unifyLineEnds s with
    | case1 s ih =>
      exact includes_cons.2 (.inr (includes_cons.2 (.inr (ih (hfeed _ (by simpa using h))))))
    | case2 c s hne ih =>
      have hconv : withLineEnding nl (c :: s) =
          (if c = '\n' then nl else [c]) ++ withLineEnding nl s := by
        rw [withLineEnding, unifyLineEnds]
        · rfl
        · exact hne
      by_cases hc : c = '\n'
      · subst hc
        exact includes_cons.2 (.inr (ih (hfeed _ (by simpa using h))))
      · simp only [hc, if_false, List.singleton_append] at hconv
        simp only [List.flatMap_cons, hc, if_false, List.singleton_append, includes_cons] at h
        refine includes_cons.2 (h.imp (fun hp => ?_) ih)
        refine begins_of_withLineEnding hnl hr hn ?_
        rwa [hconv]
    | case3 => exact h

namespace Render

/-- Marking lines makes no closing of a template comment but of what closes a comment of the
other template language. -/
theorem includes_of_markLines (h : includes (markLines ['#'] s) ['#', '}']) :
    includes s ['#', '}'] ∨ includes s ['*', '}'] := by
  obtain ⟨u, r, hcut⟩ := includes_iff.1 h
  have hmarked := restarred_markLines s
  rw [hcut] at hmarked
  have hdrop := List.forall₂_drop_append s u _ hmarked
  have htake := List.take_append_drop u.length s
  cases hrest : s.drop u.length with
  | nil => simp [hrest] at hdrop
  | cons c v =>
    rw [hrest] at hdrop htake
    obtain ⟨hc, hv⟩ := List.forall₂_cons.1 hdrop
    cases v with
    | nil => simp at hv
    | cons d v =>
      obtain ⟨hd, -⟩ := List.forall₂_cons.1 hv
      obtain rfl : '}' = d := hd.resolve_right (by simp)
      rcases hc with rfl | ⟨rfl, -⟩
      · exact .inl (includes_iff.2 ⟨_, v, htake.symm⟩)
      · exact .inr (includes_iff.2 ⟨_, v, htake.symm⟩)

theorem withLineEnding_render (nl licence : Text) (t : FileType) :
    withLineEnding nl (render licence t.profile) =
      t.profile.header.opening ++ (withLineEnding nl (body licence t) ++
        t.profile.header.closing) := by
  rw [render_eq]
  cases t <;> exact withLineEnding_enclosed (by decide) (by decide) (by decide) nl _

theorem respelled_body (licence : Text) (t : FileType) :
    Respelled (interior licence) (body licence t) := by
  unfold body
  split
  · exact .of_restarred (restarred_markLines _)
  · exact .refl _

/-- The ends of comments of the types, any of which would end a header early. -/
def closings : List Text := [['*', '/'], ['*', '}'], ['#', '}'], ['-', '-', '>']]

/-- What the licence text brings inside closes no comment, and closes none with the star in
front of it. -/
structure LeavesOpen (licence : Text) : Prop where
  unclosed : ∀ e ∈ closings, ¬ includes (interior licence) e
  begun : (interior licence).head? ≠ some '/' ∧ (interior licence).head? ≠ some '}'

instance (licence : Text) : Decidable (LeavesOpen licence) :=
  decidable_of_iff (_ ∧ _) ⟨fun h => ⟨h.1, h.2⟩, fun h => ⟨h.1, h.2⟩⟩

/-! ## Headers as comments -/

/-- The star in front of what a doc block holds does not help to close it. -/
theorem clear_behind_star {c : Char} (hc : c ≠ '*') (h : ¬ includes s ['*', c])
    (hs : s.head? ≠ some c) : Clear ['*', c] ('*' :: s) ['*', c] := by
  refine clear_cons.2 ⟨fun hp => ?_, clear_of_not_includes h (by simp [hc.symm])⟩
  obtain ⟨-, v, hv⟩ := List.cons_prefix_cons.1 hp
  cases s with
  | nil => simp [hc] at hv
  | cons d s => simp_all

/-- Stars on either side do not help to close a comment that closes with none. -/
theorem clear_between_stars {e : Text} {c : Char} (hc : c ≠ '*') (he : '*' ∉ e)
    (h : ¬ includes s (c :: e)) : Clear (c :: e) ('*' :: '*' :: (s ++ ['*'])) (c :: e) := by
  have hstar : ∀ r, ¬ c :: e <+: '*' :: r := fun r hp => hc (List.cons_prefix_cons.1 hp).1
  refine clear_cons.2 ⟨hstar _, clear_cons.2 ⟨hstar _, Clear.append ?_ ?_⟩⟩
  · exact clear_of_not_includes h (by simp [he])
  · exact clear_cons.2 ⟨hstar _, clear_nil⟩

/-- What stands between the delimiters of a header closes no comment of its type. -/
theorem LeavesOpen.not_includes (h : LeavesOpen licence) (hnl : nl = lf ∨ nl = crlf)
    (t : FileType) :
    ¬ includes (withLineEnding nl (body licence t)) t.profile.comment.closing := by
  intro hi
  have hbody : includes (body licence t) t.profile.comment.closing := by
    refine includes_of_withLineEnding hnl ?_ ?_ hi <;> cases t <;> decide
  unfold body at hbody
  split at hbody
  · next ht =>
    subst ht
    rcases includes_of_markLines hbody with h' | h'
    · exact h.unclosed _ (by decide) h'
    · exact h.unclosed _ (by decide) h'
  · refine h.unclosed _ ?_ hbody
    cases t <;> decide

/-- A header is one comment of its type, with either line ending. -/
theorem LeavesOpen.isComment (h : LeavesOpen licence) (hnl : nl = lf ∨ nl = crlf) (t : FileType) :
    t.profile.comment.IsComment (withLineEnding nl (render licence t.profile)) := by
  have hclosed := h.not_includes hnl t
  have hhead : ∀ c, c ≠ '\r' → c ≠ '\n' → (interior licence).head? ≠ some c → t ≠ .twig →
      (withLineEnding nl (body licence t)).head? ≠ some c := by
    intro c hr hn hc ht hb
    rw [body, if_neg ht] at hb
    exact hc (head?_of_withLineEnding hnl hr hn hb)
  rw [withLineEnding_render, Delimiters.isComment_iff]
  generalize withLineEnding nl (body licence t) = b at hclosed hhead
  cases t with
  | tpl =>
    refine ⟨'*' :: b, rfl, clear_behind_star (by decide) hclosed ?_⟩
    exact hhead _ (by decide) (by decide) h.begun.2 (by decide)
  | twig => exact ⟨b, rfl, clear_of_not_includes hclosed (by simp [FileType.profile])⟩
  | html =>
    refine ⟨'*' :: '*' :: (b ++ ['*']), ?_, clear_between_stars (by decide) (by decide) hclosed⟩
    simp [FileType.profile]
  | _ =>
    refine ⟨'*' :: b, rfl, clear_behind_star (by decide) hclosed ?_⟩
    exact hhead _ (by decide) (by decide) h.begun.1 (by decide)

end Render

namespace Matcher

/-- The matcher of a type that goes by patterns, for files of every type. -/
def byPattern (t : FileType) : Matcher := if t = .twig then twig else block t

/-- A text that is one comment is found as a whole. -/
theorem leading?_block_of_isComment {header : Text} (h : t.profile.comment.IsComment header) :
    t.profile.comment.block.leading? header = some ⟨0, header.length⟩ := by
  obtain ⟨c, o, ho, hc⟩ := FileType.exists_opening t
  have := Delimiters.leading?_block_append ho hc (w := []) (by simp) h []
  simpa using this

/-- A template comment is met as a whole, whatever the format. -/
theorem firstFormat?_of_isComment {header : Text}
    (h : FileType.twig.profile.comment.IsComment header) :
    ∃ f, firstFormat? header TwigFormat.all = some (f, ⟨0, header.length⟩) := by
  have hhash : TwigFormat.hash.leading? header = some ⟨0, header.length⟩ := by
    exact leading?_block_of_isComment h
  cases hf : firstFormat? header TwigFormat.all with
  | none =>
    have hnone := firstFormat?_eq_none_iff.1 hf .hash (by decide)
    cases hnone.symm.trans hhash
  | some x =>
    obtain ⟨f, span⟩ := x
    obtain ⟨w, c, r, hcut, hw, rfl, hr⟩ := Pattern.leading?_eq_some (firstFormat?_eq_some hf).2
    obtain ⟨body, hbody, -⟩ := TwigFormat.mem_rests_pattern hr
    obtain ⟨⟨inside, hinside⟩, honce⟩ := Delimiters.isBlock_iff.2 h
    -- the match begins at the opening, and it ends where the only closing does
    have hwnil : w = [] := by
      cases w with
      | nil => rfl
      | cons b w =>
        have hb : b = '{' := by
          rw [hinside] at hcut
          exact (List.cons.inj hcut).1.symm
        exact absurd (hw b List.mem_cons_self) (by rw [hb]; decide)
    subst hwnil
    have hrnil : r = [] := honce body r (by rw [hcut, List.nil_append, hbody]; rfl)
    subst hrnil
    exact ⟨f, by simp [hcut]⟩

/-- A header that is one comment of its type is found as a whole. -/
theorem exists_detect_byPattern {header : Text} (h : t.profile.comment.IsComment header)
    (marker : Text) : ∃ style, (byPattern t).detect marker header =
      .ok (detected marker header style ⟨0, header.length⟩) := by
  unfold byPattern
  split
  · next ht =>
    subst ht
    obtain ⟨f, hf⟩ := firstFormat?_of_isComment h
    exact ⟨.twig f, by simp only [detect, hf]⟩
  · exact ⟨.plain t, by simp only [detect, leading?_block_of_isComment h]⟩

end Matcher

open Respelled in
/-- What stands next to the interior of a header on either side has no case. -/
theorem FileType.exists_caseless_delimiters (t : FileType) :
    ∃ o c d e, t.profile.header.opening = o ++ [c] ∧ t.profile.header.closing = d :: e ∧
      Caseless c ∧ Caseless d := by
  cases t with
  | twig => exact ⟨['{'], '#', '#', ['}'], rfl, rfl, caseless_hash, caseless_hash⟩
  | html =>
    exact ⟨['<', '!', '-', '-', '*'], '*', '*', ['-', '-', '>'], rfl, rfl, caseless_star,
      caseless_star⟩
  | tpl => exact ⟨['{', '*'], '*', '*', ['}'], rfl, rfl, caseless_star, caseless_star⟩
  | _ => exact ⟨['/', '*'], '*', '*', ['/'], rfl, rfl, caseless_star, caseless_star⟩

open Render in
/-- A marker that stands in a licence text as it is written stands so in its headers. -/
theorem includes_render (hnl : nl = lf ∨ nl = crlf) (t : FileType)
    (hfree : ∀ c ∈ marker, c ≠ '*' ∧ c ≠ '\r' ∧ c ≠ '\n')
    (h : includes (interior licence) marker) :
    includes (withLineEnding nl (render licence t.profile)) marker := by
  have hbody : includes (withLineEnding nl (body licence t)) marker :=
    (Respelled.of_withLineEnding hnl _).includes hfree ((respelled_body licence t).includes hfree h)
  obtain ⟨u, r, hcut⟩ := includes_iff.1 hbody
  rw [withLineEnding_render, hcut]
  exact includes_iff.2 ⟨t.profile.header.opening ++ u, r ++ t.profile.header.closing, by simp⟩

open Render in
/-- A marker that stands in a licence text stands in its headers. -/
theorem includesIgnoringCase_render (hnl : nl = lf ∨ nl = crlf) (t : FileType)
    (hfree : ∀ c ∈ marker, c ≠ '*' ∧ c ≠ '\r' ∧ c ≠ '\n')
    (h : includesIgnoringCase (interior licence) marker) :
    includesIgnoringCase (withLineEnding nl (render licence t.profile)) marker := by
  obtain ⟨o, c, d, e, ho, he, hc, hd⟩ := t.exists_caseless_delimiters
  have hbody : includesIgnoringCase (withLineEnding nl (body licence t)) marker :=
    (Respelled.of_withLineEnding hnl _).includesIgnoringCase hfree
      ((respelled_body licence t).includesIgnoringCase hfree h)
  rw [withLineEnding_render, ho, he, List.append_assoc, List.singleton_append]
  exact includesIgnoringCase_enclosed hc hd hbody o e

open Render in
/-- A header that is rendered for a type, in either line ending, is found in files of the
type from its first to its last character, if what the licence text brings inside closes no
comment. It is ours for every marker without stars and line ends that stands inside. -/
theorem render_is_recognised (h : LeavesOpen licence) (hnl : nl = lf ∨ nl = crlf) (t : FileType)
    (marker : Text) :
    ∃ d style, (Matcher.byPattern t).detect marker (withLineEnding nl (render licence t.profile)) =
        .ok d ∧
      d.comment? = some ⟨withLineEnding nl (render licence t.profile),
        ⟨0, (withLineEnding nl (render licence t.profile)).length⟩, style⟩ ∧
      ((∀ c ∈ marker, c ≠ '*' ∧ c ≠ '\r' ∧ c ≠ '\n') →
        includesIgnoringCase (interior licence) marker →
        d = .ours ⟨withLineEnding nl (render licence t.profile),
          ⟨0, (withLineEnding nl (render licence t.profile)).length⟩, style⟩) := by
  obtain ⟨style, hd⟩ := Matcher.exists_detect_byPattern (h.isComment hnl t) marker
  refine ⟨_, style, hd, ?_, fun hfree hm => ?_⟩
  · have hall := Span.of_append [] (withLineEnding nl (render licence t.profile)) []
    rw [Matcher.comment?_detected]
    simpa using hall
  · have hours := Matcher.detected_behind (includesIgnoringCase_render hnl t hfree hm) [] [] style
    simpa using hours

/-- A licence text with capitals that are lowered by what stands around them, in lines that
lead with stars. -/
def greekLicence : Text := "/** Α\r\n * ΝΌΜΟΣ */".toList

open Render in
theorem render_is_recognised_greekLicence :
    LeavesOpen greekLicence ∧ (∀ c ∈ "νόμος".toList, c ≠ '*' ∧ c ≠ '\r' ∧ c ≠ '\n') ∧
    includesIgnoringCase (interior greekLicence) "νόμος".toList ∧
    ∃ style, Matcher.twig.detect "νόμος".toList "\x7b# Α\r\n # ΝΌΜΟΣ #\x7d".toList =
      .ok (.ours ⟨"\x7b# Α\r\n # ΝΌΜΟΣ #\x7d".toList, ⟨0, 17⟩, style⟩) := by
  have hopen : LeavesOpen greekLicence := ⟨by decide +kernel, by decide +kernel⟩
  have hfree : ∀ c ∈ "νόμος".toList, c ≠ '*' ∧ c ≠ '\r' ∧ c ≠ '\n' := by
    have h : ("νόμος".toList.all fun c => c ≠ '*' ∧ c ≠ '\r' ∧ c ≠ '\n') = true := by
      decide +kernel
    simpa only [List.all_eq_true, decide_eq_true_eq] using h
  have hm : includesIgnoringCase (interior greekLicence) "νόμος".toList := by decide +kernel
  have hnl : crlf = lf ∨ crlf = crlf := .inr rfl
  obtain ⟨d, style, hd, -, hours⟩ := render_is_recognised hopen hnl .twig "νόμος".toList
  have hheader : withLineEnding crlf (render greekLicence FileType.twig.profile) =
      "\x7b# Α\r\n # ΝΌΜΟΣ #\x7d".toList := by decide +kernel
  refine ⟨hopen, hfree, hm, style, ?_⟩
  have hlen : ("\x7b# Α\r\n # ΝΌΜΟΣ #\x7d".toList : Text).length = 17 := by decide +kernel
  rw [hours hfree hm, hheader, hlen] at hd
  exact hd

end Letterhead
