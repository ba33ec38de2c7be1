import Letterhead.Header.Render
import Letterhead.Proofs.Header.LineEnds
import Letterhead.Proofs.Text.Pieces
import Mathlib.Data.List.Forall2
/-
# Rendered headers

What rendering does to a licence text, character by character: it strips it, keeps a piece
of it, and for templates puts a `#` for the star that leads a line. So carriage returns
that stood in pairs still do (`pairedReturns_render`), and no line of a template's header
leads with a star (`unstarred_markLines`), whatever its line ends are converted to.
-/
namespace Letterhead

namespace Text

variable {s t u v w nl : Text} {c : Char}

/-! ## Carriage returns in pairs -/

theorem pairedReturns_cons :
    PairedReturns (c :: s) ↔ (c = '\r' → s.head? = some '\n') ∧ PairedReturns s := by
  constructor
  · intro h
    exact ⟨by rintro rfl; exact h [] s rfl, h.tail⟩
  · rintro ⟨hc, hs⟩ u v huv
    cases u with
    | nil =>
      obtain ⟨rfl, rfl⟩ := List.cons.inj huv
      exact hc rfl
    | cons d u => exact hs u v (List.cons.inj huv).2

theorem pairedReturns_of_notMem (h : '\r' ∉ s) : PairedReturns s := by
  rintro u v rfl
  simp at h

theorem PairedReturns.append (hu : PairedReturns u) (hv : PairedReturns v) :
    PairedReturns (u ++ v) := by
  induction u with
  | nil => exact hv
  | cons c u ih =>
    obtain ⟨hc, hu⟩ := pairedReturns_cons.1 hu
    refine pairedReturns_cons.2 ⟨fun h => ?_, ih hu⟩
    show (u ++ v).head? = _
    rw [List.head?_append, hc h]
    rfl

/-- A piece of a text has its carriage returns in pairs, unless a pair was cut at its end. -/
theorem PairedReturns.infix (h : PairedReturns (u ++ (s ++ v)))
    (hend : s.getLast? ≠ some '\r' ∨ v.head? ≠ some '\n') : PairedReturns s := by
  rintro a b rfl
  have hb := h (u ++ a) (b ++ v) (by simp)
  cases b with
  | nil =>
    rcases hend with hend | hend
    · simp at hend
    · exact absurd hb hend
  | cons d b => simpa using hb

theorem PairedReturns.strip (h : PairedReturns s) : PairedReturns (strip s) := by
  obtain ⟨a, b, hs, -, -, htrimmed⟩ := strips_strip s
  rw [hs] at h
  refine h.infix (.inl fun hr => ?_)
  exact absurd (htrimmed _ (.inr hr)) (by decide)

/-! ## Lines that lead with a star -/

/-- A star is the first character past spaces and tabs. -/
def StarLed (s : Text) : Prop :=
  ∃ indent rest, s = indent ++ '*' :: rest ∧ ∀ c ∈ indent, c = ' ' ∨ c = '\t'

/-- No line but the first leads with a star. -/
def Unstarred (s : Text) : Prop := ∀ u v, s = u ++ '\n' :: v → ¬ StarLed v

theorem starLed_cons : StarLed (c :: s) ↔ c = '*' ∨ (c = ' ' ∨ c = '\t') ∧ StarLed s := by
  constructor
  · rintro ⟨indent, rest, hs, hi⟩
    cases indent with
    | nil => exact .inl (List.cons.inj hs).1
    | cons d indent =>
      obtain ⟨rfl, rfl⟩ := List.cons.inj hs
      exact .inr ⟨hi c List.mem_cons_self, indent, rest, rfl,
        fun e he => hi e (List.mem_cons_of_mem c he)⟩
  · rintro (rfl | ⟨hc, indent, rest, rfl, hi⟩)
    · exact ⟨[], s, rfl, by simp⟩
    · exact ⟨c :: indent, rest, rfl, by simpa using ⟨hc, hi⟩⟩

theorem not_starLed_nil : ¬ StarLed [] := by
  rintro ⟨indent, rest, hs, -⟩
  simp at hs

theorem unstarred_cons : Unstarred (c :: s) ↔ (c = '\n' → ¬ StarLed s) ∧ Unstarred s := by
  constructor
  · intro h
    exact ⟨by rintro rfl; exact h [] s rfl,
      fun u v hs => h (c :: u) v (by rw [hs, List.cons_append])⟩
  · rintro ⟨hc, hs⟩ u v huv
    cases u with
    | nil =>
      obtain ⟨rfl, rfl⟩ := List.cons.inj huv
      exact hc rfl
    | cons d u => exact hs u v (List.cons.inj huv).2

theorem unstarred_of_notMem (h : '\n' ∉ s) : Unstarred s := by
  rintro u v rfl
  simp at h

/-- A star that leads a text of several lines leads its first line. -/
theorem starLed_append_feed (hu : '\n' ∉ u) : StarLed (u ++ '\n' :: v) → StarLed u := by
  induction u with
  | nil => simp [starLed_cons]
  | cons c u ih =>
    simp only [List.mem_cons, not_or] at hu
    rw [List.cons_append, starLed_cons, starLed_cons]
    exact Or.imp_right fun h => ⟨h.1, ih hu.2 h.2⟩

theorem Unstarred.append_feed (hu : '\n' ∉ u) (hv : ¬ StarLed v) (hvs : Unstarred v) :
    Unstarred (u ++ '\n' :: v) := by
  induction u with
  | nil => exact unstarred_cons.2 ⟨fun _ => hv, hvs⟩
  | cons c u ih =>
    simp only [List.mem_cons, not_or] at hu
    exact unstarred_cons.2 ⟨fun h => absurd h.symm hu.1, ih hu.2⟩

theorem starLed_unifyLineEnds : StarLed (unifyLineEnds s) → StarLed s := by
  fun_induction unifyLineEnds s with
  | case1 s ih => simp [starLed_cons]
  | case2 c s hne ih =>
    rw [starLed_cons, starLed_cons]
    exact Or.imp_right fun h => ⟨h.1, ih h.2⟩
  | case3 => exact id

theorem Unstarred.unifyLineEnds (h : Unstarred s) : Unstarred (unifyLineEnds s) := by
  fun_induction Text.unifyLineEnds s with
  | case1 s ih =>
    obtain ⟨hs, hss⟩ := unstarred_cons.1 (unstarred_cons.1 h).2
    exact unstarred_cons.2 ⟨fun _ hled => hs rfl (starLed_unifyLineEnds hled), ih hss⟩
  | case2 c s hne ih =>
    obtain ⟨hs, hss⟩ := unstarred_cons.1 h
    exact unstarred_cons.2 ⟨fun hc hled => hs hc (starLed_unifyLineEnds hled), ih hss⟩
  | case3 => exact h

theorem starLed_flatMap_crlf :
    StarLed (s.flatMap fun c => if c = '\n' then crlf else [c]) → StarLed s := by
  induction s with
  | nil => exact id
  | cons c s ih =>
    by_cases hc : c = '\n'
    · simp [hc, crlf, starLed_cons]
    · simp only [List.flatMap_cons, hc, if_false, List.singleton_append, starLed_cons]
      exact Or.imp_right fun h => ⟨h.1, ih h.2⟩

/-- Converting line ends puts no star in front of a line. -/
theorem Unstarred.withLineEnding (hnl : nl = lf ∨ nl = crlf) (h : Unstarred s) :
    Unstarred (withLineEnding nl s) := by
  rcases hnl with rfl | rfl
  · rw [withLineEnding_lf]
    exact h.unifyLineEnds
  · unfold Text.withLineEnding
    have ht := h.unifyLineEnds
    generalize Text.unifyLineEnds s = t at ht
    induction t with
    | nil => exact ht
    | cons c t ih =>
      obtain ⟨hs, hss⟩ := unstarred_cons.1 ht
      by_cases hc : c = '\n'
      · simp only [List.flatMap_cons, hc, if_true, crlf, List.cons_append, List.nil_append]
        refine unstarred_cons.2 ⟨by simp, unstarred_cons.2 ⟨fun _ hled => ?_, ih hss⟩⟩
        exact hs hc (starLed_flatMap_crlf hled)
      · simp only [List.flatMap_cons, hc, if_false, List.singleton_append]
        exact unstarred_cons.2 ⟨fun h => absurd h hc, ih hss⟩

end Text

namespace Render

open Text

variable {s t : Text}

/-! ## The interior -/

theorem isDocBlock_iff : isDocBlock s ↔
    docBlock.opening <+: s ∧ docBlock.closing <:+ s ∧ 5 ≤ s.length := by
  simp only [isDocBlock, Bool.and_eq_true, List.isPrefixOf_iff_prefix,
    List.isSuffixOf_iff_suffix, decide_eq_true_eq, and_assoc]

/-- A doc block is what stands between its delimiters. -/
theorem exists_inside (h : isDocBlock s) :
    ∃ i, s = '/' :: '*' :: '*' :: (i ++ ['*', '/']) ∧ (s.drop 3).take (s.length - 5) = i := by
  simp only [isDocBlock_iff, docBlock] at h
  obtain ⟨⟨v, rfl⟩, ⟨u, hu⟩, hlen⟩ := h
  have hsuffix : ['*', '/'] <:+ v := by
    refine List.suffix_of_suffix_length_le ⟨u, hu⟩ (List.suffix_append _ _) ?_
    simp at hlen ⊢
    omega
  obtain ⟨i, rfl⟩ := hsuffix
  exact ⟨i, by simp, by simp⟩

theorem pairedReturns_interior (h : PairedReturns s) : PairedReturns (interior s) := by
  unfold interior
  dsimp only
  split
  · next hdoc =>
    obtain ⟨i, hs, hi⟩ := exists_inside hdoc
    rw [hi]
    have hstrip : PairedReturns (['/', '*', '*'] ++ (i ++ ['*', '/'])) := by
      simpa [← hs] using h.strip
    exact hstrip.infix (.inr (by simp))
  · refine pairedReturns_cons.2 ⟨by simp, h.strip.append ?_⟩
    exact pairedReturns_of_notMem (by simp)

/-! ## Marked lines -/

/-- The second text is the first with a `#` for some of its stars. -/
def Restarred (s t : Text) : Prop := List.Forall₂ (fun c d => d = c ∨ c = '*' ∧ d = '#') s t

theorem restarred_refl (s : Text) : Restarred s s := List.forall₂_same.2 fun _ _ => .inl rfl

theorem Restarred.append {s' t' : Text} (h : Restarred s t) (h' : Restarred s' t') :
    Restarred (s ++ s') (t ++ t') := List.rel_append h h'

/-- A line with the star that leads it replaced: the indentation and the rest stay. -/
theorem markLine_cases (l : Text) :
    (markLine ['#'] l = l ∧ ¬ StarLed l) ∨
      ∃ indent rest, l = indent ++ '*' :: rest ∧ (∀ c ∈ indent, c = ' ' ∨ c = '\t') ∧
        markLine ['#'] l = indent ++ '#' :: rest := by
  have hsplit := List.takeWhile_append_dropWhile (p := fun c => c == ' ' || c == '\t') (l := l)
  have hindent : ∀ c ∈ l.takeWhile (fun c => c == ' ' || c == '\t'), c = ' ' ∨ c = '\t' :=
    fun c hc => by simpa using List.mem_takeWhile_imp hc
  unfold markLine
  dsimp only
  split
  · next rest hrest =>
    rw [hrest] at hsplit
    exact .inr ⟨_, rest, hsplit.symm, hindent, by simp⟩
  · next hne =>
    refine .inl ⟨rfl, ?_⟩
    rintro ⟨indent, rest, rfl, hi⟩
    refine hne rest ?_
    rw [List.dropWhile_append_of_pos fun c hc => by simpa using hi c hc]
    simp

theorem restarred_markLine (l : Text) : Restarred l (markLine ['#'] l) := by
  rcases markLine_cases l with ⟨h, -⟩ | ⟨indent, rest, rfl, -, h⟩
  · rw [h]
    exact restarred_refl l
  · rw [h]
    exact (restarred_refl indent).append (.cons (.inr ⟨rfl, rfl⟩) (restarred_refl rest))

theorem not_starLed_markLine (l : Text) : ¬ StarLed (markLine ['#'] l) := by
  rcases markLine_cases l with ⟨h, hl⟩ | ⟨indent, rest, rfl, hi, h⟩
  · rwa [h]
  · rw [h]
    clear h
    induction indent with
    | nil => simp [starLed_cons]
    | cons c indent ih =>
      have hc : c ≠ '*' := by rcases hi c List.mem_cons_self with rfl | rfl <;> decide
      rw [List.cons_append, starLed_cons]
      rintro (h | h)
      · exact hc h
      · exact ih (fun d hd => hi d (List.mem_cons_of_mem c hd)) h.2

theorem Restarred.mem_feed (h : Restarred s t) : '\n' ∈ t ↔ '\n' ∈ s := by
  induction h with
  | nil => rfl
  | cons hcd _ ih => rcases hcd with rfl | ⟨rfl, rfl⟩ <;> simp [ih]

theorem Restarred.pairedReturns (h : Restarred s t) (hs : PairedReturns s) : PairedReturns t := by
  induction h with
  | nil => exact hs
  | @cons c d s t hcd hst ih =>
    obtain ⟨hc, hs⟩ := pairedReturns_cons.1 hs
    refine pairedReturns_cons.2 ⟨fun hd => ?_, ih hs⟩
    rcases hcd with rfl | ⟨rfl, rfl⟩
    · cases hst with
      | nil => simpa using hc hd
      | cons hef _ =>
        have he := hc hd
        rw [List.head?_cons, Option.some.injEq] at he ⊢
        subst he
        exact hef.resolve_right (by simp)
    · exact absurd hd (by decide)

theorem restarred_joinWith {f : Text → Text} (hf : ∀ l, Restarred l (f l)) (ls : List Text) :
    Restarred (joinWith ['\n'] ls) (joinWith ['\n'] (ls.map f)) := by
  induction ls with
  | nil => exact .nil
  | cons l ls ih =>
    cases ls with
    | nil => exact hf l
    | cons m ls => exact ((hf l).append (restarred_refl ['\n'])).append ih

/-- Marking lines changes nothing but stars. -/
theorem restarred_markLines (s : Text) : Restarred s (markLines ['#'] s) := by
  have h := restarred_joinWith restarred_markLine (splitOn '\n' s)
  rwa [joinWith_splitOn] at h

theorem unstarred_joinWith {ls : List Text} (h : ∀ l ∈ ls, '\n' ∉ l ∧ ¬ StarLed l) :
    ¬ StarLed (joinWith ['\n'] ls) ∧ Unstarred (joinWith ['\n'] ls) := by
  induction ls with
  | nil => exact ⟨not_starLed_nil, unstarred_of_notMem (by simp [joinWith])⟩
  | cons l ls ih =>
    obtain ⟨hl, hled⟩ := h l List.mem_cons_self
    cases ls with
    | nil => exact ⟨hled, unstarred_of_notMem hl⟩
    | cons m ls =>
      obtain ⟨hrest, hunstarred⟩ := ih fun x hx => h x (List.mem_cons_of_mem l hx)
      simp only [joinWith, List.append_assoc, List.singleton_append]
      exact ⟨fun hj => hled (starLed_append_feed hl hj), .append_feed hl hrest hunstarred⟩

/-- In a text with marked lines no line leads with a star. -/
theorem unstarred_markLines (s : Text) : Unstarred (markLines ['#'] s) := by
  refine (unstarred_joinWith fun marked hmarked => ?_).2
  obtain ⟨l, hl, rfl⟩ := List.mem_map.1 hmarked
  exact ⟨fun h => notMem_of_mem_splitOn hl ((restarred_markLine l).mem_feed.1 h),
    not_starLed_markLine l⟩

/-! ## Headers -/

/-- What stands between the delimiters of a header. -/
def body (licence : Text) (t : FileType) : Text :=
  if t = .twig then markLines ['#'] (interior licence) else interior licence

theorem render_eq (licence : Text) (t : FileType) :
    render licence t.profile =
      t.profile.header.opening ++ (body licence t ++ t.profile.header.closing) := by
  cases t <;> simp [render, body, FileType.profile]

end Render

open Text Render in
/-- A header has its carriage returns in pairs if its licence text has. -/
theorem pairedReturns_render {licence : Text} (h : PairedReturns licence) (t : FileType) :
    PairedReturns (render licence t.profile) := by
  have hi := pairedReturns_interior h
  have hm := (restarred_markLines (interior licence)).pairedReturns hi
  cases t <;>
    exact (PairedReturns.append (pairedReturns_of_notMem (by decide)) (by assumption)).append
      (pairedReturns_of_notMem (by decide))

end Letterhead
