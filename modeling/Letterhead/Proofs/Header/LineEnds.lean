import Letterhead.Header.Placement
import Mathlib.Data.List.Basic
/-
# Line ends of a stamped text

A header takes the line ending of the text that it is put on. The text may get another
first line by that, and the header takes the same line ending from it
(`withLineEnding_lineEnding_behind`), provided that carriage returns in the header stand
in front of line feeds only.
-/
namespace Letterhead.Text

/-- The two line endings. -/
def lf : Text := ['\n']
def crlf : Text := ['\r', '\n']

/-- A carriage return stands only in front of a line feed. -/
def PairedReturns (s : Text) : Prop := ∀ u v, s = u ++ '\r' :: v → v.head? = some '\n'

/-- A line feed stands only behind a carriage return. -/
def PairedFeeds (s : Text) : Prop := ∀ u v, s = u ++ '\n' :: v → u.getLast? = some '\r'

section
variable {s t u v w nl : Text} {c : Char}

theorem PairedReturns.tail (h : PairedReturns (c :: s)) : PairedReturns s :=
  fun u v hs => h (c :: u) v (by rw [hs, List.cons_append])

/-! ## Converting -/

theorem unifyLineEnds_cons (h : c ≠ '\r' ∨ s.head? ≠ some '\n') :
    unifyLineEnds (c :: s) = c :: unifyLineEnds s := by
  rw [unifyLineEnds]
  rintro t rfl rfl
  simp at h

/-- Line ends that do not lie across a cut are converted on either side of it. -/
theorem unifyLineEnds_append (h : u.getLast? ≠ some '\r' ∨ v.head? ≠ some '\n') :
    unifyLineEnds (u ++ v) = unifyLineEnds u ++ unifyLineEnds v := by
  fun_induction unifyLineEnds u with
  | case1 s ih =>
    have hs : s.getLast? ≠ some '\r' ∨ v.head? ≠ some '\n' := by
      cases s with
      | nil => simp
      | cons d s => simpa using h
    simp [unifyLineEnds, ih hs]
  | case2 c s hne ih =>
    by_cases hs : s = []
    · subst hs
      have hc : c ≠ '\r' ∨ v.head? ≠ some '\n' := by simpa using h
      rw [List.singleton_append, unifyLineEnds_cons hc]
      rfl
    · have hlast : s.getLast? ≠ some '\r' ∨ v.head? ≠ some '\n' := by
        rwa [List.getLast?_cons_of_ne_nil hs] at h
      have hpair : c ≠ '\r' ∨ (s ++ v).head? ≠ some '\n' := by
        cases s with
        | nil => exact absurd rfl hs
        | cons d s =>
          by_cases hc : c = '\r'
          · refine .inr fun hd => hne s hc ?_
            simpa using hd
          · exact .inl hc
      rw [List.cons_append, unifyLineEnds_cons hpair, ih hlast, List.cons_append]
  | case3 => rfl

theorem mem_unifyLineEnds_feed : '\n' ∈ unifyLineEnds s ↔ '\n' ∈ s := by
  fun_induction unifyLineEnds s with
  | case1 s ih => simp
  | case2 c s hne ih => simp [ih]
  | case3 => rfl

theorem notMem_unifyLineEnds_return (h : PairedReturns s) : '\r' ∉ unifyLineEnds s := by
  fun_induction unifyLineEnds s with
  | case1 s ih => simpa using ih h.tail.tail
  | case2 c s hne ih =>
    have hc : c ≠ '\r' := by
      rintro rfl
      cases s with
      | nil => simpa using h [] [] rfl
      | cons d s => exact hne s rfl (by simpa using h [] (d :: s) rfl)
    simpa [Ne.symm hc] using ih h.tail
  | case3 => simp

theorem unifyLineEnds_of_notMem (h : '\n' ∉ s) : unifyLineEnds s = s := by
  fun_induction unifyLineEnds s with
  | case1 s ih => simp at h
  | case2 c s hne ih => rw [ih fun hs => h (List.mem_cons_of_mem c hs)]
  | case3 => rfl

/-- What stands for each character when line ends are converted. -/
theorem withLineEnding_lf : withLineEnding lf s = unifyLineEnds s := by
  unfold withLineEnding lf
  induction unifyLineEnds s with
  | nil => rfl
  | cons c t ih => by_cases hc : c = '\n' <;> simp [hc, ih]

theorem withLineEnding_append (h : u.getLast? ≠ some '\r' ∨ v.head? ≠ some '\n') (nl : Text) :
    withLineEnding nl (u ++ v) = withLineEnding nl u ++ withLineEnding nl v := by
  rw [withLineEnding, unifyLineEnds_append h, List.flatMap_append]
  rfl

theorem withLineEnding_cons (hr : c ≠ '\r') (hn : c ≠ '\n') (nl s : Text) :
    withLineEnding nl (c :: s) = c :: withLineEnding nl s := by
  simp [withLineEnding, unifyLineEnds_cons (.inl hr), hn]

/-- A text of one line has no line end to convert. -/
theorem withLineEnding_of_notMem (h : '\n' ∉ s) (nl : Text) : withLineEnding nl s = s := by
  rw [withLineEnding, unifyLineEnds_of_notMem h]
  induction s with
  | nil => rfl
  | cons c s ih =>
    simp only [List.mem_cons, not_or] at h
    simp [Ne.symm h.1, ih h.2]

/-- What encloses a text in one line on either side stays when line ends are converted. -/
theorem withLineEnding_enclosed (hr : '\r' ∉ u) (hn : '\n' ∉ u) (hv : '\n' ∉ v) (nl s : Text) :
    withLineEnding nl (u ++ (s ++ v)) = u ++ (withLineEnding nl s ++ v) := by
  have hlast : u.getLast? ≠ some '\r' := fun h => hr (List.mem_of_getLast? h)
  have hhead : v.head? ≠ some '\n' := fun h => hv (List.mem_of_head? h)
  rw [withLineEnding_append (.inl hlast), withLineEnding_append (.inr hhead),
    withLineEnding_of_notMem hn, withLineEnding_of_notMem hv]

theorem mem_withLineEnding_feed (hnl : nl = lf ∨ nl = crlf) :
    '\n' ∈ withLineEnding nl s ↔ '\n' ∈ s := by
  have hfeed : '\n' ∈ nl := by rcases hnl with rfl | rfl <;> decide
  rw [withLineEnding, List.mem_flatMap, ← mem_unifyLineEnds_feed (s := s)]
  constructor
  · rintro ⟨c, hc, hmem⟩
    split at hmem
    · next h => exact h ▸ hc
    · rw [List.mem_singleton] at hmem
      exact hmem ▸ hc
  · exact fun h => ⟨'\n', h, by simpa using hfeed⟩

theorem head?_of_withLineEnding (hnl : nl = lf ∨ nl = crlf) (hr : c ≠ '\r') (hn : c ≠ '\n')
    (h : (withLineEnding nl s).head? = some c) : s.head? = some c := by
  have hfeed : ∀ t, (nl ++ t).head? ≠ some c := by
    rcases hnl with rfl | rfl <;> simp [lf, crlf, hr.symm, hn.symm]
  unfold withLineEnding at h
  fun_cases unifyLineEnds s with
  | case1 s =>
    simp only [unifyLineEnds, List.flatMap_cons, if_true] at h
    exact absurd h (hfeed _)
  | case2 d s hne =>
    rw [unifyLineEnds] at h
    · by_cases hd : d = '\n'
      · simp only [hd, List.flatMap_cons, if_true] at h
        exact absurd h (hfeed _)
      · simpa [hd] using h
    · exact hne
  | case3 => simp [unifyLineEnds] at h

/-- What a converted text begins with, if it holds no line end, stood there before. -/
theorem begins_of_withLineEnding {p : Text} (hnl : nl = lf ∨ nl = crlf) (hr : '\r' ∉ p)
    (hn : '\n' ∉ p) (h : p <+: withLineEnding nl s) : p <+: s := by
  induction p generalizing s with
  | nil => exact List.nil_prefix
  | cons c p ih =>
    simp only [List.mem_cons, not_or] at hr hn
    obtain ⟨v, hv⟩ := h
    have hhead : s.head? = some c :=
      head?_of_withLineEnding hnl (Ne.symm hr.1) (Ne.symm hn.1) (by rw [← hv]; rfl)
    obtain ⟨s, rfl⟩ := List.head?_eq_some_iff.1 hhead
    rw [withLineEnding_cons (Ne.symm hr.1) (Ne.symm hn.1)] at hv
    exact List.cons_prefix_cons.2 ⟨rfl, ih hr.2 hn.2 ⟨v, (List.cons.inj hv).2⟩⟩

theorem notMem_withLineEnding_lf_return (h : PairedReturns s) : '\r' ∉ withLineEnding lf s := by
  rw [withLineEnding_lf]
  exact notMem_unifyLineEnds_return h

theorem pairedFeeds_withLineEnding_crlf (s : Text) : PairedFeeds (withLineEnding crlf s) := by
  unfold withLineEnding
  induction unifyLineEnds s with
  | nil => intro u v h; simp at h
  | cons c t ih =>
    intro u v h
    by_cases hc : c = '\n'
    · simp only [hc, crlf, List.flatMap_cons, if_true] at h
      match u, h with
      | [], h => simp at h
      | [d], h =>
        simp only [List.cons_append, List.nil_append, List.cons.injEq] at h
        simpa using h.1.symm
      | d :: e :: u, h =>
        simp only [List.cons_append, List.nil_append, List.cons.injEq] at h
        rw [List.getLast?_cons_cons]
        have hu := ih u v h.2.2
        cases u with
        | nil => simp at hu
        | cons f u => rwa [List.getLast?_cons_cons]
    · simp only [List.flatMap_cons, hc, if_false, List.singleton_append] at h
      cases u with
      | nil => simp_all
      | cons d u =>
        have hu := ih u v (List.cons.inj h).2
        cases u with
        | nil => simp at hu
        | cons e u => rwa [List.getLast?_cons_cons]

/-! ## The line ending of the first line -/

theorem lineEnding_of_notMem (h : '\n' ∉ s) : lineEnding s = lf := by
  have : s.contains '\n' = false := by simpa using h
  unfold lineEnding
  rw [this]
  split <;> simp_all [lf]

theorem lineEnding_append_feed (h : '\n' ∉ u) (v : Text) :
    lineEnding (u ++ '\n' :: v) = if u.getLast? = some '\r' then crlf else lf := by
  have htake : (u ++ '\n' :: v).takeWhile (· != '\n') = u := by
    rw [List.takeWhile_append_of_pos fun c hc => by simpa using ne_of_mem_of_not_mem hc h]
    simp
  have hmem : (u ++ '\n' :: v).contains '\n' = true := by simp
  unfold lineEnding
  rw [htake, hmem]
  split <;> simp_all [lf, crlf]

theorem lineEnding_eq (s : Text) : lineEnding s = lf ∨ lineEnding s = crlf := by
  by_cases h : '\n' ∈ s
  · obtain ⟨u, v, rfl, hu⟩ := List.eq_append_cons_of_mem h
    rw [lineEnding_append_feed hu]
    split
    · exact .inr rfl
    · exact .inl rfl
  · exact .inl (lineEnding_of_notMem h)

/-- What follows the first line end has no say. -/
theorem lineEnding_append (h : '\n' ∈ u) (v : Text) : lineEnding (u ++ v) = lineEnding u := by
  obtain ⟨a, b, rfl, ha⟩ := List.eq_append_cons_of_mem h
  rw [List.append_assoc, List.cons_append, lineEnding_append_feed ha, lineEnding_append_feed ha]

/-- A text keeps its line ending behind whatever has no line end and makes none with it. -/
theorem lineEnding_append_left (hw : '\n' ∉ w)
    (hu : w.getLast? ≠ some '\r' ∨ u.head? ≠ some '\n') : lineEnding (w ++ u) = lineEnding u := by
  by_cases hmem : '\n' ∈ u
  · obtain ⟨a, b, rfl, ha⟩ := List.eq_append_cons_of_mem hmem
    have hwa : '\n' ∉ w ++ a := by simp [hw, ha]
    rw [← List.append_assoc, lineEnding_append_feed hwa, lineEnding_append_feed ha]
    cases a with
    | nil =>
      have hlast : w.getLast? ≠ some '\r' := hu.resolve_right (by simp)
      simp [hlast]
    | cons c a => rw [List.getLast?_append_of_ne_nil w (by simp)]
  · rw [lineEnding_of_notMem hmem, lineEnding_of_notMem (by simp [hw, hmem])]

/-- A text with its line ends converted has the line ending that they were converted to. -/
theorem lineEnding_withLineEnding (hnl : nl = lf ∨ nl = crlf) (h : PairedReturns s)
    (hs : '\n' ∈ s) : lineEnding (withLineEnding nl s) = nl := by
  obtain ⟨a, b, hab, ha⟩ := List.eq_append_cons_of_mem ((mem_withLineEnding_feed hnl).2 hs)
  rw [hab, lineEnding_append_feed ha]
  rcases hnl with rfl | rfl
  · rw [if_neg]
    intro hr
    refine notMem_withLineEnding_lf_return h ?_
    rw [hab]
    exact List.mem_append_left _ (List.mem_of_getLast? hr)
  · rw [if_pos (pairedFeeds_withLineEnding_crlf s a b hab)]

/-- A header takes the same form again from a text that has it behind its first blanks,
if the blanks hold no line end and the header is not one itself. -/
theorem withLineEnding_lineEnding_behind (hnl : nl = lf ∨ nl = crlf) (h : PairedReturns s)
    (hr : s.head? ≠ some '\r') (hn : s.head? ≠ some '\n') (hw : '\n' ∉ w) (rest : Text) :
    withLineEnding (lineEnding (w ++ (withLineEnding nl s ++ rest))) s = withLineEnding nl s := by
  by_cases hs : '\n' ∈ s
  · have hmem : '\n' ∈ withLineEnding nl s := (mem_withLineEnding_feed hnl).2 hs
    have hhead : (withLineEnding nl s).head? ≠ some '\n' := by
      cases s with
      | nil => simp at hs
      | cons c s =>
        rw [withLineEnding_cons (by simpa using hr) (by simpa using hn)]
        simpa using hn
    have hbehind : lineEnding (w ++ withLineEnding nl s) = nl :=
      (lineEnding_append_left hw (.inr hhead)).trans (lineEnding_withLineEnding hnl h hs)
    rw [← List.append_assoc, lineEnding_append (by simp [hmem]), hbehind]
  · rw [withLineEnding_of_notMem hs, withLineEnding_of_notMem hs]

end

end Letterhead.Text
