import Letterhead.Comment.Pattern
import Letterhead.Proofs.Text.Search
/-
# What a pattern can leave

`rests` lists the ways in which a pattern is met. Two views of it: every way leaves an
end of the text (`exists_append_of_mem_rests`), and a repetition of single characters
leaves, furthest first, every end up to where the characters stop (`rests_many_of_step`).
Blanks in front are such a repetition, which settles where a pattern is met at the top.
-/
namespace Letterhead.Pattern

variable {p q : Pattern} {s r : Text}

/-! ## Sequences -/

theorem mem_rests_text {t : Text} : r ∈ rests (.text t) s ↔ s = t ++ r := by
  unfold rests
  constructor
  · intro h
    split at h
    · next hp =>
      obtain ⟨v, rfl⟩ := List.isPrefixOf_iff_prefix.1 hp
      rw [List.drop_left, List.mem_singleton] at h
      rw [h]
    · simp at h
  · rintro rfl
    simp

theorem rests_text_append (t r : Text) : rests (.text t) (t ++ r) = [r] := by
  simp [rests]

theorem rests_text_of_not_begins {t : Text} (h : ¬ t <+: s) : rests (.text t) s = [] := by
  simp [rests, h]

theorem mem_rests_seq : r ∈ rests (.seq p q) s ↔ ∃ u ∈ rests p s, r ∈ rests q u := by
  simp only [rests, List.mem_flatMap]

/-! ## Repetitions -/

/-- A property of pieces that every round has, and that pieces put together have, is
one of the whole repetition. -/
theorem exists_append_of_mem_rounds {step : Text → List Text} {P : Text → Text → Prop}
    (nil : ∀ r, P [] r) (append : ∀ u v r, P u (v ++ r) → P v r → P (u ++ v) r)
    (hstep : ∀ s r, r ∈ step s → ∃ u, s = u ++ r ∧ P u r) {more s r : Text} {after : List Text}
    (h : r ∈ rounds step more s after) : r ∈ after ∨ ∃ u, s = u ++ r ∧ P u r := by
  induction more generalizing s after with
  | nil =>
    rcases List.mem_cons.1 h with rfl | h
    · exact .inr ⟨[], rfl, nil _⟩
    · exact .inl h
  | cons m more ih =>
    simp only [rounds] at h
    -- the rounds that follow each first one are put in front of what comes after
    have key : ∀ (firsts : List Text), (∀ x ∈ firsts, x ∈ step s) →
        ∀ after', r ∈ firsts.foldr (fun x acc => rounds step more x acc) after' →
          r ∈ after' ∨ ∃ u, s = u ++ r ∧ P u r := by
      intro firsts
      induction firsts with
      | nil => exact fun _ _ h => .inl h
      | cons x xs ihx =>
        intro hmem after' h
        rcases ih h with h | ⟨v, hv, hPv⟩
        · exact ihx (fun y hy => hmem y (List.mem_cons_of_mem _ hy)) after' h
        · obtain ⟨u, hu, hPu⟩ := hstep s x (hmem x List.mem_cons_self)
          subst hv hu
          exact .inr ⟨u ++ v, by simp, append _ _ _ hPu hPv⟩
    rcases key (step s) (fun _ hx => hx) _ h with h | h
    · rcases List.mem_cons.1 h with rfl | h
      · exact .inr ⟨[], rfl, nil _⟩
      · exact .inl h
    · exact .inr h

theorem exists_append_of_mem_many {P : Text → Text → Prop} (nil : ∀ r, P [] r)
    (append : ∀ u v r, P u (v ++ r) → P v r → P (u ++ v) r)
    (hp : ∀ s r, r ∈ rests p s → ∃ u, s = u ++ r ∧ P u r) (h : r ∈ rests (.many p) s) :
    ∃ u, s = u ++ r ∧ P u r := by
  rw [rests] at h
  exact (exists_append_of_mem_rounds nil append hp h).resolve_left (by simp)

/-- Every way to meet a pattern leaves an end of the text. -/
theorem exists_append_of_mem_rests (h : r ∈ rests p s) : ∃ u, s = u ++ r := by
  induction p generalizing s r with
  | text t => exact ⟨t, mem_rests_text.1 h⟩
  | oneOf f =>
    cases s with
    | nil => simp [rests] at h
    | cons c s =>
      have hr : r = s := by
        simp only [rests] at h
        split at h <;> simp_all
      exact ⟨[c], by simp [hr]⟩
  | unlessNext t =>
    have hr : r = s := by
      simp only [rests] at h
      split at h <;> simp_all
    exact ⟨[], by simp [hr]⟩
  | seq p q ihp ihq =>
    obtain ⟨x, hx, hr⟩ := mem_rests_seq.1 h
    obtain ⟨u, rfl⟩ := ihp hx
    obtain ⟨v, rfl⟩ := ihq hr
    exact ⟨u ++ v, by simp⟩
  | many p ih =>
    obtain ⟨u, hu, -⟩ := exists_append_of_mem_many (P := fun _ _ => True) (fun _ => trivial)
      (fun _ _ _ _ _ => trivial) (fun _ _ hr => (ih hr).imp fun _ hu => ⟨hu, trivial⟩) h
    exact ⟨u, hu⟩

/-! ## Repetitions of single characters -/

/-- The ends of a text up to where a test stops, the furthest first. -/
def strides (go : Text → Bool) : Text → List Text
  | [] => [[]]
  | c :: s => if go (c :: s) then strides go s ++ [c :: s] else [c :: s]

theorem rounds_eq_strides {step : Text → List Text} {go : Text → Bool} (hnil : step [] = [])
    (hcons : ∀ c s, step (c :: s) = if go (c :: s) then [s] else []) {more s : Text}
    (after : List Text) (h : s.length ≤ more.length) :
    rounds step more s after = strides go s ++ after := by
  induction s generalizing more after with
  | nil => cases more <;> simp [rounds, strides, hnil]
  | cons c s ih =>
    cases more with
    | nil => simp at h
    | cons m more =>
      simp only [rounds, strides, hcons]
      split
      · simp [ih ((c :: s) :: after) (Nat.le_of_succ_le_succ h)]
      · simp

/-- A repetition of a pattern for single characters, each of which passes a test. -/
theorem rests_many_of_step {go : Text → Bool} (hnil : rests p [] = [])
    (hcons : ∀ c s, rests p (c :: s) = if go (c :: s) then [s] else []) (s : Text) :
    rests (.many p) s = strides go s := by
  rw [rests, rounds_eq_strides hnil hcons [] (Nat.le_refl _), List.append_nil]

theorem mem_strides {go : Text → Bool} :
    r ∈ strides go s ↔ ∃ u, s = u ++ r ∧ ∀ w, w <:+ u → w ≠ [] → go (w ++ r) := by
  induction s with
  | nil =>
    simp only [strides, List.mem_singleton]
    constructor
    · rintro rfl
      exact ⟨[], rfl, fun w hw hne => absurd (List.suffix_nil.1 hw) hne⟩
    · rintro ⟨u, hu, -⟩
      exact (List.append_eq_nil_iff.1 hu.symm).2
  | cons c s ih =>
    have hself : ∃ u, c :: s = u ++ c :: s ∧ ∀ w, w <:+ u → w ≠ [] → go (w ++ c :: s) :=
      ⟨[], rfl, fun w hw hne => absurd (List.suffix_nil.1 hw) hne⟩
    simp only [strides]
    split
    · next hgo =>
      rw [List.mem_append, List.mem_singleton, ih]
      constructor
      · rintro (⟨u, rfl, hu⟩ | rfl)
        · refine ⟨c :: u, rfl, fun w hw hne => ?_⟩
          rcases List.suffix_cons_iff.1 hw with rfl | hw
          · exact hgo
          · exact hu w hw hne
        · exact hself
      · rintro ⟨u, hs, hu⟩
        cases u with
        | nil => exact .inr hs.symm
        | cons d u =>
          obtain ⟨rfl, rfl⟩ := List.cons.inj hs
          exact .inl ⟨u, rfl, fun w hw => hu w (hw.trans (List.suffix_cons c u))⟩
    · next hgo =>
      rw [List.mem_singleton]
      constructor
      · rintro rfl
        exact hself
      · rintro ⟨u, hs, hu⟩
        cases u with
        | nil => exact hs.symm
        | cons d u =>
          refine absurd (hu (d :: u) (List.suffix_refl _) (by simp)) ?_
          rwa [← hs]

/-- The ends come in order, the furthest first. -/
theorem pairwise_strides (go : Text → Bool) (s : Text) :
    (strides go s).Pairwise fun a b => a.length < b.length := by
  induction s with
  | nil => simp [strides]
  | cons c s ih =>
    unfold strides
    split
    · refine List.pairwise_append.2 ⟨ih, by simp, fun a ha b hb => ?_⟩
      obtain ⟨u, rfl, -⟩ := mem_strides.1 ha
      rw [List.mem_singleton.1 hb, List.length_cons, List.length_append]
      omega
    · simp

/-! ## Blanks in front -/

theorem rests_blanks (s : Text) :
    rests blanks s = strides (fun s => s.head?.any Text.isBlank) s :=
  rests_many_of_step rfl (fun _ _ => rfl) s

theorem mem_rests_blanks : r ∈ rests blanks s ↔ ∃ w, s = w ++ r ∧ ∀ c ∈ w, Text.isBlank c := by
  rw [rests_blanks, mem_strides]
  refine exists_congr fun w => and_congr_right fun _ => ⟨fun h c hc => ?_, fun h v hv hne => ?_⟩
  · obtain ⟨a, b, rfl⟩ := List.append_of_mem hc
    simpa using h (c :: b) (List.suffix_append _ _) (by simp)
  · cases v with
    | nil => exact absurd rfl hne
    | cons c v => simpa using h c (hv.subset List.mem_cons_self)

/-- The first way to pass blanks passes all of them, and every other one stops in front
of a blank. -/
theorem strides_blanks (s : Text) :
    ∃ others, strides (fun s => s.head?.any Text.isBlank) s = s.dropWhile Text.isBlank :: others ∧
      ∀ x ∈ others, x.head?.any Text.isBlank := by
  induction s with
  | nil => exact ⟨[], rfl, by simp⟩
  | cons c s ih =>
    obtain ⟨others, h, hothers⟩ := ih
    by_cases hc : Text.isBlank c
    · refine ⟨others ++ [c :: s], by simp [strides, hc, h], fun x hx => ?_⟩
      rcases List.mem_append.1 hx with hx | hx
      · exact hothers x hx
      · rw [List.mem_singleton.1 hx]
        simpa using hc
    · exact ⟨[], by simp [strides, hc], by simp⟩

/-- A pattern that is met nowhere in front of a blank is met behind all of them. -/
theorem leading?_of_rests_blank (hp : ∀ s, s.head?.any Text.isBlank → rests p s = []) (s : Text) :
    p.leading? s = (rests p (s.dropWhile Text.isBlank)).head?.map fun e =>
      ⟨(s.takeWhile Text.isBlank).length, s.length - e.length⟩ := by
  obtain ⟨others, h, hothers⟩ := strides_blanks s
  have hnone : others.flatMap (fun r => (rests p r).map fun e => (r, e)) = [] := by
    rw [List.flatMap_eq_nil_iff]
    intro x hx
    rw [hp x (hothers x hx), List.map_nil]
  have hlen : s.length - (s.dropWhile Text.isBlank).length =
      (s.takeWhile Text.isBlank).length := by
    have := congrArg List.length (List.takeWhile_append_dropWhile (p := Text.isBlank) (l := s))
    rw [List.length_append] at this
    omega
  simp only [leading?, rests_blanks, h, List.flatMap_cons, hnone, List.append_nil,
    List.head?_map, Option.map_map]
  cases (rests p (s.dropWhile Text.isBlank)).head? <;> simp [hlen]

/-- Where a pattern is met at the top: behind as many blanks as possible, in the way it
prefers there. -/
theorem leading?_eq_some_iff {x : Span} :
    p.leading? s = some x ↔ ∃ w r e, s = w ++ r ∧ (∀ c ∈ w, Text.isBlank c) ∧
      (rests p r).head? = some e ∧ x = ⟨w.length, s.length - e.length⟩ ∧
      ∀ v u, s = v ++ u → (∀ c ∈ v, Text.isBlank c) → w.length < v.length → rests p u = [] := by
  simp only [leading?, List.head?_flatMap, List.head?_map, Option.map_eq_some_iff,
    List.findSome?_eq_some_iff, Option.map_eq_none_iff, List.head?_eq_none_iff]
  have hsorted := pairwise_strides (fun s => s.head?.any Text.isBlank) s
  rw [← rests_blanks] at hsorted
  constructor
  · rintro ⟨-, ⟨before, r, after, hways, ⟨e, he, rfl⟩, hnone⟩, rfl⟩
    obtain ⟨w, rfl, hw⟩ := mem_rests_blanks.1 (show r ∈ rests blanks s by simp [hways])
    rw [hways, List.pairwise_append, List.pairwise_cons] at hsorted
    refine ⟨w, r, e, rfl, hw, he, by simp, fun v u hcut hv hlt => ?_⟩
    have hlen : u.length < r.length := by
      have := congrArg List.length hcut
      simp only [List.length_append] at this
      omega
    have hu : u ∈ rests blanks (w ++ r) := mem_rests_blanks.2 ⟨v, hcut, hv⟩
    rw [hways, List.mem_append, List.mem_cons] at hu
    rcases hu with hu | rfl | hu
    · exact hnone u hu
    · exact absurd hlen (Nat.lt_irrefl _)
    · exact absurd (hsorted.2.1.1 u hu) (Nat.lt_asymm hlen)
  · rintro ⟨w, r, e, rfl, hw, he, rfl, hmost⟩
    obtain ⟨before, after, hways⟩ := List.append_of_mem (mem_rests_blanks.2 ⟨w, rfl, hw⟩)
    rw [hways, List.pairwise_append] at hsorted
    refine ⟨(r, e), ⟨before, r, after, hways, ⟨e, he, rfl⟩, fun u hu => ?_⟩, by simp⟩
    obtain ⟨v, hcut, hv⟩ := mem_rests_blanks.1 (show u ∈ rests blanks (w ++ r) by simp [hways, hu])
    refine hmost v u hcut hv ?_
    have hlen := congrArg List.length hcut
    have := hsorted.2.2 u hu r List.mem_cons_self
    simp only [List.length_append] at hlen
    omega

theorem leading?_eq_none_iff :
    p.leading? s = none ↔ ∀ w r, s = w ++ r → (∀ c ∈ w, Text.isBlank c) → rests p r = [] := by
  simp only [leading?, List.head?_flatMap, List.head?_map, Option.map_eq_none_iff,
    List.findSome?_eq_none_iff, List.head?_eq_none_iff, mem_rests_blanks]
  constructor
  · exact fun h w r hcut hw => h r ⟨w, hcut, hw⟩
  · rintro h r ⟨w, hcut, hw⟩
    exact h w r hcut hw

/-- Where a pattern is met at the top: blanks, the text that meets it, and what it leaves. -/
theorem leading?_eq_some {x : Span} (h : p.leading? s = some x) :
    ∃ w t r, s = w ++ (t ++ r) ∧ (∀ c ∈ w, Text.isBlank c) ∧
      x = ⟨w.length, w.length + t.length⟩ ∧ r ∈ rests p (t ++ r) := by
  obtain ⟨w, b, r, rfl, hw, hr, rfl, -⟩ := leading?_eq_some_iff.1 h
  have hmem := List.mem_of_head? hr
  obtain ⟨t, rfl⟩ := exists_append_of_mem_rests hmem
  refine ⟨w, t, r, rfl, hw, ?_, hmem⟩
  simp only [List.length_append, Span.mk.injEq, true_and]
  omega

end Letterhead.Pattern

namespace Letterhead

/-- The characters of a cut that is given by the lengths of what it leaves out. -/
theorem Span.of_append (w t r : Text) :
    (Span.mk w.length (w.length + t.length)).of (w ++ (t ++ r)) = t := by
  simp [Span.of, ← List.append_assoc]

end Letterhead
