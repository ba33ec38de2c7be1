import Letterhead.Proofs.Header.Rendering
import Letterhead.Proofs.Text.Lowering
/-
# Texts spelled anew

What becomes of a licence text on the way into a header: some stars turn into `#`, and the
line ends into those of the file. None of it is a letter, so a marker without stars and
line ends that was found before, without regard to case, is found still
(`Respelled.includesIgnoringCase`).
-/
namespace Letterhead.Text

/-- The second text is the first with a `#` for some of its stars and other line ends. -/
inductive Respelled : Text → Text → Prop
  | nil : Respelled [] []
  | keep (c : Char) {s t : Text} (h : Respelled s t) : Respelled (c :: s) (c :: t)
  | mark {s t : Text} (h : Respelled s t) : Respelled ('*' :: s) ('#' :: t)
  | shorten {s t : Text} (h : Respelled s t) : Respelled ('\r' :: '\n' :: s) ('\n' :: t)
  | lengthen {s t : Text} (h : Respelled s t) : Respelled ('\n' :: s) ('\r' :: '\n' :: t)

variable {s t needle nl : Text}

namespace Respelled

theorem refl (s : Text) : Respelled s s := by
  induction s with
  | nil => exact .nil
  | cons c s ih => exact .keep c ih

theorem of_restarred (h : Render.Restarred s t) : Respelled s t := by
  induction h with
  | nil => exact .nil
  | @cons c d s t hcd _ ih =>
    rcases hcd with rfl | ⟨rfl, rfl⟩
    · exact .keep d ih
    · exact .mark ih

/-- Converting line ends spells a text anew. -/
theorem of_withLineEnding (hnl : nl = lf ∨ nl = crlf) (s : Text) :
    Respelled s (withLineEnding nl s) := by
  unfold withLineEnding
  fun_induction unifyLineEnds s with
  | case1 s ih =>
    rcases hnl with rfl | rfl
    · exact .shorten ih
    · exact .keep _ (.keep _ ih)
  | case2 c s hne ih =>
    by_cases hc : c = '\n'
    · subst hc
      rcases hnl with rfl | rfl
      · exact .keep _ ih
      · exact .lengthen ih
    · simpa [hc] using ih.keep c
  | case3 => exact .nil

/-! ## Lowering -/

/-- The characters that are written anew have no case. -/
theorem caseless_respelled :
    Caseless '*' ∧ Caseless '#' ∧ Caseless '\r' ∧ Caseless '\n' :=
  ⟨by decide +kernel, by decide +kernel, by decide +kernel, by decide +kernel⟩

theorem caseless_star : Caseless '*' := caseless_respelled.1
theorem caseless_hash : Caseless '#' := caseless_respelled.2.1
theorem caseless_return : Caseless '\r' := caseless_respelled.2.2.1
theorem caseless_feed : Caseless '\n' := caseless_respelled.2.2.2

theorem startsCased_eq (h : Respelled s t) : startsCased s = startsCased t := by
  have hcaseless : ∀ {c : Char} (s : Text), Caseless c → startsCased (c :: s) = false :=
    fun s hc => startsCased_append_caseless hc [] s
  induction h with
  | nil => rfl
  | keep c h ih => rw [startsCased_cons, startsCased_cons, ih]
  | mark h ih => rw [hcaseless _ caseless_star, hcaseless _ caseless_hash]
  | shorten h ih => rw [hcaseless _ caseless_return, hcaseless _ caseless_feed]
  | lengthen h ih => rw [hcaseless _ caseless_feed, hcaseless _ caseless_return]

/-- A text spelled anew is lowered to the lowered text spelled anew. -/
theorem lowerFrom (h : Respelled s t) (b : Bool) :
    Respelled (lowerFrom b s) (Text.lowerFrom b t) := by
  induction h generalizing b with
  | nil => exact .nil
  | keep c h ih =>
    simp only [Text.lowerFrom, h.startsCased_eq]
    split
    · exact .keep _ (ih _)
    · split
      · exact .keep _ (.keep _ (ih _))
      · exact .keep _ (ih _)
  | mark h ih =>
    rw [lowerFrom_cons_caseless caseless_star, lowerFrom_cons_caseless caseless_hash]
    exact .mark (ih _)
  | shorten h ih =>
    rw [lowerFrom_cons_caseless caseless_return, lower, lowerFrom_cons_caseless caseless_feed,
      lowerFrom_cons_caseless caseless_feed]
    exact .shorten (ih _)
  | lengthen h ih =>
    rw [lowerFrom_cons_caseless caseless_return, lower, lowerFrom_cons_caseless caseless_feed,
      lowerFrom_cons_caseless caseless_feed]
    exact .lengthen (ih _)

/-! ## What is found still -/

theorem begins (hfree : ∀ c ∈ needle, c ≠ '*' ∧ c ≠ '\r' ∧ c ≠ '\n') (h : Respelled s t)
    (hs : needle <+: s) : needle <+: t := by
  induction h generalizing needle with
  | nil => exact hs
  | keep c h ih =>
    cases needle with
    | nil => exact List.nil_prefix
    | cons d n =>
      obtain ⟨rfl, hn⟩ := List.cons_prefix_cons.1 hs
      exact List.cons_prefix_cons.2 ⟨rfl, ih (fun c hc => hfree c (List.mem_cons_of_mem _ hc)) hn⟩
  | _ =>
    cases needle with
    | nil => exact List.nil_prefix
    | cons d n =>
      obtain ⟨rfl, -⟩ := List.cons_prefix_cons.1 hs
      simp at hfree

theorem includes (hfree : ∀ c ∈ needle, c ≠ '*' ∧ c ≠ '\r' ∧ c ≠ '\n') (h : Respelled s t)
    (hs : includes s needle) : Text.includes t needle := by
  -- where a rewritten character leads the text, no marker but the empty one begins
  have hbehind : ∀ {c : Char} {s : Text}, c = '*' ∨ c = '\r' ∨ c = '\n' →
      Text.includes (c :: s) needle → needle = [] ∨ Text.includes s needle := by
    intro c s hc hs
    refine (includes_cons.1 hs).imp_left fun hp => ?_
    cases needle with
    | nil => rfl
    | cons d n =>
      obtain ⟨rfl, -⟩ := List.cons_prefix_cons.1 hp
      rcases hc with rfl | rfl | rfl <;> simp at hfree
  induction h with
  | nil => exact hs
  | keep c h ih =>
    refine includes_cons.2 ((includes_cons.1 hs).imp (fun hp => ?_) ih)
    exact (Respelled.keep c h).begins hfree hp
  | mark h ih =>
    rcases hbehind (by simp) hs with rfl | hs
    · exact includes_nil _
    · exact includes_cons.2 (.inr (ih hs))
  | shorten h ih =>
    rcases hbehind (by simp) hs with rfl | hs
    · exact includes_nil _
    · rcases hbehind (by simp) hs with rfl | hs
      · exact includes_nil _
      · exact includes_cons.2 (.inr (ih hs))
  | lengthen h ih =>
    rcases hbehind (by simp) hs with rfl | hs
    · exact includes_nil _
    · exact includes_cons.2 (.inr (includes_cons.2 (.inr (ih hs))))

/-- A marker without stars and line ends is found in a text that is spelled anew. -/
theorem includesIgnoringCase {marker : Text}
    (hfree : ∀ c ∈ marker, c ≠ '*' ∧ c ≠ '\r' ∧ c ≠ '\n') (h : Respelled s t)
    (hs : includesIgnoringCase s marker) : Text.includesIgnoringCase t marker := by
  refine (h.lowerFrom false).includes (fun c hc => ⟨?_, ?_, ?_⟩) hs
  · rintro rfl
    exact (hfree _ (mem_of_mem_lowerFrom (by decide) (by decide) hc)).1 rfl
  · rintro rfl
    exact (hfree _ (mem_of_mem_lowerFrom (by decide) (by decide) hc)).2.1 rfl
  · rintro rfl
    exact (hfree _ (mem_of_mem_lowerFrom (by decide) (by decide) hc)).2.2 rfl

end Respelled

end Letterhead.Text
