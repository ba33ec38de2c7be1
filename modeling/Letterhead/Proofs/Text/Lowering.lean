import Letterhead.Proofs.Text.Search
import Letterhead.Text.Case
/-
# Lowering piece by piece

Texts are lowered as a whole, but a piece sees no more of the rest than whether a letter with a
case stands in front of it and whether one follows (`lowerFrom_append`). So a character without
case that case conditions do not look through parts the text: what stands on either side of it
is lowered as if it stood alone (`lowerFrom_append_caseless`). And lowering brings no character
in that is neither a letter nor behind the capitals (`mem_of_mem_lowerFrom`).
-/
namespace Letterhead.Text

variable {s u v needle : Text} {a b : Bool} {c : Char}

/-! ## A piece of a text -/

/-- What a character makes known to its neighbours: whether it has a case, or what was known
beyond it, if case conditions look through it. -/
def passCase (c : Char) (known : Bool) : Bool := if isCaseIgnorable c then known else isCased c

/-- Whether a letter with a case is at the end of a piece, or stands in front of it and the piece
is looked through. -/
def behindCased (b : Bool) (u : Text) : Bool := u.foldl (fun b c => passCase c b) b

/-- Whether a letter with a case is at the start of a piece, or follows it and the piece is looked
through. -/
def aheadCased (a : Bool) (s : Text) : Bool := s.foldr passCase a

/-- Lowers a piece of a text. All that it sees of the rest is whether a letter with a case stands
in front of it, and whether one follows. -/
def lowerAmid (b a : Bool) : Text → Text
  | [] => []
  | c :: s =>
    if c = 'Σ' then
      (if b && !aheadCased a s then 'ς' else 'σ') :: lowerAmid (passCase c b) a s
    else if c = 'İ' then 'i' :: '\u0307' :: lowerAmid (passCase c b) a s
    else lowerChar c :: lowerAmid (passCase c b) a s

theorem behindCased_cons (b : Bool) (c : Char) (u : Text) :
    behindCased b (c :: u) = behindCased (passCase c b) u := rfl

theorem aheadCased_cons (a : Bool) (c : Char) (s : Text) :
    aheadCased a (c :: s) = passCase c (aheadCased a s) := rfl

@[simp] theorem startsCased_nil : startsCased [] = false := rfl

theorem startsCased_cons (c : Char) (s : Text) :
    startsCased (c :: s) = passCase c (startsCased s) := by
  unfold startsCased passCase
  cases h : isCaseIgnorable c <;> simp [h]

theorem startsCased_append (u v : Text) : startsCased (u ++ v) = aheadCased (startsCased v) u := by
  induction u with
  | nil => rfl
  | cons c u ih => rw [List.cons_append, startsCased_cons, ih, aheadCased_cons]

theorem startsCased_eq (s : Text) : startsCased s = aheadCased false s := by
  rw [← startsCased_nil, ← startsCased_append, List.append_nil]

theorem lowerFrom_eq_lowerAmid (b : Bool) (s : Text) : lowerFrom b s = lowerAmid b false s := by
  induction s generalizing b with
  | nil => rfl
  | cons c s ih =>
    simp only [lowerFrom, lowerAmid, startsCased_eq, ih]
    rfl

theorem lowerAmid_append (b a : Bool) (u v : Text) :
    lowerAmid b a (u ++ v) = lowerAmid b (aheadCased a v) u ++ lowerAmid (behindCased b u) a v := by
  induction u generalizing b with
  | nil => rfl
  | cons c u ih =>
    have hahead : aheadCased a (u ++ v) = aheadCased (aheadCased a v) u := List.foldr_append
    simp only [List.cons_append, lowerAmid, hahead, ih]
    split
    · rfl
    · split <;> rfl

/-- A text is lowered piece by piece. -/
theorem lowerFrom_append (b : Bool) (u v : Text) :
    lowerFrom b (u ++ v) = lowerAmid b (startsCased v) u ++ lowerFrom (behindCased b u) v := by
  simp only [lowerFrom_eq_lowerAmid, startsCased_eq, lowerAmid_append]

/-- Only a capital sigma is lowered by what stands around it. -/
theorem lowerAmid_of_notMem (h : 'Σ' ∉ s) (b a b' a' : Bool) :
    lowerAmid b a s = lowerAmid b' a' s := by
  induction s generalizing b b' with
  | nil => rfl
  | cons c s ih =>
    rw [List.mem_cons, not_or] at h
    simp only [lowerAmid, Ne.symm h.1, if_false]
    rw [ih h.2 (passCase c b) (passCase c b')]

/-- A text around a piece is lowered to a text around the lowered piece. -/
theorem lower_around (p m s : Text) : ∃ u r, lower (p ++ (m ++ s)) =
    u ++ (lowerAmid (behindCased false p) (startsCased s) m ++ r) :=
  ⟨_, _, by rw [lower, lowerFrom_append, lowerFrom_append]⟩

/-- Two capitals are lowered by what stands around them, or to two characters. -/
def Plain (s : Text) : Prop := 'Σ' ∉ s ∧ 'İ' ∉ s

theorem lower_of_plain (h : Plain s) : lower s = s.map lowerChar := by
  unfold lower
  generalize false = b
  induction s generalizing b with
  | nil => rfl
  | cons c s ih =>
    obtain ⟨hsigma, hdot⟩ := h
    simp only [List.mem_cons, not_or] at hsigma hdot
    simp [lowerFrom, Ne.symm hsigma.1, Ne.symm hdot.1, ih ⟨hsigma.2, hdot.2⟩]

/-- A marker that stands in a text as it is written is found without regard to case. -/
theorem includesIgnoringCase_of_includes (hn : Plain needle) (h : includes s needle) :
    includesIgnoringCase s needle := by
  obtain ⟨p, q, rfl⟩ := includes_iff.1 h
  obtain ⟨u, r, hlower⟩ := lower_around p needle q
  rw [lowerAmid_of_notMem hn.1 _ _ false false, ← lowerFrom_eq_lowerAmid] at hlower
  exact includes_iff.2 ⟨u, r, hlower⟩

/-! ## What has no case -/

/-- A character without case that case conditions do not look through. -/
def Caseless (c : Char) : Prop :=
  isCaseIgnorable c = false ∧ isCased c = false ∧ lowerChar c = c ∧ c ≠ 'Σ' ∧ c ≠ 'İ'

instance : DecidablePred Caseless := fun _ => inferInstanceAs (Decidable (_ ∧ _))

theorem startsCased_append_caseless (hc : Caseless c) (u v : Text) :
    startsCased (u ++ c :: v) = startsCased u := by
  have hstop : startsCased (c :: v) = false := by
    simp [startsCased_cons, passCase, hc.1, hc.2.1]
  rw [startsCased_append, hstop, startsCased_eq]

theorem lowerFrom_cons_caseless (hc : Caseless c) (b : Bool) (s : Text) :
    lowerFrom b (c :: s) = c :: lower s := by
  obtain ⟨hseen, huncased, hlower, hsigma, hdot⟩ := hc
  simp [lowerFrom, lower, hseen, huncased, hlower, hsigma, hdot]

/-- A character without case parts the text. -/
theorem lowerFrom_append_caseless (hc : Caseless c) (b : Bool) (u v : Text) :
    lowerFrom b (u ++ c :: v) = lowerFrom b u ++ c :: lower v := by
  have hstop : startsCased (c :: v) = false := startsCased_append_caseless hc [] v
  rw [lowerFrom_append, hstop, ← lowerFrom_eq_lowerAmid, lowerFrom_cons_caseless hc]

/-- Between characters without case a text is lowered as if it stood alone. -/
theorem includesIgnoringCase_enclosed {d : Char} (hc : Caseless c) (hd : Caseless d)
    (h : includesIgnoringCase s needle) (u v : Text) :
    includesIgnoringCase (u ++ c :: (s ++ d :: v)) needle := by
  obtain ⟨a, r, hs⟩ := includes_iff.1 h
  refine includes_iff.2 ⟨lower u ++ c :: a, r ++ d :: lower v, ?_⟩
  rw [lower, lowerFrom_append_caseless hc, lower, lowerFrom_append_caseless hd]
  unfold lower at hs
  simp [hs, lower]

/-! ## What lowering brings in -/

theorem CaseTable.le_of_mem_runs :
    ∀ r ∈ CaseTable.runs, (97 : Int) ≤ (r.first : Int) + r.offset := by
  decide +kernel

theorem toNat_ofNat_cases (n : Nat) : (Char.ofNat n).toNat = n ∨ (Char.ofNat n).toNat = 0 := by
  by_cases h : n.isValidChar
  · left
    rw [Char.ofNat, dif_pos h]
    rfl
  · right
    rw [Char.ofNat, dif_neg h]
    rfl

/-- A character that is not lowered to itself is lowered to one behind the capitals. -/
theorem lowerChar_cases (c : Char) :
    lowerChar c = c ∨ (lowerChar c).toNat = 0 ∨ 97 ≤ (lowerChar c).toNat := by
  unfold lowerChar
  split
  · next r hr =>
    have hfirst : r.first ≤ c.toNat := by
      have := List.find?_some hr
      simp only [CaseTable.Run.holds, Bool.and_eq_true, decide_eq_true_eq] at this
      exact this.1.1
    have hmin := CaseTable.le_of_mem_runs r (List.mem_of_find?_eq_some hr)
    rcases toNat_ofNat_cases ((c.toNat : Int) + r.offset).toNat with h | h
    · exact .inr (.inr (by omega))
    · exact .inr (.inl h)
  · exact .inl rfl

/-- A character in front of the small letters is lowered to by itself only. -/
theorem eq_of_lowerChar (hpos : c.toNat ≠ 0) (hlt : c.toNat < 97) {d : Char}
    (h : c = lowerChar d) : c = d := by
  rcases lowerChar_cases d with h' | h' | h'
  · rw [h, h']
  · exact absurd (h ▸ h') hpos
  · rw [← h] at h'
    omega

/-- What a character is lowered to at the front: its small letter, or a letter behind the
capitals. -/
theorem exists_lowerFrom_cons (b : Bool) (c : Char) (s : Text) :
    ∃ d r, lowerFrom b (c :: s) = d :: r ∧ (d = lowerChar c ∨ 97 ≤ d.toNat) := by
  unfold lowerFrom
  dsimp only
  split
  · refine ⟨_, _, rfl, .inr ?_⟩
    split <;> decide
  · split
    · exact ⟨_, _, rfl, .inr (by decide)⟩
    · exact ⟨_, _, rfl, .inl rfl⟩

theorem mem_of_mem_lowerFrom (hpos : c.toNat ≠ 0) (hlt : c.toNat < 97)
    (h : c ∈ lowerFrom b s) : c ∈ s := by
  have hne : ∀ d : Char, 97 ≤ d.toNat → c ≠ d := by
    rintro d hd rfl
    omega
  induction s generalizing b with
  | nil => simp [lowerFrom] at h
  | cons d s ih =>
    unfold lowerFrom at h
    dsimp only at h
    split at h
    · rcases List.mem_cons.1 h with h | h
      · split at h
        · exact absurd h (hne _ (by decide))
        · exact absurd h (hne _ (by decide))
      · exact List.mem_cons_of_mem d (ih h)
    · split at h
      · rcases List.mem_cons.1 h with h | h
        · exact absurd h (hne _ (by decide))
        · rcases List.mem_cons.1 h with h | h
          · exact absurd h (hne _ (by decide))
          · exact List.mem_cons_of_mem d (ih h)
      · rcases List.mem_cons.1 h with h | h
        · exact List.mem_cons.2 (.inl (eq_of_lowerChar hpos hlt h))
        · exact List.mem_cons_of_mem d (ih h)

/-- A text that is lowered to ASCII holds neither of the two capitals that are lowered by what
stands around them, or to two characters. -/
theorem plain_of_lowerFrom (h : ∀ c ∈ lowerFrom b s, c.toNat < 128) : Plain s := by
  induction s generalizing b with
  | nil => simp [Plain]
  | cons d s ih =>
    unfold lowerFrom at h
    dsimp only at h
    split at h
    · have := h _ List.mem_cons_self
      split at this <;> exact absurd this (by decide)
    · next hsigma =>
      split at h
      · exact absurd (h '\u0307' (by simp)) (by decide)
      · next hdot =>
        obtain ⟨hs, hs'⟩ := ih fun c hc => h c (List.mem_cons_of_mem _ hc)
        simp [Plain, Ne.symm hsigma, Ne.symm hdot, hs, hs']

end Letterhead.Text
