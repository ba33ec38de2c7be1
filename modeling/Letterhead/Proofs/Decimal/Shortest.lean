import Letterhead.Proofs.Decimal.Rounding
/-
# Shortest decimals read back

Whatever the search for a short decimal finds lies in the cell of the number, and with 17
digits it always finds one: the grid is so fine then that the point nearest to the number is
strictly inside (`shortest_contains`).
-/
namespace Letterhead.Binary64

variable {c : Cell} {m n : Nat} {e grid : Int}

/-! ## Grids -/

theorem quarter_div (c : Cell) (grid : Int) :
    ((c.quarter grid).1 : ℚ) / (c.quarter grid).2 = 2 ^ c.exponent / 10 ^ grid := by
  have hten := powPos_div 10 grid
  have htwo := powPos_div 2 c.exponent
  push_cast at hten htwo
  rw [← hten, ← htwo]
  simp only [Cell.quarter, Nat.cast_mul]
  have hpos : ∀ (b : Nat) (k : Int), 0 < b → (powPos b k : ℚ) ≠ 0 := fun b k hb => by
    exact_mod_cast (powPos_pos hb k).ne'
  have h1 := hpos 10 grid (by decide)
  have h2 := hpos 10 (-grid) (by decide)
  have h3 := hpos 2 (-c.exponent) (by decide)
  field_simp

theorem quarter_pos (c : Cell) (grid : Int) : 0 < (c.quarter grid).2 :=
  Nat.mul_pos (powPos_pos (by decide) _) (powPos_pos (by decide) _)

/-- A point of a grid that is held lies in the cell. -/
theorem holds_iff : c.holds grid n = true ↔ c.Contains (n * 10 ^ grid) := by
  have hpos : (0 : ℚ) < (c.quarter grid).2 := by exact_mod_cast quarter_pos c grid
  have hten : (0 : ℚ) < 10 ^ grid := by positivity
  have hscale : ∀ x : Nat, (x * (c.quarter grid).1 : ℚ) =
      x * 2 ^ c.exponent / 10 ^ grid * (c.quarter grid).2 := fun x => by
    rw [mul_div_assoc, ← quarter_div, mul_assoc, div_mul_cancel₀ _ hpos.ne']
  have hle : ∀ x : Nat, x * (c.quarter grid).1 ≤ n * (c.quarter grid).2 ↔
      (x * 2 ^ c.exponent : ℚ) ≤ n * 10 ^ grid := fun x => by
    rw [← div_le_iff₀ hten, ← mul_le_mul_iff_left₀ hpos, ← hscale]
    exact_mod_cast Iff.rfl
  have hle' : ∀ x : Nat, n * (c.quarter grid).2 ≤ x * (c.quarter grid).1 ↔
      (n * 10 ^ grid : ℚ) ≤ x * 2 ^ c.exponent := fun x => by
    rw [← le_div_iff₀ hten, ← mul_le_mul_iff_left₀ hpos, ← hscale]
    exact_mod_cast Iff.rfl
  unfold Cell.holds Cell.Contains
  dsimp only
  cases c.endsIncluded with
  | true => simp only [if_true, Bool.and_eq_true, decide_eq_true_iff, hle, hle']
  | false =>
    simp only [Bool.false_eq_true, if_false, Bool.and_eq_true, decide_eq_true_iff, ← not_le, hle,
      hle']

/-- The first point of a grid that is tried is the one nearest to the middle of the cell. -/
theorem exists_onGrid?_eq (c : Cell) (grid : Int) :
    ∃ n', c.onGrid? grid =
      if c.holds grid (roundDiv (c.middle * (c.quarter grid).1) (c.quarter grid).2) then
        some (roundDiv (c.middle * (c.quarter grid).1) (c.quarter grid).2)
      else if c.holds grid n' then some n' else none := by
  have hden := quarter_pos c grid
  unfold Cell.onGrid?
  generalize c.quarter grid = q at *
  obtain ⟨num, den⟩ := q
  dsimp only at *
  have hdiv := Nat.div_add_mod (c.middle * num) den
  have hr := Nat.mod_lt (c.middle * num) hden
  have hround : roundDiv (c.middle * num) den =
      if c.middle * num - c.middle * num / den * den <
          (c.middle * num / den + 1) * den - c.middle * num then c.middle * num / den
      else if (c.middle * num / den + 1) * den - c.middle * num <
          c.middle * num - c.middle * num / den * den then c.middle * num / den + 1
      else if c.middle * num / den % 2 = 0 then c.middle * num / den
      else c.middle * num / den + 1 := by
    unfold roundDiv
    dsimp only
    rw [Nat.mul_comm _ den, Nat.mul_comm _ den, Nat.mul_add_one]
    generalize den * (c.middle * num / den) = whole at *
    split_ifs <;> first | rfl | omega
  rw [← hround]
  exact ⟨_, rfl⟩

theorem holds_of_onGrid? (h : c.onGrid? grid = some n) : c.holds grid n = true := by
  obtain ⟨n', heq⟩ := exists_onGrid?_eq c grid
  rw [heq] at h
  split at h
  · next hn => exact Option.some.inj h ▸ hn
  · split at h
    · next hn => exact Option.some.inj h ▸ hn
    · cases h

theorem onGrid?_isSome
    (h : c.holds grid (roundDiv (c.middle * (c.quarter grid).1) (c.quarter grid).2) = true) :
    (c.onGrid? grid).isSome := by
  obtain ⟨n', heq⟩ := exists_onGrid?_eq c grid
  rw [heq, if_pos h]
  rfl

/-- What a search finds lies in the cell, if there is anything on its last grid. -/
theorem contains_search (place : Int) (n left : Nat)
    (h : (c.onGrid? (place - (n + left : Nat))).isSome) :
    c.Contains ((c.search place n left).digits * 10 ^ (c.search place n left).exponent) := by
  induction left generalizing n with
  | zero =>
    obtain ⟨d, hd⟩ := Option.isSome_iff_exists.1 h
    rw [Nat.add_zero] at hd
    rw [Cell.search, hd]
    exact holds_iff.1 (holds_of_onGrid? hd)
  | succ left ih =>
    rw [Cell.search]
    cases hd : c.onGrid? (place - n) with
    | some d => exact holds_iff.1 (holds_of_onGrid? hd)
    | none =>
      refine ih (n + 1) ?_
      rwa [show n + 1 + left = n + (left + 1) by omega]

/-! ## The place of the first digit -/

/-- The test for a place, as it is meant. -/
theorem reaches_iff (m : Nat) (e p : Int) :
    powPos 10 p * powPos 2 (-e) ≤ m * powPos 2 e * powPos 10 (-p) ↔
      (10 : ℚ) ^ p ≤ m * 2 ^ e := by
  have htwo := powPos_div 2 e
  have hten := powPos_div 10 p
  push_cast at htwo hten
  have h2 : (0 : ℚ) < powPos 2 (-e) := by exact_mod_cast powPos_pos (by decide) _
  have h10 : (0 : ℚ) < powPos 10 (-p) := by exact_mod_cast powPos_pos (by decide) _
  rw [← htwo, ← hten, ← mul_div_assoc, div_le_div_iff₀ h10 h2]
  exact_mod_cast Iff.rfl

/-- The guess at the place, from the number of bits. -/
def placeGuess (bits : Int) : Int := Int.fdiv (bits * 30103) 100000

/-- A power of ten next above a power of two, to a power of either sign. -/
theorem zpow_ten_le {n p : Nat} {b : Int} (hlow : 2 ^ n ≤ 10 ^ p) (hhigh : 10 ^ p ≤ 2 ^ (n + 1))
    (hb : b ≤ n) : ((10 : ℚ) ^ p) ^ b ≤ (2 ^ n) ^ b * 10 ^ n := by
  have hlow' : (2 : ℚ) ^ n ≤ 10 ^ p := by exact_mod_cast hlow
  have hhigh' : (10 : ℚ) ^ p ≤ 2 ^ (n + 1) := by exact_mod_cast hhigh
  obtain ⟨k, rfl | rfl⟩ := b.eq_nat_or_neg
  · have hk : (2 : ℚ) ^ k ≤ 10 ^ n :=
      (pow_le_pow_right₀ (by norm_num) (by omega)).trans
        (pow_le_pow_left₀ (by norm_num) (by norm_num) n)
    rw [zpow_natCast, zpow_natCast]
    calc ((10 : ℚ) ^ p) ^ k ≤ (2 ^ (n + 1)) ^ k := pow_le_pow_left₀ (by positivity) hhigh' k
      _ = (2 ^ n) ^ k * 2 ^ k := by rw [pow_succ, mul_pow]
      _ ≤ (2 ^ n) ^ k * 10 ^ n := mul_le_mul_of_nonneg_left hk (by positivity)
  · rw [zpow_neg, zpow_neg, zpow_natCast, zpow_natCast]
    calc (((10 : ℚ) ^ p) ^ k)⁻¹ ≤ ((2 ^ n) ^ k)⁻¹ :=
          inv_anti₀ (by positivity) (pow_le_pow_left₀ (by positivity) hlow' k)
      _ ≤ ((2 ^ n) ^ k)⁻¹ * 10 ^ n :=
          le_mul_of_one_le_right (by positivity) (one_le_pow₀ (by norm_num))

/-- Where a fraction is close above the logarithm of two, a guess by it is too great by one at
most. -/
theorem zpow_guess_le {n p : Nat} {g b : Int} (hn : n ≠ 0) (hlow : 2 ^ n ≤ 10 ^ p)
    (hhigh : 10 ^ p ≤ 2 ^ (n + 1)) (hg : n * g ≤ p * b) (hb : b ≤ n) :
    (10 : ℚ) ^ (g - 1) ≤ 2 ^ b := by
  refine le_of_pow_le_pow_left₀ hn (by positivity) ?_
  calc ((10 : ℚ) ^ (g - 1)) ^ n = 10 ^ (n * g - n) := by
        rw [← zpow_natCast, ← zpow_mul, sub_mul, one_mul, mul_comm]
    _ ≤ 10 ^ (p * b - n) := zpow_le_zpow_right₀ (by norm_num) (Int.sub_le_sub_right hg _)
    _ = (10 ^ p) ^ b / 10 ^ n := by
        rw [zpow_sub₀ (by norm_num), zpow_mul, zpow_natCast, zpow_natCast]
    _ ≤ (2 ^ n) ^ b := (div_le_iff₀ (by positivity)).2 (zpow_ten_le hlow hhigh hb)
    _ = (2 ^ b) ^ n := by rw [← zpow_natCast, ← zpow_natCast, ← zpow_mul, ← zpow_mul, mul_comm]

/-- The guess is too great by one at most, for far more bits than the format has. -/
theorem placeGuess_le {b : Int} (hb : b ≤ 100000) : (10 : ℚ) ^ (placeGuess b - 1) ≤ 2 ^ b := by
  have hg : 100000 * placeGuess b ≤ 30103 * b := by
    rw [placeGuess, Int.fdiv_eq_ediv_of_nonneg _ (by decide)]
    omega
  exact zpow_guess_le (n := 100000) (p := 30103) (by decide) (by decide +kernel)
    (by decide +kernel) (by exact_mod_cast hg) (by exact_mod_cast hb)

theorem le_place (hc : IsCanonical m e) (hm : 0 < m) :
    (10 : ℚ) ^ (place m e - 1) ≤ m * 2 ^ e := by
  unfold place
  dsimp only
  split
  · next h => exact (reaches_iff m e _).1 (by simpa [add_sub_assoc] using h)
  · split
    · next h => exact (reaches_iff m e _).1 (by simpa using h)
    · have hlog : m.log2 < 53 := by
        rw [Nat.log2_lt hm.ne']
        exact hc.mantissa
      have hgreatest : e ≤ 971 := hc.greatest
      have hguess := placeGuess_le (show (m.log2 : Int) + e ≤ 100000 by omega)
      refine hguess.trans ?_
      rw [zpow_add₀ (by norm_num)]
      exact mul_le_mul_of_nonneg_right (log2_bounds hm).1 (by positivity)

/-! ## Seventeen digits -/

/-- A real number that is closer to a number than the middles to its neighbours lies in its
cell. -/
theorem contains_of_near {v : ℚ} (hm : 0 < m)
    (hlow : (m - if m = leastFull then 1 / 4 else 1 / 2 : ℚ) < v / 2 ^ e)
    (hhigh : v / 2 ^ e < m + 1 / 2) : (cell m e).Contains v := by
  have hcell : ((cell m e).low / 4 : ℚ) ≤ m - if m = leastFull then 1 / 4 else 1 / 2 := by
    have hle : (cell m e).low + (if m = leastFull then 1 else 2) ≤ 4 * m := by
      simp only [cell, Bool.and_eq_true, decide_eq_true_eq]
      split_ifs <;> omega
    split_ifs at hle ⊢
    · have : ((cell m e).low + 1 : ℚ) ≤ 4 * m := by exact_mod_cast hle
      linarith
    · have : ((cell m e).low + 2 : ℚ) ≤ 4 * m := by exact_mod_cast hle
      linarith
  rw [contains_iff]
  split
  · exact ⟨by linarith, hhigh.le⟩
  · exact ⟨by linarith, hhigh⟩

/-- With 17 digits the grid is so fine that the nearest point lies in the cell. -/
theorem onGrid?_seventeen (hc : IsCanonical m e) (hm : 0 < m) :
    ((cell m e).onGrid? (place m e - 17)).isSome := by
  refine onGrid?_isSome (holds_iff.2 ?_)
  obtain ⟨hlow, hhigh⟩ := roundDiv_near ((cell m e).middle *
    ((cell m e).quarter (place m e - 17)).1) (quarter_pos (cell m e) (place m e - 17))
  have hunit : (0 : ℚ) < 2 ^ e := by positivity
  have hstep : (0 : ℚ) < 10 ^ (place m e - 17) := by positivity
  have hmiddle : ((cell m e).middle : ℚ) * (2 ^ (cell m e).exponent / 10 ^ (place m e - 17)) =
      m * 2 ^ e / 10 ^ (place m e - 17) := by
    simp only [cell]
    rw [zpow_sub₀ (by norm_num)]
    push_cast
    ring
  -- a step is at most a part in `10 ^ 16` of the number
  have hfine : (10 ^ 16 * 10 ^ (place m e - 17) : ℚ) ≤ m * 2 ^ e := by
    refine le_trans (le_of_eq ?_) (le_place hc hm)
    rw [← zpow_natCast, ← zpow_add₀ (by norm_num)]
    congr 1
    omega
  rw [Nat.cast_mul, mul_div_assoc, quarter_div, hmiddle] at hlow hhigh
  rw [le_div_iff₀ hstep] at hlow
  rw [div_le_iff₀ hstep] at hhigh
  generalize roundDiv _ _ = n at *
  have hmantissa : (m + 1 : ℚ) ≤ 2 * leastFull := by exact_mod_cast hc.mantissa
  norm_num [leastFull] at hmantissa
  refine contains_of_near hm ?_ ?_
  · rw [lt_div_iff₀ hunit]
    split
    · next hpower =>
      norm_num [hpower, leastFull] at hfine hhigh ⊢
      linarith
    · nlinarith
  · rw [div_lt_iff₀ hunit]
    nlinarith

/-- The shortest decimal of a number lies in its cell. -/
theorem shortest_contains (hc : IsCanonical m e) (hm : 0 < m) :
    (cell m e).Contains ((shortest m e).digits * 10 ^ (shortest m e).exponent) :=
  contains_search (place m e) 1 16 (onGrid?_seventeen hc hm)

end Letterhead.Binary64
