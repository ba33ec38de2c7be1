import Letterhead.Decimal.Shortest
import Mathlib.Algebra.Order.Field.Power
import Mathlib.Tactic.FieldSimp
import Mathlib.Tactic.Linarith
import Mathlib.Tactic.NormNum
import Mathlib.Tactic.Positivity
import Mathlib.Tactic.Ring
/-
# What a decimal reads as

Every quotient reads as a number of the format (`isCanonical_ofQuotient`), and a quotient in
the cell of such a number reads as that number (`ofQuotient_of_contains`). The argument is about
the exponent at which the quotient has all its digits, which may be one below that of the
number where the number is a power of two.
-/
namespace Letterhead.Binary64

/-- A mantissa and an exponent that the format has: all digits are used but at the least
exponent. -/
structure IsCanonical (m : Nat) (e : Int) : Prop where
  mantissa : m < 2 * leastFull
  least : leastExponent ≤ e
  greatest : e ≤ greatestExponent
  full : leastFull ≤ m ∨ e = leastExponent

/-- A number of the format. -/
def Canonical : Binary64 → Prop
  | finite _ m e => IsCanonical m e
  | infinite _ => True
  | nan => True

/-- The real number lies in the cell. -/
def Cell.Contains (c : Cell) (v : ℚ) : Prop :=
  if c.endsIncluded then c.low * 2 ^ c.exponent ≤ v ∧ v ≤ c.high * 2 ^ c.exponent
  else c.low * 2 ^ c.exponent < v ∧ v < c.high * 2 ^ c.exponent

variable {num den m : Nat} {e : Int} {v : ℚ} {negative : Bool}

/-! ## Powers -/

theorem powPos_pos {base : Nat} (hb : 0 < base) (e : Int) : 0 < powPos base e :=
  Nat.pow_pos hb

/-- The two powers of a number, one of which is one, make its power as a quotient. -/
theorem powPos_div (base : Nat) (e : Int) :
    (powPos base e : ℚ) / powPos base (-e) = (base : ℚ) ^ e := by
  unfold powPos
  rcases Int.le_total 0 e with he | he
  · obtain ⟨n, rfl⟩ := Int.eq_ofNat_of_zero_le he
    have hneg : (-(n : Int)).toNat = 0 := by omega
    simp [hneg]
  · obtain ⟨n, hn⟩ := Int.eq_ofNat_of_zero_le (Int.neg_nonneg_of_nonpos he)
    obtain rfl : e = -(n : Int) := by omega
    have hneg : (-(n : Int)).toNat = 0 := by omega
    simp [hneg]

/-- A quotient in units of a power of two. -/
theorem scaled_div (num den : Nat) (e : Int) :
    ((num * powPos 2 (-e) : Nat) : ℚ) / (den * powPos 2 e : Nat) = num / den / 2 ^ e := by
  rw [← Nat.cast_two (R := ℚ), ← powPos_div 2 e]
  push_cast
  rw [div_div_eq_mul_div, div_mul_eq_mul_div, div_div]

theorem scaled_pos (hden : 0 < den) (e : Int) : 0 < den * powPos 2 e :=
  Nat.mul_pos hden (powPos_pos (by decide) e)

/-! ## Rounding -/

theorem roundDiv_eq (hden : 0 < den) (hlow : 2 * m * den ≤ 2 * num + den)
    (hhigh : 2 * num ≤ 2 * m * den + den)
    (htie : m % 2 = 0 ∨ 2 * m * den < 2 * num + den ∧ 2 * num < 2 * m * den + den) :
    roundDiv num den = m := by
  have hnum : den * (num / den) + num % den = num := Nat.div_add_mod num den
  have hr : num % den < den := Nat.mod_lt num hden
  unfold roundDiv
  generalize num / den = q at *
  generalize num % den = r at *
  have hle : m ≤ q + 1 := by
    by_contra h
    have : (q + 2) * den ≤ m * den := Nat.mul_le_mul_right den (by omega)
    nlinarith
  have hge : q ≤ m := by
    by_contra h
    have : (m + 1) * den ≤ q * den := Nat.mul_le_mul_right den (by omega)
    nlinarith
  rcases Nat.lt_or_ge m (q + 1) with h | h
  · obtain rfl : m = q := by omega
    have : 2 * r ≤ den := by nlinarith
    rcases Nat.lt_or_eq_of_le this with hlt | heq
    · simp [hlt]
    · have heven : m % 2 = 0 := htie.resolve_right fun ht => by nlinarith [ht.2]
      simp [heq, heven]
  · obtain rfl : m = q + 1 := by omega
    have : den ≤ 2 * r := by nlinarith
    rcases Nat.lt_or_eq_of_le this with hlt | heq
    · simp [hlt, Nat.not_lt_of_gt hlt]
    · have heven : (q + 1) % 2 = 0 := htie.resolve_right fun ht => by nlinarith [ht.1]
      have : ¬ q % 2 = 0 := by omega
      simp [← heq, this]

/-- The rounding of a quotient that is no farther from an integer than a half. -/
theorem roundDiv_of_near (hden : 0 < den) (hlow : (m - 1 / 2 : ℚ) ≤ num / den)
    (hhigh : (num / den : ℚ) ≤ m + 1 / 2)
    (htie : m % 2 = 0 ∨ (m - 1 / 2 : ℚ) < num / den ∧ (num / den : ℚ) < m + 1 / 2) :
    roundDiv num den = m := by
  have hpos : (0 : ℚ) < den := by exact_mod_cast hden
  simp only [le_div_iff₀ hpos, div_le_iff₀ hpos, lt_div_iff₀ hpos, div_lt_iff₀ hpos] at *
  refine roundDiv_eq hden ?_ ?_ (htie.imp_right fun ⟨hl, hh⟩ => ⟨?_, ?_⟩)
  · have : (2 * m * den : ℚ) ≤ 2 * num + den := by linarith
    exact_mod_cast this
  · have : (2 * num : ℚ) ≤ 2 * m * den + den := by linarith
    exact_mod_cast this
  · have : (2 * m * den : ℚ) < 2 * num + den := by linarith
    exact_mod_cast this
  · have : (2 * num : ℚ) < 2 * m * den + den := by linarith
    exact_mod_cast this

/-- A quotient is no farther than a half from what it is rounded to. -/
theorem roundDiv_near (num : Nat) (hden : 0 < den) :
    (roundDiv num den - 1 / 2 : ℚ) ≤ num / den ∧ (num / den : ℚ) ≤ roundDiv num den + 1 / 2 := by
  have hpos : (0 : ℚ) < den := by exact_mod_cast hden
  have hnum : (den * (num / den : Nat) + (num % den : Nat) : ℚ) = num := by
    exact_mod_cast Nat.div_add_mod num den
  have hr : ((num % den : Nat) : ℚ) < den := by exact_mod_cast Nat.mod_lt num hden
  rw [le_div_iff₀ hpos, div_le_iff₀ hpos]
  unfold roundDiv
  dsimp only
  split
  · next h =>
    have hlt : (2 * (num % den : Nat) : ℚ) < den := by exact_mod_cast h
    constructor <;> nlinarith
  · next h =>
    have hge : (den : ℚ) ≤ 2 * (num % den : Nat) := by exact_mod_cast not_lt.1 h
    split
    · constructor <;> push_cast <;> nlinarith
    · next h' =>
      have hle : (2 * (num % den : Nat) : ℚ) ≤ den := by exact_mod_cast not_lt.1 h'
      split <;> constructor <;> push_cast <;> nlinarith

theorem le_roundDiv (hden : 0 < den) (h : (m : ℚ) ≤ num / den) : m ≤ roundDiv num den := by
  have hq : m ≤ num / den := by
    rw [Nat.le_div_iff_mul_le hden]
    rw [le_div_iff₀ (by exact_mod_cast hden)] at h
    exact_mod_cast h
  unfold roundDiv
  dsimp only
  split_ifs <;> omega

theorem roundDiv_le (hden : 0 < den) (h : (num / den : ℚ) < m) : roundDiv num den ≤ m := by
  have hq : num / den < m := by
    rw [Nat.div_lt_iff_lt_mul hden]
    rw [div_lt_iff₀ (by exact_mod_cast hden)] at h
    exact_mod_cast h
  unfold roundDiv
  dsimp only
  split_ifs <;> omega

/-! ## Quotients -/

/-- A mantissa and an exponent as a number, if the mantissa may have come to `2 ^ 53`. -/
def ofRounded (negative : Bool) (m : Nat) (e : Int) : Binary64 :=
  let (m, e) := if m = 2 * leastFull then (leastFull, e + 1) else (m, e)
  if greatestExponent < e then .infinite negative else .finite negative m e

theorem leastFull_eq : (leastFull : ℚ) = 2 ^ (52 : Int) := by
  norm_num [leastFull]

theorem two_zpow_add_one (e : Int) : (2 : ℚ) ^ (e + 1) = 2 * 2 ^ e := by
  rw [zpow_add_one₀ (by norm_num), mul_comm]

/-- The test for the exponent, as it is meant. -/
theorem full_iff (hden : 0 < den) (e : Int) :
    leastFull * den * powPos 2 e ≤ num * powPos 2 (-e) ↔
      leastFull * 2 ^ e ≤ (num / den : ℚ) := by
  rw [← le_div_iff₀ (by positivity), ← scaled_div,
    le_div_iff₀ (by exact_mod_cast scaled_pos hden e),
    mul_assoc]
  exact_mod_cast Iff.rfl

theorem log2_bounds (h : 0 < m) :
    (2 : ℚ) ^ (m.log2 : Int) ≤ m ∧ (m : ℚ) < 2 ^ ((m.log2 : Int) + 1) := by
  constructor
  · exact_mod_cast Nat.log2_self_le h.ne'
  · exact_mod_cast Nat.lt_log2_self

/-- The quotient of two numbers, by their lengths. -/
theorem div_bounds (hnum : 0 < num) (hden : 0 < den) :
    (2 : ℚ) ^ ((num.log2 : Int) - den.log2 - 1) < num / den ∧
      (num / den : ℚ) < 2 ^ ((num.log2 : Int) - den.log2 + 1) := by
  have hn := log2_bounds hnum
  have hd := log2_bounds hden
  have hpos : (0 : ℚ) < den := by exact_mod_cast hden
  rw [lt_div_iff₀ hpos, div_lt_iff₀ hpos]
  constructor
  · calc (2 : ℚ) ^ ((num.log2 : Int) - den.log2 - 1) * den
        < 2 ^ ((num.log2 : Int) - den.log2 - 1) * 2 ^ ((den.log2 : Int) + 1) := by
          exact (mul_lt_mul_iff_right₀ (by positivity)).2 hd.2
      _ = 2 ^ (num.log2 : Int) := by
          rw [← zpow_add₀ (by norm_num)]
          congr 1
          omega
      _ ≤ num := hn.1
  · calc (num : ℚ) < 2 ^ ((num.log2 : Int) + 1) := hn.2
      _ = 2 ^ ((num.log2 : Int) - den.log2 + 1) * 2 ^ (den.log2 : Int) := by
          rw [← zpow_add₀ (by norm_num)]
          congr 1
          omega
      _ ≤ 2 ^ ((num.log2 : Int) - den.log2 + 1) * den := by
          exact (mul_le_mul_iff_right₀ (by positivity)).2 hd.1

/-- A quotient is rounded at the exponent at which it has all its digits, or at the least one if
that is greater. -/
theorem ofQuotient_eq (negative : Bool) (hnum : 0 < num) (hden : 0 < den) :
    ∃ f : Int, leastFull * 2 ^ f ≤ (num / den : ℚ) ∧ (num / den : ℚ) < 2 * leastFull * 2 ^ f ∧
      ofQuotient negative num den = ofRounded negative
        (roundDiv (num * powPos 2 (-max f leastExponent)) (den * powPos 2 (max f leastExponent)))
        (max f leastExponent) := by
  obtain ⟨hlow, hhigh⟩ := div_bounds hnum hden
  have hfirst : ∀ k : Int, (2 : ℚ) ^ k = leastFull * 2 ^ (k - 52) := fun k => by
    rw [leastFull_eq, ← zpow_add₀ (by norm_num)]
    congr 1
    omega
  have hmax : ∀ f : Int, (if f < leastExponent then leastExponent else f) = max f leastExponent :=
    fun f => by
      rw [max_def]
      split_ifs <;> omega
  let e : Int := (num.log2 : Int) - den.log2 - 52
  by_cases hfull : leastFull * den * powPos 2 e ≤ num * powPos 2 (-e)
  · refine ⟨e, (full_iff hden e).1 hfull, ?_, ?_⟩
    · rw [hfirst, show (num.log2 : Int) - den.log2 + 1 - 52 = e + 1 by omega,
        two_zpow_add_one] at hhigh
      linarith
    · rw [← hmax]
      simp only [ofQuotient, hfull, e, decide_true, if_true]
      rfl
  · refine ⟨e - 1, ?_, ?_, ?_⟩
    · rw [hfirst, show (num.log2 : Int) - den.log2 - 1 - 52 = e - 1 by omega] at hlow
      exact hlow.le
    · rw [full_iff hden, not_le, show e = e - 1 + 1 by omega, two_zpow_add_one] at hfull
      linarith
    · rw [← hmax]
      simp only [ofQuotient, hfull, e, decide_false]
      rfl

theorem canonical_ofRounded (hm : m ≤ 2 * leastFull) (he : leastExponent ≤ e)
    (hfull : leastFull ≤ m ∨ e = leastExponent) : Canonical (ofRounded negative m e) := by
  unfold ofRounded
  by_cases htop : m = 2 * leastFull
  · simp only [htop, if_true]
    split
    · trivial
    · exact ⟨by decide, by omega, by omega, .inl le_rfl⟩
  · simp only [htop, if_false]
    split
    · trivial
    · exact ⟨by omega, he, by omega, hfull⟩

/-- A quotient reads as a number of the format. -/
theorem canonical_ofQuotient (hnum : 0 < num) (hden : 0 < den) :
    Canonical (ofQuotient negative num den) := by
  obtain ⟨f, hlow, hhigh, heq⟩ := ofQuotient_eq negative hnum hden
  rw [heq]
  have hscale := scaled_pos hden (max f leastExponent)
  refine canonical_ofRounded (roundDiv_le hscale ?_) (le_max_right _ _) ?_
  · have hpow : (2 : ℚ) ^ f ≤ 2 ^ max f leastExponent :=
      zpow_le_zpow_right₀ (by norm_num) (le_max_left _ _)
    rw [scaled_div, div_lt_iff₀ (by positivity)]
    push_cast
    nlinarith [(by norm_num [leastFull] : (0 : ℚ) < leastFull)]
  · rcases le_total leastExponent f with h | h
    · refine .inl (le_roundDiv hscale ?_)
      rw [max_eq_left h, scaled_div, le_div_iff₀ (by positivity)]
      exact hlow
    · exact .inr (max_eq_right h)

/-! ## Cells -/

/-- The cell of a number, in units of the number. -/
theorem contains_iff (m : Nat) (e : Int) (v : ℚ) :
    (cell m e).Contains v ↔
      if m % 2 = 0 then ((cell m e).low / 4 : ℚ) ≤ v / 2 ^ e ∧ v / 2 ^ e ≤ m + 1 / 2
      else ((cell m e).low / 4 : ℚ) < v / 2 ^ e ∧ v / 2 ^ e < m + 1 / 2 := by
  have hquarter : ∀ x : ℚ, x * 2 ^ (e - 2) = x / 4 * 2 ^ e := fun x => by
    rw [zpow_sub₀ (by norm_num)]
    ring
  have hhigh : ((cell m e).high : ℚ) / 4 = m + 1 / 2 := by
    simp only [cell, Nat.cast_add, Nat.cast_mul, Nat.cast_ofNat]
    ring
  have hpos : (0 : ℚ) < 2 ^ e := by positivity
  rw [← hhigh, le_div_iff₀ hpos, lt_div_iff₀ hpos, div_le_iff₀ hpos, div_lt_iff₀ hpos,
    ← hquarter, ← hquarter]
  simp only [Cell.Contains, cell, decide_eq_true_iff]

theorem le_low (hm : 0 < m) (e : Int) : (4 * m - 2 : ℚ) ≤ (cell m e).low := by
  have h : 4 * m ≤ (cell m e).low + 2 := by
    unfold cell
    dsimp only
    split <;> omega
  have : (4 * m : ℚ) ≤ (cell m e).low + 2 := by exact_mod_cast h
  linarith

/-- What lies in the cell of a number is half a unit from it at most, and less if its mantissa
is odd. -/
theorem near_of_contains (h : (cell m e).Contains v) (hm : 0 < m) :
    (m - 1 / 2 : ℚ) ≤ v / 2 ^ e ∧ v / 2 ^ e ≤ m + 1 / 2 ∧
      (m % 2 = 0 ∨ (m - 1 / 2 : ℚ) < v / 2 ^ e ∧ v / 2 ^ e < m + 1 / 2) := by
  have hlow := le_low hm e
  rw [contains_iff] at h
  split at h
  · next heven => exact ⟨by linarith, h.2, .inl heven⟩
  · exact ⟨by linarith, h.2.le, .inr ⟨by linarith, h.2⟩⟩

/-- What lies in the cell of a power of two is a quarter of a unit below it at most. -/
theorem dense_of_contains (h : (cell leastFull e).Contains v) (he : leastExponent < e) :
    (leastFull - 1 / 4 : ℚ) ≤ v / 2 ^ e := by
  have hlow : (cell leastFull e).low = 4 * leastFull - 1 := by
    simp [cell, he]
  rw [contains_iff, if_pos (by decide), hlow, Nat.cast_sub (by decide)] at h
  push_cast at h
  linarith

/-- The exponent at which a quotient in the cell of a number has all its digits: that of the
number, or the one before if the number is a power of two and the quotient less. -/
theorem exponent_of_contains {f : Int} (hc : IsCanonical m e) (hm : 0 < m)
    (h : (cell m e).Contains v) (hlow : leastFull * 2 ^ f ≤ v)
    (hhigh : v < 2 * leastFull * 2 ^ f) :
    max f leastExponent = e ∨
      m = leastFull ∧ leastExponent < e ∧ f = e - 1 ∧ v < leastFull * 2 ^ e := by
  have hpos : (0 : ℚ) < 2 ^ e := by positivity
  have hfull : (0 : ℚ) < leastFull := by norm_num [leastFull]
  obtain ⟨hnear, hnear', -⟩ := near_of_contains h hm
  rw [div_le_iff₀ hpos] at hnear'
  rw [le_div_iff₀ hpos] at hnear
  -- a comparison of powers is one of exponents
  have hlt : ∀ {a b : Int}, (leastFull * 2 ^ a : ℚ) < leastFull * 2 ^ b → a < b := fun h =>
    (zpow_lt_zpow_iff_right₀ (by norm_num)).1 ((mul_lt_mul_iff_right₀ hfull).1 h)
  have hstep : ∀ a : Int, (leastFull * 2 ^ (a + 1) : ℚ) = 2 * leastFull * 2 ^ a := fun a => by
    rw [two_zpow_add_one]
    ring
  have hbelow : (m + 1 : ℚ) ≤ 2 * leastFull := by
    exact_mod_cast hc.mantissa
  rcases le_or_gt (leastFull * 2 ^ e : ℚ) v with hv | hv
  · have hle : e < f + 1 := hlt (by rw [hstep]; linarith)
    have hge : f < e + 1 := hlt (by rw [hstep]; nlinarith)
    obtain rfl : f = e := by omega
    exact .inl (max_eq_left hc.least)
  · have hless : f < e := hlt (by linarith)
    rcases eq_or_lt_of_le hc.least with heq | hgreater
    · exact .inl (heq ▸ max_eq_right (heq ▸ hless.le))
    · -- the mantissa is at least `2 ^ 52`, and not more, since the quotient is below
      have hge : leastFull ≤ m := hc.full.resolve_right hgreater.ne'
      have hle : m < leastFull + 1 := by
        have : (m : ℚ) < leastFull + 1 := by nlinarith
        exact_mod_cast this
      obtain rfl : m = leastFull := by omega
      have hdense := dense_of_contains h hgreater
      rw [le_div_iff₀ hpos] at hdense
      have hmore : e - 1 < f + 1 := hlt (by
        have := hstep (e - 1)
        rw [sub_add_cancel] at this
        rw [hstep]
        norm_num [leastFull] at *
        nlinarith)
      exact .inr ⟨rfl, hgreater, by omega, hv⟩

/-- What lies in the cell of a number reads as that number. -/
theorem ofQuotient_of_contains (hc : IsCanonical m e) (hm : 0 < m) (hnum : 0 < num)
    (hden : 0 < den) (h : (cell m e).Contains (num / den)) :
    ofQuotient negative num den = .finite negative m e := by
  obtain ⟨f, hlow, hhigh, heq⟩ := ofQuotient_eq negative hnum hden
  rw [heq]
  rcases exponent_of_contains hc hm h hlow hhigh with he | ⟨rfl, hleast, rfl, hv⟩
  · obtain ⟨hnear, hnear', htie⟩ := near_of_contains h hm
    have hround : roundDiv (num * powPos 2 (-e)) (den * powPos 2 e) = m := by
      refine roundDiv_of_near (scaled_pos hden e) ?_ ?_ ?_ <;> rwa [scaled_div]
    rw [he, hround, ofRounded]
    simp [hc.mantissa.ne, hc.greatest]
  · -- the quotient rounds up to the power of two, at the exponent before
    have hdense := dense_of_contains h hleast
    have hdouble : (num / den : ℚ) / 2 ^ (e - 1) = 2 * (num / den / 2 ^ e) := by
      rw [zpow_sub_one₀ (by norm_num)]
      field_simp
    have hbelow : (num / den / 2 ^ e : ℚ) < leastFull := by
      rwa [div_lt_iff₀ (by positivity)]
    have hround : roundDiv (num * powPos 2 (-(e - 1))) (den * powPos 2 (e - 1)) =
        2 * leastFull := by
      refine roundDiv_of_near (scaled_pos hden (e - 1)) ?_ ?_ (.inl (by decide)) <;>
        rw [scaled_div, hdouble] <;> push_cast <;> linarith
    rw [max_eq_left (by omega), hround, ofRounded]
    simp [hc.greatest]

/-! ## Decimals -/

/-- A number lies between powers of ten that its length names. -/
theorem toDigits_bounds {n : Nat} (hn : 0 < n) :
    (10 : ℚ) ^ (((Nat.toDigits 10 n).length : Int) - 1) ≤ n ∧
      (n : ℚ) < 10 ^ ((Nat.toDigits 10 n).length : Int) := by
  obtain ⟨l, hl⟩ : ∃ l, (Nat.toDigits 10 n).length = l + 1 :=
    ⟨_, (Nat.succ_pred_eq_of_pos Nat.length_toDigits_pos).symm⟩
  constructor
  · have hge : 10 ^ l ≤ n := by
      rcases Nat.eq_zero_or_pos l with rfl | hpos
      · exact hn
      · by_contra h
        have := (Nat.length_toDigits_le_iff (by decide) hpos).2 (not_le.1 h)
        omega
    rw [hl, Nat.cast_add_one, add_sub_cancel_right]
    exact_mod_cast hge
  · have hlt := (Nat.length_toDigits_le_iff (b := 10) (by decide) (Nat.succ_pos l)).1 hl.le
    rw [hl]
    exact_mod_cast hlt

/-- A decimal as the quotient that is rounded. -/
theorem decimal_div (digits : Nat) (k : Int) :
    ((digits * powPos 10 k : Nat) : ℚ) / powPos 10 (-k) = digits * 10 ^ k := by
  rw [Nat.cast_mul, mul_div_assoc, powPos_div]
  norm_num

theorem canonical_zero : IsCanonical 0 leastExponent :=
  ⟨by decide, le_rfl, by decide, .inr rfl⟩

/-- A decimal reads as a number of the format. -/
theorem canonical_ofDecimal (negative : Bool) (digits : Nat) (k : Int) :
    Canonical (ofDecimal negative digits k) := by
  unfold ofDecimal
  dsimp only
  split
  · exact canonical_zero
  · next h =>
    split
    · trivial
    · have hdigits : 0 < digits := Nat.pos_of_ne_zero fun h0 => h (by simp [h0])
      exact canonical_ofQuotient (Nat.mul_pos hdigits (powPos_pos (by decide) k))
        (powPos_pos (by decide) _)

/-- What lies in the cell of a number is neither too small nor too great for the format. -/
theorem bounds_of_contains (hc : IsCanonical m e) (hm : 0 < m) (h : (cell m e).Contains v) :
    (10 : ℚ) ^ (-324 : Int) ≤ v ∧ v < 10 ^ (309 : Int) := by
  have hpos : (0 : ℚ) < 2 ^ e := by positivity
  obtain ⟨hnear, hnear', -⟩ := near_of_contains h hm
  rw [div_le_iff₀ hpos] at hnear'
  rw [le_div_iff₀ hpos] at hnear
  have hone : (1 : ℚ) ≤ m := by exact_mod_cast hm
  have hbelow : (m + 1 : ℚ) ≤ 2 * leastFull := by exact_mod_cast hc.mantissa
  constructor
  · have hpow : (2 : ℚ) ^ leastExponent ≤ 2 ^ e :=
      zpow_le_zpow_right₀ (by norm_num) hc.least
    have hleast : (2 : ℚ) * 10 ^ (-324 : Int) ≤ 2 ^ leastExponent := by
      have : (2 * 2 ^ 1074 : ℚ) ≤ 10 ^ 324 := by
        exact_mod_cast (by decide +kernel : 2 * 2 ^ 1074 ≤ 10 ^ 324)
      rw [leastExponent, zpow_neg, zpow_neg, ← div_eq_mul_inv, div_le_iff₀ (by positivity),
        ← div_eq_inv_mul, le_div_iff₀ (by positivity)]
      exact_mod_cast this
    nlinarith
  · have hpow : (2 : ℚ) ^ e ≤ 2 ^ greatestExponent :=
      zpow_le_zpow_right₀ (by norm_num) hc.greatest
    have hgreatest : (2 * leastFull * 2 ^ greatestExponent : ℚ) < 10 ^ (309 : Int) := by
      have : (2 * leastFull * 2 ^ 971 : ℚ) < 10 ^ 309 := by
        exact_mod_cast (by decide +kernel : 2 * leastFull * 2 ^ 971 < 10 ^ 309)
      rwa [show greatestExponent = ((971 : Nat) : Int) from rfl,
        show (309 : Int) = ((309 : Nat) : Int) from rfl, zpow_natCast, zpow_natCast]
    have hfull : (0 : ℚ) < leastFull := by norm_num [leastFull]
    nlinarith

/-- A decimal in the cell of a number reads as that number. -/
theorem ofDecimal_of_contains {digits : Nat} {k : Int} (hc : IsCanonical m e) (hm : 0 < m)
    (h : (cell m e).Contains (digits * 10 ^ k)) :
    ofDecimal negative digits k = .finite negative m e := by
  obtain ⟨hsmall, hgreat⟩ := bounds_of_contains hc hm h
  have hdigits : 0 < digits := Nat.pos_of_ne_zero fun h0 => by
    have : (0 : ℚ) < 10 ^ (-324 : Int) := by positivity
    rw [h0, Nat.cast_zero, zero_mul] at hsmall
    linarith
  obtain ⟨hlow, hhigh⟩ := toDigits_bounds hdigits
  have hten : (0 : ℚ) < 10 ^ k := by positivity
  have hlt : ∀ {a b : Int}, (10 : ℚ) ^ a < 10 ^ b → a < b :=
    (zpow_lt_zpow_iff_right₀ (by norm_num)).1
  have hplaces : -324 < ((Nat.toDigits 10 digits).length : Int) + k := hlt <| by
    rw [zpow_add₀ (by norm_num)]
    nlinarith
  have hplaces' : ((Nat.toDigits 10 digits).length : Int) - 1 + k < 309 := hlt <| by
    rw [zpow_add₀ (by norm_num)]
    nlinarith
  have hfirst : (digits = 0 || ((Nat.toDigits 10 digits).length : Int) + k < -330) = false := by
    simp only [Bool.or_eq_false_iff, decide_eq_false_iff_not]
    omega
  rw [ofDecimal]
  simp only [hfirst]
  rw [if_neg (by simp), if_neg (by omega)]
  refine ofQuotient_of_contains hc hm (Nat.mul_pos hdigits (powPos_pos (by decide) k))
    (powPos_pos (by decide) _) ?_
  rwa [decimal_div]

end Letterhead.Binary64
