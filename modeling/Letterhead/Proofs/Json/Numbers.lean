import Letterhead.Json.Reader
import Letterhead.Json.Writer
import Letterhead.Proofs.Decimal.Shortest
import Mathlib.Data.List.TakeWhile
/-
# Numbers that were written are read back

A number is written as a whole part, a fraction and an exponent, of which one or the other may
be missing, and is read so far and no further (`magnitude?_whole`). An integer has its digits
for its value; a decimal is one of four layouts of the same digits (`exists_layout`), and what
it reads as is a matter of its value alone.
-/
namespace Letterhead.Json

open Text (toPoints Point)

/-- What may stand behind a value: nothing, a comma or the end of the line. -/
def Delimited (rest : Points) : Prop := ∀ p ∈ rest.head?, p = .char ',' ∨ p = .char '\n'

/-- The text holds digits only. -/
def AllDigits (s : Text) : Prop := ∀ c ∈ s, c.isDigit = true

/-- A whole part: digits that are not led by a zero, or a zero. -/
structure IsWhole (w : Text) : Prop where
  digits : AllDigits w
  ne_nil : w ≠ []
  led : w.head? = some '0' → w = ['0']

variable {w f ds : Text} {rest : Points} {c : Char}

/-! ## Digits -/

theorem digit?_char (h : c.isDigit = true) : digit? (.char c) = some (c.toNat - '0'.toNat) := by
  have : ('0' ≤ c && c ≤ '9') = true := by
    simpa [Char.isDigit, Char.le_def] using h
  rw [digit?, Point.char?, Option.bind_some, Text.digit?, if_pos this]

theorem isDigit_char (c : Char) : isDigit (.char c) = c.isDigit := by
  have : (digit? (.char c)).isSome = ('0' ≤ c && c ≤ '9') := by
    rw [digit?, Point.char?, Option.bind_some, Text.digit?]
    split <;> simp_all
  rw [isDigit, this]
  simp [Char.isDigit, Char.le_def]

theorem natOf_toPoints (h : AllDigits ds) : natOf (toPoints ds) = Nat.ofDigitChars 10 ds 0 := by
  have hvalues : (toPoints ds).filterMap digit? = ds.map fun c => c.toNat - '0'.toNat := by
    induction ds with
    | nil => rfl
    | cons c ds ih =>
      obtain ⟨hc, hds⟩ := List.forall_mem_cons.1 h
      simp only [toPoints, List.map_cons, List.filterMap_cons, digit?_char hc]
      exact congrArg _ (ih hds)
  rw [natOf, hvalues, Text.natOfDigits, List.foldl_map, Nat.ofDigitChars_eq_foldl]
  simp only [Nat.mul_comm]

theorem allDigits_toDigits (n : Nat) : AllDigits (Nat.toDigits 10 n) := fun _ hc =>
  Nat.isDigit_of_mem_toDigits (by decide) (by decide) hc

theorem AllDigits.append (hw : AllDigits w) (hf : AllDigits f) : AllDigits (w ++ f) :=
  List.forall_mem_append.2 ⟨hw, hf⟩

/-- Digits are taken as far as they go. -/
theorem span_digits (h : AllDigits ds) (hrest : ∀ p ∈ rest.head?, isDigit p = false) :
    (toPoints ds ++ rest).takeWhile isDigit = toPoints ds ∧
      (toPoints ds ++ rest).dropWhile isDigit = rest := by
  have hall : ∀ p ∈ toPoints ds, isDigit p = true := by
    intro p hp
    obtain ⟨c, hc, rfl⟩ := List.mem_map.1 hp
    rw [isDigit_char]
    exact h c hc
  have hnone : rest.takeWhile isDigit = [] ∧ rest.dropWhile isDigit = rest := by
    cases rest with
    | nil => exact ⟨rfl, rfl⟩
    | cons p rest => simp [hrest p rfl]
  rw [List.takeWhile_append_of_pos hall, List.dropWhile_append_of_pos hall, hnone.1, hnone.2,
    List.append_nil]
  exact ⟨rfl, rfl⟩

/-! ## Parts of a number -/

/-- A fraction, if there are digits for it. -/
def fractionText (f : Text) : Text := if f = [] then [] else '.' :: f

/-- An exponent, if there is one. -/
def exponentText : Option Int → Text
  | none => []
  | some x => 'e' :: (if x < 0 then '-' else '+') :: Text.ofNatPadded 10 2 x.natAbs

theorem natOf_ofNatPadded (width n : Nat) :
    AllDigits (Text.ofNatPadded 10 width n) ∧ Text.ofNatPadded 10 width n ≠ [] ∧
      natOf (toPoints (Text.ofNatPadded 10 width n)) = n := by
  have hdigits : AllDigits (Text.ofNatPadded 10 width n) := by
    refine AllDigits.append (fun c hc => ?_) (allDigits_toDigits n)
    obtain ⟨-, rfl⟩ := List.mem_replicate.1 hc
    rfl
  refine ⟨hdigits, by simp [Text.ofNatPadded], ?_⟩
  rw [natOf_toPoints hdigits, Text.ofNatPadded, Nat.ofDigitChars_append,
    Nat.ofDigitChars_replicate_zero, Nat.mul_zero, Nat.ofDigitChars_ten_toDigits]

/-- What may stand behind a number is no part of it. -/
theorem Delimited.not_mem_head {rest : Points} (h : Delimited rest) :
    (∀ p ∈ rest.head?, isDigit p = false) ∧ fraction? rest = none ∧ exponent? rest = none := by
  cases rest with
  | nil => exact ⟨by simp, rfl, rfl⟩
  | cons p rest =>
    rcases h p rfl with rfl | rfl
    · exact ⟨by simp; decide, rfl, rfl⟩
    · exact ⟨by simp; decide, rfl, rfl⟩

theorem fraction?_fractionText (hf : AllDigits f) (hdigit : ∀ p ∈ rest.head?, isDigit p = false)
    (hnone : fraction? rest = none) :
    fraction? (toPoints (fractionText f) ++ rest) =
      if f = [] then none else some (toPoints f, rest) := by
  cases f with
  | nil => exact hnone
  | cons d f =>
    have hspan := span_digits (List.forall_mem_cons.1 hf).2 hdigit
    have hd : isDigit (.char d) = true := by
      rw [isDigit_char]
      exact (List.forall_mem_cons.1 hf).1
    simp only [fractionText, toPoints, List.map_cons, List.cons_append, reduceCtorEq, if_false,
      fraction?, hd, if_true]
    rw [show List.map Point.char f = toPoints f from rfl, hspan.1, hspan.2]

theorem exponentDigits?_ofNatPadded (n : Nat) (hdigit : ∀ p ∈ rest.head?, isDigit p = false) :
    exponentDigits? (toPoints (Text.ofNatPadded 10 2 n) ++ rest) = some (n, rest) := by
  obtain ⟨hdigits, hne, hvalue⟩ := natOf_ofNatPadded 2 n
  obtain ⟨htake, hdrop⟩ := span_digits hdigits hdigit
  unfold exponentDigits?
  rw [htake, hdrop]
  split
  · next h => exact absurd (by simpa [toPoints] using h) hne
  · rw [hvalue]

theorem exponent?_exponentText (x : Option Int) (h : Delimited rest) :
    exponent? (toPoints (exponentText x) ++ rest) = x.map fun x => (x, rest) := by
  obtain ⟨hdigit, -, hnone⟩ := h.not_mem_head
  cases x with
  | none => exact hnone
  | some x =>
    have hdigits := exponentDigits?_ofNatPadded x.natAbs hdigit
    by_cases hx : x < 0
    · simp only [exponentText, hx, if_true, toPoints, List.map_cons, List.cons_append, exponent?]
      simp only [show List.map Point.char = toPoints from rfl, hdigits]
      simp [abs_of_neg hx]
    · simp only [exponentText, hx, if_false, toPoints, List.map_cons, List.cons_append, exponent?]
      simp only [show List.map Point.char = toPoints from rfl, hdigits]
      simp [abs_of_nonneg (not_lt.1 hx)]

/-! ## Numbers -/

theorem numberFrom_int (negative : Bool) (hw : w.length ≤ mostDigits) (h : Delimited rest) :
    numberFrom negative (toPoints w) rest =
      .ok (.int (if negative then -(natOf (toPoints w) : Int) else natOf (toPoints w)), rest) := by
  obtain ⟨-, hfraction, hexponent⟩ := h.not_mem_head
  unfold numberFrom
  simp [hfraction, hexponent, toPoints, hw]

/-- A number with a fraction or an exponent is read as the decimal that it is. -/
theorem numberFrom_float (negative : Bool) (hw : AllDigits w) (hf : AllDigits f)
    {x : Option Int} (hparts : f ≠ [] ∨ x ≠ none) (h : Delimited rest) :
    numberFrom negative (toPoints w) (toPoints (fractionText f ++ exponentText x) ++ rest) =
      .ok (.float (.ofDecimal negative (Nat.ofDigitChars 10 (w ++ f) 0)
        (x.getD 0 - f.length)), rest) := by
  obtain ⟨hdigit, hnone, -⟩ := h.not_mem_head
  have hbehind : (∀ p ∈ (toPoints (exponentText x) ++ rest).head?, isDigit p = false) ∧
      fraction? (toPoints (exponentText x) ++ rest) = none := by
    cases x with
    | none => exact ⟨hdigit, hnone⟩
    | some x => exact ⟨by simp [exponentText, toPoints]; decide, rfl⟩
  have hfraction := fraction?_fractionText hf hbehind.1 hbehind.2
  have hexponent := exponent?_exponentText x h
  have hvalue : natOf (toPoints w ++ toPoints f) = Nat.ofDigitChars 10 (w ++ f) 0 := by
    rw [← natOf_toPoints (hw.append hf)]
    simp [toPoints]
  have hsplit : toPoints (fractionText f ++ exponentText x) ++ rest =
      toPoints (fractionText f) ++ (toPoints (exponentText x) ++ rest) := by
    simp [toPoints]
  have hlength : (toPoints f).length = f.length := by simp [toPoints]
  rw [hsplit]
  unfold numberFrom
  by_cases hf0 : f = []
  · obtain ⟨x, rfl⟩ := Option.ne_none_iff_exists'.1 (hparts.resolve_left fun h => h hf0)
    subst hf0
    have hnil : toPoints (fractionText []) = [] := rfl
    rw [hnil, List.nil_append] at hfraction ⊢
    simp only [hfraction, if_true, hexponent, Option.map_none, Option.map_some, Option.getD_none,
      Option.getD_some]
    rw [← hvalue]
    rfl
  · rw [if_neg hf0] at hfraction
    simp only [hfraction, hexponent, Option.map_some, Option.getD_some]
    rw [hlength, hvalue]
    cases x <;> rfl

theorem magnitude?_whole (negative : Bool) (hw : IsWhole w)
    (hdigit : ∀ p ∈ rest.head?, isDigit p = false) :
    magnitude? negative (toPoints w ++ rest) = some (numberFrom negative (toPoints w) rest) := by
  obtain ⟨hdigits, hne, hled⟩ := hw
  cases w with
  | nil => exact absurd rfl hne
  | cons c ds =>
    by_cases hc : c = '0'
    · subst hc
      rw [hled rfl]
      rfl
    · obtain ⟨htake, hdrop⟩ := span_digits (List.forall_mem_cons.1 hdigits).2 hdigit
      have hd : isDigit (.char c) = true := by
        rw [isDigit_char]
        exact (List.forall_mem_cons.1 hdigits).1
      rw [show toPoints (c :: ds) ++ rest = .char c :: (toPoints ds ++ rest) from rfl]
      unfold magnitude?
      split
      · next h =>
        obtain ⟨rfl⟩ := (List.cons.inj h).1
        exact absurd rfl hc
      · next h =>
        obtain ⟨rfl, rfl⟩ := List.cons.inj h
        rw [if_pos hd, htake, hdrop]
        rfl
      · next h => cases h

/-- A text that begins with a digit, or with a minus sign and a digit, is no word. -/
theorem find?_words (negative : Bool) (hc : c.isDigit = true) (s : Points) :
    words.find? (fun u => u.1.isPrefixOf
      (toPoints (if negative then ['-', c] else [c]) ++ s)) = none := by
  have hne : ∀ d : Char, d.isDigit = false → d ≠ c := by
    rintro d hd rfl
    simp [hc] at hd
  have hn := hne 'n' rfl
  have ht := hne 't' rfl
  have hf := hne 'f' rfl
  have hN := hne 'N' rfl
  have hI := hne 'I' rfl
  have hminus := hne '-' rfl
  cases negative <;>
    simp [words, toPoints, List.isPrefixOf_cons_cons, hn, ht, hf, hN, hI, hminus]

/-- A number with a minus sign or without. -/
def signed (negative : Bool) (s : Text) : Text := if negative then '-' :: s else s

/-- A number is read from its whole part on. -/
theorem scalar_signed (negative : Bool) (hw : IsWhole w)
    (hdigit : ∀ p ∈ rest.head?, isDigit p = false) :
    scalar (toPoints (signed negative w) ++ rest) = numberFrom negative (toPoints w) rest := by
  have hmagnitude := magnitude?_whole negative hw hdigit
  obtain ⟨c, ds, rfl⟩ := List.exists_cons_of_ne_nil hw.ne_nil
  have hc : c.isDigit = true := hw.digits c List.mem_cons_self
  have hword := find?_words negative hc (toPoints ds ++ rest)
  cases negative with
  | true =>
    have hs : toPoints (signed true (c :: ds)) ++ rest =
        toPoints ['-', c] ++ (toPoints ds ++ rest) := rfl
    rw [hs]
    unfold scalar
    rw [if_pos rfl] at hword
    rw [hword]
    exact congrArg (Option.getD · _) hmagnitude
  | false =>
    have hs : toPoints (signed false (c :: ds)) ++ rest =
        toPoints [c] ++ (toPoints ds ++ rest) := rfl
    rw [hs]
    unfold scalar
    rw [if_neg (by simp)] at hword
    rw [hword]
    have hminus : c ≠ '-' := by
      rintro rfl
      simp at hc
    dsimp only
    split
    · next h =>
      exact absurd (Point.char.inj (List.cons.inj h).1) hminus
    · exact congrArg (Option.getD · _) hmagnitude

/-! ## Integers -/

/-- The digits of a number are not led by a zero. -/
theorem head?_toDigits {n : Nat} (h : 0 < n) : (Nat.toDigits 10 n).head? ≠ some '0' := by
  induction n using Nat.strongRecOn with
  | ind n ih =>
    rw [Nat.toDigits_eq_if (by decide)]
    split
    · next hlt =>
      rw [List.head?_cons, ne_eq, Option.some.injEq, Nat.digitChar_eq_zero]
      omega
    · next hge =>
      rw [List.head?_append_of_ne_nil _ Nat.toDigits_ne_nil]
      exact ih (n / 10) (by omega) (by omega)

theorem isWhole_ofNat (n : Nat) : IsWhole (Text.ofNat n) := by
  refine ⟨allDigits_toDigits n, Nat.toDigits_ne_nil, fun h => ?_⟩
  rcases Nat.eq_zero_or_pos n with rfl | hn
  · rfl
  · exact absurd h (head?_toDigits hn)

/-- An integer is read back, if it has no more digits than are converted. -/
theorem scalar_ofInt {n : Int} (hn : (Text.ofNat n.natAbs).length ≤ mostDigits)
    (h : Delimited rest) : scalar (toPoints (Text.ofInt n) ++ rest) = .ok (.int n, rest) := by
  have hsigned : Text.ofInt n = signed (n < 0) (Text.ofNat n.natAbs) := by
    simp [Text.ofInt, signed]
  have hvalue : natOf (toPoints (Text.ofNat n.natAbs)) = n.natAbs := by
    rw [natOf_toPoints (isWhole_ofNat _).digits]
    exact Nat.ofDigitChars_ten_toDigits
  rw [hsigned, scalar_signed _ (isWhole_ofNat _) h.not_mem_head.1, numberFrom_int _ hn h,
    hvalue]
  by_cases hneg : n < 0
  · simp [hneg, abs_of_neg hneg]
  · simp [hneg, abs_of_nonneg (not_lt.1 hneg)]

/-! ## Decimals -/

theorem AllDigits.zeros (n : Nat) : AllDigits (List.replicate n '0') := fun c hc => by
  obtain ⟨-, rfl⟩ := List.mem_replicate.1 hc
  rfl

/-- Digits with zeros behind them are the same number at another power. -/
theorem ofDigitChars_zeros (ds : Text) (n : Nat) (k : Int) :
    ((Nat.ofDigitChars 10 (ds ++ List.replicate n '0') 0 : Nat) : ℚ) * 10 ^ (k - n) =
      Nat.ofDigitChars 10 ds 0 * 10 ^ k := by
  rw [Nat.ofDigitChars_append, Nat.ofDigitChars_replicate_zero, zpow_sub₀ (by norm_num)]
  push_cast
  rw [zpow_natCast]
  field_simp

/-- A whole part, a fraction and an exponent, one of the latter two at least, that make a
decimal: digits with a point behind the first so many of them. -/
structure IsLayout (ds : Text) (point : Int) (w f : Text) (x : Option Int) : Prop where
  whole : IsWhole w
  fraction : AllDigits f
  parts : f ≠ [] ∨ x ≠ none
  value : (Nat.ofDigitChars 10 (w ++ f) 0 : ℚ) * 10 ^ (x.getD 0 - f.length : Int) =
    Nat.ofDigitChars 10 ds 0 * 10 ^ (point - ds.length)

/-- Behind a point and zeros. -/
theorem isLayout_below {n : Nat} (hds : AllDigits ds) (hne : ds ≠ []) :
    IsLayout ds (-n) ['0'] (List.replicate n '0' ++ ds) none := by
  refine ⟨isWhole_ofNat 0, (AllDigits.zeros n).append hds, .inl (by simp [hne]), ?_⟩
  have hzeros : ['0'] ++ (List.replicate n '0' ++ ds) = List.replicate (n + 1) '0' ++ ds := by
    simp [List.replicate_succ]
  rw [hzeros, Nat.ofDigitChars_append, Nat.ofDigitChars_replicate_zero, Nat.mul_zero,
    List.length_append, List.length_replicate, Option.getD_none]
  congr 2
  push_cast
  ring

/-- In front of zeros and a point. -/
theorem isLayout_above (n : Nat) (hds : AllDigits ds) (hne : ds ≠ [])
    (hled : ds.head? ≠ some '0') :
    IsLayout ds (ds.length + n : Nat) (ds ++ List.replicate n '0') ['0'] none := by
  refine ⟨⟨hds.append (AllDigits.zeros n), by simp [hne], fun h => ?_⟩, AllDigits.zeros 1,
    .inl (by simp), ?_⟩
  · rw [List.head?_append_of_ne_nil _ hne] at h
    exact absurd h hled
  · have hzeros : ds ++ List.replicate n '0' ++ ['0'] = ds ++ List.replicate (n + 1) '0' := by
      simp [List.replicate_succ']
    have h := ofDigitChars_zeros ds (n + 1) n
    rw [hzeros, Option.getD_none, List.length_singleton]
    refine Eq.trans ?_ (h.trans ?_)
    · congr 2
      push_cast
      ring
    · congr 2
      push_cast
      ring

/-- With a point among them. -/
theorem isLayout_among {n : Nat} (hds : AllDigits ds) (hled : ds.head? ≠ some '0') (hn : 0 < n)
    (hlt : n < ds.length) : IsLayout ds n (ds.take n) (ds.drop n) none := by
  refine ⟨⟨fun c hc => hds c (List.mem_of_mem_take hc), ?_, fun h => ?_⟩,
    fun c hc => hds c (List.mem_of_mem_drop hc), .inl ?_, ?_⟩
  · exact List.ne_nil_of_length_pos (by rw [List.length_take]; omega)
  · rw [List.head?_take, if_neg (by omega)] at h
    exact absurd h hled
  · exact List.ne_nil_of_length_pos (by rw [List.length_drop]; omega)
  · rw [List.take_append_drop, List.length_drop, Option.getD_none]
    congr 2
    omega

/-- With a point behind the first of them, and an exponent. -/
theorem isLayout_scientific {d : Char} {ds : Text} (point : Int) (hds : AllDigits (d :: ds))
    (hled : d ≠ '0') : IsLayout (d :: ds) point [d] ds (some (point - 1)) := by
  obtain ⟨hd, hds⟩ := List.forall_mem_cons.1 hds
  refine ⟨⟨fun c hc => ?_, by simp, fun h => absurd (Option.some.inj h) hled⟩, hds,
    .inr (by simp), ?_⟩
  · obtain rfl := List.mem_singleton.1 hc
    exact hd
  · rw [List.singleton_append, Option.getD_some, List.length_cons]
    congr 2
    push_cast
    ring

/-- Digits with a point are laid out in one of these ways. -/
theorem exists_layout (point : Int) (hds : AllDigits ds) (hne : ds ≠ [])
    (hled : ds.head? ≠ some '0') :
    ∃ w f x, Binary64.layout ds point = w ++ (fractionText f ++ exponentText x) ∧
      IsLayout ds point w f x := by
  have hlength : 0 < ds.length := List.length_pos_iff.2 hne
  unfold Binary64.layout
  split
  · split
    · next hpoint =>
      obtain ⟨n, hn⟩ := Int.eq_ofNat_of_zero_le (Int.neg_nonneg_of_nonpos hpoint)
      obtain rfl : point = -(n : Int) := by omega
      refine ⟨_, _, _, ?_, isLayout_below hds hne⟩
      simp [fractionText, exponentText, hne]
    · next hpoint =>
      obtain ⟨n, rfl⟩ := Int.eq_ofNat_of_zero_le (not_le.1 hpoint).le
      split
      · next hlong =>
        obtain ⟨k, rfl⟩ := Nat.exists_eq_add_of_le (Int.toNat_natCast n ▸ hlong)
        refine ⟨_, _, _, ?_, isLayout_above k hds hne hled⟩
        rw [Int.toNat_natCast, Nat.add_sub_cancel_left]
        simp [fractionText, exponentText]
      · next hlong =>
        refine ⟨_, _, _, ?_, isLayout_among (n := n) hds hled (by omega) (by omega)⟩
        have : ds.drop n ≠ [] := List.ne_nil_of_length_pos (by rw [List.length_drop]; omega)
        simp [fractionText, exponentText, this]
  · obtain ⟨d, ds, rfl⟩ := List.exists_cons_of_ne_nil hne
    have hd : d ≠ '0' := fun h => hled (by rw [h]; rfl)
    refine ⟨_, _, _, ?_, isLayout_scientific point hds hd⟩
    cases ds with
    | nil => simp [fractionText, exponentText]
    | cons d' ds => simp [fractionText, exponentText]

/-- A number with a fraction or an exponent is read as the decimal that it is. -/
theorem scalar_decimal (negative : Bool) {x : Option Int} (hw : IsWhole w) (hf : AllDigits f)
    (hparts : f ≠ [] ∨ x ≠ none) (h : Delimited rest) :
    scalar (toPoints (signed negative (w ++ (fractionText f ++ exponentText x))) ++ rest) =
      .ok (.float (.ofDecimal negative (Nat.ofDigitChars 10 (w ++ f) 0)
        (x.getD 0 - f.length)), rest) := by
  have hsplit : toPoints (signed negative (w ++ (fractionText f ++ exponentText x))) ++ rest =
      toPoints (signed negative w) ++ (toPoints (fractionText f ++ exponentText x) ++ rest) := by
    cases negative <;> simp [signed, toPoints]
  have hdigit : ∀ p ∈ (toPoints (fractionText f ++ exponentText x) ++ rest).head?,
      isDigit p = false := by
    by_cases hf0 : f = []
    · obtain ⟨x, rfl⟩ := Option.ne_none_iff_exists'.1 (hparts.resolve_left fun h => h hf0)
      simp [hf0, fractionText, exponentText, toPoints]
      decide
    · simp [hf0, fractionText, toPoints]
      decide
  rw [hsplit, scalar_signed negative hw hdigit, numberFrom_float negative hw.digits hf hparts h]

/-- The digits of a number, with the zeros at their end. -/
theorem ofNat_eq_trimmedDigits {n : Nat} (hn : 0 < n) :
    ∃ zeros, Text.ofNat n = Binary64.trimmedDigits n ++ List.replicate zeros '0' ∧
      Binary64.trimmedDigits n ≠ [] := by
  obtain ⟨zeros, hzeros⟩ : ∃ zeros,
      (Text.ofNat n).reverse.takeWhile (· == '0') = List.replicate zeros '0' :=
    ⟨_, List.eq_replicate_of_mem fun c hc => by simpa using List.mem_takeWhile_imp hc⟩
  have hsplit : Text.ofNat n = ((Text.ofNat n).reverse.dropWhile (· == '0')).reverse ++
      List.replicate zeros '0' := by
    rw [← List.reverse_replicate, ← List.reverse_append, ← hzeros, List.takeWhile_append_dropWhile,
      List.reverse_reverse]
  unfold Binary64.trimmedDigits
  split
  · next hnil =>
    -- not all digits are zeros, since the first is none
    have hhead : (Text.ofNat n).head? ≠ some '0' := head?_toDigits hn
    have hlength : 0 < (Text.ofNat n).length := Nat.length_toDigits_pos
    rw [hnil] at hsplit
    rw [hsplit] at hhead hlength
    cases zeros with
    | zero => simp at hlength
    | succ zeros => simp [List.replicate_succ] at hhead
  · next hne => exact ⟨zeros, hsplit, by simpa using hne⟩

/-- The layout of the shortest decimal of a number has its value in the cell of the number. -/
theorem exists_layout_shortest {m : Nat} {e : Int} (hc : Binary64.IsCanonical m e)
    (hm : 0 < m) :
    ∃ w f x, Binary64.layout (Binary64.trimmedDigits (Binary64.shortest m e).digits)
        ((Text.ofNat (Binary64.shortest m e).digits).length + (Binary64.shortest m e).exponent) =
          w ++ (fractionText f ++ exponentText x) ∧
      (IsWhole w ∧ AllDigits f ∧ (f ≠ [] ∨ x ≠ none)) ∧
      (Binary64.cell m e).Contains
        ((Nat.ofDigitChars 10 (w ++ f) 0 : Nat) * 10 ^ (x.getD 0 - f.length : Int)) := by
  have hcontains := Binary64.shortest_contains hc hm
  generalize Binary64.shortest m e = d at *
  have hdigits : 0 < d.digits := Nat.pos_of_ne_zero fun h0 => by
    have hsmall := (Binary64.bounds_of_contains hc hm hcontains).1
    have : (0 : ℚ) < 10 ^ (-324 : Int) := by positivity
    rw [h0, Nat.cast_zero, zero_mul] at hsmall
    linarith
  obtain ⟨zeros, hsplit, hne⟩ := ofNat_eq_trimmedDigits hdigits
  have hall := (isWhole_ofNat d.digits).digits
  have hhead : (Text.ofNat d.digits).head? ≠ some '0' := head?_toDigits hdigits
  have hnumber : Nat.ofDigitChars 10 (Text.ofNat d.digits) 0 = d.digits :=
    Nat.ofDigitChars_ten_toDigits
  rw [hsplit] at hall hhead hnumber ⊢
  generalize Binary64.trimmedDigits d.digits = ds at *
  rw [List.head?_append_of_ne_nil _ hne] at hhead
  obtain ⟨w, f, x, hlayout, hparts⟩ := exists_layout
    ((ds ++ List.replicate zeros '0').length + d.exponent) (List.forall_mem_append.1 hall).1 hne
    hhead
  refine ⟨w, f, x, hlayout, ⟨hparts.whole, hparts.fraction, hparts.parts⟩, ?_⟩
  have hzeros := ofDigitChars_zeros ds zeros (zeros + d.exponent)
  rw [hnumber, add_sub_cancel_left] at hzeros
  rw [hparts.value, List.length_append, List.length_replicate]
  rw [hzeros] at hcontains
  convert hcontains using 3
  push_cast
  ring

/-- A number of the format is read back. -/
theorem scalar_float {x : Binary64} (hx : x.Canonical) (h : Delimited rest) :
    scalar (toPoints (x.write names) ++ rest) = .ok (.float x, rest) := by
  cases x with
  | nan => rfl
  | infinite negative => cases negative <;> rfl
  | finite negative m e =>
    have hsigned : ∀ body, (if negative then '-' :: body else body) = signed negative body :=
      fun _ => rfl
    simp only [Binary64.write, hsigned]
    rcases Nat.eq_zero_or_pos m with rfl | hm
    · -- a zero has the least exponent
      obtain rfl : e = Binary64.leastExponent := hx.full.resolve_left (by decide)
      rw [if_pos rfl]
      exact scalar_decimal negative (x := none) (isWhole_ofNat 0) (AllDigits.zeros 1)
        (.inl (by simp)) h
    · rw [if_neg hm.ne']
      obtain ⟨w, f, x, hlayout, ⟨hw, hf, hparts⟩, hvalue⟩ := exists_layout_shortest hx hm
      rw [hlayout, scalar_decimal negative hw hf hparts h,
        Binary64.ofDecimal_of_contains hx hm hvalue]

/-! ## How a number begins -/

/-- A character that a number can begin with. -/
def BeginsNumber (c : Char) : Prop := c.isDigit = true ∨ c = '-' ∨ c = 'N' ∨ c = 'I'

theorem exists_signed_eq_cons (negative : Bool) (hw : IsWhole w) (behind : Text) :
    ∃ c s, signed negative (w ++ behind) = c :: s ∧ BeginsNumber c := by
  obtain ⟨d, ds, rfl⟩ := List.exists_cons_of_ne_nil hw.ne_nil
  cases negative with
  | true => exact ⟨'-', _, rfl, .inr (.inl rfl)⟩
  | false => exact ⟨d, _, rfl, .inl (hw.digits d List.mem_cons_self)⟩

theorem exists_ofInt_eq_cons (n : Int) : ∃ c s, Text.ofInt n = c :: s ∧ BeginsNumber c := by
  have hsigned : Text.ofInt n = signed (n < 0) (Text.ofNat n.natAbs ++ []) := by
    simp [Text.ofInt, signed]
  rw [hsigned]
  exact exists_signed_eq_cons _ (isWhole_ofNat _) []

theorem exists_float_eq_cons {x : Binary64} (hx : x.Canonical) :
    ∃ c s, x.write names = c :: s ∧ BeginsNumber c := by
  cases x with
  | nan => exact ⟨'N', _, rfl, .inr (.inr (.inl rfl))⟩
  | infinite negative =>
    cases negative with
    | true => exact ⟨'-', _, rfl, .inr (.inl rfl)⟩
    | false => exact ⟨'I', _, rfl, .inr (.inr (.inr rfl))⟩
  | finite negative m e =>
    have hsigned : ∀ body, (if negative then '-' :: body else body) = signed negative body :=
      fun _ => rfl
    simp only [Binary64.write, hsigned]
    split
    · exact exists_signed_eq_cons negative (isWhole_ofNat 0) ['.', '0']
    · next hm =>
      obtain ⟨w, f, x, hlayout, ⟨hw, -⟩, -⟩ := exists_layout_shortest hx (Nat.pos_of_ne_zero hm)
      rw [hlayout]
      exact exists_signed_eq_cons negative hw _

end Letterhead.Json
