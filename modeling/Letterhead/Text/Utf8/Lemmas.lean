import Letterhead.Text.Utf8
/-
# Reading what was written

Reading the bytes of a text gives the text back, so two texts with the same
bytes are one text. A sequence is followed byte by byte: what opens it allows
each of the bytes that its character is written with.
-/
namespace Letterhead.Text.Utf8

theorem toNat_ofNat_of_lt {n : Nat} (h : n < 256) : (UInt8.ofNat n).toNat = n := by
  simp [UInt8.toNat_ofNat', Nat.mod_eq_of_lt h]

theorem toNat_continuation (n : Nat) : (continuation n).toNat = 0x80 + n % 64 :=
  toNat_ofNat_of_lt (by omega)

theorem not_lt_of_le_toNat {b : UInt8} (h : 0x80 ≤ b.toNat) : ¬ b < 0x80 := by
  rw [UInt8.lt_iff_toNat_lt]
  simpa using h

/-- A byte of 128 and above between two sequences opens one. -/
theorem decodeFrom_begin {k : Nat} {b : UInt8} {bs : Bytes} {p : Pending} (h : 0x80 ≤ b.toNat)
    (hp : begin? k b = some p) :
    decodeFrom k none (b :: bs) = decodeFrom (k + 1) (some p) bs := by
  rw [decodeFrom, if_neg (not_lt_of_le_toNat h), hp]

theorem decodeFrom_continue {k i v n : Nat} {b : UInt8} {r r' : Nat × Nat} {rs : List (Nat × Nat)}
    {bs : Bytes} (h : r.1 ≤ 0x80 + n % 64) (h' : 0x80 + n % 64 ≤ r.2) :
    decodeFrom k (some ⟨i, b, v, r :: r' :: rs⟩) (continuation n :: bs) =
      decodeFrom (k + 1) (some ⟨i, b, v * 64 + n % 64, r' :: rs⟩) bs := by
  rw [decodeFrom]
  simp [toNat_continuation, h, h']

theorem decodeFrom_last {k i v n : Nat} {b : UInt8} {r : Nat × Nat} {bs : Bytes}
    (h : r.1 ≤ 0x80 + n % 64) (h' : 0x80 + n % 64 ≤ r.2) :
    decodeFrom k (some ⟨i, b, v, [r]⟩) (continuation n :: bs) =
      (decodeFrom (k + 1) none bs).map (Char.ofNat (v * 64 + n % 64) :: ·) := by
  rw [decodeFrom]
  simp only [toNat_continuation, h, h', Bool.and_self, decide_true, if_true, List.isEmpty_nil,
    Nat.add_sub_cancel_left]
  cases decodeFrom (k + 1) none bs <;> rfl

theorem length_encodeChar_pos (c : Char) : 0 < (encodeChar c).length := by
  unfold encodeChar
  dsimp only
  split
  · simp
  · split
    · simp
    · split <;> simp

/-- The scalar values are the code points outside the surrogates. -/
theorem toNat_scalar (c : Char) :
    c.toNat < 0xD800 ∨ 0xDFFF < c.toNat ∧ c.toNat < 0x110000 := c.valid

/-- What opens three bytes: the range of the second allows the character's. -/
theorem begin?_three {k n : Nat} (h : 0x800 ≤ n) (h' : n < 0x10000)
    (hv : n < 0xD800 ∨ 0xDFFF < n) :
    ∃ r, begin? k (UInt8.ofNat (0xE0 + n / 4096)) =
        some ⟨k, UInt8.ofNat (0xE0 + n / 4096), n / 4096, [r, plain]⟩ ∧
      r.1 ≤ 0x80 + n / 64 % 64 ∧ 0x80 + n / 64 % 64 ≤ r.2 := by
  have hb : (UInt8.ofNat (0xE0 + n / 4096)).toNat = 0xE0 + n / 4096 :=
    toNat_ofNat_of_lt (by omega)
  unfold begin?
  simp only [hb]
  rw [if_neg (by omega), if_neg (by omega)]
  by_cases h0 : n / 4096 = 0
  · rw [if_pos (by omega), h0]
    exact ⟨(0xA0, 0xBF), rfl, by simp only; omega, by simp only; omega⟩
  · rw [if_neg (by omega)]
    by_cases hD : n / 4096 = 0xD
    · rw [if_pos (by omega), hD]
      exact ⟨(0x80, 0x9F), rfl, by simp only; omega, by simp only; omega⟩
    · rw [if_neg (by omega), if_pos (by omega), Nat.add_sub_cancel_left]
      exact ⟨plain, rfl, by unfold plain; omega, by unfold plain; omega⟩

/-- What opens four bytes: the range of the second allows the character's. -/
theorem begin?_four {k n : Nat} (h : 0x10000 ≤ n) (h' : n < 0x110000) :
    ∃ r, begin? k (UInt8.ofNat (0xF0 + n / 262144)) =
        some ⟨k, UInt8.ofNat (0xF0 + n / 262144), n / 262144, [r, plain, plain]⟩ ∧
      r.1 ≤ 0x80 + n / 4096 % 64 ∧ 0x80 + n / 4096 % 64 ≤ r.2 := by
  have hb : (UInt8.ofNat (0xF0 + n / 262144)).toNat = 0xF0 + n / 262144 :=
    toNat_ofNat_of_lt (by omega)
  unfold begin?
  simp only [hb]
  rw [if_neg (by omega), if_neg (by omega), if_neg (by omega), if_neg (by omega),
    if_neg (by omega)]
  by_cases h0 : n / 262144 = 0
  · rw [if_pos (by omega), h0]
    exact ⟨(0x90, 0xBF), rfl, by simp only; omega, by simp only; omega⟩
  · rw [if_neg (by omega)]
    by_cases h4 : n / 262144 = 4
    · rw [if_neg (by omega), if_pos (by omega), h4]
      exact ⟨(0x80, 0x8F), rfl, by simp only; omega, by simp only; omega⟩
    · rw [if_pos (by omega), Nat.add_sub_cancel_left]
      exact ⟨plain, rfl, by unfold plain; omega, by unfold plain; omega⟩

/-- What one character is encoded as is read back as that character. -/
theorem decodeFrom_encodeChar (k : Nat) (c : Char) (bs : Bytes) :
    decodeFrom k none (encodeChar c ++ bs) =
      (decodeFrom (k + (encodeChar c).length) none bs).map (c :: ·) := by
  have hc : Char.ofNat c.toNat = c := Char.ofNat_toNat c
  have hv := toNat_scalar c
  unfold encodeChar
  dsimp only
  generalize c.toNat = n at hc hv
  split
  · next h =>
    have hn : (UInt8.ofNat n).toNat = n := toNat_ofNat_of_lt (by omega)
    have hlt : UInt8.ofNat n < 0x80 := by rw [UInt8.lt_iff_toNat_lt, hn]; exact h
    rw [List.singleton_append, decodeFrom, if_pos hlt, hn, hc]
    cases h : decodeFrom (k + 1) none bs <;> rfl
  · split
    · next h1 h2 =>
      have hb : (UInt8.ofNat (0xC0 + n / 64)).toNat = 0xC0 + n / 64 := toNat_ofNat_of_lt (by omega)
      have hp : begin? k (UInt8.ofNat (0xC0 + n / 64)) =
          some ⟨k, UInt8.ofNat (0xC0 + n / 64), n / 64, [plain]⟩ := by
        unfold begin?
        simp only [hb]
        rw [if_neg (by omega), if_pos (by omega), Nat.add_sub_cancel_left]
      rw [List.cons_append, decodeFrom_begin (by omega) hp, List.singleton_append,
        decodeFrom_last (by unfold plain; omega) (by unfold plain; omega),
        show n / 64 * 64 + n % 64 = n by omega, hc]
      rfl
    · split
      · next h2 h3 =>
        obtain ⟨r, hp, hr, hr'⟩ := begin?_three (k := k) (by omega) h3 (by omega)
        have hb : (UInt8.ofNat (0xE0 + n / 4096)).toNat = 0xE0 + n / 4096 :=
          toNat_ofNat_of_lt (by omega)
        rw [List.cons_append, decodeFrom_begin (by omega) hp, List.cons_append,
          decodeFrom_continue hr hr', List.singleton_append,
          decodeFrom_last (by unfold plain; omega) (by unfold plain; omega),
          show (n / 4096 * 64 + n / 64 % 64) * 64 + n % 64 = n by omega, hc]
        rfl
      · next h3 =>
        obtain ⟨r, hp, hr, hr'⟩ := begin?_four (k := k) (n := n) (by omega) (by omega)
        have hb : (UInt8.ofNat (0xF0 + n / 262144)).toNat = 0xF0 + n / 262144 :=
          toNat_ofNat_of_lt (by omega)
        rw [List.cons_append, decodeFrom_begin (by omega) hp, List.cons_append,
          decodeFrom_continue hr hr', List.cons_append,
          decodeFrom_continue (by unfold plain; omega) (by unfold plain; omega),
          List.singleton_append, decodeFrom_last (by unfold plain; omega) (by unfold plain; omega),
          show ((n / 262144 * 64 + n / 4096 % 64) * 64 + n / 64 % 64) * 64 + n % 64 = n by omega,
          hc]
        rfl

theorem decodeFrom_encode (k : Nat) (s : Text) : decodeFrom k none (encode s) = .ok s := by
  induction s generalizing k with
  | nil => rfl
  | cons c s ih =>
    rw [encode, List.flatMap_cons, decodeFrom_encodeChar]
    show Except.map _ (decodeFrom _ none (encode s)) = _
    rw [ih]
    rfl

/-- What a text is encoded as is read back as that text. -/
theorem decode_encode (s : Text) : decode (encode s) = .ok s := decodeFrom_encode 0 s

theorem encode_append (s t : Text) : encode (s ++ t) = encode s ++ encode t := List.flatMap_append

theorem encode_inj {s t : Text} (h : encode s = encode t) : s = t := by
  have hd := decode_encode s
  rw [h, decode_encode] at hd
  exact (Except.ok.inj hd).symm

end Letterhead.Text.Utf8
