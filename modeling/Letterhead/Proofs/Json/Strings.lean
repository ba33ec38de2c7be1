import Letterhead.Json.Reader
import Letterhead.Json.Writer
import Mathlib.Tactic.IntervalCases
/-
# Strings that were written are read back

Every point of a string is written as itself or as an escape, and either is read as the point
(`string_encodePoint`). A control character is written by its number, which no half of a
surrogate pair has (`hex4?_ofNatPadded`).
-/
namespace Letterhead.Json

open Text (toPoints Point)

/-- A point that a string can hold: a half of a surrogate pair is no control character. -/
def IsContent (p : Point) : Prop := ∀ n, p = .surrogate n → 0x20 ≤ n

variable {opened rest : Points} {p q : Point} {n : Nat}

/-- A control character is read by its number, if the text goes on behind it. -/
theorem hex4?_ofNatPadded (hn : n < 0x20) (q : Point) (rest : Points) :
    hex4? (toPoints (Text.ofNatPadded 16 4 n) ++ q :: rest) = some (n, q :: rest) := by
  interval_cases n <;> rfl

theorem escape_ofNatPadded (hn : n < 0x20) (opened : Points) (q : Point) (rest : Points) :
    escape opened (toPoints ('u' :: Text.ofNatPadded 16 4 n) ++ q :: rest) =
      .ok (.char (Char.ofNat n), q :: rest) := by
  have hescape : escape opened (toPoints ('u' :: Text.ofNatPadded 16 4 n) ++ q :: rest) =
      unicode (toPoints (Text.ofNatPadded 16 4 n) ++ q :: rest) := rfl
  have hlow : ¬ 0xD800 ≤ n := by omega
  rw [hescape, unicode, hex4?_ofNatPadded hn]
  simp [hlow, Point.ofCode]

/-- A point that was written is read in front of what is read behind it. -/
theorem string_encodePoint (hp : IsContent p) {qs left : Points}
    (hrest : string opened n (q :: rest) = .ok (qs, left)) :
    string opened (n + 1) (encodePoint p ++ q :: rest) = .ok (p :: qs, left) := by
  have hescaped : ∀ c s, escape opened (c :: s) = .ok (p, q :: rest) →
      string opened (n + 1) (.char '\\' :: c :: s) = .ok (p :: qs, left) := by
    intro c s hs
    rw [string, if_neg (by decide), if_pos rfl, hs]
    simp only [hrest]
  unfold encodePoint
  split
  case h_8 hquote hback _ _ _ _ _ =>
    split
    · next hcode =>
      cases p with
      | surrogate k =>
        have := hp k rfl
        simp only [Point.code] at hcode
        omega
      | char c =>
        have hescape := escape_ofNatPadded hcode opened q rest
        rw [Point.code, Char.ofNat_toNat] at hescape
        exact hescaped _ _ hescape
    · next hcode =>
      have hcode : ¬ p.code ≤ 0x1F := by omega
      rw [List.singleton_append, string, if_neg hquote, if_neg hback, if_neg hcode]
      simp only [hrest]
  all_goals exact hescaped _ _ rfl

/-- A string that was written is read up to its closing quote. -/
theorem string_encodeString {s : Points} (hs : ∀ p ∈ s, IsContent p) (opened : Points)
    (hn : s.length < n) (rest : Points) :
    string opened n (s.flatMap encodePoint ++ .char '"' :: rest) = .ok (s, rest) := by
  induction s generalizing n with
  | nil =>
    obtain ⟨n, rfl⟩ := Nat.exists_eq_add_of_lt hn
    rfl
  | cons p s ih =>
    obtain ⟨hp, hs⟩ := List.forall_mem_cons.1 hs
    obtain ⟨n, rfl⟩ : ∃ k, n = k + 1 := ⟨n - 1, by simp at hn; omega⟩
    have hrest := ih hs (by simpa using hn)
    obtain ⟨q, behind, hq⟩ : ∃ q behind, s.flatMap encodePoint ++ .char '"' :: rest = q :: behind :=
      List.exists_cons_of_ne_nil (by simp)
    rw [List.flatMap_cons, List.append_assoc, hq, string_encodePoint hp (hq ▸ hrest)]

theorem length_le_flatMap_encodePoint (s : Points) : s.length ≤ (s.flatMap encodePoint).length := by
  have hone : ∀ p, 1 ≤ (encodePoint p).length := fun p => by
    unfold encodePoint
    split <;> try simp
    split <;> simp [toPoints]
  induction s with
  | nil => simp
  | cons p s ih =>
    have := hone p
    simp only [List.flatMap_cons, List.length_cons, List.length_append]
    omega

/-! ## What is read is content -/

theorem isContent_char (c : Char) : IsContent (.char c) := by
  rintro n ⟨⟩

theorem isContent_toPoints (s : Text) : ∀ p ∈ toPoints s, IsContent p := by
  intro p hp
  obtain ⟨c, -, rfl⟩ := List.mem_map.1 hp
  exact isContent_char c

theorem isContent_ofCode (n : Nat) : IsContent (Point.ofCode n) := by
  intro k hk
  unfold Point.ofCode at hk
  split at hk
  · next h =>
    obtain rfl := Point.surrogate.inj hk
    simp only [Bool.and_eq_true, decide_eq_true_iff] at h
    omega
  · cases hk

/-- An escape by number is a point by number, whether it takes one half of a pair or both. -/
theorem exists_ofCode_of_unicode {s : Points} (h : unicode s = .ok (p, rest)) :
    ∃ n, p = Point.ofCode n := by
  unfold unicode at h
  grind

theorem isContent_of_escape {s : Points} (h : escape opened s = .ok (p, rest)) : IsContent p := by
  unfold escape at h
  split at h
  · cases h
  · obtain ⟨n, rfl⟩ := exists_ofCode_of_unicode h
    exact isContent_ofCode n
  · split at h
    · exact (Prod.mk.inj (Except.ok.inj h)).1 ▸ isContent_char _
    · cases h

/-- What is read of a string is nothing, or a point and what is read behind it: the point of an
escape, or a point that stands for itself. -/
theorem string_cases {s t : Points} (h : string opened (n + 1) (p :: s) = .ok (t, rest)) :
    t = [] ∨ ∃ q s' qs, t = q :: qs ∧ string opened n s' = .ok (qs, rest) ∧
      (escape opened s = .ok (q, s') ∨ q = p ∧ ¬ p.code ≤ 0x1F) := by
  rw [string] at h
  split at h
  · exact .inl (Prod.mk.inj (Except.ok.inj h)).1.symm
  · split at h
    · cases he : escape opened s with
      | error e => simp [he] at h
      | ok x =>
        obtain ⟨q, s'⟩ := x
        cases hs : string opened n s' with
        | error e => simp [he, hs] at h
        | ok y =>
          obtain ⟨qs, r⟩ := y
          simp only [he, hs, Except.ok.injEq, Prod.mk.injEq] at h
          obtain ⟨rfl, rfl⟩ := h
          exact .inr ⟨q, s', qs, rfl, hs, .inl rfl⟩
    · split at h
      · cases h
      · next hcode =>
        cases hs : string opened n s with
        | error e => simp [hs] at h
        | ok y =>
          obtain ⟨qs, r⟩ := y
          simp only [hs, Except.ok.injEq, Prod.mk.injEq] at h
          obtain ⟨rfl, rfl⟩ := h
          exact .inr ⟨p, s, qs, rfl, hs, .inr ⟨rfl, hcode⟩⟩

/-- Every point of a string that was read is content. -/
theorem isContent_of_string {s t : Points} (h : string opened n s = .ok (t, rest)) :
    ∀ p ∈ t, IsContent p := by
  induction n generalizing s t with
  | zero => cases h
  | succ n ih =>
    cases s with
    | nil => cases h
    | cons p s =>
      rcases string_cases h with rfl | ⟨q, s', qs, rfl, hs, he | ⟨rfl, hcode⟩⟩
      · simp
      · exact List.forall_mem_cons.2 ⟨isContent_of_escape he, ih hs⟩
      · refine List.forall_mem_cons.2 ⟨fun k hk => ?_, ih hs⟩
        rw [hk, Point.code] at hcode
        omega

end Letterhead.Json
