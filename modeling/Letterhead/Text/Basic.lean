/-
# Texts

A text is its list of characters, so an offset counts characters and every
cut is a split of the list. This file holds the scans and cuts the rest of
the library is written with: blanks, search, split and join.
-/
namespace Letterhead

/-- A text, one entry per character. -/
abbrev Text := List Char

namespace Text

/-! ## Blanks -/

/-- The characters that count as whitespace: the separators of Unicode, the
line breaks, and the four information separators of ASCII. -/
def isBlank (c : Char) : Bool :=
  let n := c.toNat
  (9 ≤ n && n ≤ 13) || (28 ≤ n && n ≤ 32) || n == 0x85 || n == 0xA0 || n == 0x1680
    || (0x2000 ≤ n && n ≤ 0x200A) || n == 0x2028 || n == 0x2029 || n == 0x202F
    || n == 0x205F || n == 0x3000

/-- Drops the characters of a class from both ends. -/
def trimBy (p : Char → Bool) (s : Text) : Text :=
  ((s.dropWhile p).reverse.dropWhile p).reverse

def strip (s : Text) : Text := trimBy isBlank s

/-! ## Search -/

/-- Offset of the first occurrence. The empty text occurs at once. -/
def find? (needle : Text) : Text → Option Nat
  | [] => if needle.isEmpty then some 0 else none
  | c :: s => if needle.isPrefixOf (c :: s) then some 0 else (find? needle s).map (· + 1)

def includes (s needle : Text) : Bool := (find? needle s).isSome

/-! ## Split and join -/

/-- The pieces between the separators; `n` separators make `n + 1` pieces. -/
def splitOn (sep : Char) : Text → List Text
  | [] => [[]]
  | c :: s =>
    if c = sep then [] :: splitOn sep s
    else match splitOn sep s with
      | [] => [[c]]
      | p :: ps => (c :: p) :: ps

/-- The pieces with a separator text between each two. -/
def joinWith (sep : Text) : List Text → Text
  | [] => []
  | [p] => p
  | p :: q :: ps => p ++ sep ++ joinWith sep (q :: ps)

theorem splitOn_ne_nil (sep : Char) (s : Text) : splitOn sep s ≠ [] := by
  cases s with
  | nil => simp [splitOn]
  | cons c s =>
    unfold splitOn
    split
    · simp
    · split <;> simp

/-- The pieces joined by the separator are the text. -/
theorem joinWith_splitOn (sep : Char) (s : Text) : joinWith [sep] (splitOn sep s) = s := by
  induction s with
  | nil => rfl
  | cons c s ih =>
    unfold splitOn
    split
    · next h =>
      cases hs : splitOn sep s with
      | nil => exact absurd hs (splitOn_ne_nil sep s)
      | cons p ps =>
        rw [hs] at ih
        simp [joinWith, ih, h]
    · cases hs : splitOn sep s with
      | nil => exact absurd hs (splitOn_ne_nil sep s)
      | cons p ps =>
        rw [hs] at ih
        cases ps with
        | nil => simp_all [joinWith]
        | cons q qs => simp_all [joinWith]

/-- Line ends of two characters as line feeds. -/
def unifyLineEnds : Text → Text
  | '\r' :: '\n' :: s => '\n' :: unifyLineEnds s
  | c :: s => c :: unifyLineEnds s
  | [] => []

/-- The text with another in place of each occurrence of a needle, read from the
left; an empty needle occurs nowhere. -/
def replaceAll (needle new : Text) (s : Text) : Text :=
  match needle with
  | [] => s
  | n :: ns => go n ns 0 s
where
  /-- Goes on behind so many characters of an occurrence. -/
  go (n : Char) (ns : Text) : Nat → Text → Text
    | _, [] => []
    | skipped + 1, _ :: s => go n ns skipped s
    | 0, c :: s =>
      if (n :: ns).isPrefixOf (c :: s) then new ++ go n ns ns.length s else c :: go n ns 0 s

/-- An offset that may count from the end, as an offset within the text. -/
def position (s : Text) (i : Int) : Nat :=
  if i < 0 then (s.length + i).toNat else min i.toNat s.length

/-! ## Numbers -/

def ofNat (n : Nat) : Text := Nat.toDigits 10 n

/-- An integer in decimal digits, with a minus sign below zero. -/
def ofInt (n : Int) : Text := if n < 0 then '-' :: ofNat n.natAbs else ofNat n.natAbs

/-- A number in digits of a base, led by zeros up to a width. -/
def ofNatPadded (base width n : Nat) : Text :=
  let digits := Nat.toDigits base n
  List.replicate (width - digits.length) '0' ++ digits

def digit? (c : Char) : Option Nat :=
  if '0' ≤ c && c ≤ '9' then some (c.toNat - '0'.toNat) else none

/-- The value of a hexadecimal digit, of either case. -/
def hexDigit? (c : Char) : Option Nat :=
  if '0' ≤ c && c ≤ '9' then some (c.toNat - '0'.toNat)
  else if 'a' ≤ c && c ≤ 'f' then some (c.toNat - 'a'.toNat + 10)
  else if 'A' ≤ c && c ≤ 'F' then some (c.toNat - 'A'.toNat + 10)
  else none

/-- The value of a run of digits in a base, most significant first. -/
def natOfDigits (base : Nat) (digits : List Nat) : Nat :=
  digits.foldl (fun n d => n * base + d) 0

/-! ## Order -/

/-- Whether one text comes before or is another, by code points. -/
def le (s t : Text) : Bool :=
  match s, t with
  | [], _ => true
  | _ :: _, [] => false
  | c :: s, d :: t => if c = d then le s t else decide (c < d)

theorem le_cons {c d : Char} {s t : Text} :
    le (c :: s) (d :: t) = true ↔ c.toNat < d.toNat ∨ c = d ∧ le s t = true := by
  rw [le]
  by_cases h : c = d
  · subst h; simp
  · rw [if_neg h, decide_eq_true_eq]
    exact ⟨.inl, fun h' => h'.resolve_right fun h' => h h'.1⟩

theorem le_total (s t : Text) : le s t ∨ le t s := by
  induction s generalizing t with
  | nil => left; cases t <;> rfl
  | cons c s ih =>
    cases t with
    | nil => right; rfl
    | cons d t =>
      rw [le_cons, le_cons]
      rcases Nat.lt_trichotomy c.toNat d.toNat with hl | he | hg
      · exact .inl (.inl hl)
      · have h := Char.toNat_inj.1 he
        exact (ih t).imp (fun hs => .inr ⟨h, hs⟩) fun ht => .inr ⟨h.symm, ht⟩
      · exact .inr (.inl hg)

theorem le_trans {s t u : Text} (h : le s t) (h' : le t u) : le s u := by
  induction s generalizing t u with
  | nil => cases u <;> rfl
  | cons c s ih =>
    cases t with
    | nil => simp [le] at h
    | cons d t =>
      cases u with
      | nil => simp [le] at h'
      | cons e u =>
        rw [le_cons] at h h' ⊢
        rcases h with h | ⟨rfl, h⟩
        · rcases h' with h' | ⟨rfl, _⟩
          · exact .inl (Nat.lt_trans h h')
          · exact .inl h
        · rcases h' with h' | ⟨rfl, h'⟩
          · exact .inl h'
          · exact .inr ⟨rfl, ih h h'⟩

/-! ## Upper case -/

def upperAscii (s : Text) : Text := s.map Char.toUpper

end Text
end Letterhead
