import Letterhead.Text.Basic
import Letterhead.Text.Utf8
/-
# Texts with lone surrogates

An escape can name half of a surrogate pair. Such a text is well formed for
the reader that meets the escape, and has no encoding when it is to be written.
-/
namespace Letterhead.Text

/-- A code point: a character, or one half of a surrogate pair. -/
inductive Point
  | char (c : Char)
  | surrogate (code : Nat)
deriving DecidableEq, Repr

def Point.code : Point → Nat
  | .char c => c.toNat
  | .surrogate n => n

def Point.ofCode (n : Nat) : Point :=
  if 0xD800 ≤ n && n ≤ 0xDFFF then .surrogate n else .char (Char.ofNat n)

def Point.char? : Point → Option Char
  | .char c => some c
  | .surrogate _ => none

/-- A text as code points. -/
def toPoints (s : Text) : List Point := s.map .char

/-- The text of code points, if none of them is a lone surrogate. -/
def ofPoints? (ps : List Point) : Option Text := ps.mapM Point.char?

end Letterhead.Text
