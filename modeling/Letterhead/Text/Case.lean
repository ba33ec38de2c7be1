import Letterhead.Text.Basic
import Letterhead.Text.CaseTable
/-
# Lower case

Texts are compared without regard to case by lowering both. Lowering works on
the whole text: a capital sigma becomes the final form at the end of a word,
and a dotted capital I becomes two characters, so neither length nor result
is decided character by character.
-/
namespace Letterhead.Text

def inRanges (ranges : List (Nat × Nat)) (n : Nat) : Bool :=
  ranges.any fun r => r.1 ≤ n && n ≤ r.2

/-- A letter with a case that case conditions do not look through. -/
def isCased (c : Char) : Bool := inRanges CaseTable.cased c.toNat

/-- A character that case conditions look through. -/
def isCaseIgnorable (c : Char) : Bool := inRanges CaseTable.ignorable c.toNat

/-- Whether a progression holds the code point of a capital. -/
def CaseTable.Run.holds (r : CaseTable.Run) (n : Nat) : Bool :=
  r.first ≤ n && n ≤ r.last && (n - r.first) % r.step == 0

/-- The small letter of one character, itself when it has none. -/
def lowerChar (c : Char) : Char :=
  match CaseTable.runs.find? (·.holds c.toNat) with
  | some r => Char.ofNat (c.toNat + r.offset).toNat
  | none => c

/-- Whether a letter with a case comes next, past what case conditions look through. -/
def startsCased (s : Text) : Bool :=
  match s.dropWhile isCaseIgnorable with
  | [] => false
  | c :: _ => isCased c

/-- Lowers a text that stands behind a letter with a case, or does not. -/
def lowerFrom (behindCased : Bool) : Text → Text
  | [] => []
  | c :: s =>
    let behind := if isCaseIgnorable c then behindCased else isCased c
    if c = 'Σ' then
      (if behindCased && !startsCased s then 'ς' else 'σ') :: lowerFrom behind s
    else if c = 'İ' then 'i' :: '\u0307' :: lowerFrom behind s
    else lowerChar c :: lowerFrom behind s

/-- The text in lower case. -/
def lower (s : Text) : Text := lowerFrom false s

/-- Whether a marker occurs in a text, without regard to case (`contains_marker`). -/
def includesIgnoringCase (s marker : Text) : Bool := includes (lower s) (lower marker)

end Letterhead.Text
