import Letterhead.Json.Value
import Letterhead.Decimal.Shortest
/-
# Writing JSON

One item or field a line, four blanks for each level, and characters beyond
ASCII as they are.
-/
namespace Letterhead.Json

open Text (Point)

def names : Binary64.Names := ⟨"Infinity".toList, "NaN".toList⟩

def encodePoint (p : Point) : Points :=
  match p with
  | .char '"' => [.char '\\', .char '"']
  | .char '\\' => [.char '\\', .char '\\']
  | .char '\x08' => [.char '\\', .char 'b']
  | .char '\x0c' => [.char '\\', .char 'f']
  | .char '\n' => [.char '\\', .char 'n']
  | .char '\r' => [.char '\\', .char 'r']
  | .char '\t' => [.char '\\', .char 't']
  | p =>
    if p.code < 0x20 then Text.toPoints ('\\' :: 'u' :: Text.ofNatPadded 16 4 p.code) else [p]

def encodeString (s : Points) : Points :=
  .char '"' :: (s.flatMap encodePoint ++ [.char '"'])

/-- A line break with the indentation of a level. -/
def newline (level : Nat) : Points := .char '\n' :: List.replicate (4 * level) (.char ' ')

mutual

/-- A value that begins on a line of a level. -/
def write (level : Nat) : Json → Points
  | .null => Text.toPoints "null".toList
  | .bool true => Text.toPoints "true".toList
  | .bool false => Text.toPoints "false".toList
  | .int n => Text.toPoints (Text.ofInt n)
  | .float x => Text.toPoints (x.write names)
  | .text s => encodeString s
  | .list [] => [.char '[', .char ']']
  | .list (v :: vs) =>
    .char '[' :: (writeItems (level + 1) (v :: vs) ++ (newline level ++ [.char ']']))
  | .object [] => [.char '{', .char '}']
  | .object (f :: fs) =>
    .char '{' :: (writeFields (level + 1) (f :: fs) ++ (newline level ++ [.char '}']))

def writeItems (level : Nat) : List Json → Points
  | [] => []
  | [v] => newline level ++ write level v
  | v :: w :: vs => newline level ++ (write level v ++ .char ',' :: writeItems level (w :: vs))

def writeFields (level : Nat) : List (Points × Json) → Points
  | [] => []
  | [(k, v)] => newline level ++ (encodeString k ++ .char ':' :: .char ' ' :: write level v)
  | (k, v) :: f :: fs =>
    newline level ++ (encodeString k ++ .char ':' :: .char ' ' :: (write level v ++
      .char ',' :: writeFields level (f :: fs)))

end

/-- A value as a text of its own. -/
def print (v : Json) : Points := write 0 v

end Letterhead.Json
