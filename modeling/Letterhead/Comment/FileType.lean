import Letterhead.Text.Case
/-
# File types and their comments

What the library knows about a file type: how a block comment is written in
its syntax, and which delimiters a fresh header gets. The second pair is the
first one in doc block form, so that a header is a comment of the type.
-/
namespace Letterhead

/-- What opens and what closes a comment. -/
structure Delimiters where
  opening : Text
  closing : Text
deriving DecidableEq, Repr

/-- The comment conventions of one syntax (`FileTypeProfile`). -/
structure Profile where
  name : Text
  /-- A block comment of the syntax. -/
  comment : Delimiters
  /-- The delimiters written around a fresh header. -/
  header : Delimiters
  /-- What stands in place of the star that leads each line of a doc block. -/
  continuation : Option Text
deriving DecidableEq, Repr

/-- The file types with known comments. -/
inductive FileType
  | php | js | ts | css | scss | json | tpl | twig | html
deriving DecidableEq, Repr

namespace FileType

def all : List FileType := [php, js, ts, css, scss, json, tpl, twig, html]

def name : FileType → Text
  | php => "php".toList
  | js => "js".toList
  | ts => "ts".toList
  | css => "css".toList
  | scss => "scss".toList
  | json => "json".toList
  | tpl => "tpl".toList
  | twig => "twig".toList
  | html => "html".toList

def ofName? (name : Text) : Option FileType := all.find? fun t => t.name == name

/-- The comment convention of a type (`profile_for`). -/
def profile (t : FileType) : Profile :=
  match t with
  | tpl => ⟨t.name, ⟨['{', '*'], ['*', '}']⟩, ⟨['{', '*', '*'], ['*', '}']⟩, none⟩
  | twig => ⟨t.name, ⟨['{', '#'], ['#', '}']⟩, ⟨['{', '#'], ['#', '}']⟩, some ['#']⟩
  | html =>
    ⟨t.name, ⟨['<', '!', '-', '-'], ['-', '-', '>']⟩,
      ⟨['<', '!', '-', '-', '*', '*'], ['*', '-', '-', '>']⟩, none⟩
  | _ => ⟨t.name, ⟨['/', '*'], ['*', '/']⟩, ⟨['/', '*', '*'], ['*', '/']⟩, none⟩

/-- The extensions with a type (`EXTENSION_TYPES`); two of them stand for templates of
another language. -/
def extensions : List (Text × FileType) :=
  [("php".toList, php), ("js".toList, js), ("ts".toList, ts), ("css".toList, css),
   ("scss".toList, scss), ("json".toList, json), ("tpl".toList, tpl),
   ("html.twig".toList, twig), ("twig".toList, twig), ("vue".toList, html),
   ("html".toList, html)]

/-- The type of an extension as it is configured (`type_for_extension`), in any case and
with any number of leading dots. -/
def ofExtension? (extension : Text) : Option FileType :=
  extensions.lookup ((Text.lower extension).dropWhile (· == '.'))

end FileType
end Letterhead
