import Letterhead.Json.Reader
import Letterhead.Json.Writer
import Letterhead.Text.Case
import Letterhead.Failure
/-
# Package manifests

A manifest holds no comment, so its licence is a field. Patching sets the
author and the licence and leaves every other field, with its place, as it is.
-/
namespace Letterhead.Manifest

/-- The file names of manifests (`MANIFEST_FILENAMES`). -/
def fileNames : List Text := ["composer.json".toList, "package.json".toList]

/-- Whether a file of this name is a manifest (`is_manifest`). -/
def isFileName (name : Text) : Bool := fileNames.contains name

/-- The identifier of the licence in a file (`license_identifier`): its path names one of
two families. -/
def licenceIdentifier (licencePath : Text) : Text :=
  if Text.includes (Text.lower licencePath) "afl".toList then "AFL-3.0".toList
  else "OSL-3.0".toList

/-- Why a manifest is not patched. -/
inductive Fault
  | invalid (cause : Json.Cause) (offset line column : Nat)
  | notObject (kindName : Text)
  /-- An integer has more digits than are converted. -/
  | hugeInteger
deriving DecidableEq, Repr

def textValue (s : String) : Json := .text (Text.toPoints s.toList)

/-- The author of every manifest (`MANIFEST_AUTHOR`). -/
def author : Json :=
  .object [(Text.toPoints "name".toList, textValue "PrestaShop SA"),
    (Text.toPoints "email".toList, textValue "contact@prestashop.com")]

/-- Sets the two fields. -/
def patchFields (identifier : Text) (fields : List (Points × Json)) : List (Points × Json) :=
  Json.put (Text.toPoints "license".toList) (.text (Text.toPoints identifier))
    (Json.put (Text.toPoints "author".toList) author fields)

/-- The patched text (`patch_manifest`); it ends its last line where the old one does. -/
def patch (licencePath : Text) (content : Points) : Except Fault Points :=
  match Json.read content with
  | .error (.malformed cause offset line column) => .error (.invalid cause offset line column)
  | .error .hugeInteger => .error .hugeInteger
  | .ok (.object fields) =>
    let patched := Json.print (.object (patchFields (licenceIdentifier licencePath) fields))
    .ok (if content.getLast? = some (.char '\n') then patched ++ [.char '\n'] else patched)
  | .ok v => .error (.notObject v.kindName)

def Fault.halt : Fault → Halt
  | .invalid cause offset line column =>
    .failure ⟨.encoding, "Invalid JSON manifest".toList,
      some (cause.message ++ ": line ".toList ++ Text.ofNat line ++ " column ".toList ++
        Text.ofNat column ++ " (char ".toList ++ Text.ofNat offset ++ [')'])⟩
  | .notObject kind =>
    .failure ⟨.encoding, "JSON manifest is not an object".toList,
      some ("Top level value is a ".toList ++ kind)⟩
  | .hugeInteger => .crash .hugeInteger

end Letterhead.Manifest
