import Letterhead.Disk.Basic
/-
# Failures

A run that cannot go on halts in one of two ways. A failure is an answer to
the user, with a message and advice; a crash is what no one has provided for,
and is passed on as it is.
-/
namespace Letterhead

/-- The kinds of failures. -/
inductive FailureKind
  | general
  | configuration
  | licenceNotFound
  | licenceNotReadable
  | target
  | unsupportedType
  | brokenSource
  | encoding
deriving DecidableEq, Repr

namespace FailureKind

/-- The kind that a kind is a case of. -/
def parent? : FailureKind → Option FailureKind
  | general => none
  | configuration | unsupportedType | brokenSource | encoding => some general
  | licenceNotFound | licenceNotReadable | target => some configuration

end FailureKind

/-- A failure (`HeaderStampError`). -/
structure Failure where
  kind : FailureKind
  message : Text
  details : Option Text
deriving DecidableEq, Repr

namespace Failure

/-- No candidate for the licence is a file (`license_file_not_found`). -/
def licenceNotFound (path : Text) : Failure :=
  ⟨.licenceNotFound, "File ".toList ++ path ++ " does not exist.".toList,
    some ("Pass an existing file with --license, ".toList ++
      "relative paths are resolved from the current directory".toList)⟩

/-- The licence file is there and cannot be read (`license_file_not_readable`). -/
def licenceNotReadable (path : Text) : Failure :=
  ⟨.licenceNotReadable, "File ".toList ++ path ++ " cannot be read.".toList,
    some "Check the file permissions".toList⟩

/-- The target is no folder that can be read (`target_not_found`). -/
def targetNotFound (path : Text) : Failure :=
  ⟨.target, "Target directory not found: ".toList ++ path,
    some "Please check that the path exists and is a readable directory".toList⟩

/-- Nothing is known of the comments of a type or extension (`unsupported_file_type`). -/
def unsupportedType (name : Text) : Failure :=
  ⟨.unsupportedType, "Unsupported file type: ".toList ++ name,
    some "Check the --extensions option, only known extensions can be processed".toList⟩

/-- The source of a file cannot be parsed (`HeaderSyntaxError`). -/
def brokenSource (line : Nat) : Failure :=
  ⟨.brokenSource, "Syntax error in PHP content".toList,
    some ("First error near line ".toList ++ Text.ofNat line)⟩

/-- A setting is refused (`ConfigurationError`). -/
def configuration (message : Text) : Failure := ⟨.configuration, message, none⟩

end Failure

/-- What is passed on as it is. -/
inductive Crash
  /-- Bytes that encode no text. -/
  | undecodable (fault : Text.Utf8.Fault)
  /-- A text that has no encoding. -/
  | unencodable
  /-- An integer of more digits than are converted. -/
  | hugeInteger
  /-- A document or a value that is nested too deep for the stack. -/
  | tooDeep
  /-- A home folder that is not known. -/
  | unknownHome
  /-- The name of a user that holds a null character, so that no system can be asked. -/
  | nullInName
  | path (fault : PathFault)
deriving DecidableEq, Repr

def Crash.message : Crash → Text
  | undecodable f => f.message
  | unencodable => "a text that no encoding has".toList
  | hugeInteger => "an integer has too many digits".toList
  | tooDeep => "maximum recursion depth exceeded".toList
  | unknownHome => "Could not determine home directory.".toList
  | nullInName => "embedded null byte".toList
  | path f => f.message

/-- Why a run does not go on. -/
inductive Halt
  | failure (f : Failure)
  | crash (c : Crash)
deriving DecidableEq, Repr

end Letterhead
