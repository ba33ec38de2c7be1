import Letterhead.Config.Sources
/-
# The configuration

What a run can be told: which licence goes on which files, and how much is said
about it.
-/
namespace Letterhead

/-- A configuration (`GlobalConfig`). -/
structure Config where
  licence : Text
  target : Text
  extensions : List Text
  exclude : List Text
  notName : List Text
  /-- A comment with this text is ours. -/
  marker : Text
  dryRun : Bool
  displayReport : Bool
  verbose : Bool
  silent : Bool
deriving DecidableEq, Repr

namespace Config

/-- The extensions of files with headers (`DEFAULT_EXTENSIONS`). -/
def defaultExtensions : List Text :=
  ["php", "js", "ts", "css", "scss", "tpl", "html.twig", "json", "vue"].map String.toList

/-- The text that tells our headers (`DEFAULT_DISCRIMINATION_STRING`). -/
def defaultMarker : Text := "NOTICE OF LICENSE".toList

/-- What holds where nothing is configured. -/
def standard (licence : Text) : Config :=
  ⟨licence, ['.'], defaultExtensions, [], [], defaultMarker, false, false, false, false⟩

def textField (name : String) (value : Text) : Field :=
  ⟨name.toList, .text false, some (.text value)⟩

def listField (name : String) (allowEmpty : Bool) (value : List Text) : Field :=
  ⟨name.toList, .list allowEmpty, some (.list (value.map .text))⟩

def flagField (name : String) (value : Bool) : Field := ⟨name.toList, .flag, some (.bool value)⟩

/-- The fields of a configuration, with its values for defaults. -/
def fields (c : Config) : List Field :=
  [textField "license" c.licence, textField "target" c.target,
   listField "extensions" false c.extensions, listField "exclude" true c.exclude,
   listField "not_name" true c.notName,
   textField "header_discrimination_string" c.marker,
   flagField "dry_run" c.dryRun, flagField "display_report" c.displayReport,
   flagField "verbose" c.verbose, flagField "silent" c.silent]

/-- The text of a key, where it is one. -/
def textOf (values : Table) (key : String) (otherwise : Text) : Text :=
  match values.get? key.toList with
  | some (.text s) => s
  | _ => otherwise

def listOf (values : Table) (key : String) (otherwise : List Text) : List Text :=
  match values.get? key.toList with
  | some (.list vs) => (Setting.texts? vs).getD otherwise
  | _ => otherwise

def flagOf (values : Table) (key : String) (otherwise : Bool) : Bool :=
  match values.get? key.toList with
  | some (.bool b) => b
  | _ => otherwise

/-- The configuration with the values of a table. -/
def withValues (c : Config) (values : Table) : Config where
  licence := textOf values "license" c.licence
  target := textOf values "target" c.target
  extensions := listOf values "extensions" c.extensions
  exclude := listOf values "exclude" c.exclude
  notName := listOf values "not_name" c.notName
  marker := textOf values "header_discrimination_string" c.marker
  dryRun := flagOf values "dry_run" c.dryRun
  displayReport := flagOf values "display_report" c.displayReport
  verbose := flagOf values "verbose" c.verbose
  silent := flagOf values "silent" c.silent

end Config
end Letterhead
