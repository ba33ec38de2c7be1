import Letterhead.Config.Basic
import Letterhead.Toml.Reader
import Letterhead.Log
import Letterhead.Machine
/-
# Loading the configuration

The sources in order: arguments, a configuration file that is named on the way,
the file of the current folder, the environment, and the file of the user.
-/
namespace Letterhead

namespace Config

/-- What the names of settings in the environment begin with (`ENV_APP_PREFIX`). -/
def environmentMark : Text := "HEADERSTAMP_".toList

/-- The settings in an environment (`ConfigLoader.load_env`): names begin with a mark, in
any case. -/
def ofEnvironment (mark : Text) (env : Environment) : Table :=
  env.foldl (fun t e =>
    if (Text.lower mark).isPrefixOf (Text.lower e.1) then
      t.put (Text.lower (e.1.drop mark.length)) (.text e.2)
    else t) []

/-- The settings in the bytes of a file, or what keeps them from being read. Without an
answer the document is not well formed. -/
def ofBytes (m : Machine) (bytes : Text.Utf8.Bytes) : Except Crash (Option Table) :=
  match Text.Utf8.decode bytes with
  | .error f => .error (.undecodable f)
  | .ok s =>
    if m.deepDocument s then .error .tooDeep
    else match Toml.read s with
      | .ok t => .ok (some t)
      | .error .hugeInteger => .error .hugeInteger
      | .error .invalid => .ok none

/-- The settings in a file (`ConfigLoader.load_toml`). A file that is missing or not well
formed has none. -/
def ofFile (m : Machine) (p : Path) : Except Crash Table × Log :=
  match m.disk.leads p with
  | .error e => (.error (.path e), [])
  | .ok false => (.ok [], [.debug (p.text ++ " does not exist".toList)])
  | .ok true => match m.disk.read p with
    | .error e => (.error (.path e), [])
    | .ok bytes => match ofBytes m bytes with
      | .error c => (.error c, [])
      | .ok (some t) => (.ok t, [])
      | .ok none =>
        (.ok [],
          [.warning ("Failed to load ".toList ++ p.text ++ ": not a valid document".toList)])

def localFile : Path := Path.ofText "headerstampconfig.toml".toList

/-- A source and what it is called. -/
structure Source where
  name : Text
  table : Table

/-- What a source holds, for those who look for a fault. `ConfigLoader.get_full_config`
words it whether or not anyone looks. -/
def Source.note (s : Source) : Message :=
  .debug ("name=".toList ++ Text.quoted s.name ++ " source=".toList ++
    (Setting.table s.table).shown)

/-- Why the note on a source cannot be written, if it cannot. -/
def Source.crash? (m : Machine) (s : Source) : Option Crash :=
  if m.deepTable s.table then some .tooDeep
  else if (Setting.table s.table).isShowable then none
  else some .hugeInteger

/-- The sources in order, or what keeps them from being read
(`ConfigLoader.get_full_config`). -/
def sources (m : Machine) (arguments : Table) (custom : Option Path) :
    Except Halt (List Source) × Log :=
  match ofFile m localFile with
  | (.error c, log) => (.error (.crash c), log)
  | (.ok localTable, log₁) =>
    let env := ofEnvironment environmentMark m.environment
    match ofFile m m.userConfig with
    | (.error c, log) => (.error (.crash c), log₁ ++ log)
    | (.ok userTable, log₂) =>
      let first : Source := ⟨"Input Args".toList, arguments⟩
      let rest : List Source := [⟨"Local Config".toList, localTable⟩,
        ⟨"Environment Variables".toList, env⟩, ⟨"Global Config".toList, userTable⟩]
      match custom with
      | none => (.ok (first :: rest), log₁ ++ log₂)
      | some p => match m.disk.leads p with
        | .error e => (.error (.crash (.path e)), log₁ ++ log₂)
        | .ok false =>
          (.error (.failure (.configuration
            ("Custom config file not found: ".toList ++ p.text))), log₁ ++ log₂)
        | .ok true => match ofFile m p with
          | (.error c, log) => (.error (.crash c), log₁ ++ log₂ ++ log)
          | (.ok t, log₃) =>
            (.ok (first :: ⟨"Custom Config".toList, t⟩ :: rest), log₁ ++ log₂ ++ log₃)

/-- A configuration with the names of the sources that decided something, and
whether some key is in no source. -/
structure Loaded where
  config : Config
  sources : List Text
  defaults : Bool

/-- The licence file that is used where none is configured (`DEFAULT_LICENSE_FILE`). -/
def defaultLicence (m : Machine) : Text := (m.assets.join (.ofText "osl.txt".toList)).text

/-- What a value that is refused comes to: a failure whose message shows the value, if that
can be shown. -/
def refusal (f : SettingFault) : Halt :=
  if f.isShowable then .failure (.configuration f.message) else .crash .hugeInteger

/-- What sources come to (`ConfigLoader.build`). -/
def ofSources (base : Config) (sources : List Source) : Except Halt Loaded :=
  match Merged.merge base.fields (sources.map Source.table) with
  | .error f => .error (refusal f)
  | .ok merged =>
    .ok ⟨base.withValues merged.values,
      merged.used.filterMap fun i => (sources[i]?).map Source.name, merged.defaults⟩

/-- The configuration of a run (`ConfigLoader.get_full_config`). The sources are noted before
they are merged, so that one which cannot be shown keeps the others from being used. -/
def load (m : Machine) (arguments : Table) (custom : Option Path) : Except Halt Loaded × Log :=
  match sources m arguments custom with
  | (.error h, log) => (.error h, log)
  | (.ok ss, log) =>
    let noted := ss.takeWhile fun s => (s.crash? m).isNone
    let result := match ss.findSome? (Source.crash? m) with
      | some c => .error (.crash c)
      | none => ofSources (standard (defaultLicence m)) ss
    (result, log ++ noted.map Source.note)

end Config
end Letterhead
