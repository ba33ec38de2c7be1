import Letterhead.Command.Basic
import Letterhead.Licence.Bundled
import Letterhead.Php.Tree
/-
# The program

The outer layer: takes a picture of the parts of the disk that a run asks for,
lets the run have it, and does to the disk what the run did to the picture.
-/
namespace Letterhead.Main

open Text.Utf8 (Bytes)

/-- The value of an action, or another one where it fails. -/
def orElse {α : Type} (action : IO α) (otherwise : α) : IO α :=
  try action catch _ => pure otherwise

/-! ## Taking the picture -/

/-- The target of a link: where it leads, or a name that no file has. -/
def linkTarget (path : String) : IO Text := do
  let target ← orElse (do return (← IO.FS.realPath path).toString) path
  return if target = path then ['\x00'] else target.toList

/-- The entry at a path, with everything below it. -/
partial def picture (path : String) : IO FileTree := do
  let entry ← orElse (do return some (← IO.FS.realPath path)) none
  match entry with
  | none => return .link ['\x00']
  | some real =>
    if ← real.isDir then
      match ← orElse (do return some (← real.readDir)) none with
      | none => return .folder ⟨false, true, true⟩ []
      | some children => return .folder .full (← children.toList.mapM child)
    else
      match ← orElse (do return some (← IO.FS.readBinFile real)) none with
      | some bytes => return .file ⟨true, true, false⟩ bytes.toList
      | none => return .file ⟨false, true, false⟩ []
where
  /-- The entry of a folder with its name; links are not followed. -/
  child (e : IO.FS.DirEntry) : IO (Text × FileTree) := do
    let below := path ++ "/" ++ e.fileName
    let kind ← orElse (do return some (← e.path.symlinkMetadata).type) none
    let t ← if kind == some .symlink then return (e.fileName.toList, .link (← linkTarget below))
      else picture below
    return (e.fileName.toList, t)

/-- Puts what a path leads to in the picture, at the place where it really is; a
path that gets there through links is put as one. -/
def enclose (root : FileTree) (cwd : Path) (p : Path) : IO FileTree := do
  let full := cwd.join p
  let written := String.ofList full.text
  let real ← orElse (do return some (← IO.FS.realPath written).toString) none
  match real with
  | none => return root
  | some real =>
    if !(← orElse (do return (← (← IO.FS.realPath written).pathExists)) false) then return root
    let place := Path.namesOf real.toList
    let t ← picture real
    let root := if (root.at? place).isSome then root else FileTree.put t place root
    return if (root.at? full.names).isSome then root
      else FileTree.put (.link real.toList) full.names root

/-! ## What is agreed on -/

def settingOf (name : String) : IO Environment := do
  return match ← IO.getEnv name with
    | some value => [(name.toList, value.toList)]
    | none => []

/-- The names of the variables that a run looks at. -/
def variableNames : List String :=
  ["HOME", "NO_COLOR"] ++ (Config.fields (Config.standard [])).map fun f =>
    String.ofList (Config.environmentMark ++ Text.upperAscii f.name)

/-- A folder that the environment names, or one below the home folder. -/
def folderOf (name otherwise : String) : IO Path := do
  match ← IO.getEnv name with
  | some value => return .ofText value.toList
  | none =>
    let home := (← IO.getEnv "HOME").getD "/"
    return (Path.ofText home.toList).join (.ofText otherwise.toList)

/-- The moment at which a file was last written. -/
def momentOf (path : String) : IO (Date × Time) := do
  let place ← IO.FS.realPath path
  let seconds := (← place.metadata).modified.sec.toNat
  let inDay := seconds % 86400
  return (.ofDayNumber (seconds / 86400), ⟨inDay / 3600, inDay / 60 % 60, inDay % 60, 0⟩)

def stampOf (d : Date) (t : Time) : Text :=
  let dashed (s : Text) : Text := s.map fun c => if c = ':' then '-' else c
  d.standard ++ '_' :: dashed t.standard

/-- The home folders in the list of accounts. -/
def homes : IO (List (Text × Text)) := do
  let accounts ← orElse (IO.FS.readFile "/etc/passwd") ""
  return (Text.splitOn '\n' accounts.toList).filterMap fun account =>
    match Text.splitOn ':' account with
    | name :: _ :: _ :: _ :: _ :: home :: _ => some (name, home)
    | _ => none

/-- What the run finds, but for the files that arguments name. -/
def machine : IO Machine := do
  let cwd := Path.ofText (← IO.currentDir).toString.toList
  let assets := (Path.ofText (← IO.appPath).toString.toList).names.dropLast ++ ["assets".toList]
  let bundled : FileTree := .folder .full (Licence.Bundled.files.map fun f =>
    (f.1, .file ⟨true, false, false⟩ (Text.Utf8.encode f.2)))
  let own : List Text := ["headerstamp".toList]
  let config ← folderOf "XDG_CONFIG_HOME" ".config"
  let state ← folderOf "XDG_STATE_HOME" ".local/state"
  let logFolder := state.join ⟨.here, own ++ ["log".toList]⟩
  let clock := String.ofList (logFolder.join ⟨.here, ["clock".toList]⟩).text
  IO.FS.createDirAll (String.ofList logFolder.text)
  IO.FS.writeFile clock ""
  let (date, time) ← momentOf clock
  IO.FS.removeFile clock
  let environment ← variableNames.mapM settingOf
  let root ← enclose (FileTree.put bundled assets .emptyFolder) (.ofRoot []) cwd
  return {
    disk := ⟨root, cwd.names⟩
    environment := environment.flatten
    year := date.year
    moment := stampOf date time
    assets := .ofRoot assets
    userConfig := config.join ⟨.here, own ++ Config.localFile.names⟩
    logFolder := logFolder
    homes := ← homes }

/-- The machine with more files in the picture. -/
def extended (m : Machine) (paths : List Path) : IO Machine := do
  let root ← paths.foldlM (fun root p => enclose root (.ofRoot m.disk.cwd) p) m.disk.root
  return { m with disk := { m.disk with root := root } }

/-! ## Doing what the run did -/

def filesOf (t : FileTree) : List (Text × Bytes) :=
  t.leaves.filterMap fun (names, leaf) => match leaf with
    | .file _ bytes => some ((Path.ofRoot names).text, bytes)
    | _ => none

/-- Writes the files that differ. -/
def writeBack (before after : FileTree) : IO Unit := do
  let old := filesOf before
  for (path, bytes) in filesOf after do
    unless old.lookup path == some bytes do
      IO.FS.writeBinFile (String.ofList path) ⟨bytes.toArray⟩

/-- The text of the log file. -/
def logText (log : Log) : String :=
  String.join (log.map fun m => String.ofList m.text ++ "\n")

/-- What is left to say of a run that ends in a crash. -/
def Crash.report (c : Crash) : IO UInt32 := do
  IO.eprintln (String.ofList c.message)
  return 1

def run (args : List String) : IO UInt32 := do
  let args := args.map String.toList
  let m ← machine
  let m ← extended m (Command.firstPaths m args)
  let m ← extended m (Command.secondPaths m args)
  let r := Command.run Php.read m .initial args
  writeBack m.disk.root r.disk.root
  r.shown.forM fun line => IO.println (String.ofList line)
  IO.print (String.ofList r.printed)
  unless r.log.isEmpty do
    let name := Command.updateName ++ '_' :: m.moment ++ ".log".toList
    IO.FS.writeFile (String.ofList (m.logFolder.join ⟨.here, [name]⟩).text) (logText r.log)
  match r.ending with
  | .exit status => return status.toUInt32
  | .raised (.crash c) => Crash.report c
  | .raised (.failure f) => do
    IO.eprintln (String.ofList f.message)
    return 1

end Letterhead.Main

def main (args : List String) : IO UInt32 := Letterhead.Main.run args
