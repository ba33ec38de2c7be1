import Letterhead.Update.Session
/-
# The update

One search of the target for each extension, and each file processed once, for
the first extension that finds it. Extensions are known before the first search,
so that an unknown one fails before anything is written.
-/
namespace Letterhead.Update

open Session (Step Treatment)

/-- An extension with its type. -/
structure Kind where
  extension : Text
  fileType : FileType
deriving DecidableEq, Repr

/-- The extensions of a list with their types, each extension once. -/
def kinds : List Text → Except Halt (List Kind)
  | extensions => (extensions.mapM kindOf).map List.eraseDups
where
  /-- The type of an extension. -/
  kindOf (extension : Text) : Except Halt Kind :=
    match FileType.ofExtension? extension with
    | some t => .ok ⟨extension, t⟩
    | none => .error (.failure (.unsupportedType extension))

/-- The types whose files get headers, each once. -/
def stampedTypes (ks : List Kind) : List FileType :=
  ((ks.map Kind.fileType).filter (· ≠ .json)).eraseDups

/-- What is done to the files of a type. -/
def treatmentOf (stamps : List Stamp) (t : FileType) : Treatment :=
  match stamps.find? fun s => s.fileType == t with
  | some s => .stamp s
  | none => .patch

/-- Whether a file that was found is processed: of the JSON files, manifests only. -/
def isCandidate (t : FileType) (file : RelPath) : Bool :=
  t != .json || Manifest.isFileName (file.getLast?.getD [])

/-- Counts a file in the last task (`progress_task`). -/
def advance (s : Session) : Session :=
  match s.progress.getLast? with
  | some task =>
    { s with progress := s.progress.dropLast ++ [{ task with advanced := task.advanced + 1 }] }
  | none => s

/-- Processes the files that were found for an extension. -/
def processAll (j : Job) (year : Nat) (t : Treatment) (fileType : FileType) :
    List RelPath → Session → Step
  | [], s => (s, none)
  | file :: files, s =>
    let step : Step :=
      if isCandidate fileType file then Session.processFile j year t s file else (s, none)
    step.andThen fun s => processAll j year t fileType files (advance s)

def starting (part : Text) : Message := .debug ("Starting ".toList ++ part)

def finished (part : Text) : Message :=
  .debug ("Finished ".toList ++ part ++ ". Timing(ms)=0".toList)

/-- Notes where a part of the work begins and where it ends, however it ends (`time_block`).
-/
def noted (part : Text) (work : Session → Step) (s : Session) : Step :=
  let (s, halt) := work (s.say [starting part])
  (s.say [finished part], halt)

/-- Takes up the files of an extension. -/
def enlist (j : Job) (extension : Text) (files : List RelPath) (s : Session) : Session :=
  let s := { s with handled := s.handled ++ files }.say
    [.debug ("Found ".toList ++ Text.ofNat files.length ++ ' ' :: extension ++ " files".toList)]
  if j.silent then s
  else
    let title := "Updating license in ".toList ++ Text.upperAscii extension ++ " files".toList
    { s with progress := s.progress ++ [⟨title, files.length, 0⟩] }

/-- Brings the files of an extension up to date (`UpdatePipeline._update_extension`). -/
def updateKind (j : Job) (year : Nat) (stamps : List Stamp) (k : Kind) (s : Session) : Step :=
  let found := j.finder.find s.disk k.extension
  let files := found.filter fun f => !s.handled.contains f
  let s := s.say ((j.finder.notes s.disk k.extension).map Message.debug)
  processAll j year (treatmentOf stamps k.fileType) k.fileType files
    (enlist j k.extension files s)

def updateKinds (j : Job) (year : Nat) (stamps : List Stamp) : List Kind → Session → Step
  | [], s => (s, none)
  | k :: ks, s =>
    Step.andThen (noted ("update ".toList ++ k.extension) (updateKind j year stamps k) s)
      (updateKinds j year stamps ks)

/-- Does a job (`UpdatePipeline.run`). -/
def run (read : Php.Reader) (d : Disk) (year : Nat) (j : Job) : Step :=
  let s := Session.start d j.licence
  match kinds j.extensions with
  | .error h => (s, some h)
  | .ok ks =>
    let a := j.licence.stamps read j.marker d year ((stampedTypes ks).map FileType.name)
    let s := { s with licence := a.licence }.say a.log
    match a.result with
    | .error h => (s, some h)
    | .ok stamps => updateKinds j year stamps ks s

end Letterhead.Update
