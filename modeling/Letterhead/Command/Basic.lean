import Letterhead.Command.Options
import Letterhead.Update.Run
import Letterhead.Report.Summary
/-
# The command

One run of the program from its arguments: what it does to the disk, what it
prints, what the console shows, and how it ends. `update` is the command itself, with the
settings that its options come to; `run` reads the options, by rules that stand in for those
of an option parser (`Options`).
-/
namespace Letterhead.Command

open Options (Parsed)

/-! ## What can be given -/

def valueOption (name : String) : OptionSpec := ⟨[name.toList], true⟩

def flagOption (names : List String) : OptionSpec := ⟨names.map String.toList, false⟩

def help : OptionSpec := flagOption ["--help"]
def version : OptionSpec := flagOption ["--version", "-V"]
def logFolder : OptionSpec := flagOption ["--log-dir", "-LD"]
def customConfig : OptionSpec := valueOption "--custom-config"
def verbose : OptionSpec := flagOption ["--verbose", "-v"]
def silent : OptionSpec := flagOption ["--silent", "-s"]
def licence : OptionSpec := valueOption "--license"
def target : OptionSpec := valueOption "--target"
def exclude : OptionSpec := valueOption "--exclude"
def notName : OptionSpec := valueOption "--not-name"
def extensions : OptionSpec := valueOption "--extensions"
def marker : OptionSpec := valueOption "--header-discrimination-string"
def dryRun : OptionSpec := flagOption ["--dry-run"]
def displayReport : OptionSpec := flagOption ["--display-report"]

/-- The options in front of the command. -/
def topOptions : List OptionSpec := [version, logFolder, customConfig, verbose, silent, help]

/-- The options of an update. -/
def updateOptions : List OptionSpec :=
  [licence, target, exclude, notName, extensions, marker, dryRun, displayReport, help]

def updateName : Text := "update".toList

/-! ## State of the terminal -/

/-- What earlier runs left: the theme and how much the console shows. -/
structure Terminal where
  theme : Theme
  console : Console
deriving DecidableEq, Repr

def Terminal.initial : Terminal := ⟨.classic, .nothing⟩

/-- Messages with the console to which they were given. -/
abbrev Said := List (Console × Log)

/-- The outcome of a run. -/
structure Result where
  ending : Ending
  printed : Text
  said : Said
  progress : List Task
  disk : Disk
  terminal : Terminal

def Result.shown (r : Result) : List Text := r.said.flatMap fun x => x.1.lines x.2

def Result.log (r : Result) : Log := r.said.flatMap (·.2)

/-- The outcome of a run that touches nothing. -/
def Result.ofEnding (m : Machine) (t : Terminal) (said : Said) (ending : Ending)
    (printed : Text) : Result :=
  ⟨ending, printed, said, [], m.disk, t⟩

/-! ## Texts -/

def versionLine : Text := "headerstamp version 0.1.0\n".toList

/-- The help that is printed when nothing else was asked for. -/
def helpText : Text :=
  Text.joinWith ['\n'] (["Usage: header-stamp [OPTIONS] COMMAND [ARGS]...", "",
    "Keep the license headers of your source files up to date.", "", "Commands:",
    "  update  Rewrite your file headers to add the license or to make them up-to-date",
    ""].map String.toList)

/-- The note on the log file of a run (`setup_logger`). -/
def logNote (m : Machine) : Message :=
  .debug ("Log File Created At: ".toList ++
    (m.logFolder.join (.ofText (updateName ++ '_' :: m.moment ++ ".log".toList))).text)

/-- Names in a list, as messages show it. -/
def shownNames (names : List Text) : Text := (Setting.list (names.map .text)).shown

/-- The note on what is about to be done. -/
def startNote (j : Job) (loaded : Licence.Loaded) : Message :=
  .debug ("Update command started: target=".toList ++ j.target.text ++ " license=".toList ++
    loaded.source.text ++ " dry_run=".toList ++ (Setting.bool j.dryRun).shown)

def customOf (top : Parsed) : Option Path := (top.value? customConfig).map Path.ofText

/-! ## The update -/

/-- The settings that were given as arguments (`setup_config_args`). An option that was not
given sets nothing. -/
def argumentsOf (top sub : Parsed) : Table :=
  let value (key : String) (o : OptionSpec) : Table :=
    match sub.value? o with
    | some v => [(key.toList, .text v)]
    | none => []
  let flag (key : String) (p : Parsed) (o : OptionSpec) : Table :=
    if p.has o then [(key.toList, .bool true)] else []
  value "license" licence ++ value "target" target ++ value "exclude" exclude ++
    value "not_name" notName ++ value "extensions" extensions ++
    value "header_discrimination_string" marker ++ flag "dry_run" sub dryRun ++
    flag "display_report" sub displayReport ++ flag "verbose" top verbose ++
    flag "silent" top silent

/-- The outcome of a run that halted before it touched anything. -/
def halted (m : Machine) (t : Terminal) (said : Said) (h : Halt) : Result :=
  let (announcement, ending) := h.settle true
  .ofEnding m t (said ++ [(t.console, announcement)]) ending []

/-- How a finished update ends: a dry run that found outdated headers does not pass. -/
def endingOf (dryRun : Bool) (r : Report) : Ending :=
  if dryRun && r.needsFixing then .exit 1 else .exit 0

/-- Ends an update whose report is printed line by line (`render_report`), up to one that
the output does not take. -/
def reported (m : Machine) (t : Terminal) (said : Said) (s : Session) (c : Config) : Result :=
  let lines := s.report.lines t.theme c.dryRun c.displayReport
  let ending :=
    if lines.all m.prints then endingOf c.dryRun s.report else .raised (.crash .unencodable)
  ⟨ending, (lines.takeWhile m.prints).flatMap Report.line, said, s.progress, s.disk, t⟩

/-- Does a job whose licence is loaded. -/
def perform (read : Php.Reader) (m : Machine) (t : Terminal) (said : Said) (c : Config)
    (job : Job) (loaded : Licence.Loaded) : Result :=
  let part := "Update Pipeline E2E".toList
  let (s, halt) := Update.run read m.disk m.year job
  let said := said ++ [(t.console,
    startNote job loaded :: Update.starting part :: (s.log ++ [Update.finished part]))]
  match halt with
  | some h =>
    let (announcement, ending) := h.settle true
    ⟨ending, [], said ++ [(t.console, announcement)], s.progress, s.disk, t⟩
  | none => reported m t said s c

/-- Makes and does the job of a configuration. -/
def updateWith (read : Php.Reader) (m : Machine) (t : Terminal) (said : Said)
    (c : Config.Loaded) : Result :=
  let used : Log := [logNote m,
    .debug ("Used ".toList ++ shownNames c.sources ++ " to build the update context.".toList)]
  let (job, log) := Job.ofConfig m c.config
  let said := said ++ [(t.console, used ++ log)]
  match job with
  | .error h => halted m t said h
  | .ok job =>
    match (job.licence.load m.disk m.year).result with
    | .error h => halted m t said h
    | .ok loaded => perform read m t said c.config job loaded

/-- The `update` command behind its options: loads the configuration and does the update.
The console is set up anew once the configuration is known. -/
def update (read : Php.Reader) (m : Machine) (t : Terminal) (noted : Log) (arguments : Table)
    (custom : Option Path) : Result :=
  let (config, log) := Config.load m arguments custom
  let said : Said := [(t.console, noted ++ log)]
  match config with
  | .error h => halted m t said h
  | .ok c =>
    let console := Console.ofFlags c.config.verbose c.config.silent
    updateWith read m { t with console := console } said c

/-! ## The program -/

def misuse : Nat := 2

/-- Runs an update with its own arguments. An option that asks for help in any
place keeps the options in front of the command from being seen. -/
def runUpdate (read : Php.Reader) (m : Machine) (t : Terminal) (all : List Text) (top : Parsed)
    (args : List Text) : Result :=
  let hidden := all.contains "--help".toList
  let top : Parsed := if hidden then ⟨[], []⟩ else top
  let t := if hidden then t
    else { t with console := Console.ofFlags (top.has verbose) (top.has silent) }
  let noted : Log := if hidden then [] else [logNote m]
  let ended (status : Nat) (printed : Text) : Result :=
    .ofEnding m t [(t.console, noted)] (.exit status) printed
  match Options.parse? updateOptions true args with
  | none => ended misuse []
  | some sub =>
    if sub.has help then ended 0 helpText
    else if !sub.arguments.isEmpty then ended misuse []
    else update read m t noted (argumentsOf top sub) (customOf top)

/-- The first option that answers at once (`version_callback`, `get_log_dir_callback`), in
the order given. -/
def immediate? (m : Machine) (top : Parsed) : Option Text :=
  top.options.findSome? fun g =>
    if g.option == help then some helpText
    else if g.option == version then some versionLine
    else if g.option == logFolder then some (m.logFolder.text ++ ['\n'])
    else none

/-- Runs the program with arguments (`run_app`). -/
def run (read : Php.Reader) (m : Machine) (t : Terminal) (args : List Text) : Result :=
  let t := { t with theme := t.theme.respecting (m.environment.get? "NO_COLOR".toList) }
  let ended (status : Nat) (printed : Text) : Result :=
    .ofEnding m t [] (.exit status) printed
  match Options.parse? topOptions false args with
  | none => ended misuse []
  | some top =>
    match immediate? m top with
    | some printed => ended 0 printed
    | none =>
      match top.arguments with
      | [] => ended 0 helpText
      | name :: rest =>
        if name = updateName then runUpdate read m t args top rest else ended misuse []

/-! ## Looking ahead -/

/-- The paths that a run with these arguments asks for before it knows its
configuration. -/
def firstPaths (m : Machine) (args : List Text) : List Path :=
  let custom := match Options.parse? topOptions false args with
    | some top => (customOf top).toList
    | none => []
  [Config.localFile, m.userConfig] ++ custom

/-- The paths that a run with these arguments asks for once it knows its
configuration. -/
def secondPaths (m : Machine) (args : List Text) : List Path :=
  match Options.parse? topOptions false args with
  | none => []
  | some top => match Options.parse? updateOptions true top.arguments.tail with
    | none => []
    | some sub => match (Config.load m (argumentsOf top sub) (customOf top)).1 with
      | .error _ => []
      | .ok c =>
        (m.expandHome (.ofText c.config.target)).toList ++
          (Licence.ofFile m.assets (.ofText c.config.licence)).candidates m.disk

end Letterhead.Command
