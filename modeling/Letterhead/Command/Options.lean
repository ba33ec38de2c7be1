import Letterhead.Text.Basic
/-
# Options on the command line

Arguments that begin with a hyphen name options. A flag stands alone, and every
other option takes a value: what follows an equals sign, or else the next
argument, whatever it looks like. Options of one letter can share a hyphen.

It stands in for the option parser that the program relies on, which is not part of it. What is
proved of a run is proved of `Command.update`, which is given the settings that options come to,
and rests on nothing below.
-/
namespace Letterhead

/-- An option: its names with their hyphens, and whether it takes a value. -/
structure OptionSpec where
  names : List Text
  takesValue : Bool
deriving DecidableEq, Repr

/-- An option that was given, with its value if it takes one. -/
structure Given where
  option : OptionSpec
  value : Text
deriving DecidableEq, Repr

namespace Options

def isShort (name : Text) : Bool := name.length == 2 && name.take 2 != ['-', '-']

/-- The option with a name that passes a test. -/
def named? (specs : List OptionSpec) (test : Text → Bool) (name : Text) : Option OptionSpec :=
  specs.find? fun o => test name && o.names.contains name

/-- An argument cut at its first equals sign. -/
def splitValue (arg : Text) : Text × Option Text :=
  let name := arg.takeWhile (· != '=')
  (name, if name.length < arg.length then some (arg.drop (name.length + 1)) else none)

/-- The flags that the letters behind one hyphen name, if each names one. -/
def cluster? (specs : List OptionSpec) (letters : Text) : Option (List Given) :=
  letters.mapM fun c =>
    match named? specs isShort ['-', c] with
    | some o => if o.takesValue then none else some ⟨o, []⟩
    | none => none

/-- What an argument that begins with a hyphen gives: options, or one that takes
its value from the next argument. -/
inductive Reading
  | given (options : List Given)
  | pending (option : OptionSpec)

/-- Reads an argument that begins with a hyphen, if it names options. -/
def reading? (specs : List OptionSpec) (arg : Text) : Option Reading :=
  let (name, value) := splitValue arg
  match named? specs (fun n => !isShort n) name with
  | some o =>
    match o.takesValue, value with
    | true, some v => some (.given [⟨o, v⟩])
    | true, none => some (.pending o)
    | false, some _ => none
    | false, none => some (.given [⟨o, []⟩])
  | none =>
    if arg.take 2 == ['-', '-'] then none else (cluster? specs arg.tail).map .given

/-- What a list of arguments gives. -/
structure Parsed where
  options : List Given
  arguments : List Text
deriving DecidableEq, Repr

/-- The parse with options in front. -/
def Parsed.after (given : List Given) (p : Parsed) : Parsed :=
  { p with options := given ++ p.options }

/-- Parses arguments. An argument that is no option ends the options, unless they
may be mixed; two hyphens alone end them in any case. -/
def parse? (specs : List OptionSpec) (mixed : Bool) : List Text → Option Parsed
  | [] => some ⟨[], []⟩
  | arg :: args =>
    if arg = ['-', '-'] then some ⟨[], args⟩
    else if arg.head? = some '-' && 1 < arg.length then
      match reading? specs arg with
      | none => none
      | some (.given given) => (parse? specs mixed args).map (Parsed.after given)
      | some (.pending o) =>
        match args with
        | [] => none
        | v :: rest => (parse? specs mixed rest).map (Parsed.after [⟨o, v⟩])
    else if mixed then
      (parse? specs mixed args).map fun p => { p with arguments := arg :: p.arguments }
    else some ⟨[], arg :: args⟩

namespace Parsed

def has (p : Parsed) (o : OptionSpec) : Bool := p.options.any fun g => g.option == o

/-- The last value that was given for an option. -/
def value? (p : Parsed) (o : OptionSpec) : Option Text :=
  ((p.options.filter fun g => g.option == o).getLast?).map Given.value

end Parsed
end Options
end Letterhead
