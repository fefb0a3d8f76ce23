import UtilityCss.Project.Basic

/-!
# Command-line arguments

A command is a word behind options that hold for every command, followed by options of its own and
by positional arguments in any order. An option has a long name, most have a letter, and some take
a value. Letters may be written together; behind a letter or an equals sign the rest of an argument
is the value. Behind two hyphens every argument is positional.
-/

namespace UtilityCss

namespace CommandLine

/-- An option: its long name, its letter, and whether it takes a value. -/
structure OptionSpec where
  long : Text
  letter : Option Char
  takesValue : Bool

/-- The arguments of a command sorted: each option with its value, and the positional arguments. -/
structure Sorted where
  options : List (Text × Text)
  positionals : List Text

namespace Sorted

def empty : Sorted :=
  ⟨[], []⟩

def withOption (name value : Text) (sorted : Sorted) : Sorted :=
  { sorted with options := (name, value) :: sorted.options }

/-- Arguments with one more positional argument in front. -/
def withPositional (argument : Text) (sorted : Sorted) : Sorted :=
  { sorted with positionals := argument :: sorted.positionals }

def value? (sorted : Sorted) (name : Text) : Option Text :=
  sorted.options.lookup name

def has (sorted : Sorted) (name : Text) : Bool :=
  (sorted.value? name).isSome

def isOnce (sorted : Sorted) : Bool :=
  (sorted.options.map Prod.fst).Nodup

end Sorted

/-- Whether an argument is written as an option. A single hyphen is not. -/
def looksLikeOption : Text → Bool
  | '-' :: _ :: _ => true
  | _ => false

/-- What an argument makes of the arguments: options, and possibly one that waits for its value in
the next argument. -/
structure Written where
  given : List (Text × Text)
  waiting : Option Text

def readLetters? (specs : List OptionSpec) : Text → Option Written
  | [] => some ⟨[], none⟩
  | letter :: rest =>
    (specs.find? fun spec => spec.letter == some letter).bind fun spec =>
      if spec.takesValue then
        match rest with
        | [] => some ⟨[], some spec.long⟩
        | '=' :: value => some ⟨[(spec.long, value)], none⟩
        | value => some ⟨[(spec.long, value)], none⟩
      else
        (readLetters? specs rest).map fun written =>
          { written with given := (spec.long, []) :: written.given }

/-- Reads a long option behind its two hyphens. -/
def readLong? (specs : List OptionSpec) (argument : Text) : Option Written :=
  let name := argument.takeWhile (· != '=')
  (specs.find? fun spec => spec.long == name).bind fun spec =>
    match argument.dropWhile (· != '='), spec.takesValue with
    | _ :: value, true => some ⟨[(spec.long, value)], none⟩
    | [], true => some ⟨[], some spec.long⟩
    | [], false => some ⟨[(spec.long, [])], none⟩
    | _ :: _, false => none

/-- Reads an argument that is written as an option. -/
def readOption? (specs : List OptionSpec) : Text → Option Written
  | '-' :: '-' :: name => readLong? specs name
  | '-' :: letters => readLetters? specs letters
  | _ => none

/-- Sorts arguments, where `waiting` names an option whose value comes next. -/
def sort? (specs : List OptionSpec) (waiting : Option Text) : List Text → Option Sorted
  | [] => if waiting.isSome then none else some .empty
  | argument :: rest =>
    match waiting with
    | some name =>
      if looksLikeOption argument then none
      else (sort? specs none rest).map (.withOption name argument)
    | none =>
      if argument == ['-', '-'] then
        some (rest.foldr Sorted.withPositional .empty)
      else if looksLikeOption argument then
        (readOption? specs argument).bind fun written =>
          (sort? specs written.waiting rest).map fun sorted =>
            written.given.foldr (fun (name, value) => Sorted.withOption name value) sorted
      else
        (sort? specs none rest).map (.withPositional argument)

def verboseSpec : OptionSpec :=
  ⟨"verbose".toList, some 'v', false⟩

def configSpec : OptionSpec :=
  ⟨"config".toList, some 'c', true⟩

def outputSpec : OptionSpec :=
  ⟨"output".toList, some 'o', true⟩

/-- The option that asks for rebuilding on changes. -/
def watchSpec : OptionSpec :=
  ⟨"watch".toList, some 'w', false⟩

def forceSpec : OptionSpec :=
  ⟨"force".toList, none, false⟩

/-- A command. -/
inductive Command where
  | build (arguments : ProjectArguments) (watch : Bool)
  | check (classes : List Text) (manifestPath : Text)
  | init (root : Text) (force : Bool)

namespace Command

/-- A path that is given must not be empty. -/
def pathOption? (sorted : Sorted) (name : Text) : Option (Option Text) :=
  match sorted.value? name with
  | none => some none
  | some path => if path.isEmpty then none else some (some path)

/-- The single positional path, or the working directory. -/
def rootArgument? (sorted : Sorted) : Option Text :=
  match sorted.positionals with
  | [] => some ['.']
  | [path] => if path.isEmpty then none else some path
  | _ => none

/-- Reads the arguments of `build`. -/
def readBuild? (arguments : List Text) : Option Command := do
  let sorted ← sort? [verboseSpec, configSpec, outputSpec, watchSpec] none arguments
  let root ← rootArgument? sorted
  let manifestPath ← pathOption? sorted configSpec.long
  let output ← pathOption? sorted outputSpec.long
  if sorted.isOnce then
    some (build { root, manifestPath, output } (sorted.has watchSpec.long))
  else
    none

/-- Reads the arguments of `check`. -/
def readCheck? (arguments : List Text) : Option Command := do
  let sorted ← sort? [verboseSpec, configSpec] none arguments
  let manifestPath ← pathOption? sorted configSpec.long
  if sorted.isOnce && !sorted.positionals.isEmpty then
    some (check sorted.positionals (manifestPath.getD manifestFileName))
  else
    none

/-- Reads the arguments of `init`. -/
def readInit? (arguments : List Text) : Option Command := do
  let sorted ← sort? [verboseSpec, forceSpec] none arguments
  let root ← rootArgument? sorted
  if sorted.isOnce then some (init root (sorted.has forceSpec.long)) else none

/-- Reads the word of a command and its arguments. -/
def readNamed? (name : Text) (arguments : List Text) : Option Command :=
  if name == "build".toList then readBuild? arguments
  else if name == "check".toList then readCheck? arguments
  else if name == "init".toList then readInit? arguments
  else none

/-- Reads a command line: options that hold for every command, and a command. -/
def read? (arguments : List Text) : Option Command :=
  let options := arguments.takeWhile looksLikeOption
  match sort? [verboseSpec] none options, arguments.dropWhile looksLikeOption with
  | some sorted, name :: rest =>
    if sorted.isOnce && sorted.positionals.isEmpty && !options.contains ['-', '-'] then
      readNamed? name rest
    else
      none
  | _, _ => none

end Command

end CommandLine

end UtilityCss
