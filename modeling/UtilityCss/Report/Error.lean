import UtilityCss.Report.Diagnostic

/-!
# Errors

Every way in which a command or a reader can fail, as a cause. The wording, the code and the advice
of a failure are functions of its cause, so a statement about failures never mentions text.
-/

namespace UtilityCss

/-- The name of the file that holds a project's manifest. -/
def manifestFileName : Text :=
  "atomcss.yaml".toList

/-- The files that a command reads. -/
inductive ReadRole where
  | config
  | manifest
  | source
  deriving DecidableEq

/-- The things that a command writes. -/
inductive WriteRole where
  | outputDirectory
  | stylesheet
  | manifest
  deriving DecidableEq

/-- The documents that a reader takes apart. -/
inductive DocumentKind where
  | yamlConfig
  | jsonConfig
  | manifest
  deriving DecidableEq

/-- The cause of a failure. -/
inductive Error where
  | unreadable (role : ReadRole) (path : Text)
  | unwritable (role : WriteRole) (path : Text)
  | malformed (document : DocumentKind)
  | invalidConfig (violations : Diagnostics)
  | invalidGlob (pattern : Text)
  | unknownValue (name : Text)
  | manifestExists
  deriving DecidableEq

namespace Error

/-- The families into which failures fall. -/
inductive Family where
  | io
  | parse
  | config
  | unknownValue
  | build
  deriving DecidableEq

def Family.code : Family → Text
  | io => "atomcss::io".toList
  | parse => "atomcss::parse".toList
  | config => "atomcss::config".toList
  | unknownValue => "atomcss::value".toList
  | build => "atomcss::build".toList

def family : Error → Family
  | unreadable .. | unwritable .. => .io
  | malformed _ => .parse
  | invalidConfig _ | invalidGlob _ => .config
  | unknownValue _ => .unknownValue
  | manifestExists => .build

def readFailure : ReadRole → Text
  | .config => "Failed to read config".toList
  | .manifest => "Failed to read manifest".toList
  | .source => "Failed to read source".toList

def writeFailure : WriteRole → Text
  | .outputDirectory => "Failed to create output directory".toList
  | .stylesheet => "Failed to write stylesheet".toList
  | .manifest => "Failed to write manifest".toList

/-- The message of a failure at a path. -/
def atPath (path what : Text) : Text :=
  "IO error with ".toList ++ path ++ ": ".toList ++ what

/-- The message of a failure. -/
def message : Error → Text
  | unreadable role path => atPath path (readFailure role)
  | unwritable role path => atPath path (writeFailure role)
  | malformed .manifest => "Parse error: Invalid manifest".toList
  | malformed _ => "Parse error: Invalid config".toList
  | invalidConfig violations =>
    "Config error: ".toList ++ Text.join "; ".toList (violations.map Diagnostic.message)
  | invalidGlob pattern => "Config error: Invalid glob ".toList ++ Text.quoted pattern
  | unknownValue name =>
    "Unknown value ".toList ++ Text.quoted name ++ " in bracket template".toList
  | manifestExists => "Build error: ".toList ++ manifestFileName ++ " already exists".toList

def help : Error → Option Text
  | unreadable .. | unwritable .. => none
  | malformed .yamlConfig => some "Check the YAML syntax of the config file".toList
  | malformed .jsonConfig => some "Check the JSON syntax of the config file".toList
  | malformed .manifest => some ("Check ".toList ++ manifestFileName ++ " syntax".toList)
  | invalidConfig violations => Diagnostics.firstHelp violations
  | invalidGlob _ => some "Check the `input` and `excludes` patterns".toList
  | unknownValue name =>
    some ("Register ".toList ++ Text.quoted name ++
      " under `values` or remove the placeholder".toList)
  | manifestExists => some "Use --force to overwrite".toList

end Error

end UtilityCss
