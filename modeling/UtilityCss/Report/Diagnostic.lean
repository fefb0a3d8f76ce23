import UtilityCss.Text.Basic

/-!
# Diagnostics

A diagnostic reports a problem of a configuration or of a class name: how severe it is, a code for
machines, a message for people, and advice where there is any. Reports keep the order in which the
problems were found.
-/

namespace UtilityCss

/-- A warning leaves the configuration usable; an error does not. -/
inductive Severity where
  | warning
  | error
  deriving DecidableEq

namespace Severity

/-- The word for a severity. -/
def label : Severity → Text
  | warning => "warning".toList
  | error => "error".toList

end Severity

/-- One reported problem. -/
structure Diagnostic where
  severity : Severity
  code : Text
  message : Text
  help : Option Text := none
  deriving DecidableEq

namespace Diagnostic

/-- A diagnostic is an error when its severity says so. -/
def isError (diagnostic : Diagnostic) : Bool :=
  diagnostic.severity = .error

/-- A diagnostic in one line: severity, code in brackets, message. -/
def render (diagnostic : Diagnostic) : Text :=
  diagnostic.severity.label ++ ('[' :: diagnostic.code) ++ "]: ".toList ++ diagnostic.message

end Diagnostic

/-- The problems found, in order. -/
abbrev Diagnostics := List Diagnostic

namespace Diagnostics

/-- The errors of a report, in order. -/
def errors (report : Diagnostics) : Diagnostics :=
  report.filter Diagnostic.isError

/-- The warnings of a report, in order. -/
def warnings (report : Diagnostics) : Diagnostics :=
  report.filter fun diagnostic => !diagnostic.isError

def hasErrors (report : Diagnostics) : Bool :=
  report.any Diagnostic.isError

def errorCount (report : Diagnostics) : Nat :=
  report.countP Diagnostic.isError

/-- The number of warnings: all that are no errors. -/
def warningCount (report : Diagnostics) : Nat :=
  report.length - errorCount report

def firstHelp (report : Diagnostics) : Option Text :=
  report.findSome? Diagnostic.help

end Diagnostics

end UtilityCss
