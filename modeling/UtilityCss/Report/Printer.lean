import UtilityCss.Report.Diagnostic

/-!
# Status lines

A command reports on lines of a verb and a message. Verbs are aligned to the right in a column of
twelve characters.
-/

namespace UtilityCss

namespace Printer

def verbWidth : Nat := 12

def line (verb message : Text) : Text :=
  List.replicate (verbWidth - verb.length) ' ' ++ verb ++ ' ' :: message ++ ['\n']

/-- The lines of a diagnostic: its message behind its severity, and its advice. -/
def diagnosticLines (diagnostic : Diagnostic) : Text :=
  line diagnostic.severity.label diagnostic.message ++
    match diagnostic.help with
    | some help => line "help".toList help
    | none => []

def report (diagnostics : Diagnostics) : Text :=
  diagnostics.flatMap diagnosticLines

/-- A number and the noun in its number. -/
def plural (n : Nat) (one many : Text) : Text :=
  Text.ofNat n ++ ' ' :: (if n = 1 then one else many)

end Printer

end UtilityCss
