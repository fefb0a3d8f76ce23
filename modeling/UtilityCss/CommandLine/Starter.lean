import UtilityCss.Text.Basic

/-!
# The starter manifest

A new project starts with a manifest of a small vocabulary.
-/

namespace UtilityCss

def starterLines : List String :=
  [ "input:",
    "  - \"**/*.html\"",
    "  - \"src/**/*.\x7bjsx,tsx\x7d\"",
    "output: dist/styles.css",
    "excludes:",
    "  - \"node_modules/**\"",
    "",
    "property:",
    "  bg: background",
    "  text: color",
    "  p: padding",
    "  m: margin",
    "  w: width",
    "  h: height",
    "  rgb:",
    "    property: [background, color]",
    "    value: \"rgb(\x7b0\x7d)\"",
    "",
    "values:",
    "  primary: \"#ccf654\"",
    "  full: 100%",
    "",
    "classes:",
    "  display:",
    "    center: flex",
    "    block: block",
    "  justifyContent:",
    "    center: center",
    "  alignItems:",
    "    center: center",
    "",
    "aliases:",
    "  btn: \"bg-primary text-black p-8px\"",
    "",
    "breakpoints:",
    "  - \x7b name: sm, max: 639 \x7d",
    "  - \x7b name: md, min: 640, max: 1023 \x7d",
    "  - \x7b name: lg, min: 1024 \x7d",
    "",
    "reserveClass: []" ]

def starterManifest : Text :=
  starterLines.flatMap fun line => line.toList ++ ['\n']

end UtilityCss
