/-!
# Release — what the program says about itself

* `Release`, `Release.text` — a release and its description.
* `thisRelease` — this release.
-/

namespace RecordFilter.Command

/-- What is known of a release of the program. -/
structure Release where
  version : String
  /-- The revision of its source. -/
  revision : Option String := none
  /-- When it was built. -/
  built : Option String := none
  /-- What it was built with. -/
  compiler : Option String := none
  deriving DecidableEq, Repr

/-- A line for something that may be unknown. -/
def Release.line (label : String) : Option String → String
  | some value => label ++ ": " ++ value ++ "\n"
  | none => ""

/-- The description of a release, one line for each thing that is known. -/
def Release.text (r : Release) : String :=
  "sift " ++ r.version ++ "\n" ++ Release.line "Git hash" r.revision
    ++ Release.line "Built" r.built ++ Release.line "Rust" r.compiler

/-- This release. -/
def thisRelease : Release := { version := "0.1.0" }

end RecordFilter.Command
