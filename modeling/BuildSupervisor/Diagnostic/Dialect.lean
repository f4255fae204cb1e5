import BuildSupervisor.Diagnostic.Gcc
import BuildSupervisor.Diagnostic.Rustc
import BuildSupervisor.Text.Lines
/-!
# Dialects

A dialect is a way in which compilers write diagnostics.  `Dialect.parse` reads those of one
dialect out of a text; lines that are none are passed over.
-/

namespace BuildSupervisor

/-- The ways to write diagnostics that are understood. -/
inductive Dialect where
  | gcc
  | rustc
  deriving DecidableEq, Repr

namespace Dialect

def name : Dialect → String
  | .gcc => "gcc"
  | .rustc => "rustc"

/-- The dialect a word names, in any case and with any blanks around it; otherwise the word as it
    was compared. -/
def ofWord (word : String) : Except String Dialect :=
  match String.ofList (Text.keyword word.toList) with
  | "gcc" | "clang" => .ok .gcc
  | "rustc" | "cargo" => .ok .rustc
  | other => .error other

/-- What is said of a word that names no dialect. -/
def unknown (word : String) : String :=
  "unknown diagnostic dialect: " ++ word

/-- The diagnostics in a text, in the order of its lines.  Relative paths start from `base`. -/
def parse (dialect : Dialect) (text : String) (base : Path) : List Diagnostic :=
  let lines := Text.lines text.toList
  match dialect with
  | .gcc => lines.filterMap fun line => Gcc.parseLine? line base
  | .rustc => Rustc.collect base none (lines.map (Text.dropEndWhile (· = '\r')))

end Dialect

end BuildSupervisor
