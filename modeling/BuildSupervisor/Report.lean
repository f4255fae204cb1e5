import BuildSupervisor.Event
/-!
# Reports

What is told of a build to the person who asked for it.
-/

namespace BuildSupervisor

/-- What an invoker knows of a build that has ended. -/
structure Report where
  buildId : BuildId
  succeeded : Bool
  /-- The exit code of the tool; there is none if it was killed or could not be started. -/
  exitCode : Option Int
  result : BuildResult
  deriving DecidableEq, Repr

namespace Report

/-- The digits of a whole number, a minus sign before them if it is below zero. -/
def showInt : Int → String
  | .ofNat n => Text.showNat n
  | .negSucc n => "-" ++ Text.showNat (n + 1)

/-- The error text of a build as it is shown where no diagnostic could be read from it: not at all
    if it is blank. -/
def rawErrors (stderr : String) : String :=
  if (Text.trim stderr.toList).isEmpty then "" else Text.endLine stderr

/-- The lines before the last one: the diagnostics, or what a failed build said instead. -/
def findings (r : Report) : String :=
  match r.result.diagnostics with
  | [] => if r.succeeded then "" else rawErrors (r.result.textOf .error)
  | ds => String.join (ds.map fun d => d.render ++ "\n")

/-- The last line: how the build ended, and how many diagnostics there were. -/
def verdict (r : Report) : String :=
  "build " ++ Text.showNat r.buildId ++ " " ++ (if r.succeeded then "succeeded" else "failed")
    ++ " for " ++ r.result.targetFile ++ ": " ++ (Diagnostic.summarize r.result.diagnostics).render
    ++ (r.exitCode.elim "" fun code => " (exit code " ++ showInt code ++ ")")

/-- The report as text, no line feed at its end. -/
def render (r : Report) : String :=
  r.findings ++ r.verdict

end Report

end BuildSupervisor
