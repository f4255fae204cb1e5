import BuildSupervisor.Path.Basic
import BuildSupervisor.Text.CharClass
/-!
# Paths of targets and of diagnostics

`Path.shown` is how the target of a build is shown, `Path.baseDirectory` is where the relative
paths in its diagnostics start, and `resolveSource` puts the two together.
-/

namespace BuildSupervisor

namespace Path

/-- Each `\` as a `/`. -/
def forwardSlashes (text : String) : String :=
  String.ofList (text.toList.map fun c => if c = '\\' then '/' else c)

/-- The path as it is shown: a leading home directory is written `~`. -/
def shown (p : Path) (home : Option Path) : String :=
  match home with
  | .none => p.text
  | some dir =>
    if dir.isEmpty then p.text
    else
      match p.strip? dir with
      | .none => p.text
      | some rest => if rest.isEmpty then "~" else "~/" ++ forwardSlashes rest.text

/-- The directory that holds the target of a build; empty where the path says none. -/
def baseDirectory (target : Path) : Path :=
  target.parent?.getD ⟨[]⟩

end Path

/-- A path that no base directory changes: it starts from a root, names a network share, or starts
    with a drive letter. -/
def isAbsoluteText : List Char → Bool
  | '/' :: _ => true
  | '\\' :: '\\' :: _ => true
  | letter :: ':' :: mark :: _ => isAsciiLetter letter && (mark = '\\' || mark = '/')
  | _ => false

/-- The path a diagnostic names, seen from the base directory of the build. -/
def resolveSource (file : List Char) (base : Path) : String :=
  if isAbsoluteText file || base.isEmpty then String.ofList file
  else (base.append (Utf8.encodeChars file)).text

end BuildSupervisor
