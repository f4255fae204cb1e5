import BuildSupervisor.Text.Utf8
/-!
# Environment variables

An environment says for every name whether a variable of that name is set, and to which octets.
-/

namespace BuildSupervisor

/-- The variables that are set, with their values. -/
@[ext]
structure Environment where
  value : String → Option Bytes

namespace Environment

/-- No variable is set. -/
def empty : Environment :=
  ⟨fun _ => none⟩

/-- Sets a variable, or unsets it where there is no value. -/
def put (env : Environment) (name : String) (value : Option Bytes) : Environment :=
  ⟨fun other => if other = name then value else env.value other⟩

def set (env : Environment) (name : String) (value : Bytes) : Environment :=
  env.put name (some value)

/-- Unsets a variable. -/
def unset (env : Environment) (name : String) : Environment :=
  env.put name none

/-- Whether a process can have a variable of this name: it is not empty, and it holds neither the
    character between names and values nor the one that ends a text. -/
def isSettable (name : String) : Bool :=
  !name.isEmpty && name.toList.all fun c => c ≠ '=' && c ≠ '\x00'

/-- The environment of a list of variables; the last of several values of one name counts. -/
def ofList (settings : List (String × Bytes)) : Environment :=
  settings.foldl (fun env (name, value) => env.set name value) empty

/-- The value of a variable as text, if its octets are text. -/
def text? (env : Environment) (name : String) : Option String :=
  (env.value name).bind Utf8.decode?

@[simp] theorem put_same (env : Environment) (name : String) (value : Option Bytes) :
    (env.put name value).value name = value := by
  simp [put]

@[simp] theorem put_other (env : Environment) {name other : String} (value : Option Bytes)
    (h : other ≠ name) : (env.put name value).value other = env.value other := by
  simp [put, h]

/-- A later value of a variable replaces an earlier one. -/
@[simp] theorem put_put (env : Environment) (name : String) (first second : Option Bytes) :
    (env.put name first).put name second = env.put name second := by
  ext other : 2
  simp only [put]
  split <;> rfl

/-- Giving a variable the value it has changes nothing. -/
@[simp] theorem put_value (env : Environment) (name : String) :
    env.put name (env.value name) = env := by
  ext other : 2
  simp only [put]
  split
  · next h => rw [h]
  · rfl

end Environment

end BuildSupervisor
