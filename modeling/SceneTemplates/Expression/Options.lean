import SceneTemplates.Number.IntegerText
import SceneTemplates.Text.Quoted
import SceneTemplates.Value.Entries

/-!
# Sandbox options

The bounds on expressions and the treatment of members of null and undefined. Each of them has a
default and can be set by a name of the process environment.
-/
namespace SceneTemplates

/-- The bounds and switches of a sandbox. -/
structure SandboxOptions where
  /-- The most code points of a source. -/
  maxLength : Int
  /-- The depth of the tree, checked before and during evaluation. -/
  maxDepth : Int
  /-- The most nodes of the tree. -/
  maxNodes : Int
  /-- A member of null or undefined is undefined, and no error. -/
  nullSafeMember : Bool
  deriving DecidableEq

namespace SandboxOptions

def standard : SandboxOptions := ⟨10000, 200, 5000, true⟩

instance : Inhabited SandboxOptions := ⟨standard⟩

/-- A name that should hold an integer and does not. -/
structure BadInteger where
  name : Text
  value : Text

def BadInteger.message (e : BadInteger) : Text :=
  e.name ++ " must be an integer, got " ++ e.value.quoted

/-- The integer in a name; a missing or blank one leaves the default. -/
def integerSetting (settings : Entries Text) (name : Text) (default : Int) :
    Except BadInteger Int :=
  match settings.get? name with
  | none => .ok default
  | some value =>
    if value.trim.isEmpty then .ok default
    else
      match IntegerText.value? value with
      | some n => .ok n
      | none => .error ⟨name, value⟩

/-- The words that switch an option on. -/
def trueWords : List Text := ["1", "true", "yes", "on"]

/-- The options that settings of the process environment make. -/
def ofSettings (settings : Entries Text) : Except BadInteger SandboxOptions := do
  let maxLength ←
    integerSetting settings "SCENECRAFT_MAX_EXPRESSION_LENGTH" standard.maxLength
  let maxDepth ← integerSetting settings "SCENECRAFT_MAX_EXPRESSION_DEPTH" standard.maxDepth
  let maxNodes ← integerSetting settings "SCENECRAFT_MAX_EXPRESSION_NODES" standard.maxNodes
  let nullSafeMember :=
    match settings.get? "SCENECRAFT_NULL_SAFE_MEMBER" with
    | none => standard.nullSafeMember
    | some value => trueWords.contains value.trim.toLowerAscii
  return { maxLength, maxDepth, maxNodes, nullSafeMember }

end SandboxOptions

end SceneTemplates
