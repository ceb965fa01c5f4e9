import SceneTemplates.Expression.Error

/-!
# Environments and hosts

An expression reads names from the data and, behind them, from the global environment. Functions
of the host run outside the library: they may keep a state and may fail.
-/
namespace SceneTemplates

/-- The names an expression can read. -/
structure Environment where
  /-- The data of a request; it hides the global environment. -/
  data : Entries Value
  globals : Entries Value

namespace Environment

/-- The value of a name; one that is nowhere is undefined. -/
def lookup (env : Environment) (name : Text) : Value :=
  match env.data.get? name with
  | some v => v
  | none => (env.globals.get? name).getD .undefined

/-- What a call by a name refers to. Null in the data does not hide the global environment. -/
def callee? (env : Environment) (name : Text) : Option Value :=
  match env.data.get? name with
  | none | some .null => env.globals.get? name
  | some v => some v

/-- Whether a call by a name finds a function. -/
def canCall (env : Environment) (name : Text) : Bool :=
  match env.callee? name with
  | some v => v.isCallable
  | none => false

end Environment

/-- How a host function can fail. -/
inductive HostFailure where
  /-- It raised an exception, with this text if it is known. -/
  | failed (words : Option Text := none)
  /-- It raised an expression error of its own, which is passed on unchanged. -/
  | raised (e : ExpressionError)

/-- The texts of the exceptions that global functions raise on arguments they refuse. They are
those of the interpreter that runs the functions, and differ between its versions. -/
class Wording where
  words : GlobalFunction → List Value → Option Text

/-- Without more, no such text is known. -/
instance : Wording := ⟨fun _ _ => none⟩

/-- The functions of a host, by name, over a state of its own, and the wording of the interpreter
it runs. -/
structure Host (σ : Type) where
  call : Text → List Value → σ → Except HostFailure Value × σ
  [wording : Wording]

/-- A host without functions. -/
def Host.none : Host Unit := ⟨fun _ _ s => (.error .failed, s)⟩

end SceneTemplates
