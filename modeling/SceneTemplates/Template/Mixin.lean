import SceneTemplates.Template.Node

/-!
# Mixins

The mixins that are declared at a point of a compilation, in the order in which their names came
up first. A name is any value that has contents to go by: null, a truth value, a number, a text or
bytes; two names are the same if these agree. No other value is found again.
-/
namespace SceneTemplates

/-- What a value names a mixin by. -/
inductive MixinName where
  | null
  | undefined
  | number (x : ExtendedRat)
  | text (t : Text)
  | bytes (content : List UInt8)
  deriving DecidableEq

namespace MixinName

/-- The name that a value stands for. A truth value stands for zero or one, and a number for its
place on the line. -/
def ofValue? : Value → Option MixinName
  | .null => some .null
  | .undefined => some .undefined
  | .bool b => some (.number (.rational (if b then 1 else 0)))
  | .number n => n.toExtended?.map .number
  | .text t => some (.text t)
  | .bytes _ content => some (.bytes content)
  | _ => none

end MixinName

/-- Whether two values name the same mixin. -/
def Value.sameName (a b : Value) : Bool :=
  match MixinName.ofValue? a, MixinName.ofValue? b with
  | some x, some y => decide (x = y)
  | _, _ => false

@[simp] theorem Value.sameName_text (s t : Text) :
    Value.sameName (.text s) (.text t) = decide (s = t) := by
  simp [Value.sameName, MixinName.ofValue?]

/-- The bodies of the declared mixins by name. -/
abbrev Mixins := List (Value × Block)

namespace Mixins

/-- The body declared under a name. -/
def get? (name : Value) : Mixins → Option Block
  | [] => none
  | (declared, body) :: rest => if declared.sameName name then some body else get? name rest

def has (name : Value) (mixins : Mixins) : Bool := (get? name mixins).isSome

/-- Declares a name: in place of the former body, or else at the end. -/
def put (name : Value) (body : Block) : Mixins → Mixins
  | [] => [(name, body)]
  | (declared, former) :: rest =>
    if declared.sameName name then (declared, body) :: rest
    else (declared, former) :: put name body rest

/-- The names as they were first written. -/
def names (mixins : Mixins) : List Value := mixins.map (·.1)

/-- A body is found under the name that it was declared under. -/
theorem get?_put_self (name : Value) (body : Block) (mixins : Mixins)
    (h : name.sameName name = true) : get? name (put name body mixins) = some body := by
  induction mixins with
  | nil => simp [put, get?, h]
  | cons mixin rest ih =>
    by_cases hm : mixin.1.sameName name = true
    · simp [put, get?, hm]
    · simp [put, get?, hm, ih]

end Mixins

end SceneTemplates
