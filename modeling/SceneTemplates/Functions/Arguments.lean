import SceneTemplates.Number.Elementary
import SceneTemplates.Value.Comparison

/-!
# Arguments of global functions

A global function gets its arguments as values and either returns a value or fails. Truth values
count as the integers zero and one; texts are never numbers.
-/
namespace SceneTemplates

/-- Why a global function returned no value. -/
inductive CallFailure where
  /-- Wrong number or kind of arguments, an argument outside the domain, or an overflow. -/
  | refused
  /-- The exact result would have more bits than the limit. -/
  | tooLarge (function : GlobalFunction)
  deriving DecidableEq

abbrev CallResult := Except CallFailure Value

namespace Arguments

/-- A result, or a refusal. -/
def ofOption (result : Option Value) : CallResult :=
  match result with
  | some v => .ok v
  | none => .error .refused

/-- A value as a double. An integer beyond the finite doubles is none. -/
def double? (v : Value) : Option Double :=
  match v.asNumber? with
  | some n => n.toDouble.toOption
  | none => none

/-- A value as an integer; doubles are none. -/
def integer? (v : Value) : Option Int :=
  match v.asNumber? with
  | some (.int n) => some n
  | _ => none

/-- The members of a value that can be gone through: those of a sequence, the characters of a
text, the keys of a mapping, the numbers of a byte sequence. -/
def members? : Value → Option (List Value)
  | .list _ items => some items
  | .tuple items => some items
  | .text t => some (t.map fun c => .text [c])
  | .mapping _ entries => some (entries.map fun entry => .text entry.1)
  | .bytes _ content => some (content.map fun b => .int b.toNat)
  | _ => none

end Arguments

end SceneTemplates
