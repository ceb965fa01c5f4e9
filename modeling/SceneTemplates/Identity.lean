/-!
# Identities

Some things are told apart although their contents agree. Each container of the data is an object
of its own, and so is each datum that is no number. What an expression makes is new: no other
object is the same.
-/
namespace SceneTemplates

/-- What tells two things of one content apart. -/
inductive Identity where
  /-- Made by an expression, and the same as no other. -/
  | fresh
  /-- One for all things of its content. -/
  | shared
  /-- An object of the data, by its number. -/
  | datum (n : Nat)
  deriving DecidableEq

namespace Identity

instance : Inhabited Identity := ⟨.fresh⟩

/-- Whether two identities name the same object, given that the contents agree. -/
def same : Identity → Identity → Bool
  | .shared, .shared => true
  | .datum m, .datum n => m == n
  | _, _ => false

@[simp] theorem same_fresh (a : Identity) : a.same .fresh = false := by cases a <;> rfl

@[simp] theorem same_datum_self (n : Nat) : (Identity.datum n).same (.datum n) = true := by
  simp [same]

theorem same_comm (a b : Identity) : a.same b = b.same a := by
  cases a <;> cases b <;> simp [same, BEq.comm]

end Identity

end SceneTemplates
