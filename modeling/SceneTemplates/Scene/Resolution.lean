import SceneTemplates.Component.Export
import SceneTemplates.Expression.Sandbox

/-!
# Resolution

Resolving turns a tree into plain data: expressions become their values, and what has a test that
does not hold is left out. In a sequence it leaves no gap; anywhere else null stands for it. An
error that has no line yet gets that of the innermost component around it.

Each expression of an attribute is observed with its value, in order; tests are not.
-/
namespace SceneTemplates

/-- The state of a resolver: its sandbox, the state of the host, and what was observed so far. -/
structure Resolver (σ : Type) where
  sandbox : Sandbox
  state : σ
  trace : List (Text × Value)

/-- A step of a resolver; an error keeps the state. -/
abbrev Resolution (σ α : Type) := ExceptT ExpressionError (StateM (Resolver σ)) α

namespace Value

mutual

/-- The value without undefined parts: null stands for each of them. -/
def plain : Value → Value
  | .undefined => .null
  | .mapping id entries => .mapping id (plainEntries entries)
  | .list id items => .list id (plainItems items)
  | v => v

def plainItems : List Value → List Value
  | [] => []
  | v :: rest => plain v :: plainItems rest

def plainEntries : List (Text × Value) → List (Text × Value)
  | [] => []
  | (key, v) :: rest => (key, plain v) :: plainEntries rest

end

end Value

namespace Resolution

variable {σ : Type}

/-- The key of a test in a mapping. -/
def testKey : Text := "cond"

/-- The key of the children of a component. -/
def childrenKey : Text := "children"

def evaluate (host : Host σ) (source : Text) : Resolution σ Value := do
  let r ← get
  let (outcome, sandbox, state) := r.sandbox.evaluate host source r.state
  set { r with sandbox, state }
  match outcome with
  | .ok v => return v
  | .error e => throw e

/-- Notes the value of an expression. -/
def observe (source : Text) (v : Value) : Resolution σ Unit :=
  modify fun r => { r with trace := r.trace ++ [(source, v)] }

/-- The value of an expression that is observed. -/
def dynamic (host : Host σ) (source : Text) : Resolution σ Value := do
  let v ← evaluate host source
  observe source v
  return v.plain

def sourceHolds (host : Host σ) (source : Text) : Resolution σ Bool := do
  return (← evaluate host source).isTruthy

/-- Whether the test of a value holds. A text is the source of an expression. -/
def valueHolds (host : Host σ) : Value → Resolution σ Bool
  | .text source => sourceHolds host source
  | .dynamic _ source => sourceHolds host source
  | .literal _ v => return v.isTruthy
  | v => return v.isTruthy

/-- Whether a test holds; a mapping, a sequence or a component always does. -/
def holds (host : Host σ) : Tree → Resolution σ Bool
  | .scalar v => valueHolds host v
  | .dynamic source => sourceHolds host source
  | .literal content => return content.toValue.isTruthy
  | .mapping _ | .sequence _ | .component _ _ _ => return true

def slotHolds (host : Host σ) : Slot → Resolution σ Bool
  | .tree t => holds host t
  | .children => return true

/-- Gives an error of a step a line, unless it has one. -/
def withLine {α : Type} (line : Option Int) (step : Resolution σ α) : Resolution σ α :=
  tryCatch step fun e => throw (e.withLine line)

mutual

/-- The data that a tree becomes. -/
def tree (host : Host σ) : Tree → Resolution σ Value
  | .scalar v => return v
  | .dynamic source => dynamic host source
  | .literal content => return content.toValue
  | .mapping entries => do
    let present ←
      match Entries.get? testKey entries with
      | some test => holds host test
      | none => pure true
    if present then return Value.newMapping (← treeEntries host entries) else return .null
  | .sequence items => do return Value.newList (← treeItems host items)
  | .component slots children line =>
    withLine line do
      let present ←
        match Entries.get? testKey slots with
        | some test => slotHolds host test
        | none => pure true
      if present then
        let values ← slotValues host (do return Value.newList (← treeItems host children)) slots
        return Value.newMapping values
      else return .null

/-- The data that a slot becomes, given that of the children. -/
def slotValue (host : Host σ) (children : Resolution σ Value) : Slot → Resolution σ Value
  | .tree t => tree host t
  | .children => children

/-- The data that the members of a sequence become; those left out leave no gap. -/
def treeItems (host : Host σ) : List Tree → Resolution σ (List Value)
  | [] => return []
  | t :: rest => do
    let v ← tree host t
    let others ← treeItems host rest
    return match v with
      | .null => if t.isPrunable then others else v :: others
      | v => v :: others

/-- The data that the entries of a mapping become, its test left out. -/
def treeEntries (host : Host σ) : List (Text × Tree) → Resolution σ (List (Text × Value))
  | [] => return []
  | (key, t) :: rest =>
    if key = testKey then treeEntries host rest
    else do
      let v ← tree host t
      let others ← treeEntries host rest
      return (key, v) :: others

/-- The data that slots become, the test left out. Whatever it holds, the slot of the children
stands for the children. -/
def slotValues (host : Host σ) (children : Resolution σ Value) :
    List (Text × Slot) → Resolution σ (List (Text × Value))
  | [] => return []
  | (key, slot) :: rest =>
    if key = testKey then slotValues host children rest
    else do
      let v ← if key = childrenKey then children else slotValue host children slot
      let others ← slotValues host children rest
      return (key, v) :: others

end

/-- The mapping that a component becomes, or null. -/
def component (host : Host σ) (c : Component) : Resolution σ Value := tree host c.toTree

/-- The effects of a phase as data. -/
def phase (host : Host σ) (p : Phase) : Resolution σ (List Value) :=
  withLine p.line (treeItems host (p.effects.map Effect.toTree))

end Resolution

namespace Resolver

variable {σ : Type}

/-- A fresh resolver over data. -/
def ofData (data : Entries Value) (options : SandboxOptions) (state : σ) : Resolver σ :=
  ⟨Sandbox.ofData data options, state, []⟩

def resolve (r : Resolver σ) (host : Host σ) (t : Tree) :
    Except ExpressionError Value × Resolver σ :=
  (Resolution.tree host t).run.run r

end Resolver

end SceneTemplates
