import SceneTemplates.Component.Kind
import SceneTemplates.Value.Basic

/-!
# Components, effects and phases

A compiled template is a tree of components and a list of phases. Attributes are known when the
template is compiled, or they are expressions for later.
-/
namespace SceneTemplates

/-- An attribute: a value known at once, or an expression that is evaluated for each build. -/
inductive Attribute where
  | literal (v : Value)
  | dynamic (source : Text)

instance : Inhabited Attribute := ⟨.literal .null⟩

structure Component where
  kind : ComponentKind
  id : Option Attribute
  fields : List (Text × Attribute)
  children : List Component
  /-- The test that decides whether the component is present. A text is the source of an
  expression. -/
  cond : Option Value
  line : Option Int

instance : Inhabited Component := ⟨⟨.zstack, none, [], [], none, none⟩⟩

/-- An effect of a phase on a component. -/
inductive Effect where
  /-- Animates properties from one set of values to another. -/
  | transition (component : Text) (duration easing start finish : Option Attribute)
  /-- Sets properties at once. -/
  | override (component : Text) (values : List (Text × Attribute))
  /-- Reveals a text character by character. -/
  | typing (component : Text) (duration : Number)

/-- A named sequence of effects. -/
structure Phase where
  name : Text
  effects : List Effect
  line : Option Int

/-- A compiled template: the tree of its components and its phases in order. -/
structure CompiledTemplate where
  root : Component
  phases : List Phase

/-- The name of the only effect of its own kind. -/
def Effect.typingName : Text := "typing"

end SceneTemplates
