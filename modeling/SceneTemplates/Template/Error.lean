import SceneTemplates.Component.Basic
import SceneTemplates.Text.JsonText

/-!
# Compile errors

Why a template cannot be compiled, with the line of the node at fault. Kind, wording and the
attribute involved follow from the cause.
-/
namespace SceneTemplates

inductive CompileErrorKind where
  | unknownNode | unknownComponent | unknownMixin | recursiveMixin | invalidPhaseBody
  | invalidConditional | unknownEffect | missingAttribute | invalidAttribute
  deriving DecidableEq

namespace CompileErrorKind

def code : CompileErrorKind → String
  | .unknownNode => "unknown_node_kind"
  | .unknownComponent => "unknown_component_kind"
  | .unknownMixin => "unknown_mixin"
  | .recursiveMixin => "recursive_mixin"
  | .invalidPhaseBody => "invalid_phase_body"
  | .invalidConditional => "invalid_conditional"
  | .unknownEffect => "unknown_effect"
  | .missingAttribute => "missing_required_attribute"
  | .invalidAttribute => "invalid_attribute_type"

end CompileErrorKind

/-- Why a template cannot be compiled. -/
inductive CompileCause where
  | unknownNode (type : Text)
  | unknownTag (name : Text)
  | unknownMixin (name : Text)
  /-- A mixin that calls itself; the names of the calls that lead to it. -/
  | recursiveMixin (chain : List Text)
  /-- A conditional outside a container. -/
  | misplacedConditional
  | emptyPhaseName
  /-- A node in a phase that is no effect; its tag or type. -/
  | unknownAnimation (phase label : Text)
  /-- A phase without effects. -/
  | emptyPhase (name : Text)
  | missingAttribute (tag key : Text)
  | invalidAttribute (tag key : Text) (found : Attribute)
  | invalidQuotedText (text : Text) (fault : JsonTextFault)
  | unknownEffect (name : Text)
  | invalidTypingDuration (found : Attribute)

namespace CompileCause

def kind : CompileCause → CompileErrorKind
  | .unknownNode _ => .unknownNode
  | .unknownTag _ => .unknownComponent
  | .unknownMixin _ => .unknownMixin
  | .recursiveMixin _ => .recursiveMixin
  | .misplacedConditional => .invalidConditional
  | .unknownAnimation _ _ | .emptyPhase _ => .invalidPhaseBody
  | .missingAttribute _ _ => .missingAttribute
  | .emptyPhaseName | .invalidAttribute _ _ _ | .invalidQuotedText _ _
  | .invalidTypingDuration _ => .invalidAttribute
  | .unknownEffect _ => .unknownEffect

/-- The attribute a message speaks of. -/
def attributeName : CompileCause → Option Text
  | .emptyPhaseName | .unknownEffect _ => some "name"
  | .missingAttribute _ key | .invalidAttribute _ key _ => some key
  | .invalidTypingDuration _ => some "duration"
  | _ => none

/-- The message of a cause. -/
def detail : CompileCause → Text
  | .unknownNode type => "Unknown node type: " ++ type
  | .unknownTag name => "Unknown tag: " ++ name
  | .unknownMixin name => "Unknown mixin: " ++ name
  | .recursiveMixin chain => "Recursive mixin call: " ++ Text.joinWith " -> " chain
  | .misplacedConditional => "Conditionals can only be used inside container components."
  | .emptyPhaseName => "phase() name must not be empty"
  | .unknownAnimation phase label =>
    "Unknown animation in phase '" ++ phase ++ "': " ++ label
  | .emptyPhase name => "phase() '" ++ name ++ "' requires a block"
  | .missingAttribute tag key =>
    tag ++ "() requires a " ++ key ++ " attribute"
  | .invalidAttribute tag key found =>
    let shown :=
      match found with
      | .literal v => v.shown
      | .dynamic source => source.quoted
    "Invalid " ++ tag ++ " " ++ key ++ ": " ++ shown
  | .invalidQuotedText text fault =>
    "Invalid quoted string " ++ text ++ ": " ++ Text.ofString fault.message
  | .unknownEffect name => "Unknown effect: " ++ name
  | .invalidTypingDuration found =>
    let shown :=
      match found with
      | .literal v => v.display
      | .dynamic source => source
    "Invalid typing duration: " ++ shown

end CompileCause

structure CompileError where
  cause : CompileCause
  line : Option Int

namespace CompileError

/-- The full message, after the line when it is known. -/
def message (e : CompileError) : Text :=
  match e.line with
  | some line => Text.ofInt line ++ ": " ++ e.cause.detail
  | none => e.cause.detail

end CompileError

end SceneTemplates
