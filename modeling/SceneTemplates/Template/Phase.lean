import SceneTemplates.Template.Extraction

/-!
# Phases and effects

The tag of a phase has a name and holds the tags of its effects. What is known of an effect at
once is checked: the kind of each literal, the names of easings and of custom effects.
-/
namespace SceneTemplates

namespace PhaseTag

def tag : Text := "phase"

/-- The phase of a template that declares none. -/
def defaultPhase : Phase := ⟨"main", [], none⟩

def phaseFields : List Text := ["name"]

/-- The attributes of an effect, by its tag; other tags are no effects. -/
def effectFields? (name : Text) : Option (List Text) :=
  if name = "transition" then some ["component", "easing", "duration", "from", "to"]
  else if name = "override" then some (Text.ofString "component" :: transitionableProperties)
  else if name = "effect" then some ["name", "component", "duration"]
  else none

def easings : List Text := ["linear", "ease-in", "ease-out", "ease-in-out"]

/-- The duration of a typing effect that gives none. -/
def defaultTypingDuration : Number := .int 50

/-- Whether a value is a number; truth values are not. -/
def number? : Value → Option Number
  | .number n => some n
  | _ => none

/-- Whether a value is a number above zero. -/
def isPositiveNumber (v : Value) : Bool :=
  match number? v with
  | some n => (Number.int 0).less n
  | none => false

def isNumber (v : Value) : Bool := (number? v).isSome

def isEasing : Value → Bool
  | .text t => easings.contains t
  | _ => false

def isMapping : Value → Bool
  | .mapping _ _ => true
  | _ => false

/-- An attribute that is a literal text. -/
def requireText (attrs : Entries Attribute) (key tag : Text) (line : Int) :
    Except CompileError Text :=
  match attrs.get? key with
  | none => .error ⟨.missingAttribute tag key, some line⟩
  | some (.literal (.text t)) => .ok t
  | some found => .error ⟨.invalidAttribute tag key found, some line⟩

/-- An attribute that may be missing or an expression; a literal has to satisfy a test. -/
def checked (test : Value → Bool) (attrs : Entries Attribute) (key tag : Text) (line : Int) :
    Except CompileError (Option Attribute) :=
  match attrs.get? key with
  | some (.literal v) =>
    if test v then .ok (some (.literal v))
    else .error ⟨.invalidAttribute tag key (.literal v), some line⟩
  | other => .ok other

def transition (tag : Text) (attrs : Entries Attribute) (line : Int) :
    Except CompileError Effect := do
  let component ← requireText attrs "component" tag line
  let duration ← checked isPositiveNumber attrs "duration" tag line
  let easing ← checked isEasing attrs "easing" tag line
  let start ← checked isMapping attrs "from" tag line
  let finish ← checked isMapping attrs "to" tag line
  return .transition component duration easing start finish

/-- The properties that an override sets, in their fixed order. -/
def overrideValues (tag : Text) (attrs : Entries Attribute) (line : Int) :
    List Text → Except CompileError (Entries Attribute)
  | [] => .ok []
  | key :: rest => do
    let found ← checked isNumber attrs key tag line
    let others ← overrideValues tag attrs line rest
    return match found with
      | some a => (key, a) :: others
      | none => others

def override (tag : Text) (attrs : Entries Attribute) (line : Int) :
    Except CompileError Effect := do
  let component ← requireText attrs "component" tag line
  return .override component (← overrideValues tag attrs line transitionableProperties)

def custom (tag : Text) (attrs : Entries Attribute) (line : Int) :
    Except CompileError Effect := do
  let name ← requireText attrs "name" tag line
  let component ← requireText attrs "component" tag line
  if name ≠ Effect.typingName then throw ⟨.unknownEffect name, some line⟩
  match attrs.get? "duration" with
  | none => return .typing component defaultTypingDuration
  | some (.literal (.number n)) =>
    if (Number.int 0).less n then return .typing component n
    else throw ⟨.invalidTypingDuration (.literal (.number n)), some line⟩
  | some found => throw ⟨.invalidTypingDuration found, some line⟩

/-- The effect of a tag with the attributes that its name allows. -/
def effect (tag : Text) (fields : List Text) (attrs : List TagAttribute) (line : Int) :
    Except CompileError Effect := do
  let attrs ← extractAttributes attrs fields (some line)
  if tag = "transition" then transition tag attrs line
  else if tag = "override" then override tag attrs line
  else custom tag attrs line

/-- A tag inside a phase that is an effect. -/
structure EffectTag where
  name : Text
  fields : List Text
  attrs : List TagAttribute
  line : Int

/-- The effects among the nodes of a phase; texts and comments do not count, and everything else
is an error. -/
def effectTags (phase : Text) : List Node → Except CompileError (List EffectTag)
  | [] => .ok []
  | node :: rest =>
    match node with
    | .text _ _ | .comment _ _ => effectTags phase rest
    | .tag name attrs _ line =>
      match name.text?, name.text?.bind effectFields? with
      | some tag, some fields => do return ⟨tag, fields, attrs, line⟩ :: (← effectTags phase rest)
      | _, _ => .error ⟨.unknownAnimation phase name.display, some line⟩
    | other => .error ⟨.unknownAnimation phase other.typeName, some other.line⟩

def phase (attrs : List TagAttribute) (block : Block) (line : Int) : Except CompileError Phase := do
  let attrs ← extractAttributes attrs phaseFields (some line)
  let name ← requireText attrs "name" tag line
  if name.isEmpty then throw ⟨.emptyPhaseName, some line⟩
  let tags ← effectTags name block.nodes
  if tags.isEmpty then throw ⟨.emptyPhase name, some line⟩
  let effects ← tags.mapM fun t => effect t.name t.fields t.attrs t.line
  return ⟨name, effects, some line⟩

end PhaseTag

end SceneTemplates
