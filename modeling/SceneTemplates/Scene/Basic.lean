import SceneTemplates.Scene.Resolution
import SceneTemplates.Template.Compilation

/-!
# Scenes

A scene template is a block with a canvas. It is compiled once, when it is first needed, and
builds one scene for each of its phases from the data of a request. All scenes of a build share
the resolved tree; an error anywhere leaves no scene at all.
-/
namespace SceneTemplates

structure Scene where
  name : Text
  fps : Value
  width : Value
  height : Value
  root : Value
  effects : List Value

namespace Scene

def toValue (s : Scene) : Value :=
  Value.newMapping
    [("name", .text s.name), ("fps", s.fps), ("width", s.width), ("height", s.height),
     ("root", s.root), ("effects", Value.newList s.effects)]

end Scene

/-- Why a build fails. -/
inductive BuildError where
  | compilation (e : CompileError)
  | expression (e : ExpressionError)

namespace BuildError

def message : BuildError → Text
  | .compilation e => e.message
  | .expression e => e.message

end BuildError

/-- A template with its canvas, and what it compiled to if it was needed already. A document gives
the canvas in numbers; nothing here depends on that. -/
structure SceneTemplate where
  name : Text
  width : Value
  height : Value
  fps : Value
  block : Block
  compiled : Option CompiledTemplate

namespace SceneTemplate

def defaultWidth : Value := .int 1920

def defaultHeight : Value := .int 1080

def defaultFps : Value := .int 30

/-- A template that has not been compiled. -/
def new (name : Text) (width height fps : Value) (block : Block) : SceneTemplate :=
  ⟨name, width, height, fps, block, none⟩

/-- A compiled template with the root sized to a canvas. -/
def sized (width height : Value) (t : CompiledTemplate) : CompiledTemplate :=
  let fields := Entries.put "height" (.literal height)
    (Entries.put "width" (.literal width) t.root.fields)
  { t with root := { t.root with fields } }

/-- The compiled template, with the notices of the compilation and the template that keeps it. -/
def compile (t : SceneTemplate) :
    Except CompileError CompiledTemplate × List Notice × SceneTemplate :=
  match t.compiled with
  | some compiled => (.ok compiled, [], t)
  | none =>
    match compileTemplate t.block with
    | (.error e, notices) => (.error e, notices, t)
    | (.ok compiled, notices) =>
      let compiled := sized t.width t.height compiled
      let text := "Compiled template '" ++ t.name ++ "' (" ++
        Text.ofNat compiled.phases.length ++ " phases)"
      (.ok compiled, notices ++ [⟨.debug, .scene, text⟩], { t with compiled := some compiled })

def scene (t : SceneTemplate) (root : Value) (phase : Phase) (effects : List Value) : Scene :=
  ⟨t.name ++ " " ++ phase.name, t.fps, t.width, t.height, root, effects⟩

def scenes {σ : Type} (t : SceneTemplate) (host : Host σ) (root : Value) :
    List Phase → Resolution σ (List Scene)
  | [] => return []
  | p :: rest => do
    let effects ← Resolution.phase host p
    let others ← scenes t host root rest
    return t.scene root p effects :: others

/-- What a build leaves behind. -/
structure Build (σ : Type) where
  outcome : Except BuildError (List Scene)
  template : SceneTemplate
  notices : List Notice
  trace : List (Text × Value)
  state : σ

/-- Builds the scenes of a template from data. -/
def build {σ : Type} (t : SceneTemplate) (host : Host σ) (data : Entries Value)
    (options : SandboxOptions) (state : σ) : Build σ :=
  match t.compile with
  | (.error e, notices, t) => ⟨.error (.compilation e), t, notices, [], state⟩
  | (.ok compiled, notices, t) =>
    let resolution : Resolution σ (List Scene) := do
      let root ← Resolution.component host compiled.root
      t.scenes host root compiled.phases
    match resolution.run.run (Resolver.ofData data options state) with
    | (.ok scenes, r) => ⟨.ok scenes, t, notices, r.trace, r.state⟩
    | (.error e, r) => ⟨.error (.expression e), t, notices, r.trace, r.state⟩

end SceneTemplate

end SceneTemplates
