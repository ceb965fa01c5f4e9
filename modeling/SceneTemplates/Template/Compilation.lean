import SceneTemplates.Notice
import SceneTemplates.Template.Leaf

/-!
# Compilation

A compiler turns a block into a tree of components below one `zstack`, and collects the phases on
the way. Declarations of mixins hold from the beginning of their block, a call stands for the
nodes of the body, and a conditional becomes its two branches with guards. Nothing is evaluated.

A body that is being expanded cannot be called again. So no more bodies are open at once than
mixins are declared, and the number of declarations bounds the recursion.
-/
namespace SceneTemplates

/-- The state of a compiler. -/
structure Compiler where
  mixins : Mixins
  phases : List Phase
  /-- The mixins whose bodies are being expanded, the outermost first. -/
  expanding : List Value
  notices : List Notice

namespace Compiler

/-- A compiler that has not compiled anything. -/
def initial : Compiler := ⟨[], [], [], []⟩

end Compiler

/-- A step of a compiler; an error keeps the state. -/
abbrev Compilation (α : Type) := ExceptT CompileError (StateM Compiler) α

namespace Compilation

/-- Ends the compilation at a line. -/
def fail {α : Type} (cause : CompileCause) (line : Int) : Compilation α :=
  throw ⟨cause, some line⟩

/-- The result of a computation without a state. -/
def result {α : Type} (outcome : Except CompileError α) : Compilation α :=
  match outcome with
  | .ok a => pure a
  | .error e => throw e

def note (level : NoticeLevel) (line : Int) (text : Text) : Compilation Unit :=
  modify fun c =>
    { c with notices := c.notices ++ [⟨level, .compilation, Text.ofInt line ++ ": " ++ text⟩] }

/-- Runs a step while the body of a mixin is open. -/
def within {α : Type} (name : Value) (step : Compilation α) : Compilation α :=
  ExceptT.mk do
    modify fun c => { c with expanding := c.expanding ++ [name] }
    let outcome ← step.run
    modify fun c => { c with expanding := c.expanding.dropLast }
    return outcome

end Compilation

/-! ## Nodes -/

namespace Component

/-- The test that holds if two do. -/
def conjunction (test cond : Value) : Value :=
  .text ("(" ++ test.display ++ ") && (" ++ cond.display ++ ")")

/-- A component that is present only if a test holds, and its own test if it has one. A null test
tests nothing by itself. -/
def guard (test : Value) (c : Component) : Component :=
  match c.cond with
  | none => { c with cond := test.nonNull? }
  | some cond => { c with cond := some (conjunction test cond) }

/-- The test of the branch that stands if a test does not hold. -/
def negation (test : Value) : Value := .text ("!(" ++ test.display ++ ")")

end Component

namespace Compilation

/-- Compiles the body of a mixin; nothing if no further body can be open. -/
abbrev Expansion := Option (Block → Compilation (List Component))

/-- Declares a mixin; a later declaration of the name takes the place of an earlier one. -/
def declare (name : Value) (body : Option Block) (line : Int) : Compilation Unit := do
  if (← get).mixins.has name then
    note .debug line ("mixin '" ++ name.display ++ "' redeclared")
  modify fun c => { c with mixins := c.mixins.put name (body.getD ⟨[], line⟩) }

/-- Declares the mixins that stand directly in a list of nodes. -/
def declareAll : List Node → Compilation Unit
  | [] => pure ()
  | .mixin name false body _ line :: rest => do
    declare name body line
    declareAll rest
  | _ :: rest => declareAll rest

/-- The names of the calls that lead to a call, itself the last. -/
def chain (c : Compiler) (name : Value) : List Text :=
  (c.expanding ++ [name]).map Value.display

/-- The components of the body of a mixin. -/
def call (expand : Expansion) (name args : Value) (line : Int) :
    Compilation (List Component) := do
  let c ← get
  match c.mixins.get? name, expand with
  | none, _ => fail (.unknownMixin name.display) line
  | some body, some expand =>
    if c.expanding.any (·.sameName name) then fail (.recursiveMixin (chain c name)) line
    else
      if args.isGiven then
        note .warning line ("mixin '" ++ name.display ++ "' called with arguments (" ++
          args.display ++ "); mixin arguments are not supported and were ignored")
      within name (expand body)
  | some _, none => fail (.recursiveMixin (chain c name)) line

/-- Adds the phase of a tag. -/
def addPhase (attrs : List TagAttribute) (block : Block) (line : Int) : Compilation Unit := do
  let phase ← result (PhaseTag.phase attrs block line)
  modify fun c => { c with phases := c.phases ++ [phase] }

/-- Checks the content of a leaf, which is ignored. -/
def checkLeaf (kind : ComponentKind) (block : Block) (line : Int) : Compilation Unit := do
  let ignored ← result (Leaf.countNodes (← get).mixins block.nodes)
  if ignored ≠ 0 then
    note .warning line
      (Text.ofString kind.tag ++ " cannot have children; ignoring nested content")

mutual

/-- The components that a node contributes to its container. -/
def visit (expand : Expansion) : Node → Compilation (List Component)
  | .block ⟨nodes, _⟩ => do
    declareAll nodes
    visitAll expand nodes
  | .tag name attrs ⟨nodes, blockLine⟩ line =>
    if name.text? = some PhaseTag.tag then do
      addPhase attrs ⟨nodes, blockLine⟩ line
      return []
    else
      match name.text?.bind ComponentKind.ofTag? with
      | none => fail (.unknownTag name.display) line
      | some kind => do
        let extracted ← result (extractAttributes attrs kind.fields (some line))
        let id := extracted.get? "id"
        let fields := (extracted.erase "id").erase "children"
        if kind.isContainer then
          declareAll nodes
          let children ← visitAll expand nodes
          return [⟨kind, id, fields, children, none, some line⟩]
        else
          checkLeaf kind ⟨nodes, blockLine⟩ line
          return [⟨kind, id, fields, [], none, some line⟩]
  | .mixin name isCall body args line =>
    if isCall then call expand name args line
    else do
      declare name body line
      return []
  | .conditional test ⟨nodes, _⟩ alternate _ => do
    declareAll nodes
    let consequent ← visitAll expand nodes
    let others ← visitOptional expand alternate
    return consequent.map (Component.guard test) ++
      others.map (Component.guard (Component.negation test))
  | .text _ _ => return []
  | .comment _ _ => return []
  | .unknown type line => fail (.unknownNode type) line

def visitOptional (expand : Expansion) : Option Node → Compilation (List Component)
  | none => return []
  | some node => visit expand node

/-- The components of the nodes of a block whose mixins are declared. -/
def visitAll (expand : Expansion) : List Node → Compilation (List Component)
  | [] => return []
  | .mixin _ false _ _ _ :: rest => visitAll expand rest
  | node :: rest => do
    let first ← visit expand node
    let others ← visitAll expand rest
    return first ++ others

end

def visitBlock (expand : Expansion) (block : Block) : Compilation (List Component) :=
  visit expand (.block block)

/-- The expansion with a number of bodies that can be opened inside each other. -/
def expansion : Nat → Expansion
  | 0 => none
  | n + 1 => some (visitBlock (expansion n))

end Compilation

/-! ## Templates -/

mutual

/-- The number of mixin declarations in a node. -/
def Node.declarations : Node → Nat
  | .block b => b.declarations
  | .tag _ _ b _ => b.declarations
  | .mixin _ _ none _ _ => 1
  | .mixin _ _ (some b) _ _ => b.declarations + 1
  | .conditional _ b none _ => b.declarations
  | .conditional _ b (some alternate) _ => b.declarations + alternate.declarations
  | _ => 0

def Block.declarations : Block → Nat
  | ⟨nodes, _⟩ => Node.allDeclarations nodes

def Node.allDeclarations : List Node → Nat
  | [] => 0
  | node :: rest => node.declarations + Node.allDeclarations rest

end

namespace Compiler

/-- The tree and the phases of a block, compiled from an empty table of mixins. -/
def run (block : Block) : Compilation CompiledTemplate := do
  modify fun c => { c with mixins := [], phases := [], expanding := [] }
  let children ← Compilation.visitBlock (Compilation.expansion block.declarations) block
  let c ← get
  let phases := if c.phases.isEmpty then [PhaseTag.defaultPhase] else c.phases
  let text := "Compiled template: " ++ Text.ofNat children.length ++ " top-level components, " ++
    Text.ofNat phases.length ++ " phases"
  modify fun c => { c with notices := c.notices ++ [⟨.debug, .compilation, text⟩] }
  return ⟨⟨.zstack, none, [], children, none, some block.line⟩, phases⟩

/-- Compiles a block. Nothing of an earlier compilation but its notices remains. -/
def compile (c : Compiler) (block : Block) : Except CompileError CompiledTemplate × Compiler :=
  (run block).run.run c

end Compiler

/-- Compiles a block with a compiler of its own. -/
def compileTemplate (block : Block) : Except CompileError CompiledTemplate × List Notice :=
  let (outcome, c) := Compiler.initial.compile block
  (outcome, c.notices)

end SceneTemplates
