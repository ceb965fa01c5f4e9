import Mathlib.Data.List.Forall2
import SceneTemplates.Proofs.Steps
import SceneTemplates.Template.Compilation

/-!
# Expansion of mixins

The template that a template stands for: each call of a mixin is the body that is declared at this
point, and no declaration is left. Compiling a template gives what its expansion gives, which takes
no state at all: the components of the expansion, and the phases of its phase tags in source order.
-/
namespace SceneTemplates

/-! ## The expanded template -/

/-- The mixins that a list of nodes declares, stored behind those already there. -/
def Mixins.declareAll (mixins : Mixins) : List Node → Mixins
  | [] => mixins
  | .mixin name false body _ line :: rest =>
    (mixins.put name (body.getD ⟨[], line⟩)).declareAll rest
  | _ :: rest => mixins.declareAll rest

/-- Expands the body of a mixin from the mixins declared so far. -/
abbrev BodyExpansion := Option (Block → Mixins → Option (Block × Mixins))

/-- Whether the content of a tag is part of the template: that of a phase or a leaf is not. -/
def Value.isContainerTag (name : Value) : Bool :=
  if name.text? = some PhaseTag.tag then false
  else
    match name.text?.bind ComponentKind.ofTag? with
    | some kind => kind.isContainer
    | none => false

mutual

/-- The expansion of a node, with the mixins declared behind it. -/
def Node.expand (body : BodyExpansion) : Node → Mixins → Option (Node × Mixins)
  | .block ⟨nodes, line⟩, mixins => do
    let (nodes, mixins) ← Node.expandAll body nodes (mixins.declareAll nodes)
    return (.block ⟨nodes, line⟩, mixins)
  | .tag name attrs ⟨nodes, blockLine⟩ line, mixins =>
    if name.isContainerTag then do
      let (nodes, mixins) ← Node.expandAll body nodes (mixins.declareAll nodes)
      return (.tag name attrs ⟨nodes, blockLine⟩ line, mixins)
    else some (.tag name attrs ⟨nodes, blockLine⟩ line, mixins)
  | .mixin name true _ _ _, mixins => do
    let found ← mixins.get? name
    let expand ← body
    let (opened, mixins) ← expand found mixins
    return (.block opened, mixins)
  | .mixin name false found _ line, mixins =>
    some (.block ⟨[], line⟩, mixins.put name (found.getD ⟨[], line⟩))
  | .conditional test ⟨nodes, blockLine⟩ alternate line, mixins => do
    let (nodes, mixins) ← Node.expandAll body nodes (mixins.declareAll nodes)
    let (alternate, mixins) ← Node.expandOptional body alternate mixins
    return (.conditional test ⟨nodes, blockLine⟩ alternate line, mixins)
  | .text value line, mixins => some (.text value line, mixins)
  | .comment value line, mixins => some (.comment value line, mixins)
  | .unknown type line, mixins => some (.unknown type line, mixins)

def Node.expandOptional (body : BodyExpansion) :
    Option Node → Mixins → Option (Option Node × Mixins)
  | none, mixins => some (none, mixins)
  | some node, mixins => do
    let (node, mixins) ← Node.expand body node mixins
    return (some node, mixins)

/-- The expansion of nodes whose mixins are declared. -/
def Node.expandAll (body : BodyExpansion) : List Node → Mixins → Option (List Node × Mixins)
  | [], mixins => some ([], mixins)
  | .mixin _ false _ _ _ :: rest, mixins => Node.expandAll body rest mixins
  | node :: rest, mixins => do
    let (node, mixins) ← Node.expand body node mixins
    let (others, mixins) ← Node.expandAll body rest mixins
    return (node :: others, mixins)

end

def Node.isDeclaration : Node → Bool
  | .mixin _ isCall _ _ _ => !isCall
  | _ => false

@[simp] theorem Node.expandAll_declaration {body : BodyExpansion} {node : Node} {rest : List Node}
    {mixins : Mixins} (h : node.isDeclaration = true) :
    Node.expandAll body (node :: rest) mixins = Node.expandAll body rest mixins := by
  cases node with
  | mixin name isCall found args line =>
    cases isCall with
    | true => cases h
    | false => rw [Node.expandAll]
  | _ => cases h

theorem Node.expandAll_cons {body : BodyExpansion} {node : Node} {rest : List Node}
    {mixins : Mixins} (h : node.isDeclaration = false) :
    Node.expandAll body (node :: rest) mixins = (do
      let (node, mixins) ← Node.expand body node mixins
      let (others, mixins) ← Node.expandAll body rest mixins
      return (node :: others, mixins)) := by
  cases node with
  | mixin name isCall found args line =>
    cases isCall with
    | true => rfl
    | false => cases h
  | _ => rfl

def Block.expand (body : BodyExpansion) : Block → Mixins → Option (Block × Mixins)
  | ⟨nodes, line⟩, mixins => do
    let (nodes, mixins) ← Node.expandAll body nodes (mixins.declareAll nodes)
    return (⟨nodes, line⟩, mixins)

/-- The expansion with a number of bodies that can be opened inside each other. -/
def Block.expansion : Nat → BodyExpansion
  | 0 => none
  | n + 1 => some (Block.expand (Block.expansion n))

/-- The template that a block stands for; none if a call names no mixin or never ends. -/
def Block.expanded? (block : Block) : Option Block :=
  (block.expand (Block.expansion block.declarations) []).map (·.1)

/-! ## Components and phases of an expanded template -/

mutual

/-- The components of a node without mixins. -/
def Node.components : Node → Except CompileError (List Component)
  | .block ⟨nodes, _⟩ => Node.allComponents nodes
  | .tag name attrs ⟨nodes, _⟩ line =>
    if name.text? = some PhaseTag.tag then .ok []
    else
      match name.text?.bind ComponentKind.ofTag? with
      | none => .error ⟨.unknownTag name.display, some line⟩
      | some kind => do
        let extracted ← extractAttributes attrs kind.fields (some line)
        let children ← (if kind.isContainer then Node.allComponents nodes else .ok [])
        return [⟨kind, extracted.get? "id", (extracted.erase "id").erase "children", children, none,
          some line⟩]
  | .conditional test ⟨nodes, _⟩ alternate _ => do
    let consequent ← Node.allComponents nodes
    let others ← Node.optionalComponents alternate
    return consequent.map (Component.guard test) ++
      others.map (Component.guard (Component.negation test))
  | _ => .ok []

def Node.optionalComponents : Option Node → Except CompileError (List Component)
  | none => .ok []
  | some node => Node.components node

def Node.allComponents : List Node → Except CompileError (List Component)
  | [] => .ok []
  | node :: rest => do
    let first ← Node.components node
    let others ← Node.allComponents rest
    return first ++ others

end

/-- The component of a tag that is no phase. -/
theorem Node.components_tag_eq_ok {name : Value} {attrs : List TagAttribute} {nodes : List Node}
    {blockLine line : Int} {components : List Component}
    (hphase : ¬ name.text? = some PhaseTag.tag) :
    (Node.tag name attrs ⟨nodes, blockLine⟩ line).components = .ok components ↔
      ∃ kind extracted children, name.text?.bind ComponentKind.ofTag? = some kind ∧
        extractAttributes attrs kind.fields (some line) = .ok extracted ∧
        (if kind.isContainer then Node.allComponents nodes else .ok []) = .ok children ∧
        components = [⟨kind, extracted.get? "id", (extracted.erase "id").erase "children", children,
          none, some line⟩] := by
  rw [Node.components, if_neg hphase]
  constructor
  · intro h
    cases hkind : name.text?.bind ComponentKind.ofTag? with
    | none =>
      rw [hkind] at h
      cases h
    | some kind =>
      rw [hkind] at h
      obtain ⟨extracted, hextracted, h⟩ := Except.bind_eq_ok.1 h
      obtain ⟨children, hchildren, hpure⟩ := Except.bind_eq_ok.1 h
      cases hpure
      exact ⟨kind, extracted, children, rfl, hextracted, hchildren, rfl⟩
  · rintro ⟨kind, extracted, children, hkind, hextracted, hchildren, rfl⟩
    rw [hkind]
    dsimp only
    rw [hextracted, hchildren]
    rfl

theorem Value.isContainerTag_eq {name : Value} {kind : ComponentKind}
    (hphase : ¬ name.text? = some PhaseTag.tag)
    (hkind : name.text?.bind ComponentKind.ofTag? = some kind) :
    name.isContainerTag = kind.isContainer := by
  rw [isContainerTag, if_neg hphase, hkind]

/-- A phase tag as it is written. -/
structure PhaseNode where
  attrs : List TagAttribute
  block : Block
  line : Int

namespace PhaseNode

def phase (tag : PhaseNode) : Except CompileError Phase :=
  PhaseTag.phase tag.attrs tag.block tag.line

end PhaseNode

mutual

/-- The phase tags of a node without mixins, outside leaves. -/
def Node.phaseTags : Node → List PhaseNode
  | .block ⟨nodes, _⟩ => Node.allPhaseTags nodes
  | .tag name attrs ⟨nodes, blockLine⟩ line =>
    if name.text? = some PhaseTag.tag then [⟨attrs, ⟨nodes, blockLine⟩, line⟩]
    else if name.isContainerTag then Node.allPhaseTags nodes
    else []
  | .conditional _ ⟨nodes, _⟩ alternate _ =>
    Node.allPhaseTags nodes ++ Node.optionalPhaseTags alternate
  | _ => []

def Node.optionalPhaseTags : Option Node → List PhaseNode
  | none => []
  | some node => Node.phaseTags node

def Node.allPhaseTags : List Node → List PhaseNode
  | [] => []
  | node :: rest => Node.phaseTags node ++ Node.allPhaseTags rest

end

/-- The phase tags of an expanded template in source order. -/
def Block.phaseTags (block : Block) : List PhaseNode := Node.allPhaseTags block.nodes

/-! ## Steps of a compiler -/

namespace Compilation

variable {c c' : Compiler} {made : List Component}

/-- A declaration touches the table of mixins, and notices. -/
theorem run_declare (name : Value) (body : Option Block) (line : Int) (c : Compiler) :
    ∃ notices, (declare name body line).run.run c =
      (.ok (), { c with mixins := c.mixins.put name (body.getD ⟨[], line⟩), notices }) := by
  unfold declare
  rw [Step.run_bind_of_ok (Step.run_get c)]
  by_cases h : c.mixins.has name = true
  · rw [if_pos h]
    exact ⟨_, rfl⟩
  · rw [if_neg h]
    exact ⟨_, rfl⟩

theorem run_declareAll (nodes : List Node) (c : Compiler) :
    ∃ notices, (declareAll nodes).run.run c =
      (.ok (), { c with mixins := c.mixins.declareAll nodes, notices }) := by
  induction nodes generalizing c with
  | nil => exact ⟨_, rfl⟩
  | cons node rest ih =>
    cases node with
    | mixin name isCall body args line =>
      cases isCall with
      | true => exact ih c
      | false =>
        obtain ⟨notices, hdeclare⟩ := run_declare name body line c
        rw [declareAll, Step.run_bind_of_ok hdeclare]
        exact ih { c with mixins := c.mixins.put name (body.getD ⟨[], line⟩), notices }
    | _ => exact ih c

theorem run_addPhase {attrs : List TagAttribute} {block : Block} {line : Int} {c c' : Compiler}
    (h : (addPhase attrs block line).run.run c = (.ok (), c')) :
    ∃ phase, PhaseTag.phase attrs block line = .ok phase ∧
      c' = { c with phases := c.phases ++ [phase] } := by
  unfold addPhase result at h
  cases hphase : PhaseTag.phase attrs block line with
  | error e =>
    rw [hphase] at h
    cases h
  | ok phase =>
    rw [hphase] at h
    cases h
    exact ⟨phase, rfl, rfl⟩

theorem run_checkLeaf {kind : ComponentKind} {block : Block} {line : Int} {c c' : Compiler}
    (h : (checkLeaf kind block line).run.run c = (.ok (), c')) :
    c'.mixins = c.mixins ∧ c'.phases = c.phases := by
  unfold checkLeaf at h
  rw [Step.run_bind_of_ok (Step.run_get c)] at h
  cases hcount : Leaf.countNodes c.mixins block.nodes with
  | error e =>
    rw [hcount] at h
    cases h
  | ok ignored =>
    rw [hcount] at h
    obtain ⟨ignored', after, hignored, h⟩ := Step.run_bind_eq_ok.1 h
    cases hignored
    by_cases hzero : ignored ≠ 0
    · rw [if_pos hzero] at h
      cases h
      exact ⟨rfl, rfl⟩
    · rw [if_neg hzero] at h
      cases h
      exact ⟨rfl, rfl⟩

theorem run_within {α : Type} (name : Value) (step : Compilation α) (c : Compiler) :
    (within name step).run.run c =
      let ran := step.run.run { c with expanding := c.expanding ++ [name] }
      (ran.1, { ran.2 with expanding := ran.2.expanding.dropLast }) := rfl

/-- A call that succeeds compiles the body that is declared, from the same mixins and phases. -/
theorem run_call {expand : Expansion} {name args : Value} {line : Int} {c c' : Compiler}
    {made : List Component} (h : (call expand name args line).run.run c = (.ok made, c')) :
    ∃ body compile before after, c.mixins.get? name = some body ∧ expand = some compile ∧
      (compile body).run.run before = (.ok made, after) ∧
      before.mixins = c.mixins ∧ before.phases = c.phases ∧
      c'.mixins = after.mixins ∧ c'.phases = after.phases := by
  unfold call at h
  rw [Step.run_bind_of_ok (Step.run_get c)] at h
  cases hbody : c.mixins.get? name with
  | none =>
    rw [hbody] at h
    cases h
  | some body =>
    rw [hbody] at h
    cases expand with
    | none => cases h
    | some compile =>
      dsimp only at h
      split at h
      · cases h
      · have hwithin : ∃ before, (within name (compile body)).run.run before = (.ok made, c') ∧
            before.mixins = c.mixins ∧ before.phases = c.phases := by
          split at h
          · obtain ⟨_, before, hnote, h⟩ := Step.run_bind_eq_ok.1 h
            cases hnote
            exact ⟨_, h, rfl, rfl⟩
          · exact ⟨c, h, rfl, rfl⟩
        obtain ⟨before, hrun, hmixins, hphases⟩ := hwithin
        rw [run_within] at hrun
        cases hran : (compile body).run.run
            { before with expanding := before.expanding ++ [name] } with
        | mk outcome after =>
          rw [hran] at hrun
          cases hrun
          exact ⟨body, compile, _, after, rfl, rfl, hran, hmixins, hphases, rfl, rfl⟩

theorem run_opened {α : Type} {nodes : List Node} {step : Compilation α} {c c' : Compiler} {a : α}
    (h : (do declareAll nodes; step : Compilation α).run.run c = (.ok a, c')) :
    ∃ opened, step.run.run opened = (.ok a, c') ∧ opened.mixins = c.mixins.declareAll nodes ∧
      opened.phases = c.phases := by
  obtain ⟨notices, hdeclare⟩ := run_declareAll nodes c
  rw [Step.run_bind_of_ok hdeclare] at h
  exact ⟨_, h, rfl, rfl⟩

theorem run_result {α : Type} {outcome : Except CompileError α} {c c' : Compiler} {a : α}
    (h : (result outcome).run.run c = (.ok a, c')) : outcome = .ok a ∧ c' = c := by
  cases outcome with
  | error e => cases h
  | ok a' =>
    cases h
    exact ⟨rfl, rfl⟩

@[simp] theorem visitAll_declaration {expand : Expansion} {node : Node} {rest : List Node}
    (h : node.isDeclaration = true) : visitAll expand (node :: rest) = visitAll expand rest := by
  cases node with
  | mixin name isCall found args line =>
    cases isCall with
    | true => cases h
    | false => rw [visitAll]
  | _ => cases h

theorem visitAll_cons {expand : Expansion} {node : Node} {rest : List Node}
    (h : node.isDeclaration = false) :
    visitAll expand (node :: rest) = (do
      let first ← visit expand node
      let others ← visitAll expand rest
      return first ++ others) := by
  cases node with
  | mixin name isCall found args line =>
    cases isCall with
    | true => rfl
    | false => cases h
  | _ => rfl

theorem visit_phaseTag {expand : Expansion} {name : Value} {attrs : List TagAttribute}
    {block : Block} {line : Int} {c c' : Compiler} {made : List Component}
    (hphase : name.text? = some PhaseTag.tag)
    (h : (visit expand (.tag name attrs block line)).run.run c = (.ok made, c')) :
    made = [] ∧ ∃ phase, PhaseTag.phase attrs block line = .ok phase ∧
      c' = { c with phases := c.phases ++ [phase] } := by
  obtain ⟨nodes, blockLine⟩ := block
  rw [visit, if_pos hphase] at h
  obtain ⟨_, after, hadd, hpure⟩ := Step.run_bind_eq_ok.1 h
  cases hpure
  exact ⟨rfl, run_addPhase hadd⟩

/-- A tag that is no phase makes one component: its children come from its content in a container,
and a leaf has none. -/
theorem visit_componentTag {expand : Expansion} {name : Value} {attrs : List TagAttribute}
    {nodes : List Node} {blockLine line : Int} {c c' : Compiler} {made : List Component}
    (hphase : ¬ name.text? = some PhaseTag.tag)
    (h : (visit expand (.tag name attrs ⟨nodes, blockLine⟩ line)).run.run c = (.ok made, c')) :
    ∃ kind extracted children, name.text?.bind ComponentKind.ofTag? = some kind ∧
      extractAttributes attrs kind.fields (some line) = .ok extracted ∧
      made = [⟨kind, extracted.get? "id", (extracted.erase "id").erase "children", children, none,
        some line⟩] ∧
      if kind.isContainer then ∃ opened,
        (visitAll expand nodes).run.run opened = (.ok children, c') ∧
          opened.mixins = c.mixins.declareAll nodes ∧ opened.phases = c.phases
      else children = [] ∧ c'.mixins = c.mixins ∧ c'.phases = c.phases := by
  rw [visit, if_neg hphase] at h
  cases hkind : name.text?.bind ComponentKind.ofTag? with
  | none =>
    rw [hkind] at h
    cases h
  | some kind =>
    rw [hkind] at h
    obtain ⟨extracted, start, hextract, hrest⟩ := Step.run_bind_eq_ok.1 h
    obtain ⟨hextracted, rfl⟩ := run_result hextract
    by_cases hc : kind.isContainer = true
    · rw [if_pos hc] at hrest
      obtain ⟨opened, hvisit, hmixins, hphases⟩ := run_opened hrest
      obtain ⟨children, last, hchildren, hpure⟩ := Step.run_bind_eq_ok.1 hvisit
      cases hpure
      refine ⟨kind, extracted, children, rfl, hextracted, rfl, ?_⟩
      rw [if_pos hc]
      exact ⟨opened, hchildren, hmixins, hphases⟩
    · rw [if_neg hc] at hrest
      obtain ⟨_, last, hcheck, hpure⟩ := Step.run_bind_eq_ok.1 hrest
      cases hpure
      refine ⟨kind, extracted, [], rfl, hextracted, rfl, ?_⟩
      rw [if_neg hc]
      exact ⟨rfl, run_checkLeaf hcheck⟩

/-- A conditional makes the components of its two branches, each with its guard. -/
theorem visit_conditional {expand : Expansion} {test : Value} {nodes : List Node}
    {blockLine line : Int} {alternate : Option Node} {c c' : Compiler} {made : List Component}
    (h : (visit expand (.conditional test ⟨nodes, blockLine⟩ alternate line)).run.run c =
      (.ok made, c')) :
    ∃ consequent others opened middle,
      (visitAll expand nodes).run.run opened = (.ok consequent, middle) ∧
      (visitOptional expand alternate).run.run middle = (.ok others, c') ∧
      made = consequent.map (Component.guard test) ++
        others.map (Component.guard (Component.negation test)) ∧
      opened.mixins = c.mixins.declareAll nodes ∧ opened.phases = c.phases := by
  rw [visit] at h
  obtain ⟨opened, hvisit, hmixins, hphases⟩ := run_opened h
  obtain ⟨consequent, middle, hconsequent, hvisit⟩ := Step.run_bind_eq_ok.1 hvisit
  obtain ⟨others, last, hothers, hpure⟩ := Step.run_bind_eq_ok.1 hvisit
  cases hpure
  exact ⟨consequent, others, opened, middle, hconsequent, hothers, rfl, hmixins, hphases⟩

end Compilation

/-! ## Compiling a template and its expansion -/

/-- What nodes without mixins have in common with what was made of the nodes they expand: the
components, and the phases that were added on the way. -/
structure Made (parts : Except CompileError (List Component)) (tags : List PhaseNode)
    (made : List Component) (c c' : Compiler) : Prop where
  components : parts = .ok made
  phases : ∃ phases, List.Forall₂ (fun tag phase => tag.phase = .ok phase) tags phases ∧
    c'.phases = c.phases ++ phases

namespace Made

variable {parts : Except CompileError (List Component)} {tags : List PhaseNode}
  {made : List Component} {c c' before after : Compiler}

/-- Phases do not change without a phase tag. -/
theorem ofUnchanged (hparts : parts = .ok made) (hphases : c'.phases = c.phases) :
    Made parts [] made c c' :=
  ⟨hparts, [], .nil, by rw [hphases, List.append_nil]⟩

theorem congr (h : Made parts tags made before after) (hbefore : before.phases = c.phases)
    (hafter : c'.phases = after.phases) : Made parts tags made c c' := by
  obtain ⟨phases, hphases, hadded⟩ := h.phases
  exact ⟨h.components, phases, hphases, by rw [hafter, hadded, hbefore]⟩

/-- What is made of two parts, one behind the other. -/
theorem append {parts' whole : Except CompileError (List Component)} {tags' : List PhaseNode}
    {made' all : List Component} {middle : Compiler} (h : Made parts tags made c middle)
    (h' : Made parts' tags' made' middle c') (hwhole : whole = .ok all) :
    Made whole (tags ++ tags') all c c' := by
  obtain ⟨phases, hphases, hadded⟩ := h.phases
  obtain ⟨phases', hphases', hadded'⟩ := h'.phases
  refine ⟨hwhole, phases ++ phases', List.rel_append hphases hphases', ?_⟩
  rw [hadded', hadded, List.append_assoc]

end Made

/-- An expansion of bodies agrees with a compilation of bodies. -/
def BodyExpansion.Agrees (body : BodyExpansion) (expand : Compilation.Expansion) : Prop :=
  ∀ compile, expand = some compile → ∃ open', body = some open' ∧
    ∀ block c made c', (compile block).run.run c = (.ok made, c') →
      ∃ block', open' block c.mixins = some (block', c'.mixins) ∧
        Made (Node.allComponents block'.nodes) (Node.allPhaseTags block'.nodes) made c c'

namespace Compilation

variable {body : BodyExpansion} {expand : Expansion} {c c' : Compiler} {made : List Component}

/-- What is made of a tag is what its expansion has, if that holds of its content. -/
theorem tag_expands {name : Value} {attrs : List TagAttribute} {nodes : List Node}
    {blockLine line : Int}
    (hnodes : ∀ {before after : Compiler} {parts : List Component},
      (visitAll expand nodes).run.run before = (.ok parts, after) →
        ∃ nodes', Node.expandAll body nodes before.mixins = some (nodes', after.mixins) ∧
          Made (Node.allComponents nodes') (Node.allPhaseTags nodes') parts before after)
    (h : (visit expand (.tag name attrs ⟨nodes, blockLine⟩ line)).run.run c = (.ok made, c')) :
    ∃ node', (Node.tag name attrs ⟨nodes, blockLine⟩ line).expand body c.mixins =
        some (node', c'.mixins) ∧ Made node'.components node'.phaseTags made c c' := by
  by_cases hphase : name.text? = some PhaseTag.tag
  · obtain ⟨rfl, phase, htag, rfl⟩ := visit_phaseTag hphase h
    refine ⟨.tag name attrs ⟨nodes, blockLine⟩ line, ?_, ?_, [phase], ?_, rfl⟩
    · simp [Node.expand, Value.isContainerTag, hphase]
    · rw [Node.components, if_pos hphase]
    · rw [Node.phaseTags, if_pos hphase]
      exact .cons htag .nil
  obtain ⟨kind, extracted, children, hkind, hextracted, rfl, hcontent⟩ :=
    visit_componentTag hphase h
  have hcontainer := Value.isContainerTag_eq hphase hkind
  by_cases hc : kind.isContainer = true
  · rw [if_pos hc] at hcontent
    obtain ⟨opened, hchildren, hmixins, hphases⟩ := hcontent
    obtain ⟨nodes', hexpand, hmade⟩ := hnodes hchildren
    refine ⟨.tag name attrs ⟨nodes', blockLine⟩ line, ?_, ?_, ?_⟩
    · simp [Node.expand, hcontainer, hc, ← hmixins, hexpand]
    · refine (Node.components_tag_eq_ok hphase).2
        ⟨kind, extracted, children, hkind, hextracted, ?_, rfl⟩
      rw [if_pos hc, hmade.components]
    · rw [Node.phaseTags, if_neg hphase, hcontainer, if_pos hc]
      exact (hmade.congr hphases rfl).phases
  · rw [if_neg hc] at hcontent
    obtain ⟨rfl, hmixins, hphases⟩ := hcontent
    refine ⟨.tag name attrs ⟨nodes, blockLine⟩ line, ?_, ?_⟩
    · simp [Node.expand, hcontainer, hc, hmixins]
    · rw [Node.phaseTags, if_neg hphase, hcontainer, if_neg hc]
      refine Made.ofUnchanged ((Node.components_tag_eq_ok hphase).2 ?_) hphases
      exact ⟨kind, extracted, [], hkind, hextracted, if_neg hc, rfl⟩

mutual

/-- What is made of a node is what its expansion has. -/
theorem visit_expands (hbody : body.Agrees expand) (node : Node) {c c' : Compiler}
    {made : List Component} (h : (visit expand node).run.run c = (.ok made, c')) :
    ∃ node', node.expand body c.mixins = some (node', c'.mixins) ∧
      Made node'.components node'.phaseTags made c c' := by
  match node with
  | .block ⟨nodes, line⟩ =>
    rw [visit] at h
    obtain ⟨opened, hvisit, hmixins, hphases⟩ := run_opened h
    obtain ⟨nodes', hexpand, hmade⟩ := visitAll_expands hbody nodes hvisit
    refine ⟨.block ⟨nodes', line⟩, ?_, hmade.congr hphases rfl⟩
    rw [Node.expand, ← hmixins, hexpand]
    rfl
  | .tag name attrs ⟨nodes, blockLine⟩ line =>
    exact tag_expands (visitAll_expands hbody nodes) h
  | .mixin name true found args line =>
    rw [visit, if_pos rfl] at h
    obtain ⟨block, compile, before, after, hfound, hcompile, hrun, hb, hb', ha, ha'⟩ := run_call h
    obtain ⟨open', hopen, hagree⟩ := hbody compile hcompile
    obtain ⟨⟨nodes', line'⟩, hexpand, hmade⟩ := hagree block before made after hrun
    refine ⟨.block ⟨nodes', line'⟩, ?_, hmade.congr hb' ha'⟩
    rw [Node.expand, hfound, hopen, ← hb, ha]
    show (open' block before.mixins >>= _) = _
    rw [hexpand]
    rfl
  | .mixin name false found args line =>
    rw [visit, if_neg Bool.false_ne_true] at h
    obtain ⟨notices, hdeclare⟩ := run_declare name found line c
    rw [Step.run_bind_of_ok hdeclare] at h
    cases h
    exact ⟨.block ⟨[], line⟩, rfl, Made.ofUnchanged rfl rfl⟩
  | .conditional test ⟨nodes, blockLine⟩ alternate line =>
    obtain ⟨consequent, others, opened, middle, hconsequent, hothers, rfl, hmixins, hphases⟩ :=
      visit_conditional h
    obtain ⟨nodes', hexpand, hmade⟩ := visitAll_expands hbody nodes hconsequent
    obtain ⟨alternate', hexpand', hmade'⟩ := visitOptional_expands hbody alternate hothers
    refine ⟨.conditional test ⟨nodes', blockLine⟩ alternate' line, ?_, ?_⟩
    · rw [Node.expand, ← hmixins, hexpand]
      show (Node.expandOptional body alternate middle.mixins >>= _) = _
      rw [hexpand']
      rfl
    · refine (hmade.append hmade' ?_).congr hphases rfl
      rw [Node.components, hmade.components, hmade'.components]
      rfl
  | .text value line =>
    rw [visit] at h
    cases h
    exact ⟨.text value line, rfl, Made.ofUnchanged rfl rfl⟩
  | .comment value line =>
    rw [visit] at h
    cases h
    exact ⟨.comment value line, rfl, Made.ofUnchanged rfl rfl⟩
  | .unknown type line =>
    rw [visit] at h
    cases h

theorem visitOptional_expands (hbody : body.Agrees expand) (node : Option Node) {c c' : Compiler}
    {made : List Component} (h : (visitOptional expand node).run.run c = (.ok made, c')) :
    ∃ node', Node.expandOptional body node c.mixins = some (node', c'.mixins) ∧
      Made (Node.optionalComponents node') (Node.optionalPhaseTags node') made c c' := by
  match node with
  | none =>
    rw [visitOptional] at h
    cases h
    exact ⟨none, rfl, Made.ofUnchanged rfl rfl⟩
  | some node =>
    rw [visitOptional] at h
    obtain ⟨node', hexpand, hmade⟩ := visit_expands hbody node h
    refine ⟨some node', ?_, hmade⟩
    rw [Node.expandOptional, hexpand]
    rfl

theorem visitAll_expands (hbody : body.Agrees expand) (nodes : List Node) {c c' : Compiler}
    {made : List Component} (h : (visitAll expand nodes).run.run c = (.ok made, c')) :
    ∃ nodes', Node.expandAll body nodes c.mixins = some (nodes', c'.mixins) ∧
      Made (Node.allComponents nodes') (Node.allPhaseTags nodes') made c c' := by
  match nodes with
  | [] =>
    rw [visitAll] at h
    cases h
    exact ⟨[], rfl, Made.ofUnchanged rfl rfl⟩
  | node :: rest =>
    by_cases hd : node.isDeclaration = true
    · rw [visitAll_declaration hd] at h
      rw [Node.expandAll_declaration hd]
      exact visitAll_expands hbody rest h
    · have hother : node.isDeclaration = false := by simpa using hd
      rw [visitAll_cons hother] at h
      obtain ⟨first, middle, hfirst, h⟩ := Step.run_bind_eq_ok.1 h
      obtain ⟨others, last, hothers, hpure⟩ := Step.run_bind_eq_ok.1 h
      cases hpure
      obtain ⟨node', hexpand, hmade⟩ := visit_expands hbody node hfirst
      obtain ⟨rest', hexpand', hmade'⟩ := visitAll_expands hbody rest hothers
      refine ⟨node' :: rest', ?_, hmade.append hmade' ?_⟩
      · rw [Node.expandAll_cons hother, hexpand]
        show (Node.expandAll body rest middle.mixins >>= _) = _
        rw [hexpand']
        rfl
      · rw [Node.allComponents, hmade.components, hmade'.components]
        rfl

end

theorem expansion_agrees (n : Nat) : (Block.expansion n).Agrees (expansion n) := by
  induction n with
  | zero =>
    intro compile h
    cases h
  | succ n ih =>
    intro compile h
    cases h
    refine ⟨Block.expand (Block.expansion n), rfl, ?_⟩
    rintro ⟨nodes, line⟩ c made c' hrun
    obtain ⟨node', hexpand, hmade⟩ := visit_expands ih (.block ⟨nodes, line⟩) hrun
    rw [Node.expand] at hexpand
    obtain ⟨⟨nodes', mixins⟩, hnodes, hblock⟩ := Option.bind_eq_some_iff.1 hexpand
    cases hblock
    refine ⟨⟨nodes', line⟩, ?_, hmade⟩
    rw [Block.expand, hnodes]
    rfl

end Compilation

/-- The expansion of a block keeps its line. -/
theorem Block.line_of_expand {body : BodyExpansion} {block block' : Block} {mixins last : Mixins}
    (h : block.expand body mixins = some (block', last)) : block'.line = block.line := by
  obtain ⟨nodes, line⟩ := block
  rw [Block.expand] at h
  obtain ⟨opened, hnodes, hblock⟩ := Option.bind_eq_some_iff.1 h
  cases hblock
  rfl

/-- What a compiled template has from the template that a block stands for. -/
structure CompiledTemplate.Stands (t : CompiledTemplate) (expanded : Block) : Prop where
  root : ∃ children, Node.allComponents expanded.nodes = .ok children ∧
    t.root = ⟨.zstack, none, [], children, none, some expanded.line⟩
  phases : ∃ phases,
    List.Forall₂ (fun tag phase => tag.phase = .ok phase) expanded.phaseTags phases ∧
    t.phases = if phases.isEmpty then [PhaseTag.defaultPhase] else phases

/-- A template that compiles, whatever was compiled before, can be expanded and is compiled as its
expansion. -/
theorem stands_of_compile {c : Compiler} {block : Block} {t : CompiledTemplate}
    (h : (c.compile block).1 = .ok t) :
    ∃ expanded, block.expanded? = some expanded ∧ t.Stands expanded := by
  obtain ⟨last, hrun⟩ : ∃ last, (Compiler.run block).run.run c = (.ok t, last) :=
    ⟨_, Prod.ext h rfl⟩
  unfold Compiler.run at hrun
  rw [Step.run_bind_of_ok (Step.run_modify _ _)] at hrun
  obtain ⟨children, visited, hvisit, hrun⟩ := Step.run_bind_eq_ok.1 hrun
  rw [Step.run_bind_of_ok (Step.run_get visited)] at hrun
  cases hrun
  obtain ⟨open', hopen, hagree⟩ :=
    Compilation.expansion_agrees (block.declarations + 1) _ rfl
  cases hopen
  obtain ⟨expanded, hexpand, hmade⟩ := hagree block _ children visited hvisit
  have hexpanded : block.expanded? = some expanded := by
    show Option.map (·.1) (block.expand (Block.expansion block.declarations) []) = some expanded
    rw [show block.expand (Block.expansion block.declarations) [] = _ from hexpand]
    rfl
  obtain ⟨phases, htags, hadded⟩ := hmade.phases
  refine ⟨expanded, hexpanded, ⟨children, hmade.components, ?_⟩, phases, htags, ?_⟩
  · rw [Block.line_of_expand hexpand]
  · show (if visited.phases.isEmpty then _ else _) = _
    rw [hadded]
    rfl

theorem stands_of_compileTemplate {block : Block} {t : CompiledTemplate} {notices : List Notice}
    (h : compileTemplate block = (.ok t, notices)) :
    ∃ expanded, block.expanded? = some expanded ∧ t.Stands expanded :=
  stands_of_compile (congrArg Prod.fst h)

end SceneTemplates
