import SceneTemplates.Proofs.DeclaredNames

/-!
# Bodies that are open

While a template is compiled the bodies of some mixins are open inside each other. Their names are
declared and no two of them are the same, so that there are never more of them than names in the
template: opening bodies ends, and a bound on it that is no smaller is never reached. A compilation
leaves no body open, however it ends, and the next one does not depend on it.
-/
namespace SceneTemplates

/-! ## Open bodies -/

namespace Compiler

variable {names : List MixinName} {stack : List Value} {c c' : Compiler} {name : Value}

/-- The open bodies are those of declared mixins with different names, and all declarations give
names of a list. -/
structure Opens (names : List MixinName) (stack : List Value) (c : Compiler) : Prop where
  expanding : c.expanding = stack
  within : c.mixins.Within names
  distinct : stack.Pairwise fun a b => a.sameName b = false
  declared : ∀ name ∈ stack, c.mixins.has name = true

namespace Opens

/-- There are no more open bodies than names. -/
theorem length_le (h : c.Opens names stack) : stack.length ≤ names.dedup.length :=
  h.within.length_le h.distinct h.declared

/-- A further body can be opened if its name is declared and not that of an open one. -/
theorem push (h : c.Opens names stack) (hname : c.mixins.has name = true)
    (hopen : c.expanding.any (·.sameName name) = false) :
    { c with expanding := c.expanding ++ [name] }.Opens names (stack ++ [name]) := by
  rw [h.expanding, List.any_eq_false] at hopen
  refine ⟨by rw [h.expanding], h.within, ?_, ?_⟩
  · rw [List.pairwise_append]
    refine ⟨h.distinct, List.pairwise_singleton _ _, fun a ha b hb => ?_⟩
    rw [List.mem_singleton] at hb
    subst hb
    exact Bool.eq_false_iff.2 (hopen a ha)
  · intro other hother
    obtain hother | hother := List.mem_append.1 hother
    · exact h.declared other hother
    · rw [List.mem_singleton] at hother
      subst hother
      exact hname

/-- The body that was opened last is closed. -/
theorem pop (h : c.Opens names (stack ++ [name])) :
    { c with expanding := c.expanding.dropLast }.Opens names stack where
  expanding := by rw [h.expanding, List.dropLast_concat]
  within := h.within
  distinct := (List.pairwise_append.1 h.distinct).1
  declared := fun other hother => h.declared other (List.mem_append_left _ hother)

theorem put (h : c.Opens names stack) {body : Block}
    (hname : (MixinName.ofValue? name).toList ⊆ names) (hbody : body.names ⊆ names) :
    { c with mixins := c.mixins.put name body }.Opens names stack where
  expanding := h.expanding
  within := h.within.put hname hbody
  distinct := h.distinct
  declared := fun other hother => Mixins.has_put (h.declared other hother) name body

/-- Notices and phases do not matter. -/
theorem congr (h : c.Opens names stack) (hmixins : c'.mixins = c.mixins)
    (hexpanding : c'.expanding = c.expanding) : c'.Opens names stack where
  expanding := hexpanding.trans h.expanding
  within := hmixins ▸ h.within
  distinct := h.distinct
  declared := hmixins ▸ h.declared

end Opens

theorem Opens.initial (names : List MixinName) (c : Compiler) :
    { c with mixins := [], phases := [], expanding := [] }.Opens names [] where
  expanding := rfl
  within := Mixins.within_nil
  distinct := .nil
  declared := nofun

/-- Two compilers with the same open bodies that differ in what they had noted earlier at most. -/
structure Beside (names : List MixinName) (stack : List Value) (earlier earlier' : List Notice)
    (c c' : Compiler) : Prop where
  opens : c.Opens names stack
  same : ∃ noted, c.notices = earlier ++ noted ∧ c' = { c with notices := earlier' ++ noted }

theorem Opens.beside (h : c.Opens names stack) (notices : List Notice) :
    Beside names stack c.notices notices c { c with notices } :=
  ⟨h, [], by simp, by simp⟩

/-- A relation between compilers with the same phases that lasts when both note the same or add
the same phase. -/
structure Lasting (R : Compiler → Compiler → Prop) : Prop where
  phases : ∀ c c', R c c' → c'.phases = c.phases
  notice : ∀ c c' notice, R c c' →
    R { c with notices := c.notices ++ [notice] } { c' with notices := c'.notices ++ [notice] }
  phase : ∀ c c' phase, R c c' →
    R { c with phases := c.phases ++ [phase] } { c' with phases := c'.phases ++ [phase] }

theorem beside_lasting {earlier earlier' : List Notice} :
    Lasting (Beside names stack earlier earlier') where
  phases := by
    rintro c _ ⟨-, noted, -, rfl⟩
    rfl
  notice := by
    rintro c _ notice ⟨hopens, noted, hnoted, rfl⟩
    refine ⟨hopens.congr rfl rfl, noted ++ [notice], ?_, ?_⟩
    · rw [hnoted, List.append_assoc]
    · rw [← List.append_assoc]
  phase := by
    rintro c _ phase ⟨hopens, noted, hnoted, rfl⟩
    exact ⟨hopens.congr rfl rfl, noted, hnoted, rfl⟩

/-- The tree and the phases when the children of the root are compiled. -/
def finish (line : Int) (children : List Component) : Compilation CompiledTemplate := do
  let c ← get
  let phases := if c.phases.isEmpty then [PhaseTag.defaultPhase] else c.phases
  let text := "Compiled template: " ++ Text.ofNat children.length ++ " top-level components, " ++
    Text.ofNat phases.length ++ " phases"
  modify fun c => { c with notices := c.notices ++ [⟨.debug, .compilation, text⟩] }
  return ⟨⟨.zstack, none, [], children, none, some line⟩, phases⟩

end Compiler

namespace Compilation

open Step (Matches)

theorem result_matches {α : Type} {R : Compiler → Compiler → Prop}
    (outcome : Except CompileError α) : Matches R (result outcome) (result outcome) := by
  cases outcome with
  | ok a => exact Matches.ofPure a
  | error e => exact Matches.ofThrow e

end Compilation

namespace Compiler.Lasting

open Compilation
open Step (Matches)

variable {R : Compiler → Compiler → Prop} (hR : Lasting R)

include hR

theorem note_matches (level : NoticeLevel) (line : Int) (text : Text) :
    Matches R (note level line text) (note level line text) :=
  Matches.ofModify fun c c' h => hR.notice c c' _ h

theorem addPhase_matches (attrs : List TagAttribute) (block : Block) (line : Int) :
    Matches R (addPhase attrs block line) (addPhase attrs block line) :=
  (result_matches _).andThen fun phase => Matches.ofModify fun c c' h => hR.phase c c' phase h

/-- The content of a leaf that counts alike is checked alike. -/
theorem checkLeaf_matches {kind : ComponentKind} {block : Block} {line : Int}
    (hcount : ∀ c c', R c c' →
      Leaf.countNodes c.mixins block.nodes = Leaf.countNodes c'.mixins block.nodes) :
    Matches R (checkLeaf kind block line) (checkLeaf kind block line) := by
  refine Matches.ofGet fun c c' h => ?_
  rw [hcount c c' h]
  refine Matches.andThen (result_matches _) (fun ignored => ?_) c c' h
  split
  · exact hR.note_matches _ _ _
  · exact Matches.ofPure _

theorem finish_matches (line : Int) (children : List Component) :
    Matches R (finish line children) (finish line children) := by
  refine Matches.ofGet fun c c' h => ?_
  rw [hR.phases c c' h]
  exact ((Matches.ofModify fun c c' h => hR.notice c c' _ h).andThen fun _ =>
    Matches.ofPure _) c c' h

end Compiler.Lasting

namespace Compilation

open Compiler (Beside)
open Step (Matches)

variable {names : List MixinName} {stack : List Value} {earlier earlier' : List Notice}
  {c c' : Compiler} {expand expand' : Expansion}

/-! ## Compiling beside each other -/

theorem put_matches {name : Value} {body : Block}
    (hname : (MixinName.ofValue? name).toList ⊆ names) (hbody : body.names ⊆ names) :
    Matches (Beside names stack earlier earlier')
      (modify fun c => { c with mixins := c.mixins.put name body } : Compilation Unit)
      (modify fun c => { c with mixins := c.mixins.put name body }) := by
  refine Matches.ofModify ?_
  rintro c c' ⟨hopens, noted, hnoted, rfl⟩
  exact ⟨hopens.put hname hbody, noted, hnoted, rfl⟩

theorem declare_matches {name : Value} {body : Option Block} {line : Int}
    (hname : (MixinName.ofValue? name).toList ⊆ names)
    (hbody : (body.getD ⟨[], line⟩).names ⊆ names) :
    Matches (Beside names stack earlier earlier') (declare name body line)
      (declare name body line) := by
  refine Matches.ofGet fun c c' h => ?_
  obtain ⟨-, noted, -, rfl⟩ := id h
  by_cases hhas : c.mixins.has name = true
  · simp only [hhas, if_true]
    exact ((Compiler.beside_lasting.note_matches _ _ _).andThen fun _ =>
      put_matches hname hbody) c _ h
  · simp only [hhas]
    exact put_matches hname hbody c _ h

theorem declareAll_matches {nodes : List Node} (hnodes : Node.allNames nodes ⊆ names) :
    Matches (Beside names stack earlier earlier') (declareAll nodes) (declareAll nodes) := by
  induction nodes with
  | nil => exact Matches.ofPure _
  | cons node rest ih =>
    rw [Node.allNames, List.append_subset] at hnodes
    cases node with
    | mixin name isCall body args line =>
      cases isCall with
      | true => exact ih hnodes.2
      | false =>
        rw [Node.names_declaration, List.append_subset] at hnodes
        rw [declareAll]
        exact (declare_matches hnodes.1.1 hnodes.1.2).andThen fun _ => ih hnodes.2
    | _ => exact ih hnodes.2

/-- While a body is open its name is the last one. -/
theorem within_matches {α : Type} {name : Value} {step step' : Compilation α}
    (hstep : Matches (Beside names (stack ++ [name]) earlier earlier') step step')
    (h : Beside names stack earlier earlier' c c')
    (hpush : { c with expanding := c.expanding ++ [name] }.Opens names (stack ++ [name])) :
    ((within name step).run.run c).1 = ((within name step').run.run c').1 ∧
      Beside names stack earlier earlier' ((within name step).run.run c).2
        ((within name step').run.run c').2 := by
  obtain ⟨noted, hnoted, rfl⟩ := h.same
  rw [run_within, run_within]
  obtain ⟨houtcome, hopens, after, hafter, hsame⟩ :=
    hstep _ { c with expanding := c.expanding ++ [name], notices := earlier' ++ noted }
      ⟨hpush, noted, hnoted, rfl⟩
  refine ⟨houtcome, hopens.pop, after, hafter, ?_⟩
  dsimp only
  rw [hsame]

/-- Two expansions open bodies alike as long as fewer bodies are open than there are names. -/
def Expansion.Matches (names : List MixinName) (stack : List Value)
    (earlier earlier' : List Notice) (expand expand' : Expansion) : Prop :=
  stack.length < names.dedup.length → ∃ compile compile', expand = some compile ∧
    expand' = some compile' ∧ ∀ name body, body.names ⊆ names →
      Step.Matches (Beside names (stack ++ [name]) earlier earlier') (compile body) (compile' body)

theorem call_matches (hexpand : expand.Matches names stack earlier earlier' expand')
    (name args : Value) (line : Int) :
    Matches (Beside names stack earlier earlier') (call expand name args line)
      (call expand' name args line) := by
  refine Matches.ofGet fun c c' h => ?_
  obtain ⟨hopens, noted, hnoted, rfl⟩ := id h
  dsimp only
  cases hbody : c.mixins.get? name with
  | none => exact Matches.ofThrow _ _ _ h
  | some body =>
    by_cases hopen : c.expanding.any (·.sameName name) = true
    · -- Whatever the expansions are, a body that is open already is not opened again.
      simp only [hopen, if_true]
      cases expand <;> cases expand' <;> exact Matches.ofThrow _ _ _ h
    · have hclosed := Bool.eq_false_iff.2 hopen
      have hpush := hopens.push (by rw [Mixins.has, hbody]; rfl) hclosed
      have hroom := hpush.length_le
      rw [List.length_append] at hroom
      obtain ⟨compile, compile', rfl, rfl, hcompile⟩ := hexpand hroom
      have hstep := hcompile name body (hopens.within.get? hbody)
      simp only [hclosed, Bool.false_eq_true, if_false]
      split
      · exact within_matches hstep (Compiler.beside_lasting.notice c _ _ h)
          (hpush.congr rfl rfl)
      · exact within_matches hstep h hpush

mutual

/-- Expansions that open bodies alike compile a node alike. -/
theorem visit_matches (hexpand : expand.Matches names stack earlier earlier' expand') (node : Node)
    (hnode : node.names ⊆ names) :
    Matches (Beside names stack earlier earlier') (visit expand node) (visit expand' node) := by
  match node with
  | .block ⟨nodes, _⟩ =>
    rw [Node.names, Block.names_mk] at hnode
    rw [visit, visit]
    exact (declareAll_matches hnode).andThen fun _ => visitAll_matches hexpand nodes hnode
  | .tag name attrs ⟨nodes, blockLine⟩ line =>
    rw [Node.names, Block.names_mk] at hnode
    rw [visit, visit]
    split
    · exact (Compiler.beside_lasting.addPhase_matches attrs _ line).andThen fun _ =>
        Matches.ofPure _
    · split
      · exact Matches.ofThrow _
      · refine (result_matches _).andThen fun extracted => ?_
        dsimp only
        split
        · exact (declareAll_matches hnode).andThen fun _ =>
            (visitAll_matches hexpand nodes hnode).andThen fun _ => Matches.ofPure _
        · refine (Compiler.beside_lasting.checkLeaf_matches ?_).andThen fun _ =>
            Matches.ofPure _
          rintro c _ ⟨-, noted, -, rfl⟩
          rfl
  | .mixin name true body args line =>
    rw [visit, visit, if_pos rfl, if_pos rfl]
    exact call_matches hexpand name args line
  | .mixin name false body args line =>
    rw [Node.names_declaration, List.append_subset] at hnode
    rw [visit, visit, if_neg Bool.false_ne_true, if_neg Bool.false_ne_true]
    exact (declare_matches hnode.1 hnode.2).andThen fun _ => Matches.ofPure _
  | .conditional test ⟨nodes, _⟩ alternate _ =>
    rw [Node.names_conditional, Block.names_mk, List.append_subset] at hnode
    rw [visit, visit]
    exact (declareAll_matches hnode.1).andThen fun _ =>
      (visitAll_matches hexpand nodes hnode.1).andThen fun _ =>
        (visitOptional_matches hexpand alternate hnode.2).andThen fun _ => Matches.ofPure _
  | .text _ _ | .comment _ _ =>
    rw [visit, visit]
    exact Matches.ofPure _
  | .unknown type line =>
    rw [visit, visit]
    exact Matches.ofThrow _

theorem visitOptional_matches (hexpand : expand.Matches names stack earlier earlier' expand')
    (node : Option Node) (hnode : Node.optionalNames node ⊆ names) :
    Matches (Beside names stack earlier earlier') (visitOptional expand node)
      (visitOptional expand' node) := by
  match node with
  | none =>
    rw [visitOptional, visitOptional]
    exact Matches.ofPure _
  | some node =>
    rw [visitOptional, visitOptional]
    exact visit_matches hexpand node hnode

theorem visitAll_matches (hexpand : expand.Matches names stack earlier earlier' expand')
    (nodes : List Node) (hnodes : Node.allNames nodes ⊆ names) :
    Matches (Beside names stack earlier earlier') (visitAll expand nodes)
      (visitAll expand' nodes) := by
  match nodes with
  | [] =>
    rw [visitAll, visitAll]
    exact Matches.ofPure _
  | node :: rest =>
    rw [Node.allNames, List.append_subset] at hnodes
    by_cases hd : node.isDeclaration = true
    · rw [visitAll_declaration hd, visitAll_declaration hd]
      exact visitAll_matches hexpand rest hnodes.2
    · have hother : node.isDeclaration = false := by simpa using hd
      rw [visitAll_cons hother, visitAll_cons hother]
      exact (visit_matches hexpand node hnodes.1).andThen fun _ =>
        (visitAll_matches hexpand rest hnodes.2).andThen fun _ => Matches.ofPure _

end

/-- The expansion with a number of bodies that can be opened inside each other, and another one
for the bodies inside those. -/
def expansionOver (behind : Expansion) : Nat → Expansion
  | 0 => behind
  | n + 1 => some (visitBlock (expansionOver behind n))

@[simp] theorem expansionOver_none (n : Nat) : expansionOver none n = expansion n := by
  induction n with
  | zero => rfl
  | succ n ih => rw [expansionOver, expansion, ih]

/-- What is behind a bound that suffices for all names is never opened. -/
theorem expansionOver_matches (behind behind' : Expansion) {n n' : Nat}
    (hn : names.dedup.length ≤ stack.length + n) (hn' : names.dedup.length ≤ stack.length + n') :
    (expansionOver behind n).Matches names stack earlier earlier' (expansionOver behind' n') := by
  intro hroom
  induction n generalizing stack n' with
  | zero => omega
  | succ n ih =>
    obtain ⟨n', rfl⟩ : ∃ m, n' = m + 1 := ⟨n' - 1, by omega⟩
    refine ⟨_, _, rfl, rfl, fun name body hbody => ?_⟩
    have hlength : (stack ++ [name]).length = stack.length + 1 := by simp
    refine visit_matches (fun hroom' => ih ?_ ?_ hroom') (.block body) ?_
    · omega
    · omega
    · rw [Node.names]
      exact hbody

theorem expansion_matches {n : Nat} (hn : names.dedup.length ≤ stack.length + n) :
    (expansion n).Matches names stack earlier earlier' (expansion n) := by
  rw [← expansionOver_none]
  exact expansionOver_matches none none hn hn

end Compilation

namespace Compiler

open Compilation

variable {c c' : Compiler} {block : Block} {expand expand' : Expansion}

/-- The tree and the phases of a block with an expansion of its calls. -/
def runOver (expand : Expansion) (block : Block) : Compilation CompiledTemplate := do
  modify fun c => { c with mixins := [], phases := [], expanding := [] }
  let children ← visitBlock expand block
  finish block.line children

theorem run_eq_runOver (block : Block) :
    run block = runOver (expansion block.declarations) block := rfl

/-- Compiling does not depend on what a compiler did before, and leaves no body open. -/
theorem runOver_beside
    (hexpand : expand.Matches block.names [] c.notices c'.notices expand') :
    ((runOver expand block).run.run c).1 = ((runOver expand' block).run.run c').1 ∧
      Beside block.names [] c.notices c'.notices ((runOver expand block).run.run c).2
        ((runOver expand' block).run.run c').2 := by
  unfold runOver
  rw [Step.run_bind_of_ok (Step.run_modify _ _), Step.run_bind_of_ok (Step.run_modify _ _)]
  refine ((visit_matches hexpand (.block block) ?_).andThen fun children =>
    beside_lasting.finish_matches block.line children) _ _
      ((Opens.initial block.names c).beside c'.notices)
  rw [Node.names]
  exact List.Subset.refl _

/-- All bounds that suffice for the names in a block compile it alike. -/
theorem runOver_expansionOver (c : Compiler) (behind : Expansion) {n : Nat}
    (hn : block.names.dedup.length ≤ n) :
    (runOver (expansionOver behind n) block).run.run c = c.compile block := by
  have hexpand : (expansionOver behind n).Matches block.names [] c.notices c.notices
      (expansion block.declarations) := by
    rw [← expansionOver_none]
    refine expansionOver_matches behind none ?_ ?_
    · rwa [List.length_nil, Nat.zero_add]
    · rw [List.length_nil, Nat.zero_add]
      exact block.length_dedup_names_le
  obtain ⟨houtcome, -, noted, hnoted, hsame⟩ := runOver_beside hexpand
  refine Prod.ext houtcome ?_
  show _ = ((run block).run.run c).2
  rw [run_eq_runOver, hsame, ← hnoted]

theorem compile_beside (c c' : Compiler) (block : Block) :
    (c.compile block).1 = (c'.compile block).1 ∧
      Beside block.names [] c.notices c'.notices (c.compile block).2 (c'.compile block).2 := by
  refine runOver_beside (expansion_matches ?_)
  rw [List.length_nil, Nat.zero_add]
  exact block.length_dedup_names_le

end Compiler

/-! ## The visits of a compilation -/

/-- The visit of a node by a compiler, with a bound on the bodies that can still be opened. -/
structure Visit where
  bound : Nat
  node : Node
  before : Compiler

namespace Visit

open Compilation

/-- The compiler when it leaves the node, be it with an error. -/
def after (v : Visit) : Compiler := ((visit (expansion v.bound) v.node).run.run v.before).2

/-- A compiler comes from one state to another when it declares the mixins of nodes and visits
some of them. -/
def Comes (bound : Nat) (nodes visited : List Node) (c c' : Compiler) : Prop :=
  ∃ made, (do declareAll nodes; visitAll (expansion bound) visited : Compilation _).run.run c =
    (.ok made, c')

/-- A visit of a node contains that of a node directly inside it, or of the body that it calls. -/
inductive Contains : Visit → Visit → Prop where
  | block {bound : Nat} {visited rest : List Node} {node : Node} {line : Int} {c c' : Compiler}
    (hnode : node.isDeclaration = false)
    (hcomes : Comes bound (visited ++ node :: rest) visited c c') :
    Contains ⟨bound, .block ⟨visited ++ node :: rest, line⟩, c⟩ ⟨bound, node, c'⟩
  | container {bound : Nat} {name : Value} {attrs : List TagAttribute} {kind : ComponentKind}
    {extracted : Entries Attribute} {visited rest : List Node} {node : Node} {blockLine line : Int}
    {c c' : Compiler} (hphase : ¬ name.text? = some PhaseTag.tag)
    (hkind : name.text?.bind ComponentKind.ofTag? = some kind)
    (hextracted : extractAttributes attrs kind.fields (some line) = .ok extracted)
    (hcontainer : kind.isContainer = true) (hnode : node.isDeclaration = false)
    (hcomes : Comes bound (visited ++ node :: rest) visited c c') :
    Contains ⟨bound, .tag name attrs ⟨visited ++ node :: rest, blockLine⟩ line, c⟩
      ⟨bound, node, c'⟩
  | consequent {bound : Nat} {test : Value} {visited rest : List Node} {node : Node}
    {alternate : Option Node} {blockLine line : Int} {c c' : Compiler}
    (hnode : node.isDeclaration = false)
    (hcomes : Comes bound (visited ++ node :: rest) visited c c') :
    Contains ⟨bound, .conditional test ⟨visited ++ node :: rest, blockLine⟩ alternate line, c⟩
      ⟨bound, node, c'⟩
  | alternate {bound : Nat} {test : Value} {nodes : List Node} {alternate : Node}
    {blockLine line : Int} {c c' : Compiler} (hcomes : Comes bound nodes nodes c c') :
    Contains ⟨bound, .conditional test ⟨nodes, blockLine⟩ (some alternate) line, c⟩
      ⟨bound, alternate, c'⟩
  /-- Arguments may have been noted. -/
  | body {bound : Nat} {name args : Value} {found : Option Block} {body : Block} {line : Int}
    {c : Compiler} {notices : List Notice} (hbody : c.mixins.get? name = some body)
    (hclosed : c.expanding.any (·.sameName name) = false) :
    Contains ⟨bound + 1, .mixin name true found args line, c⟩
      ⟨bound, .block body, { c with expanding := c.expanding ++ [name], notices }⟩

variable {names : List MixinName} {stack : List Value} {bound : Nat} {nodes visited : List Node}
  {c c' : Compiler} {v w : Visit}

/-- A visit in a template with some names: its bound suffices for the bodies that can be opened. -/
structure IsSound (names : List MixinName) (stack : List Value) (v : Visit) : Prop where
  opens : v.before.Opens names stack
  node : v.node.names ⊆ names
  bound : names.dedup.length ≤ stack.length + v.bound

theorem IsSound.after (h : v.IsSound names stack) : v.after.Opens names stack :=
  (visit_matches (expansion_matches h.bound) v.node h.node _ _
    (h.opens.beside v.before.notices)).2.opens

theorem Comes.opens (h : Comes bound nodes visited c c') (hopens : c.Opens names stack)
    (hbound : names.dedup.length ≤ stack.length + bound) (hnodes : Node.allNames nodes ⊆ names)
    (hvisited : Node.allNames visited ⊆ names) : c'.Opens names stack := by
  obtain ⟨made, hrun⟩ := h
  have hcomes := ((declareAll_matches hnodes).andThen fun _ =>
    visitAll_matches (expansion_matches hbound) visited hvisited) _ _ (hopens.beside c.notices)
  rw [hrun] at hcomes
  exact hcomes.2.opens

/-- Visits inside a list of nodes are sound. -/
theorem Comes.isSound {rest : List Node} {node : Node}
    (h : Comes bound (visited ++ node :: rest) visited c c') (hopens : c.Opens names stack)
    (hbound : names.dedup.length ≤ stack.length + bound)
    (hnodes : Node.allNames (visited ++ node :: rest) ⊆ names) :
    IsSound names stack ⟨bound, node, c'⟩ := by
  have hparts := hnodes
  rw [Node.allNames_append, Node.allNames, List.append_subset, List.append_subset] at hparts
  exact ⟨h.opens hopens hbound hnodes hparts.1, hparts.2.1, hbound⟩

/-- Visits inside a sound visit are sound, with the same open bodies or one more. -/
theorem IsSound.contains (h : v.IsSound names stack) (hw : v.Contains w) :
    ∃ stack', w.IsSound names stack' := by
  obtain ⟨hopens, hnode, hbound⟩ := h
  cases hw with
  | block hother hcomes =>
    rw [Node.names, Block.names_mk] at hnode
    exact ⟨stack, hcomes.isSound hopens hbound hnode⟩
  | container hphase hkind hextracted hcontainer hother hcomes =>
    rw [Node.names, Block.names_mk] at hnode
    exact ⟨stack, hcomes.isSound hopens hbound hnode⟩
  | consequent hother hcomes =>
    rw [Node.names_conditional, Block.names_mk, List.append_subset] at hnode
    exact ⟨stack, hcomes.isSound hopens hbound hnode.1⟩
  | alternate hcomes =>
    rw [Node.names_conditional, Block.names_mk, List.append_subset] at hnode
    exact ⟨stack, hcomes.opens hopens hbound hnode.1 hnode.1, hnode.2, hbound⟩
  | @body bound name args found body line c notices hbody hclosed =>
    have hpush := hopens.push (by rw [Mixins.has, hbody]; rfl) hclosed
    refine ⟨stack ++ [name], hpush.congr rfl rfl, ?_, ?_⟩
    · rw [Node.names]
      exact hopens.within.get? hbody
    · have hlength : (stack ++ [name]).length = stack.length + 1 := by simp
      dsimp only at hbound ⊢
      omega

/-- All visits of a compilation are sound if the first one is. -/
theorem IsSound.contained (h : v.IsSound names stack)
    (hw : Relation.ReflTransGen Contains v w) : ∃ stack', w.IsSound names stack' := by
  induction hw with
  | refl => exact ⟨stack, h⟩
  | tail _ hlast ih =>
    obtain ⟨stack', hmiddle⟩ := ih
    exact hmiddle.contains hlast

end Visit

namespace Compiler

open Compilation

variable {names : List MixinName} {stack : List Value} {c : Compiler}

/-- The visit of a whole template, from an empty table of mixins. -/
def firstVisit (c : Compiler) (block : Block) : Visit :=
  ⟨block.declarations, .block block, { c with mixins := [], phases := [], expanding := [] }⟩

theorem firstVisit_isSound (c : Compiler) (block : Block) :
    (c.firstVisit block).IsSound block.names [] where
  opens := Opens.initial block.names c
  node := by
    rw [firstVisit, Node.names]
    exact List.Subset.refl _
  bound := by
    rw [List.length_nil, Nat.zero_add]
    exact block.length_dedup_names_le

/-- The open bodies are those of different mixins that are declared, and not more than names. -/
structure IsBounded (names : List MixinName) (c : Compiler) : Prop where
  distinct : c.expanding.Pairwise fun a b => a.sameName b = false
  declared : ∀ name ∈ c.expanding, c.mixins.has name = true
  length_le : c.expanding.length ≤ names.dedup.length

theorem Opens.isBounded (h : c.Opens names stack) : c.IsBounded names where
  distinct := h.expanding ▸ h.distinct
  declared := h.expanding ▸ h.declared
  length_le := h.expanding ▸ h.length_le

end Compiler

/-- A compilation ends. The bound on open bodies is never reached: all bounds that are no smaller
than the number of different names in the template give the same, whatever would happen behind
them. In every visit the open bodies are those of different declared mixins, so that there are no
more than these names. In the end no body is open, and a further compilation gives and notes what
one with a new compiler does. -/
theorem compile_ends (c : Compiler) (block : Block) :
    (∀ behind extra, (Compiler.runOver (Compilation.expansionOver behind
        (block.names.dedup.length + extra)) block).run.run c = c.compile block) ∧
      (∀ v, Relation.ReflTransGen Visit.Contains (c.firstVisit block) v →
        v.before.IsBounded block.names ∧ v.after.IsBounded block.names) ∧
      (c.compile block).2.expanding = [] ∧
      ∀ next, ((c.compile block).2.compile next).1 = (compileTemplate next).1 ∧
        ((c.compile block).2.compile next).2.notices =
          (c.compile block).2.notices ++ (compileTemplate next).2 := by
  refine ⟨fun behind extra => ?_, fun v hv => ?_, ?_, fun next => ?_⟩
  · exact Compiler.runOver_expansionOver c behind (Nat.le_add_right _ _)
  · obtain ⟨stack, hsound⟩ := (c.firstVisit_isSound block).contained hv
    exact ⟨hsound.opens.isBounded, hsound.after.isBounded⟩
  · exact (Compiler.compile_beside c c block).2.opens.expanding
  · obtain ⟨houtcome, -, noted, hnoted, hsame⟩ :=
      Compiler.compile_beside Compiler.initial (c.compile block).2 next
    refine ⟨houtcome.symm, ?_⟩
    have hfresh : (compileTemplate next).2 = noted := hnoted
    rw [hfresh, hsame]

example :
    let mixin (name : Text) (isCall : Bool) (nodes : List Node) (line : Int) : Node :=
      .mixin (.text name) isCall (some ⟨nodes, line⟩) .null line
    (compileTemplate ⟨[mixin "card" false [mixin "badge" true [] 2] 1,
      mixin "badge" false [mixin "card" true [] 4] 3, mixin "card" true [] 5], 0⟩).1 =
        .error ⟨.recursiveMixin ["card", "badge", "card"], some 4⟩ := by rfl

end SceneTemplates
