import SceneTemplates.Proofs.MixinCalls
import SceneTemplates.Proofs.OpenBodies

/-!
# Inlined mixins

A template whose mixins can be inlined is compiled as the template in which each call is replaced
by the body of the mixin: the table of mixins stays as it is behind the declarations at the top,
and no body that is called is open already. Where the declarations stand makes no difference.
-/
namespace SceneTemplates

namespace Compiler

/-- A compiler of a template with some mixins, inside some bodies, beside one of the template where
calls are replaced. -/
structure Alongside (mixins : Mixins) (stack : List Value) (c c' : Compiler) : Prop where
  mixins : c.mixins = mixins
  expanding : c.expanding = stack
  phases : c'.phases = c.phases

theorem alongside_lasting {mixins : Mixins} {stack : List Value} :
    Lasting (Alongside mixins stack) where
  phases := fun _ _ h => h.phases
  notice := fun _ _ _ h => ⟨h.mixins, h.expanding, h.phases⟩
  phase := fun _ _ _ h => ⟨h.mixins, h.expanding, by dsimp only; rw [h.phases]⟩

end Compiler

mutual

/-- Without mixins the content of a leaf counts alike whatever is declared. -/
theorem Leaf.countNode_of_isPlain (mixins mixins' : Mixins) {node : Node}
    (h : node.isPlain false = true) : countNode mixins node = countNode mixins' node := by
  match node with
  | .block ⟨nodes, _⟩ =>
    rw [Node.isPlain, Block.isPlain] at h
    rw [countNode, countNode, Leaf.countNodes_of_allPlain mixins mixins' h]
  | .tag name _ ⟨nodes, _⟩ line =>
    rw [Node.isPlain, Bool.false_and, Block.isPlain] at h
    rw [countNode, countNode, Leaf.countNodes_of_allPlain mixins mixins' h]
  | .mixin name isCall _ _ _ =>
    rw [Node.isPlain, Bool.and_false] at h
    cases h
  | .conditional _ _ _ _ | .text _ _ | .comment _ _ | .unknown _ _ => rfl

theorem Leaf.countNodes_of_allPlain (mixins mixins' : Mixins) {nodes : List Node}
    (h : Node.allPlain false nodes = true) :
    countNodes mixins nodes = countNodes mixins' nodes := by
  match nodes with
  | [] => rfl
  | node :: rest =>
    rw [Node.allPlain, Bool.and_eq_true] at h
    rw [countNodes, countNodes, Leaf.countNode_of_isPlain mixins mixins' h.1,
      Leaf.countNodes_of_allPlain mixins mixins' h.2]

end

namespace Compilation

open Compiler (Alongside)
open Step (Matches)

variable {mixins : Mixins} {stack names : List Value} {bodies : Value → Option Block}
  {expand expand' : Expansion}

/-- Nothing is declared without declarations. -/
theorem declareAll_eq_pure {nodes : List Node}
    (h : ∀ node ∈ nodes, node.isDeclaration = false) : declareAll nodes = pure () := by
  induction nodes with
  | nil => rfl
  | cons node rest ih =>
    have hnode := h node List.mem_cons_self
    have hrest := ih fun other hother => h other (List.mem_cons_of_mem _ hother)
    cases node with
    | mixin name isCall body args line =>
      cases isCall with
      | true => exact hrest
      | false => cases hnode
    | _ => exact hrest

/-- Declarations are passed over. -/
theorem visitAll_others (expand : Expansion) (nodes : List Node) :
    visitAll expand nodes = visitAll expand (nodes.filter fun node => !node.isDeclaration) := by
  induction nodes with
  | nil => rfl
  | cons node rest ih =>
    cases hnode : node.isDeclaration with
    | true => rw [visitAll_declaration hnode, ih, List.filter_cons_of_neg (by simp [hnode])]
    | false =>
      rw [visitAll_cons hnode, ih, List.filter_cons_of_pos (by simp [hnode]), visitAll_cons hnode]

/-- The calls of some names give what the bodies do that replace them. -/
def Expansion.Inlines (expand expand' : Expansion) (R : Compiler → Compiler → Prop)
    (names : List Value) (bodies : Value → Option Block) : Prop :=
  ∀ name ∈ names, ∃ body, bodies name = some body ∧
    ∀ args line, Step.Matches R (call expand name args line) (visitBlock expand' body)

/-- A call that is no recursion runs the body beside what replaces it. -/
theorem call_alongside {compile : Block → Compilation (List Component)} {name : Value}
    {body : Block} {step : Compilation (List Component)} (hbody : mixins.get? name = some body)
    (hclosed : ∀ other ∈ stack, other.sameName name = false)
    (hcompile : Matches (Alongside mixins (stack ++ [name])) (compile body) step)
    (args : Value) (line : Int) :
    Matches (Alongside mixins stack) (call (some compile) name args line) step := by
  intro c c' h
  have hopen : c.expanding.any (·.sameName name) = false := by
    rw [h.expanding, List.any_eq_false]
    exact fun other hother => by rw [hclosed other hother]; exact Bool.false_ne_true
  have hwithin : ∀ d, Alongside mixins stack d c' →
      ((within name (compile body)).run.run d).1 = (step.run.run c').1 ∧
        Alongside mixins stack ((within name (compile body)).run.run d).2 (step.run.run c').2 := by
    intro d hd
    obtain ⟨houtcome, hafter⟩ := hcompile { d with expanding := d.expanding ++ [name] } c'
      ⟨hd.mixins, by rw [hd.expanding], hd.phases⟩
    rw [run_within]
    exact ⟨houtcome, hafter.mixins, by dsimp only; rw [hafter.expanding, List.dropLast_concat],
      hafter.phases⟩
  rw [call, Step.run_bind_of_ok (Step.run_get c), h.mixins, hbody]
  simp only [hopen, Bool.false_eq_true, if_false]
  split
  · exact hwithin _ ⟨h.mixins, h.expanding, h.phases⟩
  · exact hwithin c h

/-- Nodes in which nothing is declared are visited at once. -/
theorem opened_alongside {α : Type} {nodes : List Node} {step step' : Compilation α}
    (hplain : Node.allPlain true nodes = true)
    (hstep : Matches (Alongside mixins stack) step step') :
    Matches (Alongside mixins stack) (do declareAll nodes; step)
      (do declareAll (Node.inlineAll bodies nodes); step') := by
  have hnodes : ∀ node ∈ nodes, node.isDeclaration = false := fun node hnode =>
    Node.isDeclaration_of_isPlain (Node.allPlain_eq_true.1 hplain node hnode)
  have hinlined : ∀ node ∈ Node.inlineAll bodies nodes, node.isDeclaration = false := by
    intro node hnode
    rw [Node.inlineAll_eq_map] at hnode
    obtain ⟨original, horiginal, rfl⟩ := List.mem_map.1 hnode
    simp [hnodes original horiginal]
  rwa [declareAll_eq_pure hnodes, declareAll_eq_pure hinlined, pure_bind, pure_bind]

/-- Phases and leaves have no mixins in them. -/
theorem closedTag_alongside {name : Value} {attrs : List TagAttribute} {block : Block} {line : Int}
    (hclosed : name.isClosedTag = true) (hplain : block.isPlain false = true) :
    Matches (Alongside mixins stack) (visit expand (.tag name attrs block line))
      (visit expand' (.tag name attrs block line)) := by
  obtain ⟨nodes, blockLine⟩ := block
  rw [Value.isClosedTag] at hclosed
  rw [visit, visit]
  split
  · exact (Compiler.alongside_lasting.addPhase_matches attrs _ line).andThen fun _ =>
      Matches.ofPure _
  · next hphase =>
    rw [if_neg hphase] at hclosed
    split
    · exact Matches.ofThrow _
    · next kind hkind =>
      rw [hkind, Bool.not_eq_true'] at hclosed
      refine (result_matches _).andThen fun extracted => ?_
      dsimp only
      rw [hclosed, if_neg Bool.false_ne_true, if_neg Bool.false_ne_true]
      refine (Compiler.alongside_lasting.checkLeaf_matches fun c c' _ => ?_).andThen fun _ =>
        Matches.ofPure _
      exact Leaf.countNodes_of_allPlain _ _ (by rwa [Block.isPlain_mk] at hplain)

mutual

/-- A node is compiled as the node where calls are replaced. -/
theorem visit_alongside (hinlines : expand.Inlines expand' (Alongside mixins stack) names bodies)
    (node : Node) (hplain : node.isPlain true = true) (hcalls : node.calls ⊆ names) :
    Matches (Alongside mixins stack) (visit expand node) (visit expand' (node.inline bodies)) := by
  match node with
  | .block ⟨nodes, _⟩ =>
    rw [Node.isPlain, Block.isPlain] at hplain
    rw [Node.calls, Block.calls] at hcalls
    rw [Node.inline, Block.inline, visit, visit]
    exact opened_alongside hplain (visitAll_alongside hinlines nodes hplain hcalls)
  | .tag name attrs ⟨nodes, blockLine⟩ line =>
    rw [Node.isPlain, Bool.true_and] at hplain
    rw [Node.calls, Block.calls] at hcalls
    cases hclosed : name.isClosedTag with
    | true =>
      rw [hclosed, Bool.not_true] at hplain
      rw [Node.inline, Block.inline_of_isPlain bodies hplain]
      exact closedTag_alongside hclosed hplain
    | false =>
      rw [hclosed, Bool.not_false, Block.isPlain_mk] at hplain
      rw [Value.isClosedTag] at hclosed
      rw [Node.inline, Block.inline, visit, visit]
      split at hclosed
      · cases hclosed
      · next hphase =>
        rw [if_neg hphase, if_neg hphase]
        split
        · exact Matches.ofThrow _
        · next kind hkind =>
          rw [hkind, Bool.not_eq_false'] at hclosed
          refine (result_matches _).andThen fun extracted => ?_
          dsimp only
          rw [if_pos hclosed, if_pos hclosed]
          exact opened_alongside hplain ((visitAll_alongside hinlines nodes hplain hcalls).andThen
            fun _ => Matches.ofPure _)
  | .mixin name true body args line =>
    rw [Node.calls] at hcalls
    obtain ⟨body, hbody, hmatches⟩ := hinlines name (hcalls List.mem_cons_self)
    rw [Node.inline, hbody, visit, if_pos rfl]
    exact hmatches args line
  | .mixin name false body args line =>
    rw [Node.isPlain, Bool.false_and] at hplain
    cases hplain
  | .conditional test ⟨nodes, _⟩ alternate _ =>
    rw [Node.isPlain_conditional, Block.isPlain_mk, Bool.and_eq_true] at hplain
    rw [Node.calls_conditional, Block.calls_mk, List.append_subset] at hcalls
    rw [Node.inline_conditional, Block.inline_mk, visit, visit]
    exact opened_alongside hplain.1 ((visitAll_alongside hinlines nodes hplain.1 hcalls.1).andThen
      fun _ => (visitOptional_alongside hinlines alternate hplain.2 hcalls.2).andThen
        fun _ => Matches.ofPure _)
  | .text _ _ | .comment _ _ =>
    rw [Node.inline, visit, visit]
    exact Matches.ofPure _
  | .unknown type line =>
    rw [Node.inline, visit, visit]
    exact Matches.ofThrow _

theorem visitOptional_alongside
    (hinlines : expand.Inlines expand' (Alongside mixins stack) names bodies)
    (node : Option Node) (hplain : node.all (Node.isPlain true) = true)
    (hcalls : node.elim [] Node.calls ⊆ names) :
    Matches (Alongside mixins stack) (visitOptional expand node)
      (visitOptional expand' (node.map (Node.inline bodies))) := by
  match node with
  | none =>
    rw [Option.map_none, visitOptional, visitOptional]
    exact Matches.ofPure _
  | some node =>
    rw [Option.map_some, visitOptional, visitOptional]
    exact visit_alongside hinlines node hplain hcalls

theorem visitAll_alongside
    (hinlines : expand.Inlines expand' (Alongside mixins stack) names bodies)
    (nodes : List Node) (hplain : Node.allPlain true nodes = true)
    (hcalls : Node.allCalls nodes ⊆ names) :
    Matches (Alongside mixins stack) (visitAll expand nodes)
      (visitAll expand' (Node.inlineAll bodies nodes)) := by
  match nodes with
  | [] =>
    rw [Node.inlineAll, visitAll, visitAll]
    exact Matches.ofPure _
  | node :: rest =>
    rw [Node.allPlain, Bool.and_eq_true] at hplain
    rw [Node.allCalls, List.append_subset] at hcalls
    have hnode := Node.isDeclaration_of_isPlain hplain.1
    have hinlined : (node.inline bodies).isDeclaration = false := by
      simp [hnode]
    rw [Node.inlineAll, visitAll_cons hnode, visitAll_cons hinlined]
    exact (visit_alongside hinlines node hplain.1 hcalls.1).andThen fun _ =>
      (visitAll_alongside hinlines rest hplain.2 hcalls.2).andThen fun _ => Matches.ofPure _

end

/-- As many bodies as are opened inside each other, so often calls are replaced. -/
theorem expansion_inlines (hmixins : mixins.IsInlinable) (n : Nat)
    (h : ∀ name ∈ names, mixins.Unfolds n name ∧
      (stack ++ [name]).Pairwise (Relation.TransGen mixins.Calls)) :
    (expansion n).Inlines expand' (Alongside mixins stack) names (mixins.inlinedBody n) := by
  induction n generalizing stack names with
  | zero =>
    intro name hname
    cases (h name hname).1
  | succ n ih =>
    intro name hname
    obtain ⟨⟨body, hbody, hcalls⟩, hchain⟩ := h name hname
    obtain ⟨mixin, hmixin, -, rfl⟩ := Mixins.exists_of_get? hbody
    have hclosed : ∀ other ∈ stack, other.sameName name = false := fun other hother =>
      hmixins.acyclic other name
        ((List.pairwise_append.1 hchain).2.2 other hother name (List.mem_singleton.2 rfl))
    have hinlines : (expansion n).Inlines expand' (Alongside mixins (stack ++ [name]))
        mixin.2.calls (mixins.inlinedBody n) := ih fun called hcalled =>
      ⟨hcalls called hcalled, Mixins.pairwise_concat hchain ⟨mixin.2, hbody, hcalled⟩⟩
    refine ⟨_, by rw [Mixins.inlinedBody, hbody, Option.map_some], fun args line => ?_⟩
    refine call_alongside hbody hclosed ?_ args line
    have hvisit := visit_alongside hinlines (.block mixin.2)
    rw [Node.isPlain, Node.calls, Node.inline] at hvisit
    exact hvisit (hmixins.plain mixin hmixin) (List.Subset.refl _)

end Compilation

namespace Compiler

open Compilation

/-- The template without the declarations at the top is compiled with the mixins they declare. -/
theorem run_others (c : Compiler) (block : Block) :
    ∃ notices, c.compile block =
      (do
        let children ← visitAll (expansion block.declarations) block.others
        finish block.line children : Compilation _).run.run
          ⟨Mixins.declareAll [] block.nodes, [], [], notices⟩ := by
  obtain ⟨nodes, line⟩ := block
  obtain ⟨notices, hdeclare⟩ :=
    run_declareAll nodes { c with mixins := [], phases := [], expanding := [] }
  refine ⟨notices, ?_⟩
  rw [compile, run_eq_runOver, runOver, Step.run_bind_of_ok (Step.run_modify _ _), visitBlock,
    visit, bind_assoc, Step.run_bind_of_ok hdeclare, visitAll_others]
  rfl

/-- A template whose mixins can be inlined is compiled as the one where they are. -/
theorem compile_alongside {block : Block} (h : block.IsInlinable) (c c' : Compiler) :
    (c.compile block).1 = (c'.compile block.inlined).1 := by
  obtain ⟨notices, hrun⟩ := c.run_others block
  obtain ⟨notices', hrun'⟩ := c'.run_others block.inlined
  have hplain : Node.allPlain true block.others = true := Node.allPlain_eq_true.2 h.plain
  have hinlines : (expansion block.declarations).Inlines (expansion block.inlined.declarations)
      (Alongside block.mixins []) (Node.allCalls block.others)
      (block.mixins.inlinedBody block.declarations) :=
    expansion_inlines h.mixins _ fun name hname => ⟨h.unfolds hname, List.pairwise_singleton _ _⟩
  have hstart : Alongside block.mixins [] ⟨block.mixins, [], [], notices⟩
      ⟨Mixins.declareAll [] block.inlined.nodes, [], [], notices'⟩ := ⟨rfl, rfl, rfl⟩
  rw [hrun, hrun', h.others_inlined, h.declareAll]
  exact (((visitAll_alongside hinlines _ hplain (List.Subset.refl _)).andThen fun children =>
    alongside_lasting.finish_matches block.line children) _ _ hstart).1

end Compiler

/-- A template whose mixins can be inlined is compiled as the template without mixins in which they
are, with the same outcome, and so is each template with the same declarations at other places. -/
theorem compile_inlined {block : Block} (h : block.IsInlinable) (c c' : Compiler) :
    block.inlined.isPlain false = true ∧
      (c.compile block).1 = (c'.compile block.inlined).1 ∧
      ∀ other : Block, other.nodes.Perm block.nodes → other.others = block.others →
        other.line = block.line → (c.compile block).1 = (c'.compile other).1 := by
  refine ⟨h.isPlain_inlined, Compiler.compile_alongside h c c',
    fun other hnodes hothers hline => ?_⟩
  calc (c.compile block).1
    _ = (c'.compile block.inlined).1 := Compiler.compile_alongside h c c'
    _ = (c'.compile other.inlined).1 := by rw [Block.inlined_perm h hnodes hothers hline]
    _ = (c'.compile other).1 := (Compiler.compile_alongside (h.perm hnodes hothers) c' c').symm

/-- A template with a mixin that calls another one, from the top, a branch and an `else`. -/
def badgedCards : Block :=
  let call (name : Text) (line : Int) : Node := .mixin (.text name) true none .null line
  let mixin (name : Text) (nodes : List Node) (line : Int) : Node :=
    .mixin (.text name) false (some ⟨nodes, line⟩) .null line
  ⟨[call "card" 1, mixin "badge" [.tag (.text "rectangle") [] ⟨[], 3⟩ 3] 2,
    mixin "card" [.tag (.text "hstack") [] ⟨[call "badge" 6], 5⟩ 5] 4,
    .conditional (.text "wide") ⟨[call "card" 8], 7⟩ (some (call "badge" 9)) 7], 0⟩

example :
    let badge : Node := .block ⟨[.tag (.text "rectangle") [] ⟨[], 3⟩ 3], 2⟩
    let card : Node := .block ⟨[.tag (.text "hstack") [] ⟨[badge], 5⟩ 5], 4⟩
    badgedCards.inlined =
      ⟨[card, .conditional (.text "wide") ⟨[card], 7⟩ (some badge) 7], 0⟩ := by rfl

theorem calls_badgedCards {name called : Value} (h : badgedCards.mixins.Calls name called) :
    (Value.text "card").sameName name = true ∧ called = .text "badge" := by
  obtain ⟨body, hbody, hcalled⟩ := h
  obtain ⟨mixin, hmixin, hsame, rfl⟩ := Mixins.exists_of_get? hbody
  change mixin ∈ [_, _] at hmixin
  obtain rfl | hmixin := List.mem_cons.1 hmixin
  · cases hcalled
  · rw [List.mem_singleton] at hmixin
    subst hmixin
    exact ⟨hsame, List.mem_singleton.1 hcalled⟩

theorem isInlinable_badgedCards : badgedCards.IsInlinable where
  mixins := by
    refine ⟨by decide, by decide, by decide, fun name called h => ?_⟩
    obtain ⟨_, hfirst, -⟩ := Relation.TransGen.head'_iff.1 h
    obtain ⟨_, -, hlast⟩ := Relation.TransGen.tail'_iff.1 h
    obtain ⟨hcard, -⟩ := calls_badgedCards hfirst
    obtain ⟨-, rfl⟩ := calls_badgedCards hlast
    refine Bool.eq_false_iff.2 fun hsame => ?_
    exact absurd (Value.sameName_trans hcard hsame) (by decide)
  plain := by decide
  declared := by decide

/-- In the template all calls are replaced, and it does not matter that a mixin is called before it
is declared. -/
theorem compile_inlined_badgedCards :
    badgedCards.IsInlinable ∧ badgedCards.inlined.isPlain false = true ∧
      (Compiler.initial.compile badgedCards).1 =
        (Compiler.initial.compile badgedCards.inlined).1 ∧
      ∀ other : Block, other.nodes.Perm badgedCards.nodes → other.others = badgedCards.others →
        other.line = badgedCards.line →
          (Compiler.initial.compile badgedCards).1 = (Compiler.initial.compile other).1 :=
  ⟨isInlinable_badgedCards,
    compile_inlined isInlinable_badgedCards Compiler.initial Compiler.initial⟩

end SceneTemplates
