import Mathlib.Data.Nat.Find
import Mathlib.Order.Basic
import SceneTemplates.Proofs.ExpandedTests
import SceneTemplates.Proofs.GuardMeaning
import SceneTemplates.Proofs.LooserBounds
import SceneTemplates.Proofs.WellFormedTemplates

/-!
# Sizes of guards

A guard is longer than its tests, has more nestings, a higher tree and more nodes, and each of that
is bounded. What a guard takes follows from what its tests take, so that it can be told from these
whether a sandbox accepts it. Nothing else stands in the way: a guard of accepted tests is accepted
or exceeds a bound. A chain of a hundred short tests does.
-/
namespace SceneTemplates

/-! ## Heights of trees -/

namespace Expr

variable {e left right : Expr} {n : Nat}

/-- The depth of the deepest nodes of a tree. -/
def height (e : Expr) : Nat := ((e.nodes 0).map (·.1)).foldr max 0

theorem height_le : e.height ≤ n ↔ ∀ node ∈ e.nodes 0, node.1 ≤ n := by
  have hall : ∀ depths : List Nat, depths.foldr max 0 ≤ n ↔ ∀ depth ∈ depths, depth ≤ n := by
    intro depths
    induction depths with
    | nil => simp
    | cons depth rest ih => rw [List.foldr_cons, Nat.max_le, ih, List.forall_mem_cons]
  rw [height, hall, List.forall_mem_map]

theorem int_height_le (e : Expr) (bound : Int) :
    (e.height : Int) ≤ bound ↔ ∀ node ∈ e.nodes 0, (node.1 : Int) ≤ bound := by
  obtain hneg | hnonneg := Int.lt_or_le bound 0
  · refine ⟨fun h => absurd h (by omega), fun h => absurd (h _ (self_mem_nodes 0 e)) ?_⟩
    simpa using hneg
  · obtain ⟨n, rfl⟩ := Int.eq_ofNat_of_zero_le hnonneg
    simp [height_le]

theorem height_succ_le : e.height + 1 ≤ n ↔ ∀ node ∈ e.nodes 1, node.1 ≤ n := by
  rw [nodes_succ 0 e, List.forall_mem_map]
  cases n with
  | zero => simpa [lowered] using ⟨_, _, self_mem_nodes 0 e⟩
  | succ n => simp [lowered, height_le]

@[simp]
theorem height_and : (Expr.binary .and left right).height = max left.height right.height + 1 := by
  refine eq_of_forall_ge_iff fun n => ?_
  rw [height_le, nodes, List.forall_mem_cons, List.forall_mem_append, ← height_succ_le,
    ← height_succ_le]
  omega

@[simp] theorem height_not : (Expr.unary .not e).height = e.height + 1 := by
  refine eq_of_forall_ge_iff fun n => ?_
  rw [height_le, nodes, List.forall_mem_cons, ← height_succ_le]
  omega

end Expr

/-! ## Sizes -/

namespace Guard

/-- What of a source is bounded: its code points, the nestings that the parser needs for it, and the
height and the nodes of its tree. -/
structure Size where
  length : Nat
  nestings : Nat
  height : Nat
  nodes : Nat
  deriving DecidableEq

namespace Size

def conjoined (test cond : Size) : Size :=
  ⟨test.length + cond.length + 8, max test.nestings cond.nestings + 2,
    max test.height cond.height + 1, test.nodes + cond.nodes + 1⟩

def negated (test : Size) : Size :=
  ⟨test.length + 3, test.nestings + 3, test.height + 1, test.nodes + 1⟩

/-- A size that is within the bounds. One bound is that of nestings and of the height. -/
structure Within (size : Size) (options : SandboxOptions) : Prop where
  length : (size.length : Int) ≤ options.maxLength
  nestings : (size.nestings : Int) ≤ options.maxDepth
  height : (size.height : Int) ≤ options.maxDepth
  nodes : (size.nodes : Int) ≤ options.maxNodes

end Size

/-- A source has a tree without any fault over an environment, and this is how much it takes. -/
structure Takes (env : Environment) (source : Text) (tree : Expr) (size : Size) : Prop where
  length : source.length = size.length
  nestings : ∀ limit, parse source limit = .ok tree ↔ (size.nestings : Int) ≤ limit
  height : tree.height = size.height
  nodes : (tree.nodes 0).length = size.nodes
  faultless : ∀ node ∈ tree.nodes 0, node.2.fault env = none

variable {env : Environment} {test cond : Text} {left right tree : Expr} {size size' : Size}

/-- A node one level further down has the same fault. -/
theorem faultless_lowered (h : ∀ node ∈ tree.nodes 0, node.2.fault env = none) :
    ∀ node ∈ tree.nodes 1, node.2.fault env = none := by
  rw [Expr.nodes_succ 0 tree, List.forall_mem_map]
  exact h

namespace Takes

theorem parse (h : Takes env test tree size) : SceneTemplates.parse test size.nestings = .ok tree :=
  (h.nestings size.nestings).2 (Int.le_refl _)

/-- A source that is parsed stays inside its parentheses. -/
theorem exists_row (h : Takes env test tree size) :
    ∃ row, Lexer.Reads test row ∧ (TokenKind.openAfter 0 row).isSome :=
  SceneTemplates.exists_row (staysInside_of_parse h.parse)

theorem conjoined (ht : Takes env test left size) (hc : Takes env cond right size') :
    Takes env (Guard.conjoined test cond) (.binary .and left right) (size.conjoined size') where
  length := by
    rw [Sandbox.length_conjoined, ht.length, hc.length]
    rfl
  nestings limit := by
    obtain ⟨row, hrow, hopen⟩ := ht.exists_row
    obtain ⟨row', hrow', hopen'⟩ := hc.exists_row
    show _ ↔ ((max size.nestings size'.nestings + 2 : Nat) : Int) ≤ limit
    constructor
    · intro h
      obtain ⟨left', right', htree, hparts⟩ := parse_conjoined hrow hrow' hopen hopen' h
      cases htree
      obtain ⟨hleft, hright⟩ := hparts (limit - 2) (by omega)
      have htest := (ht.nestings _).1 hleft
      have hcond := (hc.nestings _).1 hright
      omega
    · intro hlimit
      have hleft := (ht.nestings (limit - 2)).2 (by omega)
      have hright := (hc.nestings (limit - 2)).2 (by omega)
      simpa using parse_conjoined_of hleft hright
  height := by
    rw [Expr.height_and, ht.height, hc.height]
    rfl
  nodes := by
    have hleft := ht.nodes
    have hright := hc.nodes
    simp only [Expr.nodes, Expr.nodes_succ 0, List.length_cons, List.length_append,
      List.length_map, Size.conjoined]
    omega
  faultless := by
    rw [Expr.nodes, List.forall_mem_cons, List.forall_mem_append]
    exact ⟨rfl, faultless_lowered ht.faultless, faultless_lowered hc.faultless⟩

theorem negated (ht : Takes env test tree size) :
    Takes env (Guard.negated test) (.unary .not tree) size.negated where
  length := by
    rw [Sandbox.length_negated, ht.length]
    rfl
  nestings limit := by
    obtain ⟨row, hrow, hopen⟩ := ht.exists_row
    show _ ↔ ((size.nestings + 3 : Nat) : Int) ≤ limit
    constructor
    · intro h
      obtain ⟨operand, htree, hoperand⟩ := parse_negated hrow hopen h
      cases htree
      have htest := (ht.nestings _).1 (hoperand (limit - 3) (by omega))
      omega
    · intro hlimit
      have htest := (ht.nestings (limit - 3)).2 (by omega)
      simpa using parse_negated_of htest
  height := by
    rw [Expr.height_not, ht.height]
    rfl
  nodes := by
    have htest := ht.nodes
    simp only [Expr.nodes, Expr.nodes_succ 0, List.length_cons, List.length_map, Size.negated]
    omega
  faultless := by
    rw [Expr.nodes, List.forall_mem_cons]
    exact ⟨rfl, faultless_lowered ht.faultless⟩

/-- Whether a source is accepted can be told from what it takes. -/
theorem examined_iff {options : SandboxOptions} (h : Takes env test tree size) :
    Sandbox.examined env options test = .ok tree ↔ size.Within options := by
  have hheight := Expr.int_height_le tree options.maxDepth
  have hdepth : (∀ node ∈ tree.nodes 0, (node.1 : Int) ≤ options.maxDepth ∧
      node.2.fault env = none) ↔ (size.height : Int) ≤ options.maxDepth := by
    rw [← h.height, hheight]
    exact ⟨fun hnodes node hnode => (hnodes node hnode).1,
      fun hnodes node hnode => ⟨hnodes node hnode, h.faultless node hnode⟩⟩
  rw [Sandbox.examined_eq_ok, h.nestings, validate_eq_ok_iff, hdepth, h.length, h.nodes]
  constructor
  · rintro ⟨hlength, hnestings, hheight, hnodes⟩
    exact ⟨by omega, hnestings, hheight, hnodes⟩
  · rintro ⟨hlength, hnestings, hheight, hnodes⟩
    exact ⟨by omega, hnestings, hheight, hnodes⟩

/-- A source that is not accepted exceeds a bound. -/
theorem refused {options : SandboxOptions} (h : Takes env test tree size)
    (hsize : ¬ size.Within options) :
    ∃ cause, Sandbox.examined env options test = .error cause ∧ cause.IsBound := by
  let looser : SandboxOptions :=
    { options with
      maxLength := max options.maxLength size.length
      maxDepth := max options.maxDepth (max size.nestings size.height)
      maxNodes := max options.maxNodes size.nodes }
  have hlooser : options.Tighter looser :=
    ⟨Int.le_max_left _ _, Int.le_max_left _ _, Int.le_max_left _ _, rfl⟩
  have hwithin : size.Within looser := by
    constructor <;> dsimp only [looser] <;> omega
  obtain hbound | hsame := Sandbox.examined_looser hlooser env test
  · exact hbound
  · rw [h.examined_iff.2 hwithin] at hsame
    exact absurd (h.examined_iff.1 hsame) hsize

end Takes

/-- A source that is accepted takes something. -/
theorem exists_takes {options : SandboxOptions}
    (h : Sandbox.examined env options test = .ok tree) : ∃ size, Takes env test tree size := by
  classical
  obtain ⟨-, hparse, hvalidate⟩ := Sandbox.examined_eq_ok.1 h
  obtain ⟨hnodes, -⟩ := validate_eq_ok_iff.1 hvalidate
  have hsome : ∃ n : Nat, parse test n = .ok tree := by
    refine ⟨options.maxDepth.toNat, parse_mono ?_ hparse⟩
    omega
  refine ⟨⟨test.length, Nat.find hsome, tree.height, (tree.nodes 0).length⟩, rfl, ?_, rfl, rfl,
    fun node hnode => (hnodes node hnode).2⟩
  intro limit
  constructor
  · intro hlimit
    have hpos := Parser.limit_pos_of_parse hlimit
    have hnat : parse test limit.toNat = .ok tree := parse_mono (by omega) hlimit
    have hleast := Nat.find_min' hsome hnat
    dsimp only
    omega
  · exact fun hlimit => parse_mono hlimit (Nat.find_spec hsome)

end Guard

end SceneTemplates
