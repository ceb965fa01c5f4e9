import SceneTemplates.Proofs.VisitedNodes

/-!
# The first violation in a tree

A tree passes validation exactly if all its nodes are allowed, none of them is too deep and there
are not too many of them. Otherwise the error is that of the first node in source order at which
one of this fails: there the depth counts before the number of nodes, and both before the node
itself.
-/
namespace SceneTemplates

namespace Expr

mutual

/-- All nodes of a tree at a depth in source order, each with its depth. The callee of a call is no
node of its own, nor is a part of an object literal or a key that is not computed. -/
def allNodes (depth : Nat) : Expr → List (Nat × Expr)
  | .constant c => [(depth, .constant c)]
  | .name t => [(depth, .name t)]
  | .this => [(depth, .this)]
  | .member base property => (depth, .member base property) :: allNodes (depth + 1) base
  | .index base key =>
    (depth, .index base key) :: (allNodes (depth + 1) base ++ allNodes (depth + 1) key)
  | .binary op left right =>
    (depth, .binary op left right) :: (allNodes (depth + 1) left ++ allNodes (depth + 1) right)
  | .unary op operand => (depth, .unary op operand) :: allNodes (depth + 1) operand
  | .conditional test consequent alternate =>
    (depth, .conditional test consequent alternate) ::
      (allNodes (depth + 1) test ++
        (allNodes (depth + 1) consequent ++ allNodes (depth + 1) alternate))
  | .call callee args => (depth, .call callee args) :: allNodesOf (depth + 1) args
  | .new callee args =>
    (depth, .new callee args) :: (allNodes (depth + 1) callee ++ allNodesOf (depth + 1) args)
  | .assign op target value =>
    (depth, .assign op target value) ::
      (allNodes (depth + 1) target ++ allNodes (depth + 1) value)
  | .update op argument leading =>
    (depth, .update op argument leading) :: allNodes (depth + 1) argument
  | .sequence items => (depth, .sequence items) :: allNodesOf (depth + 1) items
  | .spread argument => (depth, .spread argument) :: allNodes (depth + 1) argument
  | .array elements => (depth, .array elements) :: allNodesOf (depth + 1) elements
  | .object properties =>
    (depth, .object properties) :: allNodesOfProperties (depth + 1) properties

def allNodesOf (depth : Nat) : List Expr → List (Nat × Expr)
  | [] => []
  | e :: rest => allNodes depth e ++ allNodesOf depth rest

def allNodesOfProperties (depth : Nat) : List Property → List (Nat × Expr)
  | [] => []
  | .keyed key value :: rest =>
    allNodesOfKey depth key ++ (allNodes depth value ++ allNodesOfProperties depth rest)
  | .shorthand t :: rest => (depth, .name t) :: allNodesOfProperties depth rest
  | .spread argument :: rest =>
    (depth, .spread argument) :: (allNodes (depth + 1) argument ++ allNodesOfProperties depth rest)

def allNodesOfKey (depth : Nat) : PropertyKey → List (Nat × Expr)
  | .computed e => allNodes depth e
  | _ => []

end

/-- A tree is the first of its nodes. -/
theorem self_mem_allNodes (depth : Nat) (e : Expr) : (depth, e) ∈ allNodes depth e := by
  cases e <;> simp [allNodes]

/-- A node that an expression may have over an environment. -/
inductive IsAllowed (env : Environment) : Expr → Prop
  | constant (c : Constant) : IsAllowed env (.constant c)
  | name (t : Text) : IsAllowed env (.name t)
  | unary {op : UnaryOperator} (operand : Expr) (h : op ∈ [.plus, .minus, .not]) :
      IsAllowed env (.unary op operand)
  | binary {op : BinaryOperator} (left right : Expr)
      (h : op ∈ [.plus, .minus, .times, .divide, .modulo, .power, .equal, .notEqual, .strictEqual,
        .strictNotEqual, .less, .lessEqual, .greater, .greaterEqual, .and, .or, .nullish]) :
      IsAllowed env (.binary op left right)
  | conditional (test consequent alternate : Expr) :
      IsAllowed env (.conditional test consequent alternate)
  | member (base : Expr) {property : Text} (h : property ∉ forbiddenProperties) :
      IsAllowed env (.member base property)
  /-- Nothing can be called but a function by its name. -/
  | call {t : Text} {found : Value} (args : List Expr) (h : env.callee? t = some found)
      (hfunction : found.isCallable = true) : IsAllowed env (.call (.name t) args)
  | array (elements : List Expr) : IsAllowed env (.array elements)
  | object (properties : List Property) : IsAllowed env (.object properties)

end Expr

theorem UnaryOperator.isAllowed_iff (op : UnaryOperator) :
    op.isAllowed = true ↔ op ∈ [.plus, .minus, .not] := by
  cases op <;> decide

theorem BinaryOperator.isAllowed_iff (op : BinaryOperator) :
    op.isAllowed = true ↔
      op ∈ [.plus, .minus, .times, .divide, .modulo, .power, .equal, .notEqual, .strictEqual,
        .strictNotEqual, .less, .lessEqual, .greater, .greaterEqual, .and, .or, .nullish] := by
  cases op <;> decide

theorem Environment.canCall_iff {env : Environment} {t : Text} :
    env.canCall t = true ↔ ∃ found, env.callee? t = some found ∧ found.isCallable = true := by
  unfold canCall
  cases env.callee? t <;> simp

namespace Expr

variable {env : Environment}

/-- A node is allowed exactly if it has no fault. -/
theorem fault_eq_none_iff {e : Expr} : e.fault env = none ↔ e.IsAllowed env := by
  rw [fault_eq_none]
  constructor
  · rintro ⟨hform, hcalled⟩
    cases e with
    | constant c => exact .constant c
    | name t => exact .name t
    | unary op operand =>
      exact .unary operand (op.isAllowed_iff.1 (by simpa [syntaxFault] using hform))
    | binary op left right =>
      exact .binary left right (op.isAllowed_iff.1 (by simpa [syntaxFault] using hform))
    | conditional test consequent alternate => exact .conditional test consequent alternate
    | member base property => exact .member base (by simpa [syntaxFault] using hform)
    | call callee args =>
      cases callee with
      | name t =>
        obtain ⟨found, hfound, hfunction⟩ := Environment.canCall_iff.1 (hcalled t rfl)
        exact .call args hfound hfunction
      | _ => cases hform
    | array elements => exact .array elements
    | object properties => exact .object properties
    | _ => cases hform
  · rintro (_ | _ | ⟨_, h⟩ | ⟨_, _, h⟩ | _ | ⟨_, h⟩ | ⟨_, h, hfunction⟩ | _ | _)
    case unary => exact ⟨by simp [syntaxFault, (UnaryOperator.isAllowed_iff _).2 h], nofun⟩
    case binary => exact ⟨by simp [syntaxFault, (BinaryOperator.isAllowed_iff _).2 h], nofun⟩
    case member => exact ⟨by simpa [syntaxFault] using h, nofun⟩
    case call =>
      refine ⟨rfl, fun t ht => ?_⟩
      cases ht
      exact Environment.canCall_iff.2 ⟨_, h, hfunction⟩
    all_goals exact ⟨rfl, nofun⟩

/-- What is wrong with a node behind a number of other nodes: first it may be too deep, then it may
be one too many, then it may have a fault of its own. -/
def violation (env : Environment) (options : SandboxOptions) :
    (Nat × Expr) × Nat → Option ExpressionCause
  | ((depth, e), before) =>
    if options.maxDepth < depth then some .tooDeep
    else if options.maxNodes < (before + 1 : Nat) then some .tooComplex
    else e.fault env

end Expr

namespace Validation

variable {env : Environment} {options : SandboxOptions}

/-- A scan goes no further than a node with a fault. -/
theorem scan_of_fault {e : Expr} {cause : ExpressionCause} (h : e.fault env = some cause)
    (depth count : Nat) (rest rest' : List (Nat × Expr)) :
    scan env options count ((depth, e) :: rest) = scan env options count ((depth, e) :: rest') := by
  simp only [scan_cons, h]

/-- A scan of a node goes on below it. -/
theorem scan_cons_congr {rest rest' : List (Nat × Expr)}
    (h : ∀ count, scan env options count rest = scan env options count rest')
    (depth count : Nat) (e : Expr) :
    scan env options count ((depth, e) :: rest) = scan env options count ((depth, e) :: rest') := by
  simp only [scan_cons, h]

mutual

/-- Scanning all nodes of a tree is scanning those that a visit comes to. -/
theorem scan_allNodes (e : Expr) (depth count : Nat) :
    scan env options count (e.allNodes depth) = scan env options count (e.nodes depth) := by
  match e with
  | .constant _ | .name _ | .this => rw [Expr.allNodes, Expr.nodes] <;> nofun
  | .index _ _ | .new _ _ | .assign _ _ _ | .update _ _ _ | .sequence _ | .spread _ =>
    rw [Expr.allNodes, Expr.nodes]
    · exact scan_of_fault rfl depth count _ _
    all_goals nofun
  | .unary op operand =>
    rw [Expr.allNodes, Expr.nodes]
    exact scan_cons_congr (scan_allNodes operand (depth + 1)) depth count _
  | .binary op left right =>
    rw [Expr.allNodes, Expr.nodes]
    refine scan_cons_congr (fun count => ?_) depth count _
    simp only [scan_append, scan_allNodes left, scan_allNodes right]
  | .conditional test consequent alternate =>
    rw [Expr.allNodes, Expr.nodes]
    refine scan_cons_congr (fun count => ?_) depth count _
    simp only [scan_append, scan_allNodes test, scan_allNodes consequent, scan_allNodes alternate]
  | .member base property =>
    rw [Expr.allNodes, Expr.nodes]
    exact scan_cons_congr (scan_allNodes base (depth + 1)) depth count _
  | .call callee args =>
    rw [Expr.allNodes, Expr.nodes]
    exact scan_cons_congr (scan_allNodesOf args (depth + 1)) depth count _
  | .array elements =>
    rw [Expr.allNodes, Expr.nodes]
    exact scan_cons_congr (scan_allNodesOf elements (depth + 1)) depth count _
  | .object properties =>
    rw [Expr.allNodes, Expr.nodes]
    exact scan_cons_congr (scan_allNodesOfProperties properties (depth + 1)) depth count _

theorem scan_allNodesOf (es : List Expr) (depth count : Nat) :
    scan env options count (Expr.allNodesOf depth es) =
      scan env options count (Expr.nodesOfAll depth es) := by
  match es with
  | [] => rfl
  | e :: rest =>
    rw [Expr.allNodesOf, Expr.nodesOfAll]
    simp only [scan_append, scan_allNodes e, scan_allNodesOf rest]

theorem scan_allNodesOfProperties (ps : List Property) (depth count : Nat) :
    scan env options count (Expr.allNodesOfProperties depth ps) =
      scan env options count (Expr.nodesOfProperties depth ps) := by
  match ps with
  | [] => rfl
  | .keyed key value :: rest =>
    rw [Expr.allNodesOfProperties, Expr.nodesOfProperties]
    simp only [scan_append, scan_allNodesOfKey key, scan_allNodes value,
      scan_allNodesOfProperties rest]
  | .shorthand t :: rest =>
    rw [Expr.allNodesOfProperties, Expr.nodesOfProperties]
    exact scan_cons_congr (scan_allNodesOfProperties rest depth) depth count _
  | .spread argument :: rest =>
    rw [Expr.allNodesOfProperties, Expr.nodesOfProperties]
    exact scan_of_fault rfl depth count _ _

theorem scan_allNodesOfKey (key : PropertyKey) (depth count : Nat) :
    scan env options count (Expr.allNodesOfKey depth key) =
      scan env options count (Expr.nodesOfKey depth key) := by
  match key with
  | .name _ | .constant _ => rfl
  | .computed e =>
    rw [Expr.allNodesOfKey, Expr.nodesOfKey]
    exact scan_allNodes e depth count

end

/-- A scan ends with the first violation, each node counted behind those in front of it. -/
theorem scan_eq_findSome? (nodes : List (Nat × Expr)) (count : Nat) :
    scan env options count nodes =
      match (nodes.zipIdx count).findSome? (Expr.violation env options) with
      | some cause => .error cause
      | none => .ok (count + nodes.length) := by
  induction nodes generalizing count with
  | nil => rfl
  | cons node rest ih =>
    obtain ⟨depth, e⟩ := node
    rw [scan_cons, List.zipIdx_cons, List.findSome?_cons, Expr.violation, enter]
    by_cases hdepth : options.maxDepth < depth
    · rw [if_pos hdepth, if_pos hdepth]
      rfl
    by_cases hcount : options.maxNodes < (count + 1 : Nat)
    · rw [if_neg hdepth, if_neg hdepth, if_pos hcount, if_pos hcount]
      rfl
    rw [if_neg hdepth, if_neg hdepth, if_neg hcount, if_neg hcount]
    show (match e.fault env with
      | some cause => _
      | none => scan env options (count + 1) rest) = _
    cases e.fault env with
    | some cause => rfl
    | none =>
      rw [ih, List.length_cons, Nat.add_comm rest.length 1, Nat.add_assoc]

end Validation

/-- A tree is checked by the first violation among all its nodes. -/
theorem validate_eq_findSome? (env : Environment) (options : SandboxOptions) (e : Expr) :
    validate env options e =
      match (e.allNodes 0).zipIdx.findSome? (Expr.violation env options) with
      | some cause => .error cause
      | none => .ok () := by
  rw [validate, Validation.visit_eq_scan, ← Validation.scan_allNodes, Validation.scan_eq_findSome?]
  cases (e.allNodes 0).zipIdx.findSome? (Expr.violation env options) <;> rfl

/-- Validation accepts a tree exactly if every node is allowed, none lies deeper than the bound on
depth and there are no more of them than the bound on nodes. It ends with an error exactly if that
is the violation of a node and no node before that one has a violation. -/
theorem validate_exact (env : Environment) (options : SandboxOptions) (e : Expr) :
    let nodes := e.allNodes 0
    (validate env options e = .ok () ↔
      (∀ node ∈ nodes, node.2.IsAllowed env) ∧
        (∀ node ∈ nodes, (node.1 : Int) ≤ options.maxDepth) ∧
        (nodes.length : Int) ≤ options.maxNodes) ∧
    ∀ cause, validate env options e = .error cause ↔
      ∃ before node after, nodes.zipIdx = before ++ node :: after ∧
        Expr.violation env options node = some cause ∧
        ∀ earlier ∈ before, Expr.violation env options earlier = none := by
  intro nodes
  constructor
  · have hroot : e.allNodes 0 ≠ [] := List.ne_nil_of_mem (Expr.self_mem_allNodes 0 e)
    rw [validate, Except.map_eq_ok, Validation.visit_eq_scan]
    simp only [← Validation.scan_allNodes, Validation.scan_eq_ok, hroot, false_or, Nat.zero_add,
      Expr.fault_eq_none_iff, and_true]
    constructor
    · rintro ⟨_, hnodes, hcount, -⟩
      exact ⟨fun node h => (hnodes node h).2, fun node h => (hnodes node h).1, hcount⟩
    · rintro ⟨hallowed, hdepth, hcount⟩
      exact ⟨_, fun node h => ⟨hdepth node h, hallowed node h⟩, hcount, rfl⟩
  · intro cause
    rw [← List.findSome?_eq_some_iff, validate_eq_findSome?]
    cases nodes.zipIdx.findSome? (Expr.violation env options) <;> simp

end SceneTemplates
