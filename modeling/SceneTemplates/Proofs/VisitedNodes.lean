import SceneTemplates.Proofs.CheckedTrees

/-!
# The nodes that validation visits

Validation goes through the nodes of a tree in one order and stops at the first that is out of
bounds or has a fault of its own. It is therefore a scan of the list of these nodes. What it asks of
a node is a matter of syntax, except for a call by a name: that name has to refer to a function of
the environment. A tree passes exactly if it is permitted, whatever the environment, and every name
that it calls refers to a function there.
-/
namespace SceneTemplates

namespace Expr

mutual

/-- The nodes of a tree at a depth in the order of the visit, each with its depth. Below a node
that is never allowed nothing is visited. -/
def nodes (depth : Nat) : Expr → List (Nat × Expr)
  | .unary op operand => (depth, .unary op operand) :: nodes (depth + 1) operand
  | .binary op left right =>
    (depth, .binary op left right) :: (nodes (depth + 1) left ++ nodes (depth + 1) right)
  | .conditional test consequent alternate =>
    (depth, .conditional test consequent alternate) ::
      (nodes (depth + 1) test ++ (nodes (depth + 1) consequent ++ nodes (depth + 1) alternate))
  | .member base property => (depth, .member base property) :: nodes (depth + 1) base
  | .call callee args => (depth, .call callee args) :: nodesOfAll (depth + 1) args
  | .array elements => (depth, .array elements) :: nodesOfAll (depth + 1) elements
  | .object properties => (depth, .object properties) :: nodesOfProperties (depth + 1) properties
  | e => [(depth, e)]

def nodesOfAll (depth : Nat) : List Expr → List (Nat × Expr)
  | [] => []
  | e :: rest => nodes depth e ++ nodesOfAll depth rest

/-- The nodes of the parts of an object literal. A name that is key and value at once is a node. -/
def nodesOfProperties (depth : Nat) : List Property → List (Nat × Expr)
  | [] => []
  | .keyed key value :: rest =>
    nodesOfKey depth key ++ (nodes depth value ++ nodesOfProperties depth rest)
  | .shorthand t :: rest => (depth, .name t) :: nodesOfProperties depth rest
  | .spread argument :: rest => (depth, .spread argument) :: nodesOfProperties depth rest

def nodesOfKey (depth : Nat) : PropertyKey → List (Nat × Expr)
  | .computed e => nodes depth e
  | _ => []

end

/-- A tree is the first of its nodes. -/
theorem self_mem_nodes (depth : Nat) (e : Expr) : (depth, e) ∈ nodes depth e := by
  cases e <;> simp [nodes]

/-- A node one level further down. -/
def lowered (node : Nat × Expr) : Nat × Expr := (node.1 + 1, node.2)

mutual

/-- One level further down, a tree has the same nodes one level further down. -/
theorem nodes_succ (depth : Nat) (e : Expr) :
    nodes (depth + 1) e = (nodes depth e).map lowered := by
  match e with
  | .constant _ | .name _ | .this | .index _ _ | .new _ _ | .assign _ _ _ | .update _ _ _
  | .sequence _ | .spread _ => simp [nodes, lowered]
  | .unary op operand => simp [nodes, lowered, nodes_succ (depth + 1) operand]
  | .binary op left right =>
    simp [nodes, lowered, nodes_succ (depth + 1) left, nodes_succ (depth + 1) right]
  | .conditional test consequent alternate =>
    simp [nodes, lowered, nodes_succ (depth + 1) test, nodes_succ (depth + 1) consequent,
      nodes_succ (depth + 1) alternate]
  | .member base property => simp [nodes, lowered, nodes_succ (depth + 1) base]
  | .call callee args => simp [nodes, lowered, nodesOfAll_succ (depth + 1) args]
  | .array elements => simp [nodes, lowered, nodesOfAll_succ (depth + 1) elements]
  | .object properties => simp [nodes, lowered, nodesOfProperties_succ (depth + 1) properties]

theorem nodesOfAll_succ (depth : Nat) (es : List Expr) :
    nodesOfAll (depth + 1) es = (nodesOfAll depth es).map lowered := by
  match es with
  | [] => rfl
  | e :: rest => simp [nodesOfAll, nodes_succ depth e, nodesOfAll_succ depth rest]

theorem nodesOfProperties_succ (depth : Nat) (ps : List Property) :
    nodesOfProperties (depth + 1) ps = (nodesOfProperties depth ps).map lowered := by
  match ps with
  | [] => rfl
  | .keyed key value :: rest =>
    simp [nodesOfProperties, nodesOfKey_succ depth key, nodes_succ depth value,
      nodesOfProperties_succ depth rest]
  | .shorthand t :: rest => simp [nodesOfProperties, lowered, nodesOfProperties_succ depth rest]
  | .spread argument :: rest =>
    simp [nodesOfProperties, lowered, nodesOfProperties_succ depth rest]

theorem nodesOfKey_succ (depth : Nat) (key : PropertyKey) :
    nodesOfKey (depth + 1) key = (nodesOfKey depth key).map lowered := by
  match key with
  | .name _ | .constant _ => rfl
  | .computed e =>
    rw [nodesOfKey, nodesOfKey]
    exact nodes_succ depth e

end

/-- The name that a node calls. -/
def calledName? : Expr → Option Text
  | .call (.name t) _ => some t
  | _ => none

/-- What is wrong with a node by itself, whatever the environment. -/
def syntaxFault : Expr → Option ExpressionCause
  | .unary op _ => if op.isAllowed then none else some (.unaryOperator op)
  | .binary op _ _ => if op.isAllowed then none else some (.binaryOperator op)
  | .index _ _ => some .computedMember
  | .member _ property =>
    if forbiddenProperties.contains property then some (.forbiddenProperty property) else none
  | .call (.name _) _ => none
  | .call _ _ => some .methodCall
  | .this => some (.forbidden .this)
  | .new _ _ => some (.forbidden .new)
  | .assign _ _ _ => some (.forbidden .assignment)
  | .update _ _ _ => some (.forbidden .update)
  | .sequence _ => some (.forbidden .sequence)
  | .spread _ => some (.forbidden .spread)
  | _ => none

/-- What is wrong with a node over an environment. -/
def fault (env : Environment) (e : Expr) : Option ExpressionCause :=
  match e.calledName? with
  | some t => if env.canCall t then none else some (.functionNotFound t)
  | none => e.syntaxFault

/-- A node has no fault if it is allowed and the name that it calls, if any, can be called. -/
theorem fault_eq_none {env : Environment} {e : Expr} :
    e.fault env = none ↔
      e.syntaxFault = none ∧ ∀ t, e.calledName? = some t → env.canCall t = true := by
  cases e with
  | call callee args => cases callee <;> simp [fault, calledName?, syntaxFault]
  | _ => simp [fault, calledName?]

/-- The names that a tree calls, in order. -/
def called (e : Expr) : List Text := (e.nodes 0).filterMap fun node => node.2.calledName?

/-- A tree that may be evaluated, as far as that does not depend on an environment: all its nodes
lie within the depth, there are not too many of them, and each is allowed. -/
structure Permitted (options : SandboxOptions) (e : Expr) : Prop where
  depth : ∀ node ∈ e.nodes 0, (node.1 : Int) ≤ options.maxDepth
  count : ((e.nodes 0).length : Int) ≤ options.maxNodes
  allowed : ∀ node ∈ e.nodes 0, node.2.syntaxFault = none

end Expr

namespace Validation

variable {env : Environment} {options : SandboxOptions}

/-- Checks nodes one after the other. -/
def scan (env : Environment) (options : SandboxOptions) (count : Nat) :
    List (Nat × Expr) → Except ExpressionCause Nat
  | [] => .ok count
  | node :: rest => do
    let count ← enter options node.1 count
    match node.2.fault env with
    | some cause => .error cause
    | none => scan env options count rest

@[simp] theorem scan_nil (count : Nat) : scan env options count [] = .ok count := rfl

@[simp] theorem scan_append (count : Nat) (first second : List (Nat × Expr)) :
    scan env options count (first ++ second) =
      scan env options count first >>= fun count => scan env options count second := by
  induction first generalizing count with
  | nil => rfl
  | cons node rest ih =>
    simp only [List.cons_append, scan, bind_assoc]
    congr 1
    funext after
    cases node.2.fault env with
    | some cause => rfl
    | none => exact ih after

/-- Under the same bounds nodes are checked alike, if each has the same fault or none. -/
theorem scan_congr {env' : Environment} {options' : SandboxOptions} {nodes : List (Nat × Expr)}
    (henter : enter options' = enter options)
    (h : ∀ node ∈ nodes, node.2.fault env' = node.2.fault env) (count : Nat) :
    scan env' options' count nodes = scan env options count nodes := by
  induction nodes generalizing count with
  | nil => rfl
  | cons node rest ih =>
    obtain ⟨hnode, hrest⟩ := List.forall_mem_cons.1 h
    simp only [scan, henter, hnode, ih hrest]

/-- A scan of the nodes of a tree begins with its root. -/
theorem scan_cons (depth count : Nat) (e : Expr) (rest : List (Nat × Expr)) :
    scan env options count ((depth, e) :: rest) =
      enter options depth count >>= fun count =>
        match e.fault env with
        | some cause => .error cause
        | none => scan env options count rest := rfl

mutual

/-- Checking a tree is scanning its nodes. -/
theorem visit_eq_scan (e : Expr) (depth count : Nat) :
    visit env options depth count e = scan env options count (e.nodes depth) := by
  match e with
  | .constant _ | .name _ | .this | .index _ _ | .new _ _ | .assign _ _ _ | .update _ _ _
  | .sequence _ | .spread _ =>
    simp only [visit, Expr.nodes, scan_cons]
    cases enter options depth count <;> rfl
  | .unary op operand =>
    rw [visit, Expr.nodes, scan_cons]
    simp only [visit_eq_scan operand, Expr.fault, Expr.calledName?, Expr.syntaxFault]
    cases op.isAllowed <;> rfl
  | .binary op left right =>
    rw [visit, Expr.nodes, scan_cons]
    simp only [visit_eq_scan left, visit_eq_scan right, scan_append, Expr.fault,
      Expr.calledName?, Expr.syntaxFault]
    cases op.isAllowed <;> rfl
  | .conditional test consequent alternate =>
    rw [visit, Expr.nodes, scan_cons]
    simp only [visit_eq_scan test, visit_eq_scan consequent, visit_eq_scan alternate, scan_append]
    rfl
  | .member object property =>
    rw [visit, Expr.nodes, scan_cons]
    simp only [visit_eq_scan object, Expr.fault, Expr.calledName?, Expr.syntaxFault]
    cases forbiddenProperties.contains property <;> rfl
  | .call callee args =>
    rw [visit, Expr.nodes, scan_cons]
    cases callee with
    | name t =>
      simp only [visitAll_eq_scan args, Expr.fault, Expr.calledName?]
      cases env.canCall t <;> rfl
    | _ => rfl
  | .array elements =>
    rw [visit, Expr.nodes, scan_cons]
    simp only [visitAll_eq_scan elements]
    rfl
  | .object properties =>
    rw [visit, Expr.nodes, scan_cons]
    simp only [visitProperties_eq_scan properties]
    rfl

theorem visitAll_eq_scan (es : List Expr) (depth count : Nat) :
    visitAll env options depth count es = scan env options count (Expr.nodesOfAll depth es) := by
  match es with
  | [] => rfl
  | e :: rest =>
    rw [visitAll, Expr.nodesOfAll, scan_append, visit_eq_scan e]
    simp only [visitAll_eq_scan rest]

theorem visitProperties_eq_scan (ps : List Property) (depth count : Nat) :
    visitProperties env options depth count ps =
      scan env options count (Expr.nodesOfProperties depth ps) := by
  match ps with
  | [] => rfl
  | .keyed key value :: rest =>
    rw [visitProperties, Expr.nodesOfProperties, scan_append, visitKey_eq_scan key]
    simp only [scan_append, visit_eq_scan value, visitProperties_eq_scan rest]
  | .shorthand t :: rest =>
    rw [visitProperties, Expr.nodesOfProperties, scan_cons]
    simp only [visitProperties_eq_scan rest]
    rfl
  | .spread argument :: rest =>
    rw [visitProperties, Expr.nodesOfProperties, scan_cons]
    rfl

theorem visitKey_eq_scan (key : PropertyKey) (depth count : Nat) :
    visitKey env options depth count key =
      scan env options count (Expr.nodesOfKey depth key) := by
  match key with
  | .name _ | .constant _ => rfl
  | .computed e =>
    rw [visitKey, Expr.nodesOfKey]
    exact visit_eq_scan e depth count

end

/-- Nodes pass exactly if each lies within the depth and has no fault, and they are not too many
behind those that were counted before. -/
theorem scan_eq_ok {count last : Nat} {nodes : List (Nat × Expr)} :
    scan env options count nodes = .ok last ↔
      (∀ node ∈ nodes, (node.1 : Int) ≤ options.maxDepth ∧ node.2.fault env = none) ∧
        (nodes = [] ∨ ((count + nodes.length : Nat) : Int) ≤ options.maxNodes) ∧
        count + nodes.length = last := by
  induction nodes generalizing count with
  | nil => simp
  | cons node rest ih =>
    obtain ⟨depth, e⟩ := node
    rw [scan_cons, Except.bind_eq_ok]
    constructor
    · rintro ⟨after, henter, hrest⟩
      obtain ⟨hdepth, hcount, rfl⟩ := enter_eq_ok.1 henter
      cases hfault : e.fault env with
      | some cause => simp [hfault] at hrest
      | none =>
        rw [hfault] at hrest
        obtain ⟨hnodes, hbound, hlast⟩ := ih.1 hrest
        refine ⟨?_, .inr ?_, ?_⟩
        · rintro node (_ | ⟨_, hnode⟩)
          · exact ⟨by omega, hfault⟩
          · exact hnodes node hnode
        · obtain rfl | hbound := hbound
          · simpa using hcount
          · simp only [List.length_cons]
            omega
        · simp only [List.length_cons]
          omega
    · rintro ⟨hnodes, hbound, hlast⟩
      obtain ⟨hdepth, hfault⟩ := hnodes (depth, e) List.mem_cons_self
      have htotal : ((count + 1 + rest.length : Nat) : Int) ≤ options.maxNodes := by
        simp only [List.length_cons, reduceCtorEq, false_or] at hbound
        omega
      refine ⟨count + 1, enter_eq_ok.2 ⟨by simpa using hdepth, by omega, rfl⟩, ?_⟩
      have hrest : ∀ node ∈ rest, (node.1 : Int) ≤ options.maxDepth ∧ node.2.fault env = none :=
        fun node hnode => hnodes node (List.mem_cons_of_mem _ hnode)
      simp only [List.length_cons] at hlast
      simpa [hfault] using ih.2 ⟨hrest, .inr htotal, by omega⟩

end Validation

/-- Validation does not tell apart two environments over which no node has another fault. -/
theorem validate_congr {env env' : Environment} {options options' : SandboxOptions} {e : Expr}
    (henter : Validation.enter options' = Validation.enter options)
    (h : ∀ node ∈ e.nodes 0, node.2.fault env' = node.2.fault env) :
    validate env' options' e = validate env options e := by
  simp only [validate, Validation.visit_eq_scan, Validation.scan_congr henter h]

/-- A tree passes validation exactly if its nodes lie within the depth and have no fault, and are
not too many. -/
theorem validate_eq_ok_iff {env : Environment} {options : SandboxOptions} {e : Expr} :
    validate env options e = .ok () ↔
      (∀ node ∈ e.nodes 0, (node.1 : Int) ≤ options.maxDepth ∧ node.2.fault env = none) ∧
        ((e.nodes 0).length : Int) ≤ options.maxNodes := by
  have hroot : e.nodes 0 ≠ [] := List.ne_nil_of_mem (Expr.self_mem_nodes 0 e)
  rw [validate, Except.map_eq_ok, Validation.visit_eq_scan]
  simp only [Validation.scan_eq_ok, hroot, false_or, Nat.zero_add, and_true]
  exact ⟨fun ⟨_, hnodes, hcount, _⟩ => ⟨hnodes, hcount⟩,
    fun ⟨hnodes, hcount⟩ => ⟨_, hnodes, hcount, rfl⟩⟩

/-- A tree passes validation exactly if it is permitted, whatever the environment, and all names
that it calls refer to functions of the environment. -/
theorem validate_eq_ok {env : Environment} {options : SandboxOptions} {e : Expr} :
    validate env options e = .ok () ↔
      e.Permitted options ∧ ∀ t ∈ e.called, env.canCall t = true := by
  simp only [validate_eq_ok_iff, Expr.fault_eq_none, Expr.called, List.mem_filterMap]
  constructor
  · rintro ⟨hnodes, hcount⟩
    refine ⟨⟨fun node hn => (hnodes node hn).1, hcount, fun node hn => (hnodes node hn).2.1⟩, ?_⟩
    rintro t ⟨node, hn, ht⟩
    exact (hnodes node hn).2.2 t ht
  · rintro ⟨hpermitted, hcalled⟩
    refine ⟨fun node hn => ⟨hpermitted.depth node hn, hpermitted.allowed node hn, ?_⟩,
      hpermitted.count⟩
    exact fun t ht => hcalled t ⟨node, hn, ht⟩

end SceneTemplates
