import SceneTemplates.Proofs.GuardValues
import SceneTemplates.Proofs.ResolutionRuns

/-!
# Resolved trees

What a tree becomes if each source has one outcome. Over fixed data, and with host functions that
depend on their arguments alone, a resolver gives exactly this, whatever it resolved before.
-/
namespace SceneTemplates

/-- The outcome of each source. -/
abbrev Outcomes := Text → Except ExpressionError Value

namespace Tree

open Resolution (testKey childrenKey)

def sourceHolds (value : Outcomes) (source : Text) : Except ExpressionError Bool := do
  return (← value source).isTruthy

def valueHolds (value : Outcomes) : Value → Except ExpressionError Bool
  | .text source => sourceHolds value source
  | .dynamic _ source => sourceHolds value source
  | .literal _ v => .ok v.isTruthy
  | v => .ok v.isTruthy

def holds (value : Outcomes) : Tree → Except ExpressionError Bool
  | .scalar v => valueHolds value v
  | .dynamic source => sourceHolds value source
  | .literal content => .ok content.toValue.isTruthy
  | .mapping _ | .sequence _ | .component _ _ _ => .ok true

def slotHolds (value : Outcomes) : Slot → Except ExpressionError Bool
  | .tree t => holds value t
  | .children => .ok true

/-- Whether the test in the entries of a mapping holds, if there is one. -/
def entriesHold (value : Outcomes) (entries : Entries Tree) : Except ExpressionError Bool :=
  match Entries.get? testKey entries with
  | some test => holds value test
  | none => .ok true

def slotsHold (value : Outcomes) (slots : Entries Slot) : Except ExpressionError Bool :=
  match Entries.get? testKey slots with
  | some test => slotHolds value test
  | none => .ok true

/-- What a member of a sequence adds to the members behind it. -/
def prepend (t : Tree) (v : Value) (others : List Value) : List Value :=
  match v with
  | .null => if t.isPrunable then others else v :: others
  | v => v :: others

mutual

/-- The data that a tree becomes. -/
def resolved (value : Outcomes) : Tree → Except ExpressionError Value
  | .scalar v => .ok v
  | .dynamic source => do return (← value source).plain
  | .literal content => .ok content.toValue
  | .mapping entries => do
    if ← entriesHold value entries then
      return Value.newMapping (← resolvedEntries value entries)
    else return .null
  | .sequence items => do return Value.newList (← resolvedItems value items)
  | .component slots children line =>
    (do
      if ← slotsHold value slots then
        let values ← resolvedSlots value (do return Value.newList (← resolvedItems value children))
          slots
        return Value.newMapping values
      else return .null : Except ExpressionError Value).mapError fun e => e.withLine line

/-- The data that a slot becomes, given that of the children. -/
def resolvedSlot (value : Outcomes) (children : Except ExpressionError Value) :
    Slot → Except ExpressionError Value
  | .tree t => resolved value t
  | .children => children

def resolvedItems (value : Outcomes) : List Tree → Except ExpressionError (List Value)
  | [] => .ok []
  | t :: rest => do
    let v ← resolved value t
    let others ← resolvedItems value rest
    return prepend t v others

def resolvedEntries (value : Outcomes) :
    List (Text × Tree) → Except ExpressionError (List (Text × Value))
  | [] => .ok []
  | (key, t) :: rest =>
    if key = testKey then resolvedEntries value rest
    else do
      let v ← resolved value t
      let others ← resolvedEntries value rest
      return (key, v) :: others

def resolvedSlots (value : Outcomes) (children : Except ExpressionError Value) :
    List (Text × Slot) → Except ExpressionError (List (Text × Value))
  | [] => .ok []
  | (key, slot) :: rest =>
    if key = testKey then resolvedSlots value children rest
    else do
      let v ← (if key = childrenKey then children else resolvedSlot value children slot)
      let others ← resolvedSlots value children rest
      return (key, v) :: others

end

theorem resolvedSlots_cons (value : Outcomes) (children : Except ExpressionError Value)
    (key : Text) (slot : Slot) (rest : List (Text × Slot)) :
    resolvedSlots value children ((key, slot) :: rest) =
      if key = testKey then resolvedSlots value children rest
      else do
        let v ← (if key = childrenKey then children else resolvedSlot value children slot)
        let others ← resolvedSlots value children rest
        return (key, v) :: others := by
  rw [resolvedSlots]

end Tree

namespace Resolution

variable {σ α β : Type} {host : Host σ} {env : Environment} {options : SandboxOptions}

/-- A step that has one outcome over data. -/
def Gives (env : Environment) (options : SandboxOptions) (m : Resolution σ α)
    (o : Except ExpressionError α) : Prop :=
  ∀ r : Resolver σ, r.Over env options → (m.run.run r).1 = o

namespace Gives

theorem ofPure (a : α) : Gives env options (pure a : Resolution σ α) (.ok a) := fun _ _ => rfl

theorem andThen {m : Resolution σ α} {f : α → Resolution σ β} {o : Except ExpressionError α}
    {g : α → Except ExpressionError β} (hm : Gives env options m o) (hs : Stays m)
    (hf : ∀ a, Gives env options (f a) (g a)) : Gives env options (m >>= f) (o >>= g) := by
  intro r hr
  have hfirst := hm r hr
  have hafter := hs r
  rw [Step.run_bind]
  cases hrun : m.run.run r with
  | mk outcome after =>
    rw [hrun] at hfirst hafter
    subst hfirst
    cases outcome with
    | error e => rfl
    | ok a => exact hf a after (hr.trans hafter)

theorem ite {c : Prop} [Decidable c] {m n : Resolution σ α} {o o' : Except ExpressionError α}
    (hm : Gives env options m o) (hn : Gives env options n o') :
    Gives env options (if c then m else n) (if c then o else o') := by
  split
  · exact hm
  · exact hn

theorem withLine {m : Resolution σ α} {o : Except ExpressionError α} (line : Option Int)
    (hm : Gives env options m o) :
    Gives env options (Resolution.withLine line m) (o.mapError fun e => e.withLine line) := by
  intro r hr
  simp [hm r hr]

end Gives

section

variable (hpure : host.IsPure) (start : σ)

include hpure

theorem evaluate_gives (source : Text) :
    Gives env options (evaluate host source) (Sandbox.outcome host env options start source) := by
  intro r hr
  rw [run_evaluate]
  exact Sandbox.outcome_of_reaches hpure hr source start r.state

theorem sourceHolds_gives (source : Text) :
    Gives env options (sourceHolds host source)
      (Tree.sourceHolds (Sandbox.outcome host env options start) source) :=
  (evaluate_gives hpure start source).andThen (Stays.evaluate host source) fun _ => Gives.ofPure _

theorem dynamic_gives (source : Text) :
    Gives env options (dynamic host source)
      (do return (← Sandbox.outcome host env options start source).plain) := by
  refine (evaluate_gives hpure start source).andThen (Stays.evaluate host source) fun v => ?_
  exact fun _ _ => rfl

theorem valueHolds_gives (v : Value) :
    Gives env options (valueHolds host v)
      (Tree.valueHolds (Sandbox.outcome host env options start) v) := by
  cases v with
  | text source => exact sourceHolds_gives hpure start source
  | dynamic id source => exact sourceHolds_gives hpure start source
  | _ => exact Gives.ofPure _

theorem holds_gives (t : Tree) :
    Gives env options (holds host t)
      (Tree.holds (Sandbox.outcome host env options start) t) := by
  cases t with
  | scalar v => exact valueHolds_gives hpure start v
  | dynamic source => exact sourceHolds_gives hpure start source
  | _ => exact Gives.ofPure _

theorem entriesHold_gives (entries : Entries Tree) :
    Gives env options (entriesHold host entries)
      (Tree.entriesHold (Sandbox.outcome host env options start) entries) := by
  unfold entriesHold Tree.entriesHold
  cases Entries.get? testKey entries with
  | none => exact Gives.ofPure _
  | some test => exact holds_gives hpure start test

theorem slotsHold_gives (slots : Entries Slot) :
    Gives env options (slotsHold host slots)
      (Tree.slotsHold (Sandbox.outcome host env options start) slots) := by
  unfold slotsHold Tree.slotsHold
  cases Entries.get? testKey slots with
  | none => exact Gives.ofPure _
  | some slot =>
    cases slot with
    | tree t => exact holds_gives hpure start t
    | children => exact Gives.ofPure _

end

mutual

/-- A tree becomes the data that the outcomes of its sources make of it. -/
theorem tree_gives (hpure : host.IsPure) (start : σ) (t : Tree) :
    Gives env options (tree host t) (t.resolved (Sandbox.outcome host env options start)) := by
  match t with
  | .scalar v =>
    rw [tree, Tree.resolved]
    exact Gives.ofPure v
  | .dynamic source =>
    rw [tree, Tree.resolved]
    exact dynamic_gives hpure start source
  | .literal content =>
    rw [tree, Tree.resolved]
    exact Gives.ofPure _
  | .mapping entries =>
    rw [tree_mapping, Tree.resolved]
    refine (entriesHold_gives hpure start entries).andThen (Stays.entriesHold host entries)
      fun present => Gives.ite ?_ (Gives.ofPure _)
    exact (treeEntries_gives hpure start entries).andThen (treeEntries_stays host entries) fun _ =>
      Gives.ofPure _
  | .sequence items =>
    rw [tree, Tree.resolved]
    exact (treeItems_gives hpure start items).andThen (treeItems_stays host items) fun _ =>
      Gives.ofPure _
  | .component slots children line =>
    rw [tree_component, Tree.resolved]
    refine Gives.withLine line ?_
    refine (slotsHold_gives hpure start slots).andThen (Stays.slotsHold host slots)
      fun present => Gives.ite ?_ (Gives.ofPure _)
    have hchildren := treeItems_stays host children
    have hstays : Stays (do return Value.newList (← treeItems host children)) :=
      hchildren.andThen fun _ => Stays.ofPure _
    refine Gives.andThen (slotValues_gives hpure start hstays ?_ slots)
      (slotValues_stays host hstays slots) fun _ => Gives.ofPure _
    exact (treeItems_gives hpure start children).andThen hchildren fun _ => Gives.ofPure _

theorem slotValue_gives (hpure : host.IsPure) (start : σ) {children : Resolution σ Value}
    {o : Except ExpressionError Value} (hc : Gives env options children o) (slot : Slot) :
    Gives env options (slotValue host children slot)
      (Tree.resolvedSlot (Sandbox.outcome host env options start) o slot) := by
  match slot with
  | .tree t =>
    rw [slotValue, Tree.resolvedSlot]
    exact tree_gives hpure start t
  | .children =>
    rw [slotValue, Tree.resolvedSlot]
    exact hc

theorem treeItems_gives (hpure : host.IsPure) (start : σ) (items : List Tree) :
    Gives env options (treeItems host items)
      (Tree.resolvedItems (Sandbox.outcome host env options start) items) := by
  match items with
  | [] =>
    rw [treeItems, Tree.resolvedItems]
    exact Gives.ofPure _
  | t :: rest =>
    rw [treeItems, Tree.resolvedItems]
    refine (tree_gives hpure start t).andThen (tree_stays host t) fun v => ?_
    exact (treeItems_gives hpure start rest).andThen (treeItems_stays host rest) fun others =>
      Gives.ofPure _

theorem treeEntries_gives (hpure : host.IsPure) (start : σ) (entries : List (Text × Tree)) :
    Gives env options (treeEntries host entries)
      (Tree.resolvedEntries (Sandbox.outcome host env options start) entries) := by
  match entries with
  | [] =>
    rw [treeEntries, Tree.resolvedEntries]
    exact Gives.ofPure _
  | (key, t) :: rest =>
    rw [treeEntries, Tree.resolvedEntries]
    refine Gives.ite (treeEntries_gives hpure start rest) ?_
    refine (tree_gives hpure start t).andThen (tree_stays host t) fun v => ?_
    exact (treeEntries_gives hpure start rest).andThen (treeEntries_stays host rest) fun others =>
      Gives.ofPure _

theorem slotValues_gives (hpure : host.IsPure) (start : σ) {children : Resolution σ Value}
    {o : Except ExpressionError Value} (hs : Stays children)
    (hc : Gives env options children o) (slots : List (Text × Slot)) :
    Gives env options (slotValues host children slots)
      (Tree.resolvedSlots (Sandbox.outcome host env options start) o slots) := by
  match slots with
  | [] =>
    rw [slotValues, Tree.resolvedSlots]
    exact Gives.ofPure _
  | (key, slot) :: rest =>
    rw [slotValues_cons, Tree.resolvedSlots]
    have hfirst := Gives.ite hc (slotValue_gives hpure start hc slot) (c := key = childrenKey)
    refine Gives.ite (slotValues_gives hpure start hs hc rest) ?_
    refine hfirst.andThen (Stays.ite hs (slotValue_stays host hs slot)) fun v => ?_
    exact (slotValues_gives hpure start hs hc rest).andThen (slotValues_stays host hs rest)
      fun others => Gives.ofPure _

end

end Resolution

end SceneTemplates
