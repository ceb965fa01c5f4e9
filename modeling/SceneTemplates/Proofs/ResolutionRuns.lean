import SceneTemplates.Proofs.FixedData
import SceneTemplates.Scene.Resolution

/-!
# Runs of a resolution

Whatever is resolved, and whether it succeeds or not, the sandbox stays one over the same data with
the trees that belong there.
-/
namespace SceneTemplates

namespace Resolver

variable {σ : Type}

/-- A resolver over data with options, whatever it resolved before. -/
def Over (env : Environment) (options : SandboxOptions) (r : Resolver σ) : Prop :=
  (Sandbox.fresh env options).Reaches r.sandbox

theorem over_ofData (data : Entries Value) (options : SandboxOptions) (state : σ) :
    (ofData data options state).Over ⟨data, globalEnvironment⟩ options :=
  Sandbox.Reaches.refl _

end Resolver

namespace Resolution

variable {σ α β : Type} {m : Resolution σ α} {f : α → Resolution σ β} {host : Host σ}

theorem run_evaluate (host : Host σ) (source : Text) (r : Resolver σ) :
    (evaluate host source).run.run r =
      let after := r.sandbox.evaluate host source r.state
      (after.1, { r with sandbox := after.2.1, state := after.2.2 }) := by
  unfold evaluate
  rw [Step.run_bind_of_ok (Step.run_get r)]
  rcases r.sandbox.evaluate host source r.state with ⟨e | v, sandbox, state⟩ <;> rfl

/-- Giving an error a line touches nothing else. -/
@[simp] theorem run_withLine (line : Option Int) (step : Resolution σ α) (r : Resolver σ) :
    (withLine line step).run.run r =
      ((step.run.run r).1.mapError fun e => e.withLine line, (step.run.run r).2) := by
  unfold withLine
  rw [ExceptT.run_tryCatch, StateT.run_bind]
  rcases step.run.run r with ⟨e | a, after⟩ <;> rfl

/-- Whether the test in the entries of a mapping holds, if there is one. -/
def entriesHold (host : Host σ) (entries : Entries Tree) : Resolution σ Bool :=
  match Entries.get? testKey entries with
  | some test => holds host test
  | none => pure true

def slotsHold (host : Host σ) (slots : Entries Slot) : Resolution σ Bool :=
  match Entries.get? testKey slots with
  | some test => slotHolds host test
  | none => pure true

theorem tree_mapping (host : Host σ) (entries : Entries Tree) :
    tree host (.mapping entries) = (do
      if ← entriesHold host entries then
        return Value.newMapping (← treeEntries host entries)
      else return .null) := by
  rw [tree, entriesHold]
  cases Entries.get? testKey entries <;> rfl

theorem tree_component (host : Host σ) (slots : Entries Slot) (children : List Tree)
    (line : Option Int) :
    tree host (.component slots children line) = withLine line (do
      if ← slotsHold host slots then
        let values ← slotValues host (do return Value.newList (← treeItems host children)) slots
        return Value.newMapping values
      else return .null) := by
  rw [tree, slotsHold]
  cases Entries.get? testKey slots <;> rfl

theorem slotValues_cons (host : Host σ) (children : Resolution σ Value) (key : Text) (slot : Slot)
    (rest : List (Text × Slot)) :
    slotValues host children ((key, slot) :: rest) =
      if key = testKey then slotValues host children rest
      else do
        let v ← (if key = childrenKey then children else slotValue host children slot)
        let others ← slotValues host children rest
        return (key, v) :: others := by
  rw [slotValues]
  by_cases h : key = childrenKey
  · rw [if_pos h, if_pos h]
  · rw [if_neg h, if_neg h]

/-- A step that leaves a sandbox over the same data. -/
def Stays (m : Resolution σ α) : Prop :=
  ∀ r : Resolver σ, r.sandbox.Reaches (m.run.run r).2.sandbox

namespace Stays

theorem ofPure (a : α) : Stays (pure a : Resolution σ α) := fun r => .refl r.sandbox

theorem andThen (hm : Stays m) (hf : ∀ a, Stays (f a)) : Stays (m >>= f) := by
  intro r
  rw [Step.run_bind]
  have hfirst := hm r
  cases h : m.run.run r with
  | mk outcome after =>
    rw [h] at hfirst
    cases outcome with
    | error e => exact hfirst
    | ok a => exact hfirst.trans (hf a after)

theorem ite {c : Prop} [Decidable c] {m n : Resolution σ α} (hm : Stays m) (hn : Stays n) :
    Stays (if c then m else n) := by
  split
  · exact hm
  · exact hn

theorem evaluate (host : Host σ) (source : Text) : Stays (Resolution.evaluate host source) := by
  intro r
  rw [run_evaluate]
  exact Sandbox.reaches_evaluate host r.sandbox source r.state

theorem observe (source : Text) (v : Value) :
    Stays (Resolution.observe source v : Resolution σ Unit) :=
  fun r => .refl r.sandbox

theorem withLine {line : Option Int} (hm : Stays m) : Stays (Resolution.withLine line m) := by
  intro r
  rw [run_withLine]
  exact hm r

theorem dynamic (host : Host σ) (source : Text) : Stays (Resolution.dynamic host source) :=
  (evaluate host source).andThen fun v => (observe source v).andThen fun _ => ofPure _

theorem sourceHolds (host : Host σ) (source : Text) : Stays (Resolution.sourceHolds host source) :=
  (evaluate host source).andThen fun _ => ofPure _

theorem valueHolds (host : Host σ) (v : Value) : Stays (Resolution.valueHolds host v) := by
  unfold Resolution.valueHolds
  split
  · exact sourceHolds host _
  · exact sourceHolds host _
  · exact ofPure _
  · exact ofPure _

theorem holds (host : Host σ) (t : Tree) : Stays (Resolution.holds host t) := by
  cases t with
  | scalar v => exact valueHolds host v
  | dynamic source => exact sourceHolds host source
  | literal content => exact ofPure _
  | mapping entries => exact ofPure _
  | sequence items => exact ofPure _
  | component slots children line => exact ofPure _

theorem slotHolds (host : Host σ) (slot : Slot) : Stays (Resolution.slotHolds host slot) := by
  cases slot with
  | tree t => exact holds host t
  | children => exact ofPure _

theorem entriesHold (host : Host σ) (entries : Entries Tree) :
    Stays (Resolution.entriesHold host entries) := by
  unfold Resolution.entriesHold
  split
  · exact holds host _
  · exact ofPure _

theorem slotsHold (host : Host σ) (slots : Entries Slot) :
    Stays (Resolution.slotsHold host slots) := by
  unfold Resolution.slotsHold
  split
  · exact slotHolds host _
  · exact ofPure _

end Stays

mutual

theorem tree_stays (host : Host σ) (t : Tree) : Stays (tree host t) := by
  match t with
  | .scalar v =>
    rw [tree]
    exact Stays.ofPure v
  | .dynamic source =>
    rw [tree]
    exact Stays.dynamic host source
  | .literal content =>
    rw [tree]
    exact Stays.ofPure _
  | .mapping entries =>
    rw [tree_mapping]
    refine (Stays.entriesHold host entries).andThen fun present => ?_
    refine Stays.ite ?_ (Stays.ofPure _)
    exact (treeEntries_stays host entries).andThen fun _ => Stays.ofPure _
  | .sequence items =>
    rw [tree]
    exact (treeItems_stays host items).andThen fun _ => Stays.ofPure _
  | .component slots children line =>
    rw [tree_component]
    refine ((Stays.slotsHold host slots).andThen fun present => ?_).withLine
    refine Stays.ite ?_ (Stays.ofPure _)
    refine (slotValues_stays host ?_ slots).andThen fun _ => Stays.ofPure _
    exact (treeItems_stays host children).andThen fun _ => Stays.ofPure _

theorem slotValue_stays (host : Host σ) {children : Resolution σ Value} (hc : Stays children)
    (slot : Slot) : Stays (slotValue host children slot) := by
  rw [slotValue.eq_def]
  match slot with
  | .tree t => exact tree_stays host t
  | .children => exact hc

theorem treeItems_stays (host : Host σ) (items : List Tree) : Stays (treeItems host items) := by
  rw [treeItems.eq_def]
  match items with
  | [] => exact Stays.ofPure _
  | t :: rest =>
    exact (tree_stays host t).andThen fun v => (treeItems_stays host rest).andThen fun others =>
      Stays.ofPure _

theorem treeEntries_stays (host : Host σ) (entries : List (Text × Tree)) :
    Stays (treeEntries host entries) := by
  rw [treeEntries.eq_def]
  match entries with
  | [] => exact Stays.ofPure _
  | (key, t) :: rest =>
    refine Stays.ite (treeEntries_stays host rest) ?_
    exact (tree_stays host t).andThen fun v => (treeEntries_stays host rest).andThen fun others =>
      Stays.ofPure _

theorem slotValues_stays (host : Host σ) {children : Resolution σ Value} (hc : Stays children)
    (slots : List (Text × Slot)) : Stays (slotValues host children slots) := by
  match slots with
  | [] =>
    rw [slotValues]
    exact Stays.ofPure _
  | (key, slot) :: rest =>
    rw [slotValues_cons]
    refine Stays.ite (slotValues_stays host hc rest) ?_
    refine Stays.andThen (Stays.ite hc (slotValue_stays host hc slot)) fun v => ?_
    exact (slotValues_stays host hc rest).andThen fun others => Stays.ofPure _

end

theorem component_stays (host : Host σ) (c : Component) : Stays (component host c) :=
  tree_stays host c.toTree

theorem phase_stays (host : Host σ) (p : Phase) : Stays (phase host p) :=
  (treeItems_stays host _).withLine

end Resolution

end SceneTemplates
