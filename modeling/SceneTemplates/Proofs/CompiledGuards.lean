import SceneTemplates.Proofs.GuardSizes
import SceneTemplates.Proofs.ResolvedTemplates

/-!
# Guards that compiling makes

The guards on the components of a template are put together from its tests, one for each branch that
a component stands in. Whether a sandbox accepts them can therefore be told from the sizes of the
tests. If it accepts all tests, nothing but a bound keeps it from accepting a guard, and a long
chain exceeds one.
-/
namespace SceneTemplates

/-! ## Branches -/

namespace Guard

/-- A branch of a conditional: its test with the size of this, and whether it has to hold. -/
structure Branch where
  test : Text
  size : Size
  holds : Bool

namespace Branch

def source (b : Branch) : Text := if b.holds then b.test else negated b.test

def total (b : Branch) : Size := if b.holds then b.size else b.size.negated

end Branch

/-- The guard of branches that lie in each other, the outermost first. -/
def joined : Branch → List Branch → Text
  | first, [] => first.source
  | first, second :: rest => conjoined first.source (joined second rest)

def joinedSize : Branch → List Branch → Size
  | first, [] => first.total
  | first, second :: rest => first.total.conjoined (joinedSize second rest)

/-- A source that is an expression of this size over an environment. -/
def HasSize (env : Environment) (source : Text) (size : Size) : Prop :=
  ∃ tree, Takes env source tree size

variable {env : Environment} {first : Branch} {rest : List Branch}

theorem Branch.hasSize {b : Branch} (h : HasSize env b.test b.size) :
    HasSize env b.source b.total := by
  obtain ⟨tree, htakes⟩ := h
  unfold source total
  cases b.holds with
  | true => exact ⟨tree, htakes⟩
  | false => exact ⟨_, htakes.negated⟩

/-- The size of a guard follows from those of its tests. -/
theorem joined_hasSize (h : ∀ b ∈ first :: rest, HasSize env b.test b.size) :
    HasSize env (joined first rest) (joinedSize first rest) := by
  induction rest generalizing first with
  | nil => exact Branch.hasSize (h first List.mem_cons_self)
  | cons second rest ih =>
    obtain ⟨hfirst, hrest⟩ := List.forall_mem_cons.1 h
    obtain ⟨left, hleft⟩ := Branch.hasSize hfirst
    obtain ⟨right, hright⟩ := ih hrest
    exact ⟨_, hleft.conjoined hright⟩

end Guard

/-! ## Components -/

namespace Component

variable {B : Guard.Branch → Prop}

/-- The guard of a component, if it has one, is that of some branches with a property. -/
def IsGuarded (B : Guard.Branch → Prop) (c : Component) : Prop :=
  ∀ cond, c.cond = some cond → ∃ first rest, (∀ b ∈ first :: rest, B b) ∧
    cond = .text (Guard.joined first rest)

/-- A further branch around a component. -/
theorem IsGuarded.guard {c : Component} (h : c.IsGuarded B) {b : Guard.Branch} (hb : B b) :
    (c.guard (.text b.source)).IsGuarded B := by
  intro cond hcond
  unfold Component.guard at hcond
  cases hc : c.cond with
  | none =>
    rw [hc] at hcond
    cases hcond
    exact ⟨b, [], List.forall_mem_singleton.2 hb, rfl⟩
  | some inner =>
    obtain ⟨first, rest, hbranches, rfl⟩ := h inner hc
    rw [hc] at hcond
    cases hcond
    exact ⟨b, first :: rest, List.forall_mem_cons.2 ⟨hb, hbranches⟩, rfl⟩

theorem isMade_guarded :
    IsMade (fun part => ∀ test, part = .test test → ∃ source size, test = .text source ∧
      ∀ holds, B ⟨source, size, holds⟩) (IsGuarded B) where
  guard c test htest h := by
    obtain ⟨source, size, rfl, hB⟩ := htest test rfl
    exact ⟨h.guard (hB true), h.guard (hB false)⟩
  tag _ _ _ := by
    intro cond hcond
    cases hcond

end Component

/-- The guards of a compiled template are those of branches whose tests stand in the template. -/
theorem guarded_of_compile {B : Guard.Branch → Prop} {block : Block}
    (htests : ∀ test ∈ block.tests, ∃ source size, test = .text source ∧
      ∀ holds, B ⟨source, size, holds⟩)
    {c : Compiler} {t : CompiledTemplate} (h : (c.compile block).1 = .ok t) :
    t.root.Everywhere (Component.IsGuarded B) := by
  have hparts : ∀ part ∈ block.parts, ∀ test, part = .test test →
      ∃ source size, test = .text source ∧ ∀ holds, B ⟨source, size, holds⟩ := by
    rintro _ hpart test rfl
    exact htests test (block.mem_tests_iff.2 hpart)
  exact root_everywhere Component.isMade_guarded hparts (fun _ _ _ h => nomatch h) h

/-! ## Sandboxes -/

namespace Sandbox

variable {s : Sandbox} {env : Environment} {options : SandboxOptions} {source : Text}
  {size : Guard.Size}

theorem examine_of_reaches (h : (fresh env options).Reaches s) (source : Text) :
    s.examine source = (examined env options source).mapError (.inSource source) := by
  rw [h.examine, examine_eq]
  rfl

/-- An accepted source has a size. -/
theorem exists_hasSize (h : (fresh env options).Reaches s) (haccepts : s.Accepts source) :
    ∃ size, Guard.HasSize env source size := by
  obtain ⟨tree, htree⟩ := (accepts_iff (h.coherent (coherent_fresh env options))).1 haccepts
  rw [examine_of_reaches h, Except.mapError_eq_ok] at htree
  obtain ⟨size, htakes⟩ := Guard.exists_takes htree
  exact ⟨size, tree, htakes⟩

/-- A source is accepted if its size is within the bounds, and otherwise refused for a bound. -/
theorem accepts_of_hasSize (h : (fresh env options).Reaches s)
    (hsize : Guard.HasSize env source size) :
    (s.Accepts source ↔ size.Within options) ∧
      (¬ size.Within options → ∃ cause, cause.IsBound ∧
        s.compile source = .error (.inSource source cause)) := by
  obtain ⟨tree, htakes⟩ := hsize
  have hcoherent := h.coherent (coherent_fresh env options)
  have hrefused : ¬ size.Within options → ∃ cause, cause.IsBound ∧
      s.compile source = .error (.inSource source cause) := by
    intro hnot
    obtain ⟨cause, hcause, hbound⟩ := htakes.refused hnot
    have hcompile := compile_of_coherent hcoherent source
    rw [examine_of_reaches h, hcause] at hcompile
    refine ⟨cause, hbound, ?_⟩
    cases hc : s.compile source with
    | error e =>
      rw [hc] at hcompile
      rw [Except.error.inj hcompile]
    | ok compiled =>
      rw [hc] at hcompile
      cases hcompile
  refine ⟨⟨fun haccepts => ?_, fun hwithin => ?_⟩, hrefused⟩
  · by_contra hnot
    obtain ⟨cause, -, hcause⟩ := hrefused hnot
    obtain ⟨compiled, hok⟩ := haccepts
    rw [hcause] at hok
    cases hok
  · refine (accepts_iff hcoherent).2 ⟨tree, ?_⟩
    rw [examine_of_reaches h, Except.mapError_eq_ok]
    exact htakes.examined_iff.2 hwithin

/-- A guard that only a bound keeps a sandbox from accepting. It is that of branches whose tests
stand in a block, and is accepted exactly if its size, which follows from the sizes of the tests, is
within the bounds; otherwise it is refused for one. -/
structure GuardsWithin (s : Sandbox) (env : Environment) (options : SandboxOptions) (block : Block)
    (cond : Value) (first : Guard.Branch) (rest : List Guard.Branch) : Prop where
  branches : ∀ b ∈ first :: rest, .text b.test ∈ block.tests ∧ Guard.HasSize env b.test b.size
  joined : cond = .text (Guard.joined first rest)
  accepts_iff : s.Accepts (Guard.joined first rest) ↔ (Guard.joinedSize first rest).Within options
  refused : ¬ (Guard.joinedSize first rest).Within options → ∃ cause, cause.IsBound ∧
    s.compile (Guard.joined first rest) = .error (.inSource (Guard.joined first rest) cause)

/-- If a sandbox accepts the tests of a template, then only a bound keeps it from accepting a guard
on a component of the compiled template. -/
theorem guards_within {σ : Type} (host : Host σ) (env : Environment) (options : SandboxOptions)
    (calls : List SandboxCall) (start : σ) {block : Block} {t : CompiledTemplate}
    {notices : List Notice} (hcompile : compileTemplate block = (.ok t, notices))
    (htests : ∀ test ∈ block.tests, ∃ source, test = .text source ∧
      (afterCalls host (fresh env options) start calls).1.Accepts source) :
    let s := (afterCalls host (fresh env options) start calls).1
    t.root.Everywhere fun c => ∀ cond, c.cond = some cond → ∃ first rest,
      s.GuardsWithin env options block cond first rest := by
  intro s
  have hreaches : (fresh env options).Reaches s := reaches_afterCalls host calls _ start
  have hsized : ∀ test ∈ block.tests, ∃ source size, test = .text source ∧ ∀ _ : Bool,
      .text source ∈ block.tests ∧ Guard.HasSize env source size := by
    intro test htest
    obtain ⟨source, rfl, haccepts⟩ := htests test htest
    obtain ⟨size, hsize⟩ := exists_hasSize hreaches haccepts
    exact ⟨source, size, rfl, fun _ => ⟨htest, hsize⟩⟩
  have hguarded := guarded_of_compile
    (B := fun b => .text b.test ∈ block.tests ∧ Guard.HasSize env b.test b.size) hsized
    (congrArg Prod.fst hcompile)
  refine hguarded.mono fun c hc cond hcond => ?_
  obtain ⟨first, rest, hbranches, rfl⟩ := hc cond hcond
  have hsize := Guard.joined_hasSize fun b hb => (hbranches b hb).2
  obtain ⟨haccepts, hrefused⟩ := accepts_of_hasSize hreaches hsize
  exact ⟨first, rest, hbranches, rfl, haccepts, hrefused⟩

theorem guards_within_rectangleChain :
    let env : Environment := ⟨[("b", .bool true)], globalEnvironment⟩
    let options : SandboxOptions := ⟨20, 5, 9, true⟩
    let s := (afterCalls Host.none (fresh env options) () [.compile "b"]).1
    (∀ test ∈ rectangleChain.tests, ∃ source, test = .text source ∧ s.Accepts source) ∧
      ∃ t notices, compileTemplate rectangleChain = (.ok t, notices) ∧
        t.root.Everywhere fun c => ∀ cond, c.cond = some cond → ∃ first rest,
          s.GuardsWithin env options rectangleChain cond first rest := by
  intro env options s
  have htests : ∀ test ∈ rectangleChain.tests, ∃ source, test = .text source ∧ s.Accepts source :=
    List.forall_mem_cons.2 ⟨⟨"a", rfl, _, rfl⟩,
      List.forall_mem_cons.2 ⟨⟨"b", rfl, _, rfl⟩, fun _ h => by cases h⟩⟩
  have hsome : (compileTemplate rectangleChain).1.toOption.isSome = true := by decide +kernel
  obtain ⟨t, ht⟩ := Option.isSome_iff_exists.1 hsome
  have hcompile : compileTemplate rectangleChain = (.ok t, (compileTemplate rectangleChain).2) :=
    Prod.ext (Except.toOption_eq_some.1 ht) rfl
  exact ⟨htests, t, _, hcompile,
    guards_within Host.none env options [.compile "b"] () hcompile htests⟩

end Sandbox

/-! ## A long chain -/

/-- A chain of tests `a` with nothing in their branches, and a component in its last branch. -/
def longChain : Nat → Node
  | 0 => rectangleTag 1
  | n + 1 => .conditional (.text "a") ⟨[], 1⟩ (some (longChain n)) 1

/-- The branch that stands if `a` does not hold. -/
def unlessA : Guard.Branch := ⟨"a", ⟨1, 1, 0, 1⟩, false⟩

def chainComponent : Nat → Component
  | 0 => ⟨.rectangle, none, [], [], none, some 1⟩
  | n + 1 => (chainComponent n).guard (.text unlessA.source)

theorem longChain_tests (n : Nat) : ∀ test ∈ (longChain n).tests, test = .text unlessA.test := by
  induction n with
  | zero => exact fun test h => by cases h
  | succ n ih =>
    rw [longChain, Node.tests_conditional, List.forall_mem_cons]
    exact ⟨rfl, ih⟩

theorem visit_longChain (expand : Compilation.Expansion) (n : Nat) (c : Compiler) :
    (Compilation.visit expand (longChain n)).run.run c = (.ok [chainComponent n], c) := by
  induction n with
  | zero => rfl
  | succ n ih =>
    rw [longChain, Compilation.visit]
    exact (Step.run_bind_of_ok ih)

@[simp] theorem chainComponent_cond (n : Nat) :
    (chainComponent (n + 1)).cond =
      some (.text (Guard.joined unlessA (List.replicate n unlessA))) := by
  induction n with
  | zero => rfl
  | succ n ih =>
    rw [chainComponent, Component.guard, ih]
    rfl

theorem unlessA_hasSize (env : Environment) : Guard.HasSize env unlessA.test unlessA.size := by
  have hparse : parse unlessA.test 1 = .ok (.name "a") := rfl
  refine ⟨.name "a", rfl, fun limit => ?_, rfl, rfl, ?_⟩
  · exact ⟨Parser.limit_pos_of_parse, fun hlimit => parse_mono hlimit hparse⟩
  · show ∀ node ∈ [((0 : Nat), Expr.name "a")], _
    exact List.forall_mem_singleton.2 rfl

/-- Each further test of a chain takes two nestings more. -/
@[simp] theorem nestings_joined (n : Nat) :
    (Guard.joinedSize unlessA (List.replicate n unlessA)).nestings = 2 * n + 4 := by
  induction n with
  | zero => rfl
  | succ n ih =>
    show max 4 (Guard.joinedSize unlessA (List.replicate n unlessA)).nestings + 2 = _
    omega

/-- A chain compiles to its component. -/
theorem compile_longChain (n : Nat) :
    ∃ t notices, compileTemplate ⟨[longChain n], 1⟩ = (.ok t, notices) ∧
      t.root.children = [chainComponent n] := by
  have hdeclaration : (longChain n).isDeclaration = false := by cases n <;> rfl
  have hvisit : ∀ (expand : Compilation.Expansion) (c : Compiler),
      (Compilation.visitBlock expand ⟨[longChain n], 1⟩).run.run c =
        (.ok [chainComponent n], c) := by
    intro expand c
    have hdeclare : Compilation.declareAll [longChain n] = pure () := by cases n <;> rfl
    rw [Compilation.visitBlock, Compilation.visit, hdeclare,
      Compilation.visitAll_cons hdeclaration]
    exact Step.run_bind_of_ok (visit_longChain expand n c)
  have hrun : ∃ t, (Compiler.initial.compile ⟨[longChain n], 1⟩).1 = .ok t ∧
      t.root.children = [chainComponent n] := by
    unfold Compiler.compile Compiler.run
    rw [Step.run_bind_of_ok (Step.run_modify _ _), Step.run_bind_of_ok (hvisit _ _),
      Step.run_bind_of_ok (Step.run_get _)]
    exact ⟨_, rfl, rfl⟩
  obtain ⟨t, ht, hchildren⟩ := hrun
  exact ⟨t, _, Prod.ext ht rfl, hchildren⟩

/-- The tests of a chain of a hundred are accepted, and the guard on its component is not. -/
theorem guard_of_longChain :
    let block : Block := ⟨[longChain 100], 1⟩
    let s := Sandbox.fresh ⟨[], globalEnvironment⟩ SandboxOptions.standard
    (∀ test ∈ block.tests, ∃ source, test = .text source ∧ s.Accepts source) ∧
      ∃ t notices c cond, compileTemplate block = (.ok t, notices) ∧ c ∈ t.root.children ∧
        c.cond = some (.text cond) ∧ ¬ s.Accepts cond := by
  intro block s
  have hreaches := Sandbox.Reaches.refl s
  constructor
  · have htests : ∀ test ∈ block.tests, test = .text unlessA.test := by
      rw [Block.tests_mk, Node.forall_allTests]
      exact ⟨longChain_tests 100, fun test h => by cases h⟩
    intro test htest
    obtain rfl := htests test htest
    refine ⟨_, rfl, (Sandbox.accepts_of_hasSize hreaches (unlessA_hasSize _)).1.2 ?_⟩
    exact ⟨by decide, by decide, by decide, by decide⟩
  · obtain ⟨t, notices, hcompile, hchildren⟩ := compile_longChain 100
    refine ⟨t, notices, chainComponent 100, _, hcompile, ?_, chainComponent_cond 99, ?_⟩
    · rw [hchildren]
      exact List.mem_singleton_self _
    · have hsize : Guard.HasSize ⟨[], globalEnvironment⟩
          (Guard.joined unlessA (List.replicate 99 unlessA)) _ :=
        Guard.joined_hasSize fun b hb => by
          have hb' : b = unlessA := by
            obtain rfl | hb := List.mem_cons.1 hb
            · rfl
            · exact List.eq_of_mem_replicate hb
          rw [hb']
          exact unlessA_hasSize _
      rw [(Sandbox.accepts_of_hasSize hreaches hsize).1]
      intro hwithin
      have hnestings := hwithin.nestings
      rw [nestings_joined] at hnestings
      exact absurd hnestings (by decide)

end SceneTemplates
