import SceneTemplates.Proofs.TemplateWalk
import SceneTemplates.Scene.Basic

/-!
# Scenes of phases

A build that succeeds gives one scene for each phase tag of the expanded template, in source order.
A phase has no test: a tag in a branch that is not selected gives its scene as well.
-/
namespace SceneTemplates

/-! ## Live phase tags -/

mutual

/-- The phase tags of a node that stand in selected branches only. -/
def Node.livePhaseTags (holds : Value → Bool) : Node → List PhaseNode
  | .block ⟨nodes, _⟩ => Node.allLivePhaseTags holds nodes
  | .tag name attrs ⟨nodes, blockLine⟩ line =>
    if name.text? = some PhaseTag.tag then [⟨attrs, ⟨nodes, blockLine⟩, line⟩]
    else if name.isContainerTag then Node.allLivePhaseTags holds nodes
    else []
  | .conditional test ⟨nodes, _⟩ alternate _ =>
    if holds test then Node.allLivePhaseTags holds nodes
    else Node.optionalLivePhaseTags holds alternate
  | _ => []

def Node.optionalLivePhaseTags (holds : Value → Bool) : Option Node → List PhaseNode
  | none => []
  | some node => Node.livePhaseTags holds node

def Node.allLivePhaseTags (holds : Value → Bool) : List Node → List PhaseNode
  | [] => []
  | node :: rest => Node.livePhaseTags holds node ++ Node.allLivePhaseTags holds rest

end

/-- The live phase tags of an expanded template in source order. -/
def Block.livePhaseTags (holds : Value → Bool) (block : Block) : List PhaseNode :=
  Node.allLivePhaseTags holds block.nodes

/-! ## Builds -/

/-- Lists that match a third one element by element match each other through its elements. -/
theorem forall₂_through {α β γ : Type} {P : α → β → Prop} {Q : β → γ → Prop} {first : List α}
    {middle : List β} {last : List γ} (h : List.Forall₂ P first middle)
    (h' : List.Forall₂ Q middle last) :
    List.Forall₂ (fun a c => ∃ b, P a b ∧ Q b c) first last := by
  induction h generalizing last with
  | nil =>
    cases h'
    exact .nil
  | cons hp _ ih =>
    obtain ⟨c, rest, hq, hrest, rfl⟩ := List.forall₂_cons_left_iff.1 h'
    exact .cons ⟨_, hp, hq⟩ (ih hrest)

structure BuildRequest where
  data : Entries Value
  options : SandboxOptions

namespace SceneTemplate

variable {σ : Type} {first t t' : SceneTemplate} {host : Host σ}

/-- The template and the state of the host after builds, of which each may fail. -/
def afterBuilds (host : Host σ) (t : SceneTemplate) (state : σ) :
    List BuildRequest → SceneTemplate × σ
  | [] => (t, state)
  | request :: rest =>
    let built := t.build host request.data request.options state
    built.template.afterBuilds host built.state rest

/-- A template keeps what it was made with, and nothing but what its block compiles to. -/
structure Keeps (first t : SceneTemplate) : Prop where
  same : t = { first with compiled := t.compiled }
  compiled : ∀ kept, t.compiled = some kept → ∃ made notices,
    compileTemplate first.block = (.ok made, notices) ∧
      kept = sized first.width first.height made

theorem keeps_new (name : Text) (width height fps : Value) (block : Block) :
    (new name width height fps block).Keeps (new name width height fps block) := by
  refine ⟨rfl, ?_⟩
  intro kept h
  cases h

/-- Whether it compiled before or not, a template gives what its block compiles to. -/
theorem Keeps.compile_eq_ok (hkeeps : first.Keeps t) {kept : CompiledTemplate}
    {notices : List Notice} (h : t.compile = (.ok kept, notices, t')) :
    ∃ made notices, compileTemplate first.block = (.ok made, notices) ∧
      kept = sized first.width first.height made := by
  unfold compile at h
  cases hc : t.compiled with
  | some compiled =>
    rw [hc] at h
    cases h
    exact hkeeps.compiled kept hc
  | none =>
    rw [hc, hkeeps.same] at h
    dsimp only at h
    rcases hmade : compileTemplate first.block with ⟨e | made, noted⟩
    · rw [hmade] at h
      cases h
    · rw [hmade] at h
      cases h
      exact ⟨made, noted, rfl, rfl⟩

theorem Keeps.compile (hkeeps : first.Keeps t) : first.Keeps t.compile.2.2 := by
  unfold SceneTemplate.compile
  cases hc : t.compiled with
  | some compiled => exact hkeeps
  | none =>
    rcases hmade : compileTemplate t.block with ⟨e | made, noted⟩
    · exact hkeeps
    · have hsame := hkeeps.same
      rw [hsame] at hmade ⊢
      refine ⟨rfl, ?_⟩
      intro kept hkept
      cases hkept
      exact ⟨made, noted, hmade, rfl⟩

@[simp] theorem build_template (t : SceneTemplate) (host : Host σ) (data : Entries Value)
    (options : SandboxOptions) (state : σ) :
    (t.build host data options state).template = t.compile.2.2 := by
  unfold build
  rcases t.compile with ⟨e | compiled, notices, after⟩
  · rfl
  · dsimp only
    split <;> rfl

/-- Builds change nothing but what is kept. -/
theorem Keeps.afterBuilds (hkeeps : first.Keeps t) (requests : List BuildRequest) (state : σ) :
    first.Keeps (t.afterBuilds host state requests).1 := by
  induction requests generalizing t state with
  | nil => exact hkeeps
  | cons request rest ih =>
    refine ih (t := (t.build host request.data request.options state).template) ?_ _
    rw [build_template]
    exact hkeeps.compile

/-- A scene is that of a phase, with the effects resolved over data. -/
def IsSceneOf (t : SceneTemplate) (host : Host σ) (env : Environment) (options : SandboxOptions)
    (root : Value) (p : Phase) (s : Scene) : Prop :=
  ∃ effects before after, Resolver.Over env options before ∧
    (Resolution.phase host p).run.run before = (.ok effects, after) ∧ s = t.scene root p effects

/-- One phase after the other gives its scene. -/
theorem scenes_forall₂ {env : Environment} {options : SandboxOptions} {root : Value}
    {phases : List Phase} {made : List Scene} {r r' : Resolver σ} (hover : r.Over env options)
    (h : (t.scenes host root phases).run.run r = (.ok made, r')) :
    List.Forall₂ (t.IsSceneOf host env options root) phases made := by
  induction phases generalizing r made with
  | nil =>
    rw [scenes] at h
    cases h
    exact .nil
  | cons p rest ih =>
    rw [scenes] at h
    obtain ⟨effects, after, hphase, h⟩ := Step.run_bind_eq_ok.1 h
    obtain ⟨others, last, hothers, hpure⟩ := Step.run_bind_eq_ok.1 h
    cases hpure
    have hafter : after.Over env options := by
      have hstays := Resolution.phase_stays host p r
      rw [hphase] at hstays
      exact hover.trans hstays
    exact .cons ⟨effects, r, after, hover, hphase, rfl⟩ (ih hafter hothers)

/-- A build succeeds if the template compiles, its root resolves and each phase gives its scene. -/
theorem build_eq_ok {data : Entries Value} {options : SandboxOptions} {state : σ}
    {made : List Scene} (h : (t.build host data options state).outcome = .ok made) :
    ∃ compiled notices root r r', t.compile = (.ok compiled, notices, t.compile.2.2) ∧
      (Resolution.component host compiled.root).run.run (Resolver.ofData data options state) =
        (.ok root, r) ∧
      (t.compile.2.2.scenes host root compiled.phases).run.run r = (.ok made, r') := by
  unfold build at h
  rcases hcompile : t.compile with ⟨e | compiled, notices, after⟩
  · rw [hcompile] at h
    cases h
  · rw [hcompile] at h
    dsimp only at h
    split at h
    case h_2 => cases h
    case h_1 hrun =>
      cases h
      obtain ⟨root, r, hroot, hscenes⟩ := Step.run_bind_eq_ok.1 hrun
      exact ⟨compiled, notices, root, r, _, rfl, hroot, hscenes⟩

/-- The phase of a template without phase tags has no effects. -/
theorem eq_of_isSceneOf_default {env : Environment} {options : SandboxOptions} {root : Value}
    {s : Scene} (h : t.IsSceneOf host env options root PhaseTag.defaultPhase s) :
    s = t.scene root PhaseTag.defaultPhase [] := by
  obtain ⟨effects, before, after, -, hphase, hs⟩ := h
  have hnone : (Resolution.phase host PhaseTag.defaultPhase).run.run before = (.ok [], before) := by
    unfold Resolution.phase
    rw [Resolution.run_withLine]
    rfl
  rw [hnone] at hphase
  cases hphase
  exact hs

/-- The scenes of a template are those of the phases that its block compiles to. -/
theorem Keeps.scenes_forall₂ (hkeeps : first.Keeps t) {data : Entries Value}
    {options : SandboxOptions} {state : σ} {made : List Scene}
    (h : (t.build host data options state).outcome = .ok made) :
    ∃ compiled notices root, compileTemplate first.block = (.ok compiled, notices) ∧
      List.Forall₂ (first.IsSceneOf host ⟨data, globalEnvironment⟩ options root)
        compiled.phases made := by
  obtain ⟨kept, notices, root, r, r', hcompile, hroot, hscenes⟩ := build_eq_ok h
  obtain ⟨compiled, noted, hcompiled, rfl⟩ := hkeeps.compile_eq_ok hcompile
  have hover : r.Over ⟨data, globalEnvironment⟩ options := by
    have hstays := Resolution.component_stays host (sized first.width first.height compiled).root
      (Resolver.ofData data options state)
    rw [hroot] at hstays
    exact (Resolver.over_ofData data options state).trans hstays
  refine ⟨compiled, noted, root, hcompiled, ?_⟩
  have hall := SceneTemplate.scenes_forall₂ hover hscenes
  -- The scenes read nothing of the template but what it was made with.
  rw [hkeeps.compile.same] at hall
  exact hall

/-- After any builds, which may have failed, a build that succeeds gives one scene for each phase
tag of the expanded template, in source order and whether or not the tests around the tag hold.
Without a phase tag it gives one scene that is called `main`. -/
theorem build_scenes (host : Host σ) (name : Text) (width height fps : Value) (block : Block)
    (requests : List BuildRequest) (start : σ) (data : Entries Value) (options : SandboxOptions)
    {made : List Scene}
    (h : let earlier := (new name width height fps block).afterBuilds host start requests
      (earlier.1.build host data options earlier.2).outcome = .ok made) :
    ∃ expanded root, block.expanded? = some expanded ∧
      (expanded.phaseTags = [] → made = [⟨name ++ " main", fps, width, height, root, []⟩]) ∧
      (expanded.phaseTags ≠ [] → List.Forall₂ (fun tag s => ∃ p, tag.phase = .ok p ∧
        (new name width height fps block).IsSceneOf host ⟨data, globalEnvironment⟩ options root p s)
          expanded.phaseTags made) := by
  have hkeeps : (new name width height fps block).Keeps
      ((new name width height fps block).afterBuilds host start requests).1 :=
    (keeps_new name width height fps block).afterBuilds requests start
  obtain ⟨compiled, notices, root, hcompile, hscenes⟩ := hkeeps.scenes_forall₂ h
  obtain ⟨expanded, hexpanded, hstands⟩ := stands_of_compileTemplate hcompile
  obtain ⟨phases, htags, hphases⟩ := hstands.phases
  refine ⟨expanded, root, hexpanded, ?_, ?_⟩
  · intro hnone
    rw [hnone] at htags
    cases htags
    rw [hphases] at hscenes
    obtain ⟨s, rest, hs, hrest, rfl⟩ := List.forall₂_cons_left_iff.1 hscenes
    cases hrest
    have hname : name ++ " " ++ PhaseTag.defaultPhase.name = name ++ " main" :=
      List.append_assoc name " " PhaseTag.defaultPhase.name
    rw [eq_of_isSceneOf_default hs, scene, ← hname]
    rfl
  · intro hsome
    have hne : ¬ phases.isEmpty = true := by
      intro hempty
      rw [List.isEmpty_iff.1 hempty, List.forall₂_nil_right_iff] at htags
      exact hsome htags
    rw [hphases, if_neg hne] at hscenes
    exact forall₂_through htags hscenes

/-- A phase that animates a title. -/
def titlePhase (name : Text) (line : Int) : Node :=
  .tag (.text "phase") [⟨.text "name", .text name, line⟩]
    ⟨[.tag (.text "override")
      [⟨.text "component", .text "'title'", line⟩, ⟨.text "opacity", .text "1", line⟩] .empty
      line], line⟩ line

/-- A template with a phase of its own, and another one in a branch that is never selected. -/
def hiddenPhase : Block :=
  ⟨[titlePhase "'intro'" 2, .conditional (.text "false") ⟨[titlePhase "'outro'" 5], 5⟩ none 4], 1⟩

/-- Both phases give a scene, after another build as well. -/
theorem exists_scenes_hiddenPhase :
    let t := new "T" defaultWidth defaultHeight defaultFps hiddenPhase
    let earlier := t.afterBuilds Host.none () [⟨[], SandboxOptions.standard⟩]
    ∃ made, (earlier.1.build Host.none [] SandboxOptions.standard earlier.2).outcome = .ok made ∧
      made.length = 2 := by
  intro t earlier
  have hlength : ((earlier.1.build Host.none [] SandboxOptions.standard
      earlier.2).outcome.toOption.map List.length) = some 2 := by decide +kernel
  obtain ⟨made, hmade, hcount⟩ := Option.map_eq_some_iff.1 hlength
  cases houtcome : (earlier.1.build Host.none [] SandboxOptions.standard earlier.2).outcome with
  | error e =>
    rw [houtcome] at hmade
    cases hmade
  | ok scenes =>
    rw [houtcome] at hmade
    cases hmade
    exact ⟨made, rfl, hcount⟩

theorem build_scenes_hiddenPhase :
    let t := new "T" defaultWidth defaultHeight defaultFps hiddenPhase
    let earlier := t.afterBuilds Host.none () [⟨[], SandboxOptions.standard⟩]
    ∃ made, (earlier.1.build Host.none [] SandboxOptions.standard earlier.2).outcome = .ok made ∧
      ∃ expanded root, hiddenPhase.expanded? = some expanded ∧
        (expanded.phaseTags = [] →
          made = [⟨"T" ++ " main", defaultFps, defaultWidth, defaultHeight, root, []⟩]) ∧
        (expanded.phaseTags ≠ [] → List.Forall₂ (fun tag s => ∃ p, tag.phase = .ok p ∧
          t.IsSceneOf Host.none ⟨[], globalEnvironment⟩ SandboxOptions.standard root p s)
            expanded.phaseTags made) := by
  obtain ⟨made, hmade, -⟩ := exists_scenes_hiddenPhase
  exact ⟨made, hmade, build_scenes Host.none "T" defaultWidth defaultHeight defaultFps hiddenPhase
    [⟨[], SandboxOptions.standard⟩] () [] SandboxOptions.standard hmade⟩

/-- Of the two phase tags one is live, and still there are two scenes. -/
theorem scenes_of_hiddenPhase :
    let t := new "T" defaultWidth defaultHeight defaultFps hiddenPhase
    let earlier := t.afterBuilds Host.none () [⟨[], SandboxOptions.standard⟩]
    ∃ expanded made, hiddenPhase.expanded? = some expanded ∧
      (earlier.1.build Host.none [] SandboxOptions.standard earlier.2).outcome = .ok made ∧
      (expanded.livePhaseTags (Node.testHolds (Sandbox.outcome Host.none ⟨[], globalEnvironment⟩
        SandboxOptions.standard ()))).length = 1 ∧
      made.length = 2 := by
  intro t earlier
  have hlive : hiddenPhase.expanded?.map (fun expanded =>
      (expanded.livePhaseTags (Node.testHolds (Sandbox.outcome Host.none ⟨[], globalEnvironment⟩
        SandboxOptions.standard ()))).length) = some 1 := by decide +kernel
  obtain ⟨expanded, hexpanded, hcount⟩ := Option.map_eq_some_iff.1 hlive
  obtain ⟨made, hmade, htwo⟩ := exists_scenes_hiddenPhase
  exact ⟨expanded, made, hexpanded, hmade, hcount, htwo⟩

end SceneTemplate

end SceneTemplates
