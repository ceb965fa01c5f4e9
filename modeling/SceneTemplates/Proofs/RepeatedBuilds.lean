import SceneTemplates.Proofs.GuardedComponents
import SceneTemplates.Proofs.PhaseScenes

/-!
# Repeated builds

A scene template keeps what its block compiled to and shares it between all its builds. With host
functions that depend on their arguments alone nothing of that shows: a build, whatever was built
before and however that ended, comes to what it comes to with a new template. It gives a scene for
each phase, all over one root that has the size of the canvas, or no scene at all.
-/
namespace SceneTemplates

/-- The effects of a phase as data, if each source has one outcome. -/
def Phase.resolved (outcome : Outcomes) (p : Phase) : Except ExpressionError (List Value) :=
  (Tree.resolvedItems outcome (p.effects.map Effect.toTree)).mapError fun e => e.withLine p.line

theorem Resolution.phase_gives {σ : Type} {host : Host σ} (hpure : host.IsPure)
    {env : Environment} {options : SandboxOptions} (start : σ) (p : Phase) :
    Gives env options (phase host p) (p.resolved (Sandbox.outcome host env options start)) :=
  (treeItems_gives hpure start _).withLine p.line

namespace SceneTemplate

variable {σ : Type} {first t : SceneTemplate} {host : Host σ} {outcome : Outcomes}
  {compiled : CompiledTemplate}

/-! ## What a build comes to -/

/-- The scenes of phases over a root, if each source has one outcome. -/
def scenesOver (t : SceneTemplate) (outcome : Outcomes) (root : Value) :
    List Phase → Except ExpressionError (List Scene)
  | [] => .ok []
  | p :: rest => do
    let effects ← p.resolved outcome
    let others ← scenesOver t outcome root rest
    return t.scene root p effects :: others

/-- The scenes of a compiled template, if each source has one outcome. -/
def scenesOf (t : SceneTemplate) (outcome : Outcomes) (compiled : CompiledTemplate) :
    Except ExpressionError (List Scene) := do
  let root ← compiled.root.toTree.resolved outcome
  t.scenesOver outcome root compiled.phases

/-- What a build comes to, if each source has one outcome. -/
def built (t : SceneTemplate) (outcome : Outcomes) : Except BuildError (List Scene) :=
  match (compileTemplate t.block).1 with
  | .error e => .error (.compilation e)
  | .ok made => (t.scenesOf outcome (sized t.width t.height made)).mapError .expression

theorem scenes_stays (t : SceneTemplate) (host : Host σ) (root : Value) (phases : List Phase) :
    Resolution.Stays (t.scenes host root phases) := by
  induction phases with
  | nil => exact Resolution.Stays.ofPure _
  | cons p rest ih =>
    exact (Resolution.phase_stays host p).andThen fun effects =>
      ih.andThen fun others => Resolution.Stays.ofPure _

theorem scenes_gives (hpure : host.IsPure) {env : Environment} {options : SandboxOptions}
    (start : σ) (t : SceneTemplate) (root : Value) (phases : List Phase) :
    Resolution.Gives env options (t.scenes host root phases)
      (t.scenesOver (Sandbox.outcome host env options start) root phases) := by
  induction phases with
  | nil => exact Resolution.Gives.ofPure _
  | cons p rest ih =>
    refine (Resolution.phase_gives hpure start p).andThen (Resolution.phase_stays host p)
      fun effects => ?_
    exact ih.andThen (t.scenes_stays host root rest) fun others => Resolution.Gives.ofPure _

/-- The scenes of a compiled template as a resolver makes them. -/
def resolution (t : SceneTemplate) (host : Host σ) (compiled : CompiledTemplate) :
    Resolution σ (List Scene) := do
  let root ← Resolution.component host compiled.root
  t.scenes host root compiled.phases

theorem resolution_gives (hpure : host.IsPure) {env : Environment} {options : SandboxOptions}
    (start : σ) (t : SceneTemplate) (compiled : CompiledTemplate) :
    Resolution.Gives env options (t.resolution host compiled)
      (t.scenesOf (Sandbox.outcome host env options start) compiled) :=
  (Resolution.tree_gives hpure start _).andThen (Resolution.component_stays host _) fun root =>
    scenes_gives hpure start t root compiled.phases

/-! ## Builds one after the other -/

/-- Whether it compiled before or not, a template compiles to the same. -/
theorem Keeps.compile_outcome (hkeeps : first.Keeps t) :
    t.compile.1 = (compileTemplate first.block).1.map (sized first.width first.height) := by
  unfold SceneTemplate.compile
  cases hc : t.compiled with
  | some kept =>
    obtain ⟨made, notices, hmade, rfl⟩ := hkeeps.compiled kept hc
    rw [hmade]
    rfl
  | none =>
    rw [hkeeps.same]
    dsimp only
    rcases compileTemplate first.block with ⟨e | made, notices⟩ <;> rfl

theorem build_of_error {e : CompileError} (h : t.compile.1 = .error e) (data : Entries Value)
    (options : SandboxOptions) (state : σ) :
    (t.build host data options state).outcome = .error (.compilation e) := by
  unfold build
  rcases hcompile : t.compile with ⟨outcome, notices, after⟩
  rw [hcompile] at h
  subst h
  rfl

theorem build_of_ok {compiled : CompiledTemplate} (h : t.compile.1 = .ok compiled)
    (data : Entries Value) (options : SandboxOptions) (state : σ) :
    (t.build host data options state).outcome =
      ((t.compile.2.2.resolution host compiled).run.run
        (Resolver.ofData data options state)).1.mapError .expression := by
  unfold build
  rcases hcompile : t.compile with ⟨outcome, notices, after⟩
  rw [hcompile] at h
  subst h
  cases hrun : (after.resolution host compiled).run.run (Resolver.ofData data options state) with
  | mk made r =>
    unfold resolution at hrun
    dsimp only
    rw [hrun]
    cases made <;> rfl

/-- The scenes read nothing of a template but what it was made with. -/
theorem Keeps.scenesOver (hkeeps : first.Keeps t) (outcome : Outcomes) (root : Value)
    (phases : List Phase) :
    t.scenesOver outcome root phases = first.scenesOver outcome root phases := by
  induction phases with
  | nil => rfl
  | cons p rest ih =>
    have hscene : ∀ effects, t.scene root p effects = first.scene root p effects := by
      intro effects
      rw [hkeeps.same]
      rfl
    rw [SceneTemplate.scenesOver, SceneTemplate.scenesOver, ih]
    simp only [hscene]

/-- A build comes to what its block compiles to, resolved over the data. -/
theorem Keeps.build_outcome (hpure : host.IsPure) (hkeeps : first.Keeps t) (data : Entries Value)
    (options : SandboxOptions) (start state : σ) :
    (t.build host data options state).outcome =
      first.built (Sandbox.outcome host ⟨data, globalEnvironment⟩ options start) := by
  have hcompile := hkeeps.compile_outcome
  unfold built
  cases hmade : (compileTemplate first.block).1 with
  | error e =>
    rw [hmade] at hcompile
    exact build_of_error hcompile data options state
  | ok made =>
    rw [hmade] at hcompile
    have hover := Resolver.over_ofData data options state
    rw [build_of_ok hcompile, resolution_gives hpure start _ _ _ hover]
    have hscenes : t.compile.2.2.scenesOf = first.scenesOf := by
      funext outcome compiled
      exact congrArg _ (funext fun root => hkeeps.compile.scenesOver outcome root compiled.phases)
    rw [hscenes]

/-- What builds of one template come to, one after the other. -/
def outcomes (host : Host σ) (t : SceneTemplate) (state : σ) :
    List BuildRequest → List (Except BuildError (List Scene))
  | [] => []
  | request :: rest =>
    let built := t.build host request.data request.options state
    built.outcome :: built.template.outcomes host built.state rest

theorem Keeps.outcomes_eq_map (hpure : host.IsPure) (hkeeps : first.Keeps t) (start : σ)
    (requests : List BuildRequest) (state : σ) :
    t.outcomes host state requests = requests.map fun request =>
      first.built
        (Sandbox.outcome host ⟨request.data, globalEnvironment⟩ request.options start) := by
  induction requests generalizing t state with
  | nil => rfl
  | cons request rest ih =>
    have hfirst := hkeeps.build_outcome hpure request.data request.options start state
    -- A build changes the template only by keeping what it compiled to.
    have hafter : first.Keeps (t.build host request.data request.options state).template := by
      rw [build_template]
      exact hkeeps.compile
    rw [outcomes, List.map_cons, hfirst, ih hafter]

/-! ## Scenes of a build -/

theorem scenesOver_eq_ok {root : Value} {phases : List Phase} {made : List Scene} :
    t.scenesOver outcome root phases = .ok made ↔
      List.Forall₂ (fun p s => ∃ effects, p.resolved outcome = .ok effects ∧
        s = t.scene root p effects) phases made := by
  induction phases generalizing made with
  | nil =>
    rw [scenesOver, List.forall₂_nil_left_iff]
    exact ⟨fun h => by cases h; rfl, fun h => by rw [h]⟩
  | cons p rest ih =>
    rw [scenesOver, Except.bind_eq_ok, List.forall₂_cons_left_iff]
    constructor
    · rintro ⟨effects, heffects, h⟩
      obtain ⟨others, hothers, hpure⟩ := Except.bind_eq_ok.1 h
      cases hpure
      exact ⟨_, others, ⟨effects, heffects, rfl⟩, ih.1 hothers, rfl⟩
    · rintro ⟨s, others, ⟨effects, heffects, rfl⟩, hothers, rfl⟩
      exact ⟨effects, heffects, Except.bind_eq_ok.2 ⟨others, ih.2 hothers, rfl⟩⟩

/-- The data of a root that has the size of a canvas. -/
def rootData (width height : Value) (children : List Value) : Value :=
  Value.newMapping [("kind", .text "zstack"), ("width", width), ("height", height),
    ("children", Value.newList children)]

/-- The root of a compiled template, sized to a canvas, is not left out, and its data are its kind,
the size and its children. -/
theorem sized_root_eq_ok {block : Block} {compiled : CompiledTemplate}
    (h : (compileTemplate block).1 = .ok compiled) {width height root : Value} :
    (sized width height compiled).root.toTree.resolved outcome = .ok root ↔
      ∃ items, Tree.resolvedItems outcome (Component.toTrees compiled.root.children) = .ok items ∧
        root = rootData width height items := by
  obtain ⟨expanded, -, hstands⟩ := stands_of_compileTemplate (Prod.ext h rfl)
  obtain ⟨children, -, hroot⟩ := hstands.root
  have hsized : (sized width height compiled).root =
      ⟨.zstack, none, [("width", .literal width), ("height", .literal height)], children, none,
        some expanded.line⟩ := by
    rw [sized, hroot]
    rfl
  have hkeys : Entries.keys (sized width height compiled).root.fields =
      [Text.ofString "width", Text.ofString "height"] := by
    rw [hsized]
    rfl
  have hproper : (sized width height compiled).root.IsProper := by
    constructor
    · rw [hkeys]
      decide
    · rw [hkeys, hsized]
      show ∀ key ∈ [Text.ofString "width", "height"], key ∈ ComponentKind.zstack.fields
      decide
    · rw [hkeys]
      decide
    · rw [hkeys]
      decide
  have hleaf : (sized width height compiled).root.kind.isContainer = false →
      (sized width height compiled).root.children = [] := by
    rw [hsized]
    exact fun hc => by cases hc
  rw [Component.resolved_eq_ok hproper]
  simp only [Component.body_eq_ok hproper hleaf]
  rw [hsized, hroot]
  constructor
  · rintro ⟨present, hpresent, hbody⟩
    cases hpresent
    obtain ⟨values, items, hvalues, hitems, rfl⟩ := hbody
    cases hvalues
    exact ⟨items, hitems, rfl⟩
  · rintro ⟨items, hitems, rfl⟩
    exact ⟨true, rfl, _, items, rfl, hitems, rfl⟩

theorem scenesOver_eq_error {root : Value} {phases : List Phase} {e : ExpressionError}
    (h : t.scenesOver outcome root phases = .error e) :
    ∃ p ∈ phases, p.resolved outcome = .error e := by
  induction phases with
  | nil => cases h
  | cons p rest ih =>
    rw [scenesOver, Except.bind_eq_error] at h
    obtain hp | ⟨effects, -, h⟩ := h
    · exact ⟨p, List.mem_cons_self, hp⟩
    obtain hrest | ⟨others, -, hpure⟩ := Except.bind_eq_error.1 h
    · obtain ⟨q, hq, hfailed⟩ := ih hrest
      exact ⟨q, List.mem_cons_of_mem p hq, hfailed⟩
    · cases hpure

/-- A phase that cannot be resolved leaves no scene at all. -/
theorem scenesOver_of_failing (root : Value) {phases : List Phase} {p : Phase} (hp : p ∈ phases)
    {e : ExpressionError} (h : p.resolved outcome = .error e) :
    ∃ e', t.scenesOver outcome root phases = .error e' := by
  induction phases with
  | nil => cases hp
  | cons q rest ih =>
    rw [scenesOver]
    cases hq : q.resolved outcome with
    | error e' => exact ⟨e', rfl⟩
    | ok effects =>
      have hrest : p ∈ rest := by
        refine (List.mem_cons.1 hp).resolve_left ?_
        rintro rfl
        rw [h] at hq
        cases hq
      obtain ⟨e', he'⟩ := ih hrest
      exact ⟨e', by rw [he']; rfl⟩

/-- What a build of a block that compiles comes to, if each source has one outcome: scenes that are
one for each phase, in order, over one root that has the size of the canvas. If the root or any
phase fails there is no scene, and no other failure follows. -/
structure BuildsOver (t : SceneTemplate) (outcome : Outcomes) (compiled : CompiledTemplate)
    (built : Except BuildError (List Scene)) : Prop where
  scenes : ∀ made, built = .ok made → ∃ items,
    (sized t.width t.height compiled).root.toTree.resolved outcome =
        .ok (rootData t.width t.height items) ∧
      List.Forall₂ (fun p s => ∃ effects, p.resolved outcome = .ok effects ∧
        s = ⟨t.name ++ " " ++ p.name, t.fps, t.width, t.height, rootData t.width t.height items,
          effects⟩) compiled.phases made
  root_failed : ∀ e, (sized t.width t.height compiled).root.toTree.resolved outcome = .error e →
    built = .error (.expression e)
  phase_failed : ∀ p ∈ compiled.phases, ∀ e, p.resolved outcome = .error e →
    ∃ e', built = .error (.expression e')
  failed : ∀ e, built = .error e → ∃ e', e = .expression e' ∧
    ((sized t.width t.height compiled).root.toTree.resolved outcome = .error e' ∨
      ∃ p ∈ compiled.phases, p.resolved outcome = .error e')

/-- Builds of a template come to what the same builds of it come to while it is new, and each is
what its block compiles to, resolved over the data. -/
structure BuildsAfresh (host : Host σ) (t : SceneTemplate) (start other : σ) : Prop where
  outcomes : ∀ requests, t.outcomes host start requests = requests.map fun request =>
    (t.build host request.data request.options other).outcome
  compilation : ∀ (request : BuildRequest) e, (compileTemplate t.block).1 = .error e →
    (t.build host request.data request.options other).outcome = .error (.compilation e)
  success : ∀ (request : BuildRequest) compiled, (compileTemplate t.block).1 = .ok compiled →
    t.BuildsOver
      (Sandbox.outcome host ⟨request.data, globalEnvironment⟩ request.options other) compiled
      (t.build host request.data request.options other).outcome

theorem buildsOver_of_compile (hblock : (compileTemplate t.block).1 = .ok compiled) :
    t.BuildsOver outcome compiled (t.built outcome) := by
  have hbuilt : t.built outcome =
      ((sized t.width t.height compiled).root.toTree.resolved outcome >>= fun v =>
        t.scenesOver outcome v compiled.phases).mapError .expression := by
    rw [SceneTemplate.built, hblock]
    rfl
  rw [hbuilt]
  refine ⟨?_, ?_, ?_, ?_⟩
  · intro made hmade
    obtain ⟨v, hv, hover⟩ := Except.bind_eq_ok.1 (Except.mapError_eq_ok.1 hmade)
    obtain ⟨items, -, rfl⟩ := (sized_root_eq_ok hblock).1 hv
    exact ⟨items, hv, scenesOver_eq_ok.1 hover⟩
  · intro e he
    rw [he]
    rfl
  · intro p hp e he
    cases hv : (sized t.width t.height compiled).root.toTree.resolved outcome with
    | error e' => exact ⟨e', rfl⟩
    | ok v =>
      obtain ⟨e', he'⟩ := scenesOver_of_failing v hp he
      exact ⟨e', congrArg _ he'⟩
  · intro e he
    obtain ⟨e', he', rfl⟩ := Except.mapError_eq_error.1 he
    refine ⟨e', rfl, ?_⟩
    exact (Except.bind_eq_error.1 he').imp id fun ⟨v, _, hover⟩ => scenesOver_eq_error hover

/-- Nothing of earlier builds shows. With host functions that depend on their arguments alone, each
build of one template, whatever was built before and however that ended, comes to what the same
build of a new template comes to: the scenes of all its phases, or none. -/
theorem builds_of_fresh (hpure : host.IsPure) (name : Text) (width height fps : Value)
    (block : Block) (start other : σ) :
    (new name width height fps block).BuildsAfresh host start other := by
  have hkeeps := keeps_new name width height fps block
  have hbuilt := fun (request : BuildRequest) state =>
    hkeeps.build_outcome hpure request.data request.options state other
  refine ⟨fun requests => ?_, fun request e he => ?_, fun request compiled hcompiled => ?_⟩
  · rw [hkeeps.outcomes_eq_map hpure start]
    exact List.map_congr_left fun request _ => (hbuilt request start).symm
  · rw [hbuilt request other, SceneTemplate.built, he]
  · rw [hbuilt request other]
    exact buildsOver_of_compile hcompiled

/-- A text with a member of a value, and a phase that moves it by what a host function returns. -/
def callingBlock : Block :=
  ⟨[.tag (.text "text") [⟨.text "text", .text "x.y", 2⟩] .empty 2,
    .tag (.text "phase") [⟨.text "name", .text "'intro'", 3⟩]
      ⟨[.tag (.text "override") [⟨.text "component", .text "'title'", 4⟩,
        ⟨.text "opacity", .text "f(x)", 4⟩] .empty 4], 3⟩ 3], 1⟩

/-- Builds of which the second one fails at a member of null and the third one in its phase, with a
host that counts its calls. -/
theorem builds_of_fresh_counting :
    let host : Host Nat := ⟨fun _ args n => (.ok (args.headD .null), n + 1)⟩
    let t := new "T" (.int 100) (.int 200) (.int 30) callingBlock
    let f : Value := .function (.host 0 "first")
    let strict : SandboxOptions := ⟨10, 5, 5, false⟩
    let requests : List BuildRequest :=
      [⟨[("f", f), ("x", .text "a")], strict⟩, ⟨[("f", f), ("x", .null)], strict⟩,
        ⟨[("x", .text "a")], strict⟩, ⟨[("f", f), ("x", .null)], .standard⟩]
    host.IsPure ∧
      (t.outcomes host 0 requests).map (fun o => o.toOption.map List.length) =
        [some 1, none, none, some 1] ∧
      t.outcomes host 0 requests = requests.map fun request =>
        (t.build host request.data request.options 7).outcome := by
  intro host t f strict requests
  have hpure : host.IsPure := fun _ _ _ _ => rfl
  have hall := builds_of_fresh hpure "T" (.int 100) (.int 200) (.int 30) callingBlock 0 7
  exact ⟨hpure, by decide +kernel, hall.outcomes requests⟩

end SceneTemplate

end SceneTemplates
