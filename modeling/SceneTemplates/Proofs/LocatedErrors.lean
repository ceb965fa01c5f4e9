import SceneTemplates.Proofs.Expansion

/-!
# Located errors

A compilation ends with a template or with an error that names a line, whatever the template.
-/
namespace SceneTemplates

open Step (FailsOnly)

/-- An error names a line. -/
def CompileError.IsLocated (e : CompileError) : Prop := ∃ line, e.line = some line

/-- A computation without a state fails only with errors that name a line. -/
def LocatesErrors {α : Type} (outcome : Except CompileError α) : Prop :=
  ∀ e, outcome = .error e → e.IsLocated

namespace LocatesErrors

variable {α β : Type} {outcome : Except CompileError α}

theorem ofOk (a : α) : LocatesErrors (.ok a) := fun _ h => nomatch h

theorem ofError (cause : CompileCause) (line : Int) :
    LocatesErrors (.error ⟨cause, some line⟩ : Except CompileError α) := by
  rintro _ ⟨⟩
  exact ⟨line, rfl⟩

theorem andThen {f : α → Except CompileError β} (h : LocatesErrors outcome)
    (hf : ∀ a, LocatesErrors (f a)) : LocatesErrors (outcome >>= f) := by
  intro e he
  obtain he | ⟨a, -, he⟩ := Except.bind_eq_error.1 he
  · exact h e he
  · exact hf a e he

theorem map {f : α → β} (h : LocatesErrors outcome) : LocatesErrors (outcome.map f) := by
  intro e he
  cases outcome with
  | error e' =>
    cases he
    exact h e rfl
  | ok a => cases he

theorem mapM {f : β → Except CompileError α} {items : List β} (h : ∀ b, LocatesErrors (f b)) :
    LocatesErrors (items.mapM f) := by
  induction items with
  | nil => exact ofOk _
  | cons b rest ih =>
    rw [List.mapM_cons]
    exact (h b).andThen fun _ => ih.andThen fun _ => ofOk _

end LocatesErrors

open LocatesErrors (ofOk ofError)

/-! ## Attributes, leaves and phases -/

theorem classify_located (v : Value) (line : Int) : LocatesErrors (classify v (some line)) := by
  cases v with
  | text t =>
    rw [classify]
    cases Attribute.ofText t with
    | error fault => exact ofError _ line
    | ok a => exact ofOk a
  | _ => exact ofOk _

theorem classifyAll_located (line : Int) (attrs : List TagAttribute) (stored : Entries Attribute) :
    LocatesErrors (classifyAll (some line) stored attrs) := by
  induction attrs generalizing stored with
  | nil => exact ofOk _
  | cons attr rest ih =>
    have hclassify : LocatesErrors
        (classify attr.value (if attr.line = 0 then some line else some attr.line)) := by
      rw [← apply_ite some]
      exact classify_located _ _
    rw [classifyAll]
    refine hclassify.andThen fun a => ?_
    cases attr.name.text? with
    | none => exact ih _
    | some name => exact ih _

theorem extractAttributes_located (attrs : List TagAttribute) (allowed : List Text) (line : Int) :
    LocatesErrors (extractAttributes attrs allowed (some line)) :=
  (classifyAll_located line attrs []).map

namespace Leaf

mutual

theorem countNode_located (mixins : Mixins) (node : Node) :
    LocatesErrors (countNode mixins node) := by
  match node with
  | .text _ _ | .comment _ _ => exact ofOk _
  | .conditional _ _ _ line => exact ofError _ line
  | .block ⟨nodes, _⟩ => exact countNodes_located mixins nodes
  | .tag name attrs ⟨nodes, _⟩ line =>
    rw [countNode]
    split
    · exact ofError _ line
    · exact (countNodes_located mixins nodes).map
  | .mixin name isCall _ _ line =>
    rw [countNode]
    split
    · exact ofError _ line
    · exact ofOk _
  | .unknown type line => exact ofError _ line

theorem countNodes_located (mixins : Mixins) (nodes : List Node) :
    LocatesErrors (countNodes mixins nodes) := by
  match nodes with
  | [] => exact ofOk _
  | node :: rest =>
    rw [countNodes]
    exact (countNode_located mixins node).andThen fun _ =>
      (countNodes_located mixins rest).andThen fun _ => ofOk _

end

end Leaf

namespace PhaseTag

variable {tag : Text} {line : Int}

theorem requireText_located (attrs : Entries Attribute) (key : Text) :
    LocatesErrors (requireText attrs key tag line) := by
  unfold requireText
  split
  · exact ofError _ line
  · exact ofOk _
  · exact ofError _ line

theorem checked_located (test : Value → Bool) (attrs : Entries Attribute) (key : Text) :
    LocatesErrors (checked test attrs key tag line) := by
  unfold checked
  split
  · split
    · exact ofOk _
    · exact ofError _ line
  · exact ofOk _

theorem transition_located (attrs : Entries Attribute) :
    LocatesErrors (transition tag attrs line) :=
  (requireText_located attrs _).andThen fun _ => (checked_located _ attrs _).andThen fun _ =>
    (checked_located _ attrs _).andThen fun _ => (checked_located _ attrs _).andThen fun _ =>
      (checked_located _ attrs _).andThen fun _ => ofOk _

theorem overrideValues_located (attrs : Entries Attribute) (keys : List Text) :
    LocatesErrors (overrideValues tag attrs line keys) := by
  induction keys with
  | nil => exact ofOk _
  | cons key rest ih =>
    rw [overrideValues]
    exact (checked_located _ attrs key).andThen fun _ => ih.andThen fun _ => ofOk _

theorem override_located (attrs : Entries Attribute) : LocatesErrors (override tag attrs line) :=
  (requireText_located attrs _).andThen fun _ =>
    (overrideValues_located attrs _).andThen fun _ => ofOk _

theorem custom_located (attrs : Entries Attribute) : LocatesErrors (custom tag attrs line) := by
  refine (requireText_located attrs _).andThen fun name =>
    (requireText_located attrs _).andThen fun component => ?_
  dsimp only
  split
  · exact ofError _ line
  · split
    · exact ofOk _
    · split
      · exact ofOk _
      · exact ofError _ line
    · exact ofError _ line

theorem effect_located (fields : List Text) (attrs : List TagAttribute) :
    LocatesErrors (effect tag fields attrs line) := by
  refine (extractAttributes_located attrs fields line).andThen fun extracted => ?_
  split
  · exact transition_located extracted
  · split
    · exact override_located extracted
    · exact custom_located extracted

theorem effectTags_located (phase : Text) (nodes : List Node) :
    LocatesErrors (effectTags phase nodes) := by
  induction nodes with
  | nil => exact ofOk _
  | cons node rest ih =>
    cases node with
    | text value line => exact ih
    | comment value line => exact ih
    | tag name attrs block line =>
      rw [effectTags]
      split
      · exact ih.andThen fun _ => ofOk _
      · exact ofError _ line
    | _ => exact ofError _ _

theorem phase_located (attrs : List TagAttribute) (block : Block) :
    LocatesErrors (phase attrs block line) := by
  refine (extractAttributes_located attrs _ line).andThen fun extracted =>
    (requireText_located extracted _).andThen fun name => ?_
  dsimp only
  split
  · exact ofError _ line
  · refine (effectTags_located name block.nodes).andThen fun tags => ?_
    split
    · exact ofError _ line
    · refine (LocatesErrors.mapM fun t : EffectTag => ?_).andThen fun _ => ofOk _
      exact effect_located t.fields t.attrs

end PhaseTag

/-! ## Steps of a compiler -/

namespace Compilation

variable {α : Type} {expand : Expansion}

/-- Bodies are expanded with errors that name a line. -/
def Expansion.IsLocated (expand : Expansion) : Prop :=
  ∀ compile, expand = some compile → ∀ block, FailsOnly CompileError.IsLocated (compile block)

theorem get_located : FailsOnly CompileError.IsLocated (get : Compilation Compiler) :=
  fun _ _ h => nomatch h

theorem modify_located (f : Compiler → Compiler) :
    FailsOnly CompileError.IsLocated (modify f : Compilation Unit) := fun _ _ h => nomatch h

theorem fail_located (cause : CompileCause) (line : Int) :
    FailsOnly CompileError.IsLocated (fail cause line : Compilation α) :=
  FailsOnly.ofThrow ⟨line, rfl⟩

theorem result_located {outcome : Except CompileError α} (h : LocatesErrors outcome) :
    FailsOnly CompileError.IsLocated (result outcome) := by
  cases outcome with
  | ok a => exact FailsOnly.ofPure a
  | error e => exact FailsOnly.ofThrow (h e rfl)

theorem within_located {name : Value} {step : Compilation α}
    (h : FailsOnly CompileError.IsLocated step) :
    FailsOnly CompileError.IsLocated (within name step) :=
  fun c e he => h { c with expanding := c.expanding ++ [name] } e he

theorem declare_located (name : Value) (body : Option Block) (line : Int) :
    FailsOnly CompileError.IsLocated (declare name body line) := by
  refine get_located.andThen fun c => ?_
  dsimp only
  split
  · exact (modify_located _).andThen fun _ => modify_located _
  · exact modify_located _

theorem declareAll_located (nodes : List Node) :
    FailsOnly CompileError.IsLocated (declareAll nodes) := by
  induction nodes with
  | nil => exact FailsOnly.ofPure _
  | cons node rest ih =>
    cases node with
    | mixin name isCall body args line =>
      cases isCall with
      | true => exact ih
      | false => exact (declare_located name body line).andThen fun _ => ih
    | _ => exact ih

theorem call_located (h : expand.IsLocated) (name args : Value) (line : Int) :
    FailsOnly CompileError.IsLocated (call expand name args line) := by
  refine get_located.andThen fun c => ?_
  split
  · exact fail_located _ line
  · next body compile _ =>
    refine FailsOnly.ite (fail_located _ line) ?_
    dsimp only
    split
    · exact (modify_located _).andThen fun _ => within_located (h compile rfl body)
    · exact within_located (h compile rfl body)
  · exact fail_located _ line

theorem addPhase_located (attrs : List TagAttribute) (block : Block) (line : Int) :
    FailsOnly CompileError.IsLocated (addPhase attrs block line) :=
  (result_located (PhaseTag.phase_located attrs block)).andThen fun _ => modify_located _

theorem checkLeaf_located (kind : ComponentKind) (block : Block) (line : Int) :
    FailsOnly CompileError.IsLocated (checkLeaf kind block line) := by
  refine get_located.andThen fun c =>
    (result_located (Leaf.countNodes_located c.mixins block.nodes)).andThen fun ignored => ?_
  split
  · exact modify_located _
  · exact FailsOnly.ofPure _

mutual

/-- Every error in a node names a line. -/
theorem visit_located (h : expand.IsLocated) (node : Node) :
    FailsOnly CompileError.IsLocated (visit expand node) := by
  match node with
  | .block ⟨nodes, _⟩ =>
    rw [visit]
    exact (declareAll_located nodes).andThen fun _ => visitAll_located h nodes
  | .tag name attrs ⟨nodes, blockLine⟩ line =>
    rw [visit]
    refine FailsOnly.ite ((addPhase_located attrs _ line).andThen fun _ => FailsOnly.ofPure _) ?_
    split
    · exact fail_located _ line
    · next kind _ =>
      refine (result_located (extractAttributes_located attrs kind.fields line)).andThen
        fun extracted => ?_
      dsimp only
      split
      · exact (declareAll_located nodes).andThen fun _ =>
          (visitAll_located h nodes).andThen fun _ => FailsOnly.ofPure _
      · exact (checkLeaf_located kind _ line).andThen fun _ => FailsOnly.ofPure _
  | .mixin name isCall body args line =>
    rw [visit]
    exact FailsOnly.ite (call_located h name args line)
      ((declare_located name body line).andThen fun _ => FailsOnly.ofPure _)
  | .conditional test ⟨nodes, _⟩ alternate _ =>
    rw [visit]
    exact (declareAll_located nodes).andThen fun _ => (visitAll_located h nodes).andThen fun _ =>
      (visitOptional_located h alternate).andThen fun _ => FailsOnly.ofPure _
  | .text _ _ | .comment _ _ => exact FailsOnly.ofPure _
  | .unknown type line => exact fail_located _ line

theorem visitOptional_located (h : expand.IsLocated) (node : Option Node) :
    FailsOnly CompileError.IsLocated (visitOptional expand node) := by
  match node with
  | none => exact FailsOnly.ofPure _
  | some node => exact visit_located h node

theorem visitAll_located (h : expand.IsLocated) (nodes : List Node) :
    FailsOnly CompileError.IsLocated (visitAll expand nodes) := by
  match nodes with
  | [] => exact FailsOnly.ofPure _
  | node :: rest =>
    by_cases hdeclaration : node.isDeclaration = true
    · rw [visitAll_declaration hdeclaration]
      exact visitAll_located h rest
    · rw [visitAll_cons (Bool.eq_false_iff.2 hdeclaration)]
      exact (visit_located h node).andThen fun _ => (visitAll_located h rest).andThen fun _ =>
        FailsOnly.ofPure _

end

/-- However many bodies can be open inside each other. -/
theorem expansion_located (n : Nat) : (expansion n).IsLocated := by
  induction n with
  | zero => exact fun _ h => nomatch h
  | succ n ih =>
    rintro _ ⟨⟩ block
    exact visit_located ih (.block block)

end Compilation

namespace Compiler

theorem run_located (block : Block) : FailsOnly CompileError.IsLocated (run block) :=
  (Compilation.modify_located _).andThen fun _ =>
    have hbodies := Compilation.expansion_located block.declarations
    (Compilation.visit_located hbodies (.block block)).andThen fun _ =>
      Compilation.get_located.andThen fun _ =>
        (Compilation.modify_located _).andThen fun _ => FailsOnly.ofPure _

/-- A compilation ends with a template or with an error that names a line. -/
theorem compile_located (c : Compiler) (block : Block) :
    (∃ t, (c.compile block).1 = .ok t) ∨
      ∃ cause line, (c.compile block).1 = .error ⟨cause, some line⟩ := by
  cases h : (c.compile block).1 with
  | ok t => exact .inl ⟨t, rfl⟩
  | error e =>
    obtain ⟨line, hline⟩ := run_located block c e h
    exact .inr ⟨e.cause, line, by rw [← hline]⟩

end Compiler

end SceneTemplates
