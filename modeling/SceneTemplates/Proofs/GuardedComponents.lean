import SceneTemplates.Proofs.ResolvedComponents

/-!
# Guarded components

Compiling a conditional puts its test as a guard on the components of a branch, around the guards
that they have already. If what comes out of it can be resolved, the test has a value alone, and it
decides about all the components at once.
-/
namespace SceneTemplates

open TokenKind (openAfter)

/-! ## Closed tests -/

/-- A source that can be cut into tokens and whose parentheses belong together. -/
def IsClosed (source : Text) : Prop :=
  ∃ row, Lexer.Reads source row ∧ openAfter 0 row = some 0

theorem isClosed_of_parse {source : Text} {limit : Int} {e : Expr}
    (h : parse source limit = .ok e) : IsClosed source := by
  obtain ⟨tokens, htokens, hwhole⟩ := parse_eq_ok.1 h
  obtain ⟨row, hrow, hkinds⟩ := exists_reads htokens
  obtain ⟨hopen, -⟩ := Parser.whole_taken hwhole hkinds hrow.finish_not_mem
  exact ⟨row, hrow, hopen⟩

namespace IsClosed

variable {source test cond : Text}

theorem staysInside (h : IsClosed source) : staysInside source = true := by
  obtain ⟨row, hrow, hopen⟩ := h
  obtain ⟨tokens, htokens, hkinds⟩ := exists_tokens hrow
  unfold SceneTemplates.staysInside
  rw [htokens]
  dsimp only
  rw [hkinds, List.dropLast_concat, hopen]
  rfl

/-- What stands in parentheses that were opened is closed by the one behind it. -/
theorem openAfter_group {row : List TokenKind} (h : openAfter 0 row = some 0)
    (more : List TokenKind) :
    openAfter 0 (.symbol .openParen :: (row ++ .symbol .closeParen :: more)) =
      openAfter 0 more := by
  rw [TokenKind.openAfter_open, TokenKind.openAfter_append, TokenKind.openAfter_add h 1,
    Option.bind_some, TokenKind.openAfter_close]

theorem conjoined (ht : IsClosed test) (hc : IsClosed cond) :
    IsClosed (Guard.conjoined test cond) := by
  obtain ⟨row, hrow, hopen⟩ := ht
  obtain ⟨row', hrow', hopen'⟩ := hc
  have hand : (TokenKind.symbol (.binary .and)).isPlain := by decide
  refine ⟨_, Guard.reads_conjoined hrow hrow', ?_⟩
  rw [openAfter_group hopen, TokenKind.openAfter_plain hand]
  exact openAfter_group hopen' []

theorem negated (ht : IsClosed test) : IsClosed (Guard.negated test) := by
  obtain ⟨row, hrow, hopen⟩ := ht
  have hnot : (TokenKind.symbol .not).isPlain := by decide
  refine ⟨_, Guard.reads_negated hrow, ?_⟩
  rw [TokenKind.openAfter_plain hnot]
  exact openAfter_group hopen []

end IsClosed

/-! ## Outcomes of guards -/

namespace Outcomes

/-- The value of a guard comes from the values of its tests. -/
structure RespectGuards (outcome : Outcomes) : Prop where
  conjoined : ∀ {test cond v}, IsClosed test → IsClosed cond →
    outcome (Guard.conjoined test cond) = .ok v → ∃ first, outcome test = .ok first ∧
      if first.isTruthy then outcome cond = .ok v else v = first
  negated : ∀ {test v}, IsClosed test → outcome (Guard.negated test) = .ok v →
    ∃ first, outcome test = .ok first ∧ v = .bool (!first.isTruthy)

end Outcomes

theorem Sandbox.outcome_respectGuards {σ : Type} {host : Host σ} (hpure : host.IsPure)
    (env : Environment) (options : SandboxOptions) (start : σ) :
    Outcomes.RespectGuards (outcome host env options start) :=
  ⟨fun ht hc h => outcome_conjoined hpure ht.staysInside hc.staysInside h,
    fun ht h => outcome_negated hpure ht.staysInside h⟩

/-! ## Components behind a guard -/

namespace Component

variable {outcome : Outcomes} {c : Component} {components : List Component} {test : Text}

/-- A component as compiling makes it: its attributes are proper, a leaf has no children, and its
test is missing or closed. -/
structure IsCompiled (c : Component) : Prop where
  proper : c.IsProper
  leaf : c.kind.isContainer = false → c.children = []
  test : ∀ v, c.cond = some v → ∃ source, v = .text source ∧ IsClosed source

theorem IsCompiled.guard (h : c.IsCompiled) (ht : IsClosed test) :
    (c.guard (.text test)).IsCompiled := by
  refine ⟨h.proper.guard _, ?_, ?_⟩
  · have hleaf := h.leaf
    unfold Component.guard
    cases c.cond with
    | none => exact hleaf
    | some cond => exact hleaf
  · intro v hv
    unfold Component.guard at hv
    cases hc : c.cond with
    | none =>
      rw [hc] at hv
      cases hv
      exact ⟨test, rfl, ht⟩
    | some cond =>
      obtain ⟨source, rfl, hsource⟩ := h.test cond hc
      rw [hc] at hv
      cases hv
      exact ⟨_, Guard.conjunction_text test source, ht.conjoined hsource⟩

theorem resolved_eq_ok (h : c.IsProper) {v : Value} :
    c.toTree.resolved outcome = .ok v ↔ ∃ present, condHolds outcome c.cond = .ok present ∧
      if present then c.body outcome = .ok v else v = .null := by
  rw [toTree_resolved h, Except.mapError_eq_ok, Except.bind_eq_ok]
  constructor
  · rintro ⟨present, hpresent, hv⟩
    refine ⟨present, hpresent, ?_⟩
    cases present with
    | true => exact hv
    | false =>
      cases hv
      exact rfl
  · rintro ⟨present, hpresent, hv⟩
    refine ⟨present, hpresent, ?_⟩
    cases present with
    | true => exact hv
    | false =>
      have hnull : v = .null := hv
      rw [hnull]
      rfl

theorem condHolds_text {source : Text} {present : Bool} :
    condHolds outcome (some (.text source)) = .ok present ↔
      ∃ v, outcome source = .ok v ∧ v.isTruthy = present := by
  show (outcome source >>= fun v => pure v.isTruthy) = .ok present ↔ _
  rw [Except.bind_eq_ok]
  constructor
  · rintro ⟨v, hv, hpresent⟩
    cases hpresent
    exact ⟨v, hv, rfl⟩
  · rintro ⟨v, hv, rfl⟩
    exact ⟨v, hv, rfl⟩

/-- The guard of a component that can be resolved has a value, and decides about the component. -/
theorem resolved_guard (hg : outcome.RespectGuards) (hc : c.IsCompiled) (ht : IsClosed test)
    {v : Value} (h : (c.guard (.text test)).toTree.resolved outcome = .ok v) :
    ∃ first, outcome test = .ok first ∧
      if first.isTruthy then c.toTree.resolved outcome = .ok v else v = .null := by
  obtain ⟨present, hpresent, hv⟩ := (resolved_eq_ok (hc.proper.guard _)).1 h
  rw [body_guard hc.proper] at hv
  cases hcond : c.cond with
  | none =>
    have hguard : (c.guard (.text test)).cond = some (.text test) := by
      rw [guard, hcond]
      rfl
    rw [hguard] at hpresent
    obtain ⟨first, hfirst, rfl⟩ := condHolds_text.1 hpresent
    refine ⟨first, hfirst, ?_⟩
    split
    · next htruthy =>
      rw [if_pos htruthy] at hv
      refine (resolved_eq_ok hc.proper).2 ⟨true, ?_, hv⟩
      rw [hcond]
      rfl
    · next hfalsy =>
      rw [if_neg hfalsy] at hv
      exact hv
  | some cond =>
    obtain ⟨source, rfl, hsource⟩ := hc.test cond hcond
    have hguard : (c.guard (.text test)).cond = some (.text (Guard.conjoined test source)) := by
      rw [guard, hcond]
      rfl
    rw [hguard] at hpresent
    obtain ⟨last, hlast, rfl⟩ := condHolds_text.1 hpresent
    obtain ⟨first, hfirst, hrest⟩ := hg.conjoined ht hsource hlast
    refine ⟨first, hfirst, ?_⟩
    split
    · next htruthy =>
      rw [if_pos htruthy] at hrest
      refine (resolved_eq_ok hc.proper).2 ⟨last.isTruthy, ?_, hv⟩
      rw [hcond]
      exact condHolds_text.2 ⟨last, hrest, rfl⟩
    · next hfalsy =>
      rw [if_neg hfalsy] at hrest
      subst hrest
      rw [if_neg hfalsy] at hv
      exact hv

/-! ## Lists of components -/

@[simp] theorem prepend_guard (c : Component) (test : Value) (v : Value) (others : List Value) :
    Tree.prepend (c.guard test).toTree v others = Tree.prepend c.toTree v others := by
  rw [toTree_eq, toTree_eq]
  rfl

@[simp] theorem prepend_null (c : Component) (others : List Value) :
    Tree.prepend c.toTree .null others = others := by
  rw [toTree_eq]
  rfl

@[simp] theorem resolvedItems_cons_eq_ok {rest : List Component} {items : List Value} :
    Tree.resolvedItems outcome (toTrees (c :: rest)) = .ok items ↔
      ∃ v others, c.toTree.resolved outcome = .ok v ∧
        Tree.resolvedItems outcome (toTrees rest) = .ok others ∧
        items = Tree.prepend c.toTree v others := by
  rw [toTrees, Tree.resolvedItems, Except.bind_eq_ok]
  constructor
  · rintro ⟨v, hv, h⟩
    obtain ⟨others, hothers, hpure⟩ := Except.bind_eq_ok.1 h
    cases hpure
    exact ⟨v, others, hv, hothers, rfl⟩
  · rintro ⟨v, others, hv, hothers, rfl⟩
    exact ⟨v, hv, Except.bind_eq_ok.2 ⟨others, hothers, rfl⟩⟩

/-- What is resolved of two lists of components is resolved of the one and of the other. -/
theorem resolvedItems_append {first second : List Component} {items : List Value}
    (h : Tree.resolvedItems outcome (toTrees (first ++ second)) = .ok items) :
    ∃ a b, Tree.resolvedItems outcome (toTrees first) = .ok a ∧
      Tree.resolvedItems outcome (toTrees second) = .ok b ∧ items = a ++ b := by
  induction first generalizing items with
  | nil => exact ⟨[], items, rfl, h, rfl⟩
  | cons c rest ih =>
    rw [List.cons_append] at h
    obtain ⟨v, others, hv, hothers, rfl⟩ := resolvedItems_cons_eq_ok.1 h
    obtain ⟨a, b, ha, hb, rfl⟩ := ih hothers
    refine ⟨Tree.prepend c.toTree v a, b, resolvedItems_cons_eq_ok.2 ⟨v, a, hv, ha, rfl⟩, hb, ?_⟩
    rw [toTree_eq]
    cases v <;> rfl

/-- The guard of components that can be resolved has a value if there is any, and decides about all
of them at once. -/
theorem resolvedItems_guard (hg : outcome.RespectGuards) (ht : IsClosed test)
    (hc : ∀ c ∈ components, c.IsCompiled) {items : List Value}
    (h : Tree.resolvedItems outcome (toTrees (components.map (guard (.text test)))) = .ok items) :
    (components ≠ [] → ∃ first, outcome test = .ok first) ∧
      ∀ first, outcome test = .ok first →
        if first.isTruthy then Tree.resolvedItems outcome (toTrees components) = .ok items
        else items = [] := by
  induction components generalizing items with
  | nil =>
    cases h
    refine ⟨fun hne => absurd rfl hne, fun first hfirst => ?_⟩
    split <;> rfl
  | cons c rest ih =>
    rw [List.map_cons] at h
    obtain ⟨v, others, hv, hothers, rfl⟩ := resolvedItems_cons_eq_ok.1 h
    obtain ⟨hcompiled, hrest⟩ := List.forall_mem_cons.1 hc
    obtain ⟨first, hfirst, hdecides⟩ := resolved_guard hg hcompiled ht hv
    obtain ⟨-, hothers⟩ := ih hrest hothers
    rw [prepend_guard]
    refine ⟨fun _ => ⟨first, hfirst⟩, ?_⟩
    intro first' hfirst'
    rw [hfirst] at hfirst'
    cases hfirst'
    have hbelow := hothers first hfirst
    by_cases htruthy : first.isTruthy = true
    · rw [if_pos htruthy] at hdecides hbelow ⊢
      exact resolvedItems_cons_eq_ok.2 ⟨v, others, hdecides, hbelow, rfl⟩
    · rw [if_neg htruthy] at hdecides hbelow ⊢
      simp [hdecides, hbelow]

/-- The guard of the other branch decides the other way round. -/
theorem resolvedItems_negation_guard (hg : outcome.RespectGuards) (ht : IsClosed test)
    (hc : ∀ c ∈ components, c.IsCompiled) {items : List Value}
    (h : Tree.resolvedItems outcome
      (toTrees (components.map (guard (negation (.text test))))) = .ok items) :
    (components ≠ [] → ∃ first, outcome test = .ok first) ∧
      ∀ first, outcome test = .ok first →
        if first.isTruthy then items = []
        else Tree.resolvedItems outcome (toTrees components) = .ok items := by
  rw [Guard.negation_text] at h
  obtain ⟨hsome, hdecides⟩ := resolvedItems_guard hg ht.negated hc h
  by_cases hempty : components = []
  · subst hempty
    cases h
    refine ⟨fun hne => absurd rfl hne, fun first hfirst => ?_⟩
    split <;> rfl
  · obtain ⟨last, hlast⟩ := hsome hempty
    obtain ⟨first, hfirst, rfl⟩ := hg.negated ht hlast
    refine ⟨fun _ => ⟨first, hfirst⟩, ?_⟩
    intro first' hfirst'
    rw [hfirst] at hfirst'
    cases hfirst'
    have hbelow := hdecides _ hlast
    cases htruthy : first.isTruthy with
    | true =>
      rw [htruthy] at hbelow
      exact hbelow
    | false =>
      rw [htruthy] at hbelow
      exact hbelow

/-- What a conditional makes of two branches is resolved to what the test selects: one branch, as
if it stood there alone. -/
theorem resolvedItems_conditional (hg : outcome.RespectGuards) (ht : IsClosed test)
    {consequent others : List Component} (hc : ∀ c ∈ consequent, c.IsCompiled)
    (ho : ∀ c ∈ others, c.IsCompiled) {items : List Value}
    (hsome : consequent.map (guard (.text test)) ++
      others.map (guard (negation (.text test))) ≠ [])
    (h : Tree.resolvedItems outcome (toTrees (consequent.map (guard (.text test)) ++
      others.map (guard (negation (.text test))))) = .ok items) :
    ∃ v, outcome test = .ok v ∧
      if v.isTruthy then Tree.resolvedItems outcome (toTrees consequent) = .ok items
      else Tree.resolvedItems outcome (toTrees others) = .ok items := by
  obtain ⟨first, second, hfirst, hsecond, rfl⟩ := resolvedItems_append h
  obtain ⟨hvalue, hthen⟩ := resolvedItems_guard hg ht hc hfirst
  obtain ⟨hvalue', helse⟩ := resolvedItems_negation_guard hg ht ho hsecond
  -- The test guards a component of one of the branches, so that it has a value.
  have htest : ∃ v, outcome test = .ok v := by
    by_cases hempty : consequent = []
    · apply hvalue'
      intro hempty'
      apply hsome
      rw [hempty, hempty']
      rfl
    · exact hvalue hempty
  obtain ⟨v, hv⟩ := htest
  have hthen := hthen v hv
  have helse := helse v hv
  refine ⟨v, hv, ?_⟩
  by_cases htruthy : v.isTruthy = true
  · rw [if_pos htruthy] at hthen helse ⊢
    rw [helse, List.append_nil]
    exact hthen
  · rw [if_neg htruthy] at hthen helse ⊢
    rw [hthen, List.nil_append]
    exact helse

end Component

end SceneTemplates
