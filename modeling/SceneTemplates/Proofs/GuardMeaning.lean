import SceneTemplates.Proofs.ChangingData
import SceneTemplates.Proofs.RelatedEvaluations

/-!
# The meaning of guards

A guard puts parentheses around its tests, and so it means what it is meant to: its tree is the
conjunction or the negation of their trees, whatever they are made of. In a sandbox that accepts it,
it is evaluated as its tests are, with whatever functions the host has: the second test is asked
only if the first one holds, and after it.
-/
namespace SceneTemplates

namespace Parser

open Lexer (Reads)

variable {n m : Nat} {row row' : List TokenKind} {e left right : Expr} {source : Text} {limit : Int}

/-- A row of tokens is an expression inside some nestings, up to whatever ends one. -/
def Parses (n : Nat) (row : List TokenKind) (e : Expr) : Prop :=
  ∀ tokens rest, kinds tokens = row → front rest = .finish →
    sequence (Level.ofNat n).expression (tokens ++ rest) = .ok (e, rest)

/-- What is parsed as a source of its own is an expression wherever it stands. -/
theorem parses_of_parse (hr : Reads source row) (h : parse source limit = .ok e) :
    Parses (limit.toNat + 1) row e := by
  obtain ⟨tokens, htokens, hwhole⟩ := parse_eq_ok.1 h
  obtain ⟨-, used, last, rfl, hused, hlast, hsequence⟩ :=
    whole_taken hwhole (kinds_of_reads hr htokens) hr.finish_not_mem
  obtain ⟨used', heq, -, hsame⟩ :=
    (sequence_local (Level.ofNat_local (limit.toNat + 1)).1).exists_used hsequence
  obtain rfl : used = used' := List.append_cancel_right heq
  intro tokens rest hkinds hfront
  exact hsame tokens rest (hkinds.trans hused.symm) (hfront.trans (front_last hlast).symm)

theorem Parses.parse (h : Parses n row e) (hr : Reads source row) (hn : n ≤ limit.toNat + 1) :
    parse source limit = .ok e :=
  parse_of_sequence hr hn fun used last hused => h used [last] hused

/-- In parentheses it is an operand, with one nesting more. -/
theorem Parses.group (h : Parses n row e) (hn : n ≤ m) {inside behind : List Token}
    (hinside : kinds inside = row) (hbehind : endsOperand (front behind))
    (position position' : Nat) :
    (Level.ofNat (m + 1)).operand
      (⟨.symbol .openParen, position⟩ :: (inside ++ ⟨.symbol .closeParen, position'⟩ :: behind)) =
        .ok (e, behind) := by
  obtain ⟨hdot, hbracket, hparen, hupdate⟩ := hbehind
  have hgroup : sequence (Level.ofNat m).expression
      (inside ++ ⟨.symbol .closeParen, position'⟩ :: behind) = .ok (e, _) :=
    (sequence_extends (Level.ofNat_extends hn) _).ok (h inside _ hinside rfl)
  have hconstructed : constructed (Level.ofNat m).around.expression
      (sequence (Level.ofNat m).expression)
      (⟨.symbol .openParen, position⟩ :: (inside ++ ⟨.symbol .closeParen, position'⟩ :: behind)) =
        .ok (e, behind) :=
    Except.bind_eq_ok.2 ⟨_, hgroup, rfl⟩
  have hsuffixes := suffixes_done (Level.ofNat m).around.expression behind.length e
    (startsWith_of_front hdot (by decide)) (startsWith_of_front hbracket (by decide))
    (startsWith_of_front hparen (by decide))
  rw [level_operand, operand_plain rfl, suffixed_eq]
  exact Except.bind_eq_ok.2
    ⟨_, Except.bind_eq_ok.2 ⟨_, hconstructed, hsuffixes⟩, updated_done e hupdate⟩

/-- The kinds of a group and of what is behind it. -/
theorem exists_group {tokens : List Token} {more : List TokenKind}
    (h : kinds tokens = .symbol .openParen :: (row ++ .symbol .closeParen :: more)) :
    ∃ position inside position' behind,
      tokens =
        ⟨.symbol .openParen, position⟩ :: (inside ++ ⟨.symbol .closeParen, position'⟩ :: behind) ∧
      kinds inside = row ∧ kinds behind = more := by
  obtain ⟨position, tokens, rfl, hkinds⟩ := exists_head h
  obtain ⟨inside, closed, rfl, hinside, hclosed⟩ := List.map_eq_append_iff.1 hkinds
  obtain ⟨position', behind, rfl, hbehind⟩ := exists_head hclosed
  exact ⟨position, inside, position', behind, rfl, hinside, hbehind⟩

theorem endsOperand_finish : endsOperand .finish :=
  ⟨by decide, by decide, by decide, fun op h => by cases h⟩

theorem endsOperand_and (position : Nat) (behind : List Token) :
    endsOperand (front (⟨.symbol (.binary .and), position⟩ :: behind)) := by
  simp [endsOperand, front_cons]

theorem Parses.conjoined (hleft : Parses n row left) (hright : Parses n row' right) :
    Parses (n + 2)
      (.symbol .openParen :: (row ++ .symbol .closeParen :: .symbol (.binary .and) ::
        .symbol .openParen :: (row' ++ [.symbol .closeParen]))) (.binary .and left right) := by
  intro tokens rest hkinds hrest
  obtain ⟨p, first, q, behind, rfl, hfirst, hbehind⟩ := exists_group hkinds
  obtain ⟨r, group, rfl, hgroup⟩ := exists_head hbehind
  obtain ⟨p', second, q', nothing, rfl, hsecond, hnothing⟩ := exists_group hgroup
  cases List.map_eq_nil_iff.1 hnothing
  have hfinish : endsOperand (front rest) := hrest ▸ endsOperand_finish
  have hlast := hright.group (Nat.le_refl n) hsecond hfinish p' q'
  have hoperators := operators_of_row
    (hleft.group (Nat.le_refl n) hfirst (endsOperand_and r _) p q)
    (moreOperands_single hlast (by rw [hrest]; rfl))
  have hsequence : sequence (assignment (Level.ofNat (n + 1)).expression _) _ =
      .ok (.binary .and left right, rest) :=
    sequence_of_operators _ hoperators hrest
  rw [level_expression]
  simpa using hsequence

theorem Parses.negated (h : Parses n row e) :
    Parses (n + 3) (.symbol .not :: .symbol .openParen :: (row ++ [.symbol .closeParen]))
      (.unary .not e) := by
  intro tokens rest hkinds hrest
  obtain ⟨r, group, rfl, hgroup⟩ := exists_head hkinds
  obtain ⟨p, inside, q, nothing, rfl, hinside, hnothing⟩ := exists_group hgroup
  cases List.map_eq_nil_iff.1 hnothing
  have hfinish : endsOperand (front rest) := hrest ▸ endsOperand_finish
  have hoperand := h.group (Nat.le_refl n) hinside hfinish p q
  have hnot : (Level.ofNat (n + 2)).operand
      (⟨.symbol .not, r⟩ :: ⟨.symbol .openParen, p⟩ ::
        (inside ++ ⟨.symbol .closeParen, q⟩ :: rest)) = .ok (.unary .not e, rest) :=
    Except.bind_eq_ok.2 ⟨_, hoperand, rfl⟩
  have hoperators := operators_of_row hnot (moreOperands_done _ _ (by rw [hrest]; rfl))
  have hsequence : sequence (assignment (Level.ofNat (n + 2)).expression _) _ =
      .ok (.unary .not e, rest) :=
    sequence_of_operators _ hoperators hrest
  rw [level_expression]
  simpa using hsequence

/-- Without a nesting nothing is an expression. -/
theorem limit_pos_of_parse (h : SceneTemplates.parse source limit = .ok e) : 0 < limit := by
  obtain ⟨tokens, htokens, -⟩ := parse_eq_ok.1 h
  obtain ⟨row, hrow, -⟩ := exists_reads htokens
  have hparses := parses_of_parse hrow h
  by_contra hle
  have hzero : limit.toNat = 0 := by omega
  rw [hzero] at hparses
  obtain ⟨tokens', -, hkinds⟩ := exists_tokens hrow
  obtain ⟨used, ends, rfl, hused, hends⟩ := List.map_eq_append_iff.1 hkinds
  cases hparses used [] hused rfl

end Parser

namespace Guard

variable {test cond : Text} {limit : Int} {left right : Expr}

/-- With two nestings more, a guard of two tests has the conjunction of their trees. -/
theorem parse_conjoined_of (ht : parse test limit = .ok left) (hc : parse cond limit = .ok right) :
    parse (conjoined test cond) (limit + 2) = .ok (.binary .and left right) := by
  have hpos := Parser.limit_pos_of_parse ht
  obtain ⟨row, hrow, -⟩ := exists_reads (parse_eq_ok.1 ht).choose_spec.1
  obtain ⟨row', hrow', -⟩ := exists_reads (parse_eq_ok.1 hc).choose_spec.1
  have hboth := (Parser.parses_of_parse hrow ht).conjoined (Parser.parses_of_parse hrow' hc)
  exact hboth.parse (reads_conjoined hrow hrow') (by omega)

/-- With three nestings more, the guard that turns a test around has the negation of its tree. -/
theorem parse_negated_of (ht : parse test limit = .ok left) :
    parse (negated test) (limit + 3) = .ok (.unary .not left) := by
  have hpos := Parser.limit_pos_of_parse ht
  obtain ⟨row, hrow, -⟩ := exists_reads (parse_eq_ok.1 ht).choose_spec.1
  exact (Parser.parses_of_parse hrow ht).negated.parse (reads_negated hrow) (by omega)

end Guard

/-- With more nestings a source keeps its tree. -/
theorem parse_mono {source : Text} {limit limit' : Int} {e : Expr} (hle : limit ≤ limit')
    (h : parse source limit = .ok e) : parse source limit' = .ok e := by
  obtain ⟨tokens, htokens, hwhole⟩ := parse_eq_ok.1 h
  exact parse_eq_ok.2 ⟨tokens, htokens, (Parser.whole_within hle tokens).ok hwhole⟩

/-- Under two bounds a source has one tree. -/
theorem parse_unique {source : Text} {limit limit' : Int} {e e' : Expr}
    (h : parse source limit = .ok e) (h' : parse source limit' = .ok e') : e = e' := by
  rcases Int.le_total limit limit' with hle | hle
  · exact Except.ok.inj ((parse_mono hle h).symm.trans h')
  · exact Except.ok.inj (h.symm.trans (parse_mono hle h'))

/-! ## The depth of an evaluation -/

namespace Evaluator

variable {σ : Type}

/-- The evaluator with one more level of depth. -/
def deeper (ev : Evaluator σ) : Evaluator σ :=
  { ev with options := { ev.options with maxDepth := ev.options.maxDepth + 1 } }

/-- One level further down, with one level more, every step is the same. -/
theorem respected_deeper (ev : Evaluator σ) :
    Respected ev ev.deeper (fun depth depth' => depth' = depth + 1) fun _ m m' => m' = m where
  environment := rfl
  below h := congrArg (· + 1) h
  checked {α m m' depth depth'} hd hm := by
    have hdepth : ev.deeper.options.maxDepth < depth' ↔ ev.options.maxDepth < depth := by
      show ev.options.maxDepth + 1 < depth' ↔ _
      omega
    simp only [hdepth, hm]
    rfl
  ofPure _ := rfl
  andThen hm hf := by rw [hm, funext hf]
  fail _ _ := rfl
  member _ _ := rfl
  call _ _ _ := rfl

/-- A tree that lies within the bound is evaluated below a node as it is alone. -/
theorem evaluate_below {ev : Evaluator σ} {e : Expr} {depth : Nat}
    (h : ∀ node ∈ e.nodes (depth + 1), (node.1 : Int) ≤ ev.options.maxDepth) :
    ev.evaluate (depth + 1) e = ev.evaluate depth e := by
  have hagrees : Agrees ev ev.deeper (e.nodes (depth + 1)) :=
    { source := rfl
      nullSafeMember := rfl
      depth := fun node hnode => by
        have hwithin := h node hnode
        show ev.options.maxDepth + 1 < node.1 ↔ _
        omega
      lookup := fun _ _ _ _ => rfl
      callee := fun _ _ _ _ => rfl
      call := fun _ _ _ _ _ _ => rfl }
  have hdeeper : ev.deeper.evaluate (depth + 1) e = ev.evaluate depth e :=
    evaluate_related ev.respected_deeper e rfl
  rw [← hdeeper, evaluate_congr e (depth + 1) hagrees]

end Evaluator

/-! ## Trees -/

namespace Expr

variable {σ : Type} {ev : Evaluator σ} {left right : Expr}

/-- Whether a tree has a value that counts as a truth value. -/
def Holds (ev : Evaluator σ) (e : Expr) (state : σ) (truth : Bool) : Prop :=
  ∃ v, (e.evaluate ev state).1 = .ok v ∧ v.isTruthy = truth

theorem evaluate_below (h : ∀ node ∈ e.nodes 1, (node.1 : Int) ≤ ev.options.maxDepth) (state : σ) :
    (ev.evaluate 1 e).run.run state = e.evaluate ev state := by
  rw [Expr.evaluate, Evaluator.evaluate_below h]

/-- A conjunction asks the second tree only if the first one holds, and after it. -/
theorem evaluate_and (h : (Expr.binary .and left right).Permitted ev.options) (state : σ) :
    (Expr.binary .and left right).evaluate ev state =
      match left.evaluate ev state with
      | (.ok first, between) =>
        if first.isTruthy then right.evaluate ev between else (.ok first, between)
      | failed => failed := by
  have hroot : ¬ ev.options.maxDepth < (0 : Nat) := by
    have := h.depth _ (self_mem_nodes 0 _)
    omega
  have hleft : (ev.evaluate 1 left).run.run state = left.evaluate ev state :=
    evaluate_below (fun node hnode => h.depth node (by simp [nodes, hnode])) state
  have hright : ∀ between, (ev.evaluate 1 right).run.run between = right.evaluate ev between :=
    evaluate_below fun node hnode => h.depth node (by simp [nodes, hnode])
  rw [Expr.evaluate, Evaluator.evaluate.eq_def, if_neg hroot]
  dsimp only
  rw [Step.run_bind, hleft]
  rcases left.evaluate ev state with ⟨e | first, between⟩
  · rfl
  · by_cases htruthy : first.isTruthy = true
    · simp only [if_pos htruthy]
      exact hright between
    · simp only [if_neg htruthy]
      rfl

theorem evaluate_not (h : (Expr.unary .not left).Permitted ev.options) (state : σ) :
    (Expr.unary .not left).evaluate ev state =
      match left.evaluate ev state with
      | (.ok v, after) => (.ok (.bool (!v.isTruthy)), after)
      | failed => failed := by
  have hroot : ¬ ev.options.maxDepth < (0 : Nat) := by
    have := h.depth _ (self_mem_nodes 0 _)
    omega
  have hleft : (ev.evaluate 1 left).run.run state = left.evaluate ev state :=
    evaluate_below (fun node hnode => h.depth node (by simp [nodes, hnode])) state
  rw [Expr.evaluate, Evaluator.evaluate.eq_def, if_neg hroot]
  dsimp only
  rw [Step.run_bind, hleft]
  rcases left.evaluate ev state with ⟨e | v, after⟩ <;> rfl

/-- A conjunction holds exactly if the first tree does, and the second one after it. -/
theorem holds_and (h : (Expr.binary .and left right).Permitted ev.options) (state : σ) :
    (Expr.binary .and left right).Holds ev state true ↔
      left.Holds ev state true ∧ right.Holds ev (left.evaluate ev state).2 true := by
  unfold Holds
  rw [evaluate_and h]
  rcases left.evaluate ev state with ⟨e | first, between⟩
  · simp
  · by_cases htruthy : first.isTruthy = true <;> simp [htruthy]

theorem holds_not (h : (Expr.unary .not left).Permitted ev.options) (state : σ) :
    (Expr.unary .not left).Holds ev state true ↔ left.Holds ev state false := by
  unfold Holds
  rw [evaluate_not h]
  rcases left.evaluate ev state with ⟨e | v, after⟩
  · simp
  · simp [Value.isTruthy]

end Expr

/-! ## Sandboxes -/

namespace Sandbox

variable {σ : Type} {s compiled : Sandbox} {source : Text} {tree : Expr}

/-- A tree that compiling gives is the tree of the source, and is permitted. -/
theorem parse_of_compile (hsound : s.Sound) (h : s.compile source = .ok (tree, compiled)) :
    parse source s.options.maxDepth = .ok tree ∧ tree.Permitted s.options := by
  obtain ⟨hkept, -⟩ | ⟨-, hexamine, -⟩ := compile_eq_ok.1 h
  · exact (hsound source tree hkept).2
  · obtain ⟨-, hparse, hvalidate⟩ := examine_eq_ok.1 hexamine
    exact ⟨hparse, (validate_eq_ok.1 hvalidate).1⟩

theorem evaluate_of_compile (h : s.compile source = .ok (tree, compiled)) (host : Host σ)
    (state : σ) :
    ((s.evaluate host source state).1, (s.evaluate host source state).2.2) =
      tree.evaluate (s.evaluator host source) state := by
  have hreaches := reaches_compile h
  have hev : compiled.evaluator host source = s.evaluator host source := by
    unfold evaluator
    rw [hreaches.environment, hreaches.options]
  simp only [evaluate, h, hev]

/-- An accepted source whose tree is known from some bound on nestings. -/
theorem evaluate_of_parse {limit : Int} (hsound : s.Sound) (h : s.Accepts source)
    (hparse : parse source limit = .ok tree) :
    tree.Permitted s.options ∧ ∀ (host : Host σ) (state : σ),
      ((s.evaluate host source state).1, (s.evaluate host source state).2.2) =
        tree.evaluate (s.evaluator host source) state := by
  obtain ⟨⟨tree', compiled⟩, hcompile⟩ := h
  obtain ⟨hparse', hpermitted⟩ := parse_of_compile hsound hcompile
  obtain rfl := parse_unique hparse hparse'
  exact ⟨hpermitted, evaluate_of_compile hcompile⟩

/-- A guard is evaluated as a first tree and, only if this holds, as a second one after it. -/
structure RunsConjunction (host : Host σ) (s : Sandbox) (guard : Text) (left right : Expr)
    (state : σ) : Prop where
  run : ((s.evaluate host guard state).1, (s.evaluate host guard state).2.2) =
    match left.evaluate (s.evaluator host guard) state with
    | (.ok first, between) =>
      if first.isTruthy then right.evaluate (s.evaluator host guard) between
      else (.ok first, between)
    | failed => failed
  holds_iff : (∃ v, (s.evaluate host guard state).1 = .ok v ∧ v.isTruthy = true) ↔
    left.Holds (s.evaluator host guard) state true ∧
      right.Holds (s.evaluator host guard)
        (left.evaluate (s.evaluator host guard) state).2 true

/-- A guard is evaluated as a tree whose value it turns around. -/
structure RunsNegation (host : Host σ) (s : Sandbox) (guard : Text) (operand : Expr) (state : σ) :
    Prop where
  run : ((s.evaluate host guard state).1, (s.evaluate host guard state).2.2) =
    match operand.evaluate (s.evaluator host guard) state with
    | (.ok v, after) => (.ok (.bool (!v.isTruthy)), after)
    | failed => failed
  holds_iff : (∃ v, (s.evaluate host guard state).1 = .ok v ∧ v.isTruthy = true) ↔
    operand.Holds (s.evaluator host guard) state false

/-- The guards of two tests have the trees that they are put together for, with three nestings more
than the tests need, and a sandbox that accepts them evaluates them so. -/
structure GuardsMean (host : Host σ) (s : Sandbox) (test cond : Text) (limit : Int)
    (left right : Expr) : Prop where
  conjoined : parse (Guard.conjoined test cond) (limit + 3) = .ok (.binary .and left right)
  negated : parse (Guard.negated test) (limit + 3) = .ok (.unary .not left)
  conjunction : ∀ state : σ, s.Accepts (Guard.conjoined test cond) →
    RunsConjunction host s (Guard.conjoined test cond) left right state
  negation : ∀ state : σ, s.Accepts (Guard.negated test) →
    RunsNegation host s (Guard.negated test) left state

/-- Guards mean what they are put together for. With three nestings more than its tests need, the
guard of two tests is parsed to the conjunction of their trees, and the guard that turns one around
to its negation. After any calls and changes of the data, and whatever functions the host has, a
sandbox that accepts the first evaluates it as the first test and, only if this holds, as the second
one after it; one that accepts the second turns the value of the test around. -/
theorem guard_meaning (host : Host σ) (env : Environment) (options : SandboxOptions) (start : σ)
    (steps : List SandboxStep) {test cond : Text} {limit : Int} {left right : Expr}
    (ht : parse test limit = .ok left) (hc : parse cond limit = .ok right) :
    GuardsMean host (afterSteps host (fresh env options) start steps).1 test cond limit left
      right := by
  have hboth : parse (Guard.conjoined test cond) (limit + 3) = .ok (.binary .and left right) :=
    parse_mono (by omega) (Guard.parse_conjoined_of ht hc)
  have hnot := Guard.parse_negated_of ht
  have hsound := (sound_fresh env options).afterSteps host start steps
  refine ⟨hboth, hnot, fun state haccepts => ?_, fun state haccepts => ?_⟩
  · obtain ⟨hpermitted, hevaluate⟩ := evaluate_of_parse hsound haccepts hboth
    have hrun := hevaluate host state
    refine ⟨hrun.trans (Expr.evaluate_and hpermitted state), ?_⟩
    rw [← Expr.holds_and hpermitted state, Expr.Holds, ← hrun]
  · obtain ⟨hpermitted, hevaluate⟩ := evaluate_of_parse hsound haccepts hnot
    have hrun := hevaluate host state
    refine ⟨hrun.trans (Expr.evaluate_not hpermitted state), ?_⟩
    rw [← Expr.holds_not hpermitted state, Expr.Holds, ← hrun]

/-- A choice that would fall apart without its parentheses, in front of a call that counts. The data
are changed so that the choice does not hold, and the call is not made. -/
theorem guard_meaning_choice :
    let host : Host Nat := ⟨fun _ _ n => (.ok (.int n), n + 1)⟩
    let env : Environment := ⟨[("a", .bool true), ("f", .function (.host 0 "count"))], []⟩
    let options : SandboxOptions := ⟨40, 9, 9, true⟩
    let s := (afterSteps host (fresh env options) 7 [.set "a" .null]).1
    let test : Expr := .conditional (.name "a") (.name "f") (.name "a")
    let call : Expr := .call (.name "f") [.name "a"]
    let guard := Guard.conjoined "a ? f : a" "f(a)"
    parse "a ? f : a" 2 = .ok test ∧ parse "f(a)" 2 = .ok call ∧
      parse guard 5 = .ok (.binary .and test call) ∧ s.Accepts guard ∧
      (s.evaluate host guard 7).1 = .ok .null ∧ (s.evaluate host guard 7).2.2 = 7 := by
  intro host env options s test call guard
  have ht : parse "a ? f : a" 2 = .ok test := rfl
  have hc : parse "f(a)" 2 = .ok call := rfl
  have haccepts : s.Accepts guard := ⟨_, rfl⟩
  have hmeaning := guard_meaning host env options 7 [.set "a" .null] ht hc
  have hvalue : test.evaluate (s.evaluator host guard) 7 = (.ok .null, 7) := rfl
  have hfalsy : ¬ Value.null.isTruthy = true := by decide
  have hrun := (hmeaning.conjunction 7 haccepts).run
  rw [hvalue] at hrun
  refine ⟨ht, hc, hmeaning.conjoined, haccepts, ?_⟩
  simpa only [s, guard, if_neg hfalsy, Prod.mk.injEq] using hrun

end Sandbox

end SceneTemplates
