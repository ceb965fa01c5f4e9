import SceneTemplates.Proofs.FixedData
import SceneTemplates.Proofs.FunctionResults

/-!
# Data stay data

Evaluating a source over data gives data again, if the functions of the host do: operators make
numbers, texts and truth values, a member of data is data, and an expression has no way to write an
expression into its value.
-/
namespace SceneTemplates

open Step (ReturnsOnly)

open Value (IsData)

namespace Value

variable {v : Value} {entries : Entries Value} {key : Text}

theorem IsData.collapse (h : v.IsData) : v.collapse.IsData := by
  cases v with
  | number n => exact .number _
  | _ => exact h

theorem isData_of_get? (h : ∀ entry ∈ entries, entry.2.IsData)
    (hv : Entries.get? key entries = some v) : v.IsData :=
  h _ (Entries.mem_of_get? hv)

theorem isData_getD (h : ∀ entry ∈ entries, entry.2.IsData) :
    ((Entries.get? key entries).getD .undefined).IsData := by
  cases hv : Entries.get? key entries with
  | none => exact .undefined
  | some v => exact isData_of_get? h hv

/-! ## Operators -/

theorem property_isData (h : v.IsData) (name : Text) : (v.property name).IsData := by
  have hsize : ∀ n : Nat, (if name = "length" then Value.int n else .undefined).IsData := by
    intro n
    split
    · exact .number _
    · exact .undefined
  cases h with
  | text t => exact hsize _
  | list h => exact hsize _
  | tuple h => exact hsize _
  | mapping h => exact isData_getD h
  | object h =>
    unfold property
    dsimp only
    split
    · exact .undefined
    · exact isData_getD h
  | _ => exact .undefined

theorem arithmetic_isNumeric {f : Number → Number → Except ArithmeticFault Number} {a b : Value}
    (h : arithmetic f a b = .ok v) : v.IsNumeric := by
  unfold arithmetic at h
  obtain ⟨x, -, h⟩ := Except.bind_eq_ok.1 h
  obtain ⟨y, -, h⟩ := Except.bind_eq_ok.1 h
  split at h
  · cases h
    exact .number _
  · cases h

theorem map_arithmetic_isData {f : Number → Number → Except ArithmeticFault Number} {a b : Value}
    (h : (arithmetic f a b).map Value.collapse = .ok v) : v.IsData := by
  obtain ⟨w, hw, rfl⟩ := Except.map_eq_ok.1 h
  exact (arithmetic_isNumeric hw).isData.collapse

theorem plus_isData {a b : Value} (h : plus a b = .ok v) : v.IsData := by
  unfold plus at h
  split at h
  · cases h
    exact .text _
  · cases h
    exact .text _
  · exact map_arithmetic_isData h

theorem relation_isData {onTexts : Text → Text → Bool} {onNumbers : Number → Number → Bool}
    {a b : Value} (h : relation onTexts onNumbers a b = .ok v) : v.IsData := by
  unfold relation at h
  split at h
  · cases h
    exact .bool _
  · obtain ⟨x, -, h⟩ := Except.bind_eq_ok.1 h
    obtain ⟨y, -, h⟩ := Except.bind_eq_ok.1 h
    cases h
    exact .bool _

/-- An operator that needs both operands makes a number, a text or a truth value of them. -/
theorem operate_isData {op : BinaryOperator} {a b : Value} (h : operate op a b = .ok v) :
    v.IsData := by
  cases op with
  | plus => exact plus_isData h
  | minus | times => exact map_arithmetic_isData h
  | divide | modulo | power => exact (arithmetic_isNumeric h).isData
  | equal | notEqual | strictEqual | strictNotEqual =>
    cases h
    exact .bool _
  | less | lessEqual | greater | greaterEqual => exact relation_isData h
  | _ => cases h

theorem operateUnary_isData {op : UnaryOperator} {a : Value} (h : a.operateUnary op = .ok v) :
    v.IsData := by
  cases op with
  | not =>
    cases h
    exact .bool _
  | plus | minus =>
    obtain ⟨n, -, hn⟩ := Except.bind_eq_ok.1 h
    cases hn
    exact .number _
  | _ => cases h

end Value

/-! ## Evaluation -/

/-- The names of an environment stand for data. -/
structure Environment.IsData (env : Environment) : Prop where
  data : ∀ entry ∈ env.data, entry.2.IsData
  globals : ∀ entry ∈ env.globals, entry.2.IsData

/-- The functions of a host return data if their arguments are data. -/
def Host.ReturnsData {σ : Type} (host : Host σ) : Prop :=
  ∀ name args state v, (∀ w ∈ args, w.IsData) → (host.call name args state).1 = .ok v → v.IsData

theorem globalEnvironment_isData : ∀ entry ∈ globalEnvironment, entry.2.IsData := by
  unfold globalEnvironment
  rw [List.forall_mem_append, List.forall_mem_map, List.forall_mem_map]
  exact ⟨fun _ _ => .function _, fun _ _ => .number _⟩

theorem Environment.IsData.lookup {env : Environment} (h : env.IsData) (name : Text) :
    (env.lookup name).IsData := by
  unfold Environment.lookup
  split
  · next hv => exact Value.isData_of_get? h.data hv
  · exact Value.isData_getD h.globals

namespace Evaluator

variable {σ : Type} {ev : Evaluator σ}

theorem fail_returnsOnly {α : Type} {P : α → Prop} (cause : ExpressionCause) :
    ReturnsOnly P (ev.fail cause : Evaluation σ α) :=
  ReturnsOnly.ofThrow _

theorem result_returnsOnly {α : Type} {P : α → Prop} {outcome : Except ExpressionCause α}
    (h : ∀ a, outcome = .ok a → P a) : ReturnsOnly P (ev.result outcome) := by
  cases outcome with
  | ok a => exact .ofPure (h a rfl)
  | error cause => exact fail_returnsOnly cause

theorem member_isData {v : Value} (h : v.IsData) (property : Text) :
    ReturnsOnly IsData (ev.member v property) := by
  unfold member
  refine .ite (fail_returnsOnly _) (.ite ?_ (.ofPure (Value.property_isData h property)))
  exact .ite (.ofPure .undefined) (fail_returnsOnly _)

theorem call_isData (hhost : ev.host.ReturnsData) (name : Text) (f : Function)
    {args : List Value} (h : ∀ w ∈ args, w.IsData) : ReturnsOnly IsData (ev.call name f args) := by
  cases f with
  | builtin g =>
    unfold call
    dsimp only
    split
    · next v hv => exact .ofPure (GlobalFunction.apply_isData h hv).collapse
    · exact fail_returnsOnly _
    · exact fail_returnsOnly _
  | host id hostName =>
    have hcall : ReturnsOnly (fun outcome => ∀ v, outcome = .ok v → v.IsData)
        (liftM (modifyGet (ev.host.call hostName args) : StateM σ _) : Evaluation σ _) := by
      rintro state _ ⟨⟩ v hv
      exact hhost hostName args state v h hv
    unfold call
    refine hcall.andThen fun outcome houtcome => ?_
    split
    · next v => exact .ofPure (houtcome v rfl).collapse
    · exact fail_returnsOnly _
    · exact ReturnsOnly.ofThrow _

theorem name_isData (henv : ev.environment.IsData) (depth : Nat) (t : Text) :
    ReturnsOnly IsData (ev.name depth t) := by
  unfold name
  exact .ite (fail_returnsOnly _) (.ofPure (henv.lookup t))

mutual

/-- A tree evaluates to data over data. -/
theorem evaluate_isData (henv : ev.environment.IsData) (hhost : ev.host.ReturnsData) (e : Expr)
    (depth : Nat) : ReturnsOnly IsData (ev.evaluate depth e) := by
  rw [evaluate.eq_def]
  refine .ite (fail_returnsOnly _) ?_
  match e with
  | .constant c =>
    cases c with
    | null => exact .ofPure .null
    | bool b => exact .ofPure (.bool b)
    | number n => exact .ofPure (.number n)
    | text t => exact .ofPure (.text t)
  | .name t => exact .ofPure (henv.lookup t)
  | .unary op operand =>
    refine (evaluate_isData henv hhost operand _).andThen fun v _ => ?_
    exact result_returnsOnly fun w hw => Value.operateUnary_isData hw
  | .binary op left right =>
    have hright := evaluate_isData henv hhost right (depth + 1)
    refine (evaluate_isData henv hhost left _).andThen fun a ha => ?_
    split
    · exact .ite hright (.ofPure ha)
    · exact .ite (.ofPure ha) hright
    · exact .ite hright (.ofPure ha)
    · refine hright.andThen fun b _ => ?_
      exact result_returnsOnly fun w hw => Value.operate_isData hw
  | .conditional test consequent alternate =>
    refine (evaluate_isData henv hhost test _).andThen fun t _ => ?_
    exact .ite (evaluate_isData henv hhost consequent _) (evaluate_isData henv hhost alternate _)
  | .member object property =>
    exact (evaluate_isData henv hhost object _).andThen fun v hv => member_isData hv property
  | .call callee args =>
    dsimp only
    split
    · split
      · exact (evaluateAll_isData henv hhost args _).andThen fun values hvalues =>
          call_isData hhost _ _ hvalues
      · exact fail_returnsOnly _
    · exact fail_returnsOnly _
  | .array elements =>
    exact (evaluateAll_isData henv hhost elements _).andThen fun values hvalues =>
      .ofPure (.list hvalues)
  | .object properties =>
    refine (evaluateProperties_isData henv hhost properties _ (List.forall_mem_nil _)).andThen ?_
    exact fun entries hentries => .ofPure (.mapping hentries)
  | .this | .index _ _ | .new _ _ | .assign _ _ _ | .update _ _ _ | .sequence _ | .spread _ =>
    exact fail_returnsOnly _

theorem evaluateAll_isData (henv : ev.environment.IsData) (hhost : ev.host.ReturnsData)
    (es : List Expr) (depth : Nat) :
    ReturnsOnly (fun values => ∀ v ∈ values, v.IsData) (ev.evaluateAll depth es) := by
  rw [evaluateAll.eq_def]
  match es with
  | [] => exact .ofPure (List.forall_mem_nil _)
  | e :: rest =>
    refine (evaluate_isData henv hhost e depth).andThen fun v hv => ?_
    exact (evaluateAll_isData henv hhost rest depth).andThen fun values hvalues =>
      .ofPure (List.forall_mem_cons.2 ⟨hv, hvalues⟩)

theorem evaluateProperties_isData (henv : ev.environment.IsData) (hhost : ev.host.ReturnsData)
    (ps : List Property) (depth : Nat) {entries : Entries Value}
    (h : ∀ entry ∈ entries, entry.2.IsData) :
    ReturnsOnly (fun entries => ∀ entry ∈ entries, entry.2.IsData)
      (ev.evaluateProperties depth entries ps) := by
  match ps with
  | [] =>
    rw [evaluateProperties]
    exact .ofPure h
  | .keyed key value :: rest =>
    rw [evaluateProperties]
    have hkey : ReturnsOnly (fun _ => True) (ev.evaluateKey depth key) := fun _ _ _ => trivial
    refine hkey.andThen fun k _ => (evaluate_isData henv hhost value depth).andThen fun v hv => ?_
    exact evaluateProperties_isData henv hhost rest depth (Entries.forall_mem_put h hv)
  | .shorthand t :: rest =>
    rw [evaluateProperties]
    refine (name_isData henv depth t).andThen fun v hv => ?_
    exact evaluateProperties_isData henv hhost rest depth (Entries.forall_mem_put h hv)
  | .spread _ :: _ =>
    rw [evaluateProperties]
    exact fail_returnsOnly _

end

end Evaluator

/-- A source evaluates to data over data, whatever the sandbox keeps. -/
theorem Sandbox.evaluate_isData {σ : Type} {host : Host σ} (hhost : host.ReturnsData) {s : Sandbox}
    (henv : s.environment.IsData) {source : Text} {state : σ} {v : Value}
    (h : (s.evaluate host source state).1 = .ok v) : v.IsData := by
  unfold evaluate at h
  cases hc : s.compile source with
  | error e =>
    rw [hc] at h
    cases h
  | ok compiled =>
    obtain ⟨tree, after⟩ := compiled
    rw [hc] at h
    have hdata : (after.evaluator host source).environment.IsData := by
      show after.environment.IsData
      rw [(reaches_compile hc).environment]
      exact henv
    exact Evaluator.evaluate_isData hdata hhost tree 0 state v h

end SceneTemplates
