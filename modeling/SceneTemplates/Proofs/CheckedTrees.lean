import SceneTemplates.Expression.Validation
import SceneTemplates.Proofs.Steps

/-!
# Trees that pass validation

What the checks of a node say about it and about the trees below it, one statement for each
construct. Later proofs use these and do not open the check itself.
-/
namespace SceneTemplates.Validation

variable {env : Environment} {options : SandboxOptions} {depth count last : Nat}

/-- A node is counted if it lies within both bounds. -/
@[simp] theorem enter_eq_ok :
    enter options depth count = .ok last ↔
      ¬ options.maxDepth < depth ∧ ¬ options.maxNodes < (count + 1 : Nat) ∧ count + 1 = last := by
  unfold enter
  by_cases hd : options.maxDepth < depth
  · rw [if_pos hd]
    constructor
    · intro h
      cases h
    · intro h
      exact absurd hd h.1
  · rw [if_neg hd]
    by_cases hn : options.maxNodes < (count + 1 : Nat)
    · rw [if_pos hn]
      constructor
      · intro h
        cases h
      · intro h
        exact absurd hn h.2.1
    · rw [if_neg hn]
      constructor
      · intro h
        cases h
        exact ⟨hd, hn, rfl⟩
      · rintro ⟨-, -, rfl⟩
        rfl

section

attribute [local simp] visit visitAll visitProperties

@[simp] theorem visit_unary_eq_ok {op : UnaryOperator} {operand : Expr} :
    visit env options depth count (.unary op operand) = .ok last ↔
      ∃ c, enter options depth count = .ok c ∧ op.isAllowed = true ∧
        visit env options (depth + 1) c operand = .ok last := by
  rw [visit, Except.bind_eq_ok]
  cases op.isAllowed <;> simp

@[simp] theorem visit_binary_eq_ok {op : BinaryOperator} {left right : Expr} :
    visit env options depth count (.binary op left right) = .ok last ↔
      ∃ c, enter options depth count = .ok c ∧ op.isAllowed = true ∧
        ∃ d, visit env options (depth + 1) c left = .ok d ∧
          visit env options (depth + 1) d right = .ok last := by
  rw [visit, Except.bind_eq_ok]
  cases op.isAllowed <;> simp [Except.bind_eq_ok]

@[simp] theorem visit_conditional_eq_ok {test consequent alternate : Expr} :
    visit env options depth count (.conditional test consequent alternate) = .ok last ↔
      ∃ c, enter options depth count = .ok c ∧
        ∃ d, visit env options (depth + 1) c test = .ok d ∧
          ∃ f, visit env options (depth + 1) d consequent = .ok f ∧
            visit env options (depth + 1) f alternate = .ok last := by
  simp [Except.bind_eq_ok]

@[simp] theorem visit_member_eq_ok {object : Expr} {property : Text} :
    visit env options depth count (.member object property) = .ok last ↔
      ∃ c, enter options depth count = .ok c ∧ forbiddenProperties.contains property = false ∧
        visit env options (depth + 1) c object = .ok last := by
  rw [visit, Except.bind_eq_ok]
  cases forbiddenProperties.contains property <;> simp

/-- A call that passes names a function. -/
@[simp] theorem visit_call_eq_ok {callee : Expr} {args : List Expr} :
    visit env options depth count (.call callee args) = .ok last ↔
      ∃ c, enter options depth count = .ok c ∧
        ∃ name, callee = .name name ∧ env.canCall name = true ∧
          visitAll env options (depth + 1) c args = .ok last := by
  rw [visit, Except.bind_eq_ok]
  cases callee with
  | name t => cases h : env.canCall t <;> simp [h]
  | _ => simp

@[simp] theorem visit_array_eq_ok {elements : List Expr} :
    visit env options depth count (.array elements) = .ok last ↔
      ∃ c, enter options depth count = .ok c ∧
        visitAll env options (depth + 1) c elements = .ok last := by
  rw [visit, Except.bind_eq_ok]

@[simp] theorem visit_object_eq_ok {properties : List Property} :
    visit env options depth count (.object properties) = .ok last ↔
      ∃ c, enter options depth count = .ok c ∧
        visitProperties env options (depth + 1) c properties = .ok last := by
  rw [visit, Except.bind_eq_ok]

@[simp] theorem visitAll_cons_eq_ok {e : Expr} {rest : List Expr} :
    visitAll env options depth count (e :: rest) = .ok last ↔
      ∃ c, visit env options depth count e = .ok c ∧
        visitAll env options depth c rest = .ok last := by
  rw [visitAll, Except.bind_eq_ok]

@[simp]
theorem visitProperties_keyed_eq_ok {key : PropertyKey} {value : Expr} {rest : List Property} :
    visitProperties env options depth count (.keyed key value :: rest) = .ok last ↔
      ∃ c, visitKey env options depth count key = .ok c ∧
        ∃ d, visit env options depth c value = .ok d ∧
          visitProperties env options depth d rest = .ok last := by
  simp [Except.bind_eq_ok]

@[simp] theorem visitProperties_shorthand_eq_ok {name : Text} {rest : List Property} :
    visitProperties env options depth count (.shorthand name :: rest) = .ok last ↔
      ∃ c, enter options depth count = .ok c ∧
        visitProperties env options depth c rest = .ok last := by
  rw [visitProperties, Except.bind_eq_ok]

theorem visitProperties_spread_ne_ok {argument : Expr} {rest : List Property} :
    visitProperties env options depth count (.spread argument :: rest) ≠ .ok last := by
  rw [visitProperties, Ne, Except.bind_eq_ok]
  rintro ⟨c, -, h⟩
  cases h

/-- Every tree that passes lies within the depth at its root. -/
theorem depth_of_visit {e : Expr} (h : visit env options depth count e = .ok last) :
    ¬ options.maxDepth < depth := by
  intro hd
  have he : enter options depth count = .error .tooDeep := by
    unfold enter
    rw [if_pos hd]
  cases e <;> simp [he, Except.bind_eq_ok] at h

end

/-! ## Less depth, fewer nodes -/

theorem enter_mono {depth' count' : Nat} (h : enter options depth count = .ok last)
    (hd : depth' ≤ depth) (hc : count' ≤ count) :
    enter options depth' count' = .ok (count' + 1) ∧ count' + 1 ≤ last := by
  obtain ⟨hdepth, hcount, rfl⟩ := enter_eq_ok.1 h
  refine ⟨enter_eq_ok.2 ⟨?_, ?_, rfl⟩, by omega⟩
  · intro hlt
    omega
  · intro hlt
    omega

mutual

/-- A tree that passes below others passes alone: nearer to the root and behind fewer nodes. -/
theorem visit_mono (e : Expr) {depth count last depth' count' : Nat}
    (h : visit env options depth count e = .ok last) (hd : depth' ≤ depth)
    (hc : count' ≤ count) :
    ∃ last', visit env options depth' count' e = .ok last' ∧ last' ≤ last := by
  have hd' : depth' + 1 ≤ depth + 1 := by omega
  match e with
  | .constant _ | .name _ =>
    rw [visit] at h ⊢
    exact ⟨_, enter_mono h hd hc⟩
  | .unary op operand =>
    obtain ⟨c, hc', hop, ho⟩ := visit_unary_eq_ok.1 h
    obtain ⟨henter, hle⟩ := enter_mono hc' hd hc
    obtain ⟨l, hl, hll⟩ := visit_mono operand ho hd' hle
    exact ⟨l, visit_unary_eq_ok.2 ⟨_, henter, hop, hl⟩, hll⟩
  | .binary op left right =>
    obtain ⟨c, hc', hop, d, hl, hr⟩ := visit_binary_eq_ok.1 h
    obtain ⟨henter, hle⟩ := enter_mono hc' hd hc
    obtain ⟨l, hl', hll⟩ := visit_mono left hl hd' hle
    obtain ⟨r, hr', hrr⟩ := visit_mono right hr hd' hll
    exact ⟨r, visit_binary_eq_ok.2 ⟨_, henter, hop, l, hl', hr'⟩, hrr⟩
  | .conditional test consequent alternate =>
    obtain ⟨c, hc', d, ht, f, hco, ha⟩ := visit_conditional_eq_ok.1 h
    obtain ⟨henter, hle⟩ := enter_mono hc' hd hc
    obtain ⟨t, ht', htt⟩ := visit_mono test ht hd' hle
    obtain ⟨g, hg', hgg⟩ := visit_mono consequent hco hd' htt
    obtain ⟨a, ha', haa⟩ := visit_mono alternate ha hd' hgg
    exact ⟨a, visit_conditional_eq_ok.2 ⟨_, henter, t, ht', g, hg', ha'⟩, haa⟩
  | .member object property =>
    obtain ⟨c, hc', hp, ho⟩ := visit_member_eq_ok.1 h
    obtain ⟨henter, hle⟩ := enter_mono hc' hd hc
    obtain ⟨l, hl, hll⟩ := visit_mono object ho hd' hle
    exact ⟨l, visit_member_eq_ok.2 ⟨_, henter, hp, hl⟩, hll⟩
  | .call callee args =>
    obtain ⟨c, hc', name, rfl, hname, hargs⟩ := visit_call_eq_ok.1 h
    obtain ⟨henter, hle⟩ := enter_mono hc' hd hc
    obtain ⟨l, hl, hll⟩ := visitAll_mono args hargs hd' hle
    exact ⟨l, visit_call_eq_ok.2 ⟨_, henter, name, rfl, hname, hl⟩, hll⟩
  | .array elements =>
    obtain ⟨c, hc', hes⟩ := visit_array_eq_ok.1 h
    obtain ⟨henter, hle⟩ := enter_mono hc' hd hc
    obtain ⟨l, hl, hll⟩ := visitAll_mono elements hes hd' hle
    exact ⟨l, visit_array_eq_ok.2 ⟨_, henter, hl⟩, hll⟩
  | .object properties =>
    obtain ⟨c, hc', hps⟩ := visit_object_eq_ok.1 h
    obtain ⟨henter, hle⟩ := enter_mono hc' hd hc
    obtain ⟨l, hl, hll⟩ := visitProperties_mono properties hps hd' hle
    exact ⟨l, visit_object_eq_ok.2 ⟨_, henter, hl⟩, hll⟩
  | .this | .index _ _ | .new _ _ | .assign _ _ _ | .update _ _ _ | .sequence _ | .spread _ =>
    rw [visit] at h
    obtain ⟨c, -, h⟩ := Except.bind_eq_ok.1 h
    cases h

theorem visitAll_mono (es : List Expr) {depth count last depth' count' : Nat}
    (h : visitAll env options depth count es = .ok last) (hd : depth' ≤ depth)
    (hc : count' ≤ count) :
    ∃ last', visitAll env options depth' count' es = .ok last' ∧ last' ≤ last := by
  match es with
  | [] =>
    rw [visitAll] at h ⊢
    cases h
    exact ⟨_, rfl, hc⟩
  | e :: rest =>
    obtain ⟨c, he, hrest⟩ := visitAll_cons_eq_ok.1 h
    obtain ⟨l, hl, hll⟩ := visit_mono e he hd hc
    obtain ⟨r, hr, hrr⟩ := visitAll_mono rest hrest hd hll
    exact ⟨r, visitAll_cons_eq_ok.2 ⟨l, hl, hr⟩, hrr⟩

theorem visitProperties_mono (ps : List Property) {depth count last depth' count' : Nat}
    (h : visitProperties env options depth count ps = .ok last) (hd : depth' ≤ depth)
    (hc : count' ≤ count) :
    ∃ last', visitProperties env options depth' count' ps = .ok last' ∧ last' ≤ last := by
  match ps with
  | [] =>
    rw [visitProperties] at h ⊢
    cases h
    exact ⟨_, rfl, hc⟩
  | .keyed key value :: rest =>
    obtain ⟨c, hk, d, hv, hrest⟩ := visitProperties_keyed_eq_ok.1 h
    obtain ⟨k, hk', hkk⟩ := visitKey_mono key hk hd hc
    obtain ⟨v, hv', hvv⟩ := visit_mono value hv hd hkk
    obtain ⟨r, hr, hrr⟩ := visitProperties_mono rest hrest hd hvv
    exact ⟨r, visitProperties_keyed_eq_ok.2 ⟨k, hk', v, hv', hr⟩, hrr⟩
  | .shorthand name :: rest =>
    obtain ⟨c, hc', hrest⟩ := visitProperties_shorthand_eq_ok.1 h
    obtain ⟨henter, hle⟩ := enter_mono hc' hd hc
    obtain ⟨r, hr, hrr⟩ := visitProperties_mono rest hrest hd hle
    exact ⟨r, visitProperties_shorthand_eq_ok.2 ⟨_, henter, hr⟩, hrr⟩
  | .spread _ :: _ => exact absurd h visitProperties_spread_ne_ok

theorem visitKey_mono (key : PropertyKey) {depth count last depth' count' : Nat}
    (h : visitKey env options depth count key = .ok last) (hd : depth' ≤ depth)
    (hc : count' ≤ count) :
    ∃ last', visitKey env options depth' count' key = .ok last' ∧ last' ≤ last := by
  match key with
  | .name _ | .constant _ =>
    rw [visitKey] at h ⊢
    · cases h
      exact ⟨_, rfl, hc⟩
    all_goals intro e he; cases he
  | .computed e =>
    rw [visitKey] at h ⊢
    exact visit_mono e h hd hc

end

end SceneTemplates.Validation
