import SceneTemplates.Proofs.LocalRuns

/-!
# Locality of the parser

Every parser of expressions is local and closes as many parentheses as it opens. So a row of tokens
that was parsed inside parentheses is parsed to the same tree alone.
-/
namespace SceneTemplates.Parser

open TokenKind (openAfter)

variable {α : Type} {n : Nat}

/-! ## Loops -/

@[simp] theorem moreItems_done (item : Parser α) (fuel : Nat) {tokens : List Token}
    (h : startsWith .comma tokens = false) : moreItems item fuel tokens = .ok ([], tokens) := by
  cases fuel with
  | zero => rfl
  | succ fuel =>
    rw [moreItems, h]
    rfl

@[simp]
theorem moreClosedItems_done (item : Parser α) (close : Symbol) (fuel : Nat) {tokens : List Token}
    (h : startsWith .comma tokens = false) :
    moreClosedItems item close fuel tokens = .ok ([], tokens) := by
  cases fuel with
  | zero => rfl
  | succ fuel =>
    rw [moreClosedItems, h]
    rfl

@[simp] theorem members_done (fuel : Nat) (e : Expr) {tokens : List Token}
    (h : startsWith .dot tokens = false) : members fuel e tokens = .ok (e, tokens) := by
  cases fuel with
  | zero => rfl
  | succ fuel =>
    rw [members, h]
    rfl

theorem suffixes_done (expression : Parser Expr) (fuel : Nat) (e : Expr) {tokens : List Token}
    (hdot : startsWith .dot tokens = false) (hbracket : startsWith .openBracket tokens = false)
    (hparen : startsWith .openParen tokens = false) :
    suffixes expression fuel e tokens = .ok (e, tokens) := by
  cases fuel with
  | zero => rfl
  | succ fuel =>
    rw [suffixes, hdot, hbracket, hparen]
    rfl

@[simp] theorem moreOperands_done (operand : Parser Expr) (fuel : Nat) {tokens : List Token}
    (h : (front tokens).binary? = none) : moreOperands operand fuel tokens = .ok ([], tokens) := by
  cases fuel with
  | zero => rfl
  | succ fuel =>
    cases tokens with
    | nil => rfl
    | cons token rest =>
      have hk : token.kind.binary? = none := by
        rw [front_cons] at h
        by_cases hc : token.kind = .symbol .closeParen
        · rw [hc]
          rfl
        · rw [if_neg hc] at h
          exact h
      rw [moreOperands, hk]

/-- What `moreClosedItems` does behind a comma. -/
def afterComma (item : Parser α) (close : Symbol) (fuel : Nat) : Parser (List α) := fun tokens =>
  if startsWith close tokens then .ok ([], tokens)
  else do
    let (first, rest) ← item tokens
    let (others, rest) ← moreClosedItems item close fuel rest
    return (first :: others, rest)

@[simp]
theorem afterComma_closed {item : Parser α} {close : Symbol} {fuel : Nat} {tokens : List Token}
    (h : startsWith close tokens = true) : afterComma item close fuel tokens = .ok ([], tokens) :=
  if_pos h

@[simp]
theorem afterComma_open {item : Parser α} {close : Symbol} {fuel : Nat} {tokens : List Token}
    (h : startsWith close tokens = false) :
    afterComma item close fuel tokens = (do
      let (first, rest) ← item tokens
      let (others, rest) ← moreClosedItems item close fuel rest
      return (first :: others, rest)) := by
  unfold afterComma
  rw [h]
  rfl

section Loops

variable {item : Parser α} (hitem : IsLocal item)

include hitem

theorem moreItems_local : ∀ n, LocalUpTo n 0 0 (moreItems item) := by
  intro n
  induction n using Nat.strongRecOn with
  | ind n ih =>
    intro fuel tokens x rest hn hlen h
    by_cases hs : startsWith .comma tokens = true
    · obtain ⟨position, tokens, rfl⟩ := exists_of_startsWith hs
      rw [List.length_cons] at hlen
      obtain ⟨fuel, rfl⟩ : ∃ m, fuel = m + 1 := ⟨fuel - 1, by omega⟩
      have hround := (hitem fuel).andThen fun first =>
        (ih fuel (by omega)).andThen fun others => LocalUpTo.ofPure (first :: others)
      exact Taken.cons (fun _ _ _ => rfl) rfl
        (hround fuel tokens x rest (Nat.le_refl _) (by omega) h) position
    · have hstart : startsWith .comma tokens = false := by simpa using hs
      rw [moreItems_done item fuel hstart] at h
      refine Taken.otherwise (· ≠ .symbol .comma) ?_ (front_of_startsWith hstart)
        (LocalUpTo.ofPure [] fuel tokens x rest hn hlen h)
      intro fuel tokens _ hfront
      exact moreItems_done item fuel (startsWith_of_front hfront (by decide))

theorem afterComma_local {close : Symbol} (hclose : close ≠ .closeParen)
    (hmore : LocalUpTo n 0 0 (moreClosedItems item close)) :
    LocalUpTo n 0 0 (afterComma item close) := by
  intro fuel tokens x rest hn hlen h
  by_cases hc : startsWith close tokens = true
  · rw [afterComma_closed hc] at h
    refine Taken.otherwise (· = .symbol close) ?_ ?_
      (LocalUpTo.ofPure [] fuel tokens x rest hn hlen h)
    · intro fuel tokens _ hfront
      exact afterComma_closed (startsWith_of_front_eq hfront)
    · exact front_eq_of_startsWith hc hclose
  · have hopen : startsWith close tokens = false := by simpa using hc
    rw [afterComma_open hopen] at h
    have hround := (hitem n).andThen fun first =>
      hmore.andThen fun others => LocalUpTo.ofPure (first :: others)
    refine Taken.otherwise (· ≠ .symbol close) ?_ (front_of_startsWith hopen)
      (hround fuel tokens x rest hn hlen h)
    intro fuel tokens _ hfront
    exact afterComma_open (startsWith_of_front hfront hclose)

theorem moreClosedItems_local {close : Symbol} (hclose : close ≠ .closeParen) :
    ∀ n, LocalUpTo n 0 0 (moreClosedItems item close) := by
  intro n
  induction n using Nat.strongRecOn with
  | ind n ih =>
    intro fuel tokens x rest hn hlen h
    by_cases hs : startsWith .comma tokens = true
    · obtain ⟨position, tokens, rfl⟩ := exists_of_startsWith hs
      rw [List.length_cons] at hlen
      obtain ⟨fuel, rfl⟩ : ∃ m, fuel = m + 1 := ⟨fuel - 1, by omega⟩
      have hround := afterComma_local hitem hclose (ih fuel (by omega))
      exact Taken.cons (fun _ _ _ => rfl) rfl
        (hround fuel tokens x rest (Nat.le_refl _) (by omega) h) position
    · have hstart : startsWith .comma tokens = false := by simpa using hs
      rw [moreClosedItems_done item close fuel hstart] at h
      refine Taken.otherwise (· ≠ .symbol .comma) ?_ (front_of_startsWith hstart)
        (LocalUpTo.ofPure [] fuel tokens x rest hn hlen h)
      intro fuel tokens _ hfront
      exact moreClosedItems_done item close fuel (startsWith_of_front hfront (by decide))

end Loops

/-! ## Expressions -/

/-- The parentheses that a symbol closes. -/
def closing (s : Symbol) : Nat := if s = .closeParen then 1 else 0

theorem openAfter_closing {s : Symbol} (h : s ≠ .openParen) :
    openAfter (closing s) [.symbol s] = some 0 := by
  by_cases hc : s = .closeParen
  · subst hc
    rfl
  · have hplain : (TokenKind.symbol s).isPlain :=
      ⟨fun he => h (TokenKind.symbol.inj he), fun he => hc (TokenKind.symbol.inj he),
        fun he => by cases he⟩
    rw [closing, if_neg hc, TokenKind.openAfter_plain hplain]
    rfl

@[simp] theorem closedItems_closed {item : Parser α} {close : Symbol} {what : Expectation}
    {trailing : Bool} {tokens : List Token} (h : startsWith close tokens = true) :
    closedItems item close what trailing tokens = .ok ([], tokens.tail) :=
  if_pos h

/-- The items behind the first one, with or without a comma before the closing symbol. -/
def otherItems (item : Parser α) (close : Symbol) (trailing : Bool) : Parser (List α) :=
  fun tokens =>
    if trailing then moreClosedItems item close tokens.length tokens
    else moreItems item tokens.length tokens

@[simp] theorem closedItems_open {item : Parser α} {close : Symbol} {what : Expectation}
    {trailing : Bool} {tokens : List Token} (h : startsWith close tokens = false) :
    closedItems item close what trailing tokens = (do
      let (first, rest) ← item tokens
      let (others, rest) ← otherItems item close trailing rest
      let rest ← expect close what rest
      return (first :: others, rest)) := by
  unfold closedItems
  rw [h]
  cases trailing <;> rfl

section Expressions

variable {expression group inner : Parser Expr}

theorem closedItems_local {item : Parser α} (hitem : IsLocal item) {close : Symbol}
    (what : Expectation) {trailing : Bool} (hopen : close ≠ .openParen)
    (hclose : trailing = true → close ≠ .closeParen) :
    ∀ n, LocalUpTo n (closing close) 0 fun _ => closedItems item close what trailing := by
  intro n fuel tokens x rest hn hlen h
  dsimp only at h
  by_cases hs : startsWith close tokens = true
  · rw [closedItems_closed hs] at h
    obtain ⟨position, tokens, rfl⟩ := exists_of_startsWith hs
    exact Taken.cons (fun _ _ _ => closedItems_closed (startsWith_self ..))
      (openAfter_closing hopen)
      (LocalUpTo.ofPure [] _ tokens x rest (Nat.le_refl _) (Nat.le_refl _) h) position
  · have hstart : startsWith close tokens = false := by simpa using hs
    rw [closedItems_open hstart] at h
    have hmore : LocalUpTo n 0 0 fun _ => otherItems item close trailing := by
      cases trailing with
      | true => exact LocalUpTo.ofLoop (moreClosedItems_local hitem (hclose rfl))
      | false => exact LocalUpTo.ofLoop (moreItems_local hitem)
    have hround := ((hitem n).around (closing close)).andThen fun first =>
      (hmore.around (closing close)).andThen fun others =>
        LocalUpTo.expecting what (by rw [Nat.zero_add]; exact openAfter_closing hopen)
          (LocalUpTo.ofPure (first :: others))
    rw [Nat.zero_add] at hround
    have hs : close ≠ .closeParen ∨ closing close ≠ 0 := by
      by_cases hc : close = .closeParen
      · subst hc
        exact .inr (by decide)
      · exact .inl hc
    exact Taken.unlessCloses hs (fun _ _ => closedItems_open) hstart
      (hround fuel tokens x rest hn hlen h)

variable (hexpression : IsLocal expression)

include hexpression

theorem sequence_local : IsLocal (sequence expression) := by
  intro n
  exact (hexpression n).andThen fun first =>
    (LocalUpTo.ofLoop (moreItems_local hexpression)).andThen fun others =>
      LocalUpTo.ofPure (if others.isEmpty then first else .sequence (first :: others))

theorem element_local : IsLocal (element expression) := by
  intro n
  exact LocalUpTo.branchTail (by decide) rfl
    ((hexpression n).andThen fun argument => LocalUpTo.ofPure (Expr.spread argument))
    (hexpression n)

theorem arguments_local : ∀ n, LocalUpTo n 1 0 fun _ => arguments expression :=
  closedItems_local (element_local hexpression) .closeArguments (by decide) (by decide)

theorem propertyValue_local (key : PropertyKey) : IsLocal (propertyValue expression key) := by
  intro n
  exact LocalUpTo.expecting .colonAfterKey rfl
    ((hexpression n).andThen fun value => LocalUpTo.ofPure (Property.keyed key value))

theorem property_local : IsLocal (property expression) := by
  intro n fuel tokens x rest _ _ h
  cases tokens with
  | nil => cases h
  | cons token tokens =>
    obtain ⟨kind, position⟩ := token
    cases kind with
    | text t =>
      exact LocalUpTo.headed (propertyValue_local hexpression (.constant (.text t)))
        (fun _ _ => rfl) rfl h
    | number m =>
      exact LocalUpTo.headed (propertyValue_local hexpression (.constant (.number m)))
        (fun _ _ => rfl) rfl h
    | name t =>
      exact LocalUpTo.headed (fun n => LocalUpTo.branch (s := .colon) (by decide)
        (propertyValue_local hexpression (.name t) n) (LocalUpTo.ofPure (Property.shorthand t)))
        (fun _ _ => rfl) rfl h
    | symbol s =>
      cases s with
      | spread =>
        exact LocalUpTo.headed (fun n => (hexpression n).andThen fun argument =>
          LocalUpTo.ofPure (Property.spread argument)) (fun _ _ => rfl) rfl h
      | openBracket =>
        exact LocalUpTo.headed (fun n => (hexpression n).andThen fun key =>
          LocalUpTo.expecting .closeComputedKey rfl
            (propertyValue_local hexpression (.computed key) n)) (fun _ _ => rfl) rfl h
      | _ => cases h
    | _ => cases h

variable (hgroup : IsLocal group)

include hgroup

theorem primary_local : IsLocal (primary expression group) := by
  intro n fuel tokens x rest _ _ h
  cases tokens with
  | nil => cases h
  | cons token tokens =>
    obtain ⟨kind, position⟩ := token
    cases kind with
    | number m =>
      exact LocalUpTo.headed (fun n => LocalUpTo.ofPure (Expr.constant (.number m)))
        (fun _ _ => rfl) rfl h
    | text t =>
      exact LocalUpTo.headed (fun n => LocalUpTo.ofPure (Expr.constant (.text t)))
        (fun _ _ => rfl) rfl h
    | bool b =>
      exact LocalUpTo.headed (fun n => LocalUpTo.ofPure (Expr.constant (.bool b)))
        (fun _ _ => rfl) rfl h
    | null =>
      exact LocalUpTo.headed (fun n => LocalUpTo.ofPure (Expr.constant .null))
        (fun _ _ => rfl) rfl h
    | name t =>
      exact LocalUpTo.headed (fun n => LocalUpTo.ofPure (Expr.name t)) (fun _ _ => rfl) rfl h
    | keyword k =>
      cases k with
      | this => exact LocalUpTo.headed (fun n => LocalUpTo.ofPure Expr.this) (fun _ _ => rfl) rfl h
      | _ => cases h
    | symbol s =>
      cases s with
      | openParen =>
        exact LocalUpTo.headed (fun n => ((hgroup n).around 1).andThen fun e =>
          LocalUpTo.expecting .closeGroup rfl (LocalUpTo.ofPure e)) (fun _ _ => rfl) rfl h
      | openBracket =>
        exact LocalUpTo.headed (fun n =>
          (closedItems_local (element_local hexpression) .closeArray (by decide)
            (fun _ => by decide) n).andThen fun elements =>
              LocalUpTo.ofPure (Expr.array elements)) (fun _ _ => rfl) rfl h
      | openBrace =>
        exact LocalUpTo.headed (fun n =>
          (closedItems_local (property_local hexpression) .closeObject (by decide)
            (fun _ => by decide) n).andThen fun properties =>
              LocalUpTo.ofPure (Expr.object properties)) (fun _ _ => rfl) rfl h
      | _ => cases h
    | finish => cases h

omit hexpression hgroup in
theorem memberName_local : IsLocal memberName := by
  intro n fuel tokens x rest _ _ h
  cases tokens with
  | nil => cases h
  | cons token tokens =>
    obtain ⟨kind, position⟩ := token
    cases hm : kind.memberName? with
    | none =>
      simp only [memberName, hm] at h
      cases h
    | some name =>
      have hplain : kind.isPlain := by
        refine ⟨?_, ?_, ?_⟩ <;> (rintro rfl; cases hm)
      refine LocalUpTo.headed (fun n => LocalUpTo.ofPure name) ?_
        (TokenKind.openAfter_plain hplain 0 []) h
      intro position rest
      simp only [memberName, hm]

omit hexpression hgroup in
theorem members_local : ∀ n e, LocalUpTo n 0 0 fun fuel => members fuel e := by
  intro n
  induction n using Nat.strongRecOn with
  | ind n ih =>
    intro e fuel tokens x rest hn hlen h
    by_cases hs : startsWith .dot tokens = true
    · obtain ⟨position, tokens, rfl⟩ := exists_of_startsWith hs
      rw [List.length_cons] at hlen
      obtain ⟨fuel, rfl⟩ : ∃ m, fuel = m + 1 := ⟨fuel - 1, by omega⟩
      have hround := (memberName_local fuel).andThen fun name =>
        ih fuel (by omega) (.member e name)
      exact Taken.cons (fun _ _ _ => rfl) rfl
        (hround fuel tokens x rest (Nat.le_refl _) (by omega) h) position
    · have hstart : startsWith .dot tokens = false := by simpa using hs
      dsimp only at h
      rw [members_done fuel e hstart] at h
      refine Taken.otherwise (· ≠ .symbol .dot) ?_ (front_of_startsWith hstart)
        (LocalUpTo.ofPure e fuel tokens x rest hn hlen h)
      intro fuel tokens _ hfront
      exact members_done fuel e (startsWith_of_front hfront (by decide))

omit hgroup in
theorem suffixes_local : ∀ n e, LocalUpTo n 0 0 fun fuel => suffixes expression fuel e := by
  intro n
  induction n using Nat.strongRecOn with
  | ind n ih =>
    intro e fuel tokens x rest hn hlen h
    by_cases hdot : startsWith .dot tokens = true
    · obtain ⟨position, tokens, rfl⟩ := exists_of_startsWith hdot
      rw [List.length_cons] at hlen
      obtain ⟨fuel, rfl⟩ : ∃ m, fuel = m + 1 := ⟨fuel - 1, by omega⟩
      have hround := (memberName_local fuel).andThen fun name =>
        ih fuel (by omega) (.member e name)
      exact Taken.cons (fun _ _ _ => rfl) rfl
        (hround fuel tokens x rest (Nat.le_refl _) (by omega) h) position
    · by_cases hbracket : startsWith .openBracket tokens = true
      · obtain ⟨position, tokens, rfl⟩ := exists_of_startsWith hbracket
        rw [List.length_cons] at hlen
        obtain ⟨fuel, rfl⟩ : ∃ m, fuel = m + 1 := ⟨fuel - 1, by omega⟩
        have hround := (sequence_local hexpression fuel).andThen fun key =>
          LocalUpTo.expecting (s := .closeBracket) .closeIndex rfl
            (ih fuel (by omega) (.index e key))
        exact Taken.cons (fun _ _ _ => rfl) rfl
          (hround fuel tokens x rest (Nat.le_refl _) (by omega) h) position
      · by_cases hparen : startsWith .openParen tokens = true
        · obtain ⟨position, tokens, rfl⟩ := exists_of_startsWith hparen
          rw [List.length_cons] at hlen
          obtain ⟨fuel, rfl⟩ : ∃ m, fuel = m + 1 := ⟨fuel - 1, by omega⟩
          have hround := (arguments_local hexpression fuel).andThen fun args =>
            ih fuel (by omega) (.call e args)
          exact Taken.cons (fun _ _ _ => rfl) rfl
            (hround fuel tokens x rest (Nat.le_refl _) (by omega) h) position
        · simp only [Bool.not_eq_true] at hdot hbracket hparen
          dsimp only at h
          rw [suffixes_done expression fuel e hdot hbracket hparen] at h
          refine Taken.otherwise
            (fun k => k ≠ .symbol .dot ∧ k ≠ .symbol .openBracket ∧ k ≠ .symbol .openParen) ?_
            ⟨front_of_startsWith hdot, front_of_startsWith hbracket, front_of_startsWith hparen⟩
            (LocalUpTo.ofPure e fuel tokens x rest hn hlen h)
          intro fuel tokens _ hfront
          exact suffixes_done expression fuel e (startsWith_of_front hfront.1 (by decide))
            (startsWith_of_front hfront.2.1 (by decide))
            (startsWith_of_front hfront.2.2 (by decide))

theorem construction_local : IsLocal (construction expression group) := by
  intro n
  exact (primary_local hexpression hgroup n).andThen fun callee =>
    (LocalUpTo.ofLoop fun n => members_local n callee).andThen fun callee =>
      LocalUpTo.branchTail (by decide) rfl
        ((arguments_local hexpression n).andThen fun args =>
          LocalUpTo.ofPure (Expr.new callee args))
        (LocalUpTo.ofPure (Expr.new callee []))

/-- What stands before the suffixes. -/
def constructed (expression group : Parser Expr) : Parser Expr := fun tokens =>
  match tokens with
  | ⟨.keyword .new, _⟩ :: rest => construction expression group rest
  | _ => primary expression group tokens

theorem constructed_local : IsLocal (constructed expression group) := by
  intro n fuel tokens x rest hn hlen h
  have hother : ∀ tokens, front tokens ≠ .keyword .new →
      constructed expression group tokens = primary expression group tokens := by
    intro tokens hfront
    unfold constructed
    split
    · exact absurd rfl hfront
    · rfl
  by_cases hfront : front tokens = .keyword .new
  · cases tokens with
    | nil => cases hfront
    | cons token tokens =>
      obtain ⟨kind, position⟩ := token
      rw [front_cons] at hfront
      split at hfront
      · cases hfront
      · cases hfront
        exact LocalUpTo.headed (construction_local hexpression hgroup) (fun _ _ => rfl) rfl h
  · dsimp only at h
    rw [hother tokens hfront] at h
    exact Taken.otherwise (· ≠ .keyword .new) (fun _ tokens _ hk => hother tokens hk) hfront
      (primary_local hexpression hgroup n fuel tokens x rest hn hlen h)

omit hexpression hgroup in
theorem suffixed_eq :
    suffixed expression group = (fun tokens => do
      let (e, rest) ← constructed expression group tokens
      suffixes expression rest.length e rest) := by
  funext tokens
  cases tokens with
  | nil => rfl
  | cons token rest =>
    obtain ⟨kind, position⟩ := token
    cases kind with
    | keyword k => cases k <;> rfl
    | _ => rfl

theorem suffixed_local : IsLocal (suffixed expression group) := by
  intro n
  rw [suffixed_eq]
  exact (constructed_local hexpression hgroup n).andThen fun e =>
    LocalUpTo.ofLoop fun n => suffixes_local hexpression n e

/-- Whether an operand begins with an operator of its own. -/
def isPrefixed (k : TokenKind) : Bool :=
  k.unary?.isSome ||
    match k with
    | .symbol (.update _) => true
    | _ => false

def updated (e : Expr) : Parser Expr := fun tokens =>
  match tokens with
  | ⟨.symbol (.update op), _⟩ :: rest => .ok (.update op e false, rest)
  | _ => .ok (e, tokens)

omit hexpression hgroup in
@[simp] theorem updated_done (e : Expr) {tokens : List Token}
    (h : ∀ op, front tokens ≠ .symbol (.update op)) : updated e tokens = .ok (e, tokens) := by
  unfold updated
  split
  · exact absurd rfl (h _)
  · rfl

omit hexpression hgroup in
theorem updated_local (e : Expr) : IsLocal (updated e) := by
  intro n fuel tokens x rest hn hlen h
  by_cases hfront : ∀ op, front tokens ≠ .symbol (.update op)
  · dsimp only at h
    rw [updated_done e hfront] at h
    exact Taken.otherwise (fun k => ∀ op, k ≠ .symbol (.update op))
      (fun _ tokens _ hk => updated_done e hk) hfront
      (LocalUpTo.ofPure e fuel tokens x rest hn hlen h)
  · cases tokens with
    | nil => exact absurd (fun op he => by cases he) hfront
    | cons token tokens =>
      obtain ⟨kind, position⟩ := token
      have hk : ∃ op, kind = .symbol (.update op) := by
        by_contra hk
        refine hfront fun op he => hk ⟨op, ?_⟩
        rw [front_cons] at he
        split at he
        · cases he
        · exact he
      obtain ⟨op, rfl⟩ := hk
      exact LocalUpTo.headed (fun n => LocalUpTo.ofPure (Expr.update op e false))
        (fun _ _ => rfl) rfl h

omit hexpression hgroup in
theorem isPrefixed_front {kind : TokenKind} {position : Nat} {rest : List Token}
    (h : isPrefixed (front (⟨kind, position⟩ :: rest)) = false) : isPrefixed kind = false := by
  rw [front_cons] at h
  split at h
  · next hc =>
    dsimp only at hc
    rw [hc]
    rfl
  · exact h

omit hexpression hgroup in
theorem exists_of_isPrefixed {tokens : List Token} (h : ¬ isPrefixed (front tokens) = false) :
    ∃ kind position rest, tokens = ⟨kind, position⟩ :: rest ∧
      ((∃ op, kind.unary? = some op) ∨ ∃ op, kind = .symbol (.update op)) := by
  cases tokens with
  | nil => exact absurd rfl h
  | cons token rest =>
    obtain ⟨kind, position⟩ := token
    refine ⟨kind, position, rest, rfl, ?_⟩
    rw [front_cons] at h
    split at h
    · exact absurd rfl h
    · cases hunary : kind.unary? with
      | some op => exact .inl ⟨op, rfl⟩
      | none =>
        refine .inr ?_
        dsimp only [isPrefixed] at h
        rw [hunary] at h
        split at h
        · exact ⟨_, rfl⟩
        · exact absurd rfl h

omit hexpression hgroup in
@[simp] theorem operand_plain {tokens : List Token} (h : isPrefixed (front tokens) = false) :
    operand expression group inner tokens = (do
      let (e, rest) ← suffixed expression group tokens
      updated e rest) := by
  cases tokens with
  | nil => rfl
  | cons token rest =>
    obtain ⟨kind, position⟩ := token
    have hk := isPrefixed_front h
    unfold isPrefixed at hk
    rw [Bool.or_eq_false_iff] at hk
    obtain ⟨hunary, hupdate⟩ := hk
    have hnone : kind.unary? = none := by simpa using hunary
    unfold operand
    simp only [hnone]
    split
    · cases hupdate
    · refine congrArg _ (funext fun r => ?_)
      obtain ⟨e, rest⟩ := r
      cases rest with
      | nil => rfl
      | cons token rest =>
        obtain ⟨kind, position⟩ := token
        cases kind with
        | symbol s => cases s <;> rfl
        | _ => rfl

theorem operand_local (hinner : IsLocal inner) : IsLocal (operand expression group inner) := by
  intro n fuel tokens x rest hn hlen h
  by_cases hprefixed : isPrefixed (front tokens) = false
  · have hplain := (suffixed_local hexpression hgroup n).andThen fun e => updated_local e n
    dsimp only at h
    rw [operand_plain hprefixed] at h
    exact Taken.otherwise (isPrefixed · = false) (fun _ tokens _ hk => operand_plain hk) hprefixed
      (hplain fuel tokens x rest hn hlen h)
  · obtain ⟨kind, position, tokens, rfl, ⟨op, hunary⟩ | ⟨op, rfl⟩⟩ := exists_of_isPrefixed hprefixed
    · have hplain : kind.isPlain := by
        refine ⟨?_, ?_, ?_⟩ <;> (rintro rfl; cases hunary)
      refine LocalUpTo.headed (fun n => (hinner n).andThen fun e =>
        LocalUpTo.ofPure (Expr.unary op e)) ?_ (TokenKind.openAfter_plain hplain 0 []) h
      intro position rest
      simp only [operand, hunary]
      rfl
    · exact LocalUpTo.headed (fun n => (hinner n).andThen fun e =>
        LocalUpTo.ofPure (Expr.update op e true)) (fun _ _ => rfl) rfl h

end Expressions

/-! ## Levels -/

section Levels

variable {expression operand : Parser Expr} (hexpression : IsLocal expression)
  (hoperand : IsLocal operand)

/-- Operators are an operand and the row of those behind it. -/
theorem operators_of_row {operand : Parser Expr} {tokens behind rest : List Token} {first : Expr}
    {others : List (BinaryOperator × Expr)} (hfirst : operand tokens = .ok (first, behind))
    (hothers : moreOperands operand behind.length behind = .ok (others, rest)) :
    operators operand tokens = .ok ((OperatorTree.ofRow first others).toExpr, rest) :=
  Except.bind_eq_ok.2 ⟨_, hfirst, Except.bind_eq_ok.2 ⟨_, hothers, rfl⟩⟩

/-- An operator in front takes an operand and what is behind it. -/
theorem moreOperands_cons (operand : Parser Expr) {kind : TokenKind} {op : BinaryOperator}
    (hk : kind.binary? = some op) (fuel position : Nat) (rest : List Token) :
    moreOperands operand (fuel + 1) (⟨kind, position⟩ :: rest) = (do
      let (e, rest) ← operand rest
      let (others, rest) ← moreOperands operand fuel rest
      return ((op, e) :: others, rest)) := by
  simp only [moreOperands, hk]

include hoperand

theorem moreOperands_local : ∀ n, LocalUpTo n 0 0 (moreOperands operand) := by
  intro n
  induction n using Nat.strongRecOn with
  | ind n ih =>
    intro fuel tokens x rest hn hlen h
    cases hb : (front tokens).binary? with
    | none =>
      rw [moreOperands_done operand fuel hb] at h
      exact Taken.otherwise (·.binary? = none)
        (fun fuel _ _ hk => moreOperands_done operand fuel hk) hb
        (LocalUpTo.ofPure [] fuel tokens x rest hn hlen h)
    | some op =>
      cases tokens with
      | nil => cases hb
      | cons token tokens =>
        obtain ⟨kind, position⟩ := token
        have hk : kind.binary? = some op := by
          rw [front_cons] at hb
          split at hb
          · cases hb
          · exact hb
        have hplain : kind.isPlain := by
          refine ⟨?_, ?_, ?_⟩ <;> (rintro rfl; cases hk)
        rw [List.length_cons] at hlen
        obtain ⟨fuel, rfl⟩ : ∃ m, fuel = m + 1 := ⟨fuel - 1, by omega⟩
        have hround := (hoperand fuel).andThen fun e =>
          (ih fuel (by omega)).andThen fun others => LocalUpTo.ofPure ((op, e) :: others)
        have hstep := moreOperands_cons operand hk
        rw [hstep] at h
        exact Taken.cons hstep (TokenKind.openAfter_plain hplain 0 [])
          (hround fuel tokens x rest (Nat.le_refl _) (by omega) h) position

theorem operators_local : IsLocal (operators operand) := by
  intro n
  exact (hoperand n).andThen fun first =>
    (LocalUpTo.ofLoop (moreOperands_local hoperand)).andThen fun row =>
      LocalUpTo.ofPure (OperatorTree.ofRow first row).toExpr

include hexpression

theorem conditional_local : IsLocal (conditional expression operand) := by
  intro n
  exact (operators_local hoperand n).andThen fun test =>
    LocalUpTo.branchTail (by decide) rfl
      ((hexpression n).andThen fun consequent =>
        LocalUpTo.expecting .colonInConditional rfl
          ((hexpression n).andThen fun alternate =>
            LocalUpTo.ofPure (Expr.conditional test consequent alternate)))
      (LocalUpTo.ofPure test)

def assigned (expression : Parser Expr) (target : Expr) : Parser Expr := fun tokens =>
  match tokens with
  | ⟨.symbol (.assign op), _⟩ :: rest => do
    let (value, rest) ← expression rest
    return (.assign op target value, rest)
  | _ => .ok (target, tokens)

omit hexpression hoperand in
@[simp] theorem assigned_done (target : Expr) {tokens : List Token}
    (h : ∀ op, front tokens ≠ .symbol (.assign op)) :
    assigned expression target tokens = .ok (target, tokens) := by
  unfold assigned
  split
  · exact absurd rfl (h _)
  · rfl

omit hoperand in
theorem assigned_local (target : Expr) : IsLocal (assigned expression target) := by
  intro n fuel tokens x rest hn hlen h
  by_cases hfront : ∀ op, front tokens ≠ .symbol (.assign op)
  · dsimp only at h
    rw [assigned_done target hfront] at h
    exact Taken.otherwise (fun k => ∀ op, k ≠ .symbol (.assign op))
      (fun _ tokens _ hk => assigned_done target hk) hfront
      (LocalUpTo.ofPure target fuel tokens x rest hn hlen h)
  · cases tokens with
    | nil => exact absurd (fun op he => by cases he) hfront
    | cons token tokens =>
      obtain ⟨kind, position⟩ := token
      have hk : ∃ op, kind = .symbol (.assign op) := by
        by_contra hk
        refine hfront fun op he => hk ⟨op, ?_⟩
        rw [front_cons] at he
        split at he
        · cases he
        · exact he
      obtain ⟨op, rfl⟩ := hk
      exact LocalUpTo.headed (fun n => (hexpression n).andThen fun value =>
        LocalUpTo.ofPure (Expr.assign op target value)) (fun _ _ => rfl) rfl h

omit hexpression hoperand in
theorem assignment_eq :
    assignment expression operand = (fun tokens => do
      let (target, rest) ← conditional expression operand tokens
      assigned expression target rest) := by
  funext tokens
  unfold assignment
  refine congrArg _ (funext fun r => ?_)
  obtain ⟨target, rest⟩ := r
  cases rest with
  | nil => rfl
  | cons token rest =>
    obtain ⟨kind, position⟩ := token
    cases kind with
    | symbol s => cases s <;> rfl
    | _ => rfl

theorem assignment_local : IsLocal (assignment expression operand) := by
  intro n
  rw [assignment_eq]
  exact (conditional_local hexpression hoperand n).andThen fun target =>
    assigned_local hexpression target n

end Levels

theorem Level.ofNat_local (n : Nat) :
    IsLocal (Level.ofNat n).expression ∧ IsLocal (Level.ofNat n).operand := by
  induction n with
  | zero =>
    constructor <;> (intro n fuel tokens x rest _ _ h; cases h)
  | succ n ih =>
    obtain ⟨hexpression, hoperand⟩ := ih
    have hlevel := assignment_local hexpression hoperand
    exact ⟨hlevel, operand_local hlevel (sequence_local hexpression) hoperand⟩

/-- What a parser took down to the rest closes every parenthesis it opens, and behind the same
tokens any other rest with the same front is left in the same way. -/
theorem IsLocal.exists_used {p : Parser α} (hp : IsLocal p) {tokens rest : List Token} {x : α}
    (h : p tokens = .ok (x, rest)) :
    ∃ used, tokens = used ++ rest ∧ openAfter 0 (kinds used) = some 0 ∧
      ∀ used' rest', kinds used' = kinds used → front rest' = front rest →
        p (used' ++ rest') = .ok (x, rest') := by
  obtain ⟨used, hused, hopen, hsame⟩ :=
    hp tokens.length tokens.length tokens x rest (Nat.le_refl _) (Nat.le_refl _) h
  exact ⟨used, hused, hopen, fun used' rest' hkinds hfront =>
    hsame _ used' rest' hkinds hfront (Nat.le_refl _)⟩

end SceneTemplates.Parser
