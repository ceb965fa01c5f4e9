import SceneTemplates.Expression.Parser
import SceneTemplates.Proofs.Parentheses
import SceneTemplates.Proofs.Steps

/-!
# Local runs of parsers

A run of a parser is local if what it took decides what it made of it: only the kind of the one
token behind counts besides, and there a closing parenthesis is as good as the end.

Loops are bounded by the number of the tokens. A parser here is a family over such bounds, so that
the same statements cover loops and single parsers.
-/
namespace SceneTemplates.Parser

open TokenKind (openAfter openAfter_append openAfter_add)

variable {α β : Type} {a b c n : Nat}

/-- What stands at the front of tokens. A closing parenthesis, the end of the source and no token
at all are not told apart. -/
def front : List Token → TokenKind
  | [] => .finish
  | token :: _ => if token.kind = .symbol .closeParen then .finish else token.kind

theorem front_cons (token : Token) (rest : List Token) :
    front (token :: rest) =
      if token.kind = .symbol .closeParen then .finish else token.kind := rfl

theorem front_last {last : Token} (h : last.kind = .finish) : front [last] = .finish := by
  rw [front_cons, h]
  rfl

theorem front_append {used used' rest rest' : List Token} (hu : kinds used' = kinds used)
    (hr : front rest' = front rest) : front (used' ++ rest') = front (used ++ rest) := by
  cases used with
  | nil =>
    have hnil : used' = [] := List.map_eq_nil_iff.1 hu
    rw [hnil]
    exact hr
  | cons token used =>
    obtain ⟨token', others, rfl, hk, -⟩ := List.map_eq_cons_iff.1 hu
    rw [List.cons_append, List.cons_append, front_cons, front_cons, hk]

theorem startsWith_of_front {s : Symbol} {tokens : List Token} (h : front tokens ≠ .symbol s)
    (hs : s ≠ .closeParen) : startsWith s tokens = false := by
  cases tokens with
  | nil => rfl
  | cons token rest =>
    show decide (token.kind = .symbol s) = false
    refine decide_eq_false fun hk => h ?_
    have hclose : token.kind ≠ .symbol .closeParen := by
      rw [hk]
      exact fun he => hs (TokenKind.symbol.inj he)
    rw [front_cons, if_neg hclose]
    exact hk

theorem front_of_startsWith {s : Symbol} {tokens : List Token} (h : startsWith s tokens = false) :
    front tokens ≠ .symbol s := by
  cases tokens with
  | nil => exact fun he => by cases he
  | cons token rest =>
    have hk : token.kind ≠ .symbol s := of_decide_eq_false h
    rw [front_cons]
    by_cases hc : token.kind = .symbol .closeParen
    · rw [if_pos hc]
      exact fun he => by cases he
    · rw [if_neg hc]
      exact hk

theorem startsWith_of_front_eq {s : Symbol} {tokens : List Token} (h : front tokens = .symbol s) :
    startsWith s tokens = true := by
  by_contra hs
  exact front_of_startsWith (by simpa using hs) h

theorem front_eq_of_startsWith {s : Symbol} {tokens : List Token}
    (h : startsWith s tokens = true) (hs : s ≠ .closeParen) : front tokens = .symbol s := by
  by_contra hf
  rw [startsWith_of_front hf hs] at h
  cases h

theorem exists_of_startsWith {s : Symbol} {tokens : List Token} (h : startsWith s tokens = true) :
    ∃ position rest, tokens = ⟨.symbol s, position⟩ :: rest := by
  cases tokens with
  | nil => cases h
  | cons token rest =>
    have hk : token.kind = .symbol s := of_decide_eq_true h
    exact ⟨token.position, rest, by rw [← hk]⟩

theorem exists_of_expect {s : Symbol} {what : Expectation} {tokens rest : List Token}
    (h : expect s what tokens = .ok rest) : ∃ position, tokens = ⟨.symbol s, position⟩ :: rest := by
  cases tokens with
  | nil => cases h
  | cons token tokens =>
    unfold expect at h
    dsimp only at h
    split at h
    · next hk =>
      cases h
      exact ⟨token.position, by rw [← hk]⟩
    · cases h

@[simp] theorem expect_self (s : Symbol) (what : Expectation) (position : Nat) (rest : List Token) :
    expect s what (⟨.symbol s, position⟩ :: rest) = .ok rest :=
  if_pos rfl

@[simp] theorem startsWith_self (s : Symbol) (position : Nat) (rest : List Token) :
    startsWith s (⟨.symbol s, position⟩ :: rest) = true :=
  decide_eq_true rfl

/-- A run of a parser that takes the open parentheses from one number to another and would take
the same tokens elsewhere. -/
def Taken (a b : Nat) (p : Nat → Parser α) (tokens : List Token) (x : α) (rest : List Token) :
    Prop :=
  ∃ used, tokens = used ++ rest ∧ openAfter a (kinds used) = some b ∧
    ∀ fuel' used' rest', kinds used' = kinds used → front rest' = front rest →
      (used' ++ rest').length ≤ fuel' → p fuel' (used' ++ rest') = .ok (x, rest')

/-- Every run of a parser up to a bound is local. -/
def LocalUpTo (n a b : Nat) (p : Nat → Parser α) : Prop :=
  ∀ fuel tokens x rest, fuel ≤ n → tokens.length ≤ fuel → p fuel tokens = .ok (x, rest) →
    Taken a b p tokens x rest

/-- Every run of a parser is local and leaves the open parentheses as they were. -/
def IsLocal (p : Parser α) : Prop := ∀ n, LocalUpTo n 0 0 fun _ => p

namespace Taken

variable {p q : Nat → Parser α} {tokens rest : List Token} {x : α}

theorem length_le (h : Taken a b p tokens x rest) : rest.length ≤ tokens.length := by
  obtain ⟨used, rfl, -⟩ := h
  rw [List.length_append]
  omega

/-- A run behind a token that is taken by its kind. -/
theorem cons {k : TokenKind}
    (hp : ∀ fuel position rest, p (fuel + 1) (⟨k, position⟩ :: rest) = q fuel rest)
    (hk : openAfter a [k] = some b) (h : Taken b c q tokens x rest) (position : Nat) :
    Taken a c p (⟨k, position⟩ :: tokens) x rest := by
  obtain ⟨used, rfl, hopen, hsame⟩ := h
  refine ⟨⟨k, position⟩ :: used, rfl, ?_, ?_⟩
  · show openAfter a ([k] ++ kinds used) = some c
    rw [openAfter_append, hk]
    exact hopen
  · intro fuel' used' rest' hkinds hfront hlen
    obtain ⟨token, others, rfl, htoken, hothers⟩ := List.map_eq_cons_iff.1 hkinds
    obtain ⟨kind, position'⟩ := token
    cases htoken
    rw [List.cons_append, List.length_cons] at hlen
    obtain ⟨fuel, rfl⟩ : ∃ fuel, fuel' = fuel + 1 := ⟨fuel' - 1, by omega⟩
    rw [List.cons_append, hp]
    exact hsame fuel others rest' hothers hfront (by omega)

/-- A run of another parser that is the same for what stands at the front. -/
theorem otherwise (C : TokenKind → Prop)
    (hp : ∀ fuel tokens, tokens.length ≤ fuel → C (front tokens) → p fuel tokens = q fuel tokens)
    (hfront : C (front tokens)) (h : Taken a b q tokens x rest) : Taken a b p tokens x rest := by
  obtain ⟨used, rfl, hopen, hsame⟩ := h
  refine ⟨used, rfl, hopen, ?_⟩
  intro fuel' used' rest' hkinds hrest hlen
  rw [hp fuel' _ hlen (by rw [front_append hkinds hrest]; exact hfront)]
  exact hsame fuel' used' rest' hkinds hrest hlen

/-- A run that changes the number of open parentheses takes a token, so that not even a closing
parenthesis at the front is mistaken. -/
theorem unlessCloses {s : Symbol} (hs : s ≠ .closeParen ∨ a ≠ b)
    (hp : ∀ fuel tokens, startsWith s tokens = false → p fuel tokens = q fuel tokens)
    (hstart : startsWith s tokens = false) (h : Taken a b q tokens x rest) :
    Taken a b p tokens x rest := by
  obtain ⟨used, rfl, hopen, hsame⟩ := h
  refine ⟨used, rfl, hopen, ?_⟩
  intro fuel' used' rest' hkinds hrest hlen
  have hstart' : startsWith s (used' ++ rest') = false := by
    obtain hs | hab := hs
    · refine startsWith_of_front ?_ hs
      rw [front_append hkinds hrest]
      exact front_of_startsWith hstart
    · cases used with
      | nil => exact absurd (Option.some.inj hopen) hab
      | cons token used =>
        obtain ⟨token', others, rfl, hk, -⟩ := List.map_eq_cons_iff.1 hkinds
        show decide (token'.kind = .symbol s) = false
        rw [hk]
        exact hstart
  rw [hp fuel' _ hstart']
  exact hsame fuel' used' rest' hkinds hrest hlen

end Taken

namespace LocalUpTo

variable {p q : Nat → Parser α}

theorem ofPure (x : α) : LocalUpTo n a a fun _ tokens => .ok (x, tokens) := by
  intro fuel tokens y rest _ _ h
  cases h
  refine ⟨[], rfl, rfl, ?_⟩
  intro fuel' used' rest' hkinds _ _
  have hnil : used' = [] := List.map_eq_nil_iff.1 hkinds
  rw [hnil]
  rfl

/-- One parser behind another. -/
theorem andThen {f : α → Nat → Parser β} (hp : LocalUpTo n a b p)
    (hf : ∀ x, LocalUpTo n b c (f x)) :
    LocalUpTo n a c (fun fuel tokens => do
      let (x, rest) ← p fuel tokens
      f x fuel rest) := by
  intro fuel tokens y last hn hlen h
  obtain ⟨⟨x, rest⟩, hx, hy⟩ := Except.bind_eq_ok.1 h
  have hfirst := hp fuel tokens x rest hn hlen hx
  have hsecond := hf x fuel rest y last hn (Nat.le_trans hfirst.length_le hlen) hy
  obtain ⟨used, rfl, hopen, hsame⟩ := hfirst
  obtain ⟨more, rfl, hopen', hsame'⟩ := hsecond
  refine ⟨used ++ more, by rw [List.append_assoc], ?_, ?_⟩
  · unfold kinds
    rw [List.map_append, openAfter_append]
    show (openAfter a (kinds used)).bind _ = _
    rw [hopen]
    exact hopen'
  · intro fuel' used' rest' hkinds hfront hlen'
    unfold kinds at hkinds
    rw [List.map_append] at hkinds
    obtain ⟨first, second, rfl, hk, hk'⟩ := List.map_eq_append_iff.1 hkinds
    rw [List.append_assoc] at hlen' ⊢
    have hstep := hsame fuel' first (second ++ rest') hk (front_append hk' hfront) hlen'
    rw [List.length_append] at hlen'
    have hstep' := hsame' fuel' second rest' hk' hfront (by omega)
    exact Except.bind_eq_ok.2 ⟨(x, second ++ rest'), hstep, hstep'⟩

/-- A parser behind a symbol that has to stand there. -/
theorem expecting {s : Symbol} (what : Expectation) (hs : openAfter a [.symbol s] = some b)
    (hp : LocalUpTo n b c p) :
    LocalUpTo n a c (fun fuel tokens => do
      let rest ← expect s what tokens
      p fuel rest) := by
  intro fuel tokens x last hn hlen h
  obtain ⟨rest, hexpect, hx⟩ := Except.bind_eq_ok.1 h
  obtain ⟨position, rfl⟩ := exists_of_expect hexpect
  rw [List.length_cons] at hlen
  obtain ⟨used, rfl, hopen, hsame⟩ := hp fuel rest x last hn (by omega) hx
  refine ⟨⟨.symbol s, position⟩ :: used, rfl, ?_, ?_⟩
  · show openAfter a ([.symbol s] ++ kinds used) = some c
    rw [openAfter_append, hs]
    exact hopen
  · intro fuel' used' rest' hkinds hfront hlen'
    obtain ⟨⟨kind, position'⟩, others, rfl, hk, hothers⟩ := List.map_eq_cons_iff.1 hkinds
    cases hk
    rw [List.cons_append, List.length_cons] at hlen'
    have hstep := hsame fuel' others rest' hothers hfront (by omega)
    exact Except.bind_eq_ok.2 ⟨_, expect_self s what position' _, hstep⟩

/-- Parentheses that are open around a run stay open. -/
theorem around (h : LocalUpTo n a b p) (k : Nat) : LocalUpTo n (a + k) (b + k) p := by
  intro fuel tokens x rest hn hlen hx
  obtain ⟨used, hused, hopen, hsame⟩ := h fuel tokens x rest hn hlen hx
  exact ⟨used, hused, openAfter_add hopen k, hsame⟩

/-- A loop whose bound is the number of the tokens. -/
theorem ofLoop (h : ∀ n, LocalUpTo n a b p) :
    LocalUpTo n a b fun _ tokens => p tokens.length tokens := by
  intro fuel tokens x rest _ _ hx
  obtain ⟨used, hused, hopen, hsame⟩ :=
    h tokens.length tokens.length tokens x rest (Nat.le_refl _) (Nat.le_refl _) hx
  exact ⟨used, hused, hopen, fun _ used' rest' hkinds hfront _ =>
    hsame _ used' rest' hkinds hfront (Nat.le_refl _)⟩

/-- A choice by the symbol at the front, which both parsers may take. -/
theorem branch {s : Symbol} (hs : s ≠ .closeParen) {q r : Parser α}
    (hq : LocalUpTo n a b fun _ => q) (hr : LocalUpTo n a b fun _ => r) :
    LocalUpTo n a b (fun _ tokens => if startsWith s tokens then q tokens else r tokens) := by
  intro fuel tokens x rest hn hlen h
  dsimp only at h
  by_cases hstart : startsWith s tokens = true
  · rw [if_pos hstart] at h
    refine Taken.otherwise (· = .symbol s) ?_ (front_eq_of_startsWith hstart hs)
      (hq fuel tokens x rest hn hlen h)
    intro fuel tokens _ hfront
    exact if_pos (startsWith_of_front_eq hfront)
  · have hother : startsWith s tokens = false := by simpa using hstart
    rw [if_neg hstart] at h
    refine Taken.otherwise (· ≠ .symbol s) ?_ (front_of_startsWith hother)
      (hr fuel tokens x rest hn hlen h)
    intro fuel tokens _ hfront
    exact if_neg (by rw [startsWith_of_front hfront hs]; exact Bool.false_ne_true)

/-- A choice by the symbol at the front, which is taken. -/
theorem branchTail {s : Symbol} (hs : s ≠ .closeParen) (hopen : openAfter a [.symbol s] = some b)
    {q r : Parser α} (hq : LocalUpTo n b c fun _ => q) (hr : LocalUpTo n a c fun _ => r) :
    LocalUpTo n a c (fun _ tokens => if startsWith s tokens then q tokens.tail else r tokens) := by
  intro fuel tokens x rest hn hlen h
  dsimp only at h
  by_cases hstart : startsWith s tokens = true
  · rw [if_pos hstart] at h
    obtain ⟨position, tokens, rfl⟩ := exists_of_startsWith hstart
    rw [List.length_cons] at hlen
    refine Taken.cons ?_ hopen (hq fuel tokens x rest hn (by omega) h) position
    intro fuel position rest
    exact if_pos (startsWith_self ..)
  · have hother : startsWith s tokens = false := by simpa using hstart
    rw [if_neg hstart] at h
    refine Taken.otherwise (· ≠ .symbol s) ?_ (front_of_startsWith hother)
      (hr fuel tokens x rest hn hlen h)
    intro fuel tokens _ hfront
    exact if_neg (by rw [startsWith_of_front hfront hs]; exact Bool.false_ne_true)

/-- A run behind a token that is taken by its kind, whatever the bound. -/
theorem headed {p q : Parser α} {k : TokenKind} (hq : ∀ n, LocalUpTo n b c fun _ => q)
    (hp : ∀ position rest, p (⟨k, position⟩ :: rest) = q rest) (hk : openAfter a [k] = some b)
    {position : Nat} {tokens rest : List Token} {x : α}
    (h : p (⟨k, position⟩ :: tokens) = .ok (x, rest)) :
    Taken a c (fun _ => p) (⟨k, position⟩ :: tokens) x rest := by
  rw [hp] at h
  exact Taken.cons (fun _ _ _ => hp _ _) hk
    (hq _ tokens.length tokens x rest (Nat.le_refl _) (Nat.le_refl _) h) position

end LocalUpTo

end SceneTemplates.Parser
