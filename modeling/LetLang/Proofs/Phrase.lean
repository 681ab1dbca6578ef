import LetLang.Parser
import Mathlib

/-! Phrases: the statements of the grammar with every token that they are written with. A
statement keeps neither its equals sign nor its semicolon; a phrase does. -/

namespace LetLang

namespace Expr

def first : Expr → Token
  | ident name => name.token
  | int token _ => token
  | prefixed token _ _ => token

def tokens : Expr → List Token
  | ident name => [name.token]
  | int token _ => [token]
  | prefixed token _ operand => token :: operand.tokens

def depth : Expr → Nat
  | ident _ => 0
  | int _ _ => 0
  | prefixed _ _ operand => operand.depth + 1

/-- Every node is what its token says: a name, an integer that fits into 64 bits, or one of the two
prefix operators before an operand. -/
def Grammatical : Expr → Prop
  | ident name => name.token.kind = .ident ∧ name.value = name.token.literal
  | int token value => token.kind = .int ∧ Number.int64? token.literal.toList = some value
  | prefixed token op operand => PrefixOp.ofKind? token.kind = some op ∧ operand.Grammatical

theorem tokens_eq_cons (e : Expr) : ∃ rest, e.tokens = e.first :: rest := by
  cases e <;> exact ⟨_, rfl⟩

theorem tokens_ne_nil (e : Expr) : e.tokens ≠ [] := by
  obtain ⟨rest, h⟩ := e.tokens_eq_cons
  simp [h]

end Expr

def Token.IsOperator (t : Token) : Prop := t.kind = .bang ∨ t.kind = .minus

instance (t : Token) : Decidable t.IsOperator := inferInstanceAs (Decidable (_ ∨ _))

theorem Token.isOperator_iff {t : Token} :
    t.IsOperator ↔ ∃ op, PrefixOp.ofKind? t.kind = some op := by
  unfold Token.IsOperator
  cases t.kind <;> simp [PrefixOp.ofKind?]

theorem Token.not_isOperator_iff {t : Token} :
    ¬ t.IsOperator ↔ PrefixOp.ofKind? t.kind = none := by
  rw [Token.isOperator_iff, Option.eq_none_iff_forall_ne_some, not_exists]

theorem Token.not_isOperator_of_kind {t : Token} {kind : TokenKind} (h : t.kind = kind)
    (hkind : PrefixOp.ofKind? kind = none) : ¬ t.IsOperator := by
  rw [Token.not_isOperator_iff, h]
  exact hkind

theorem Expr.Grammatical.kind_mem {e : Expr} (h : e.Grammatical) {t : Token} (ht : t ∈ e.tokens) :
    t.IsOperator ∨ t.kind = .ident ∨ t.kind = .int := by
  induction e with
  | ident name =>
    obtain rfl : t = name.token := by simpa [tokens] using ht
    exact .inr (.inl h.1)
  | int token value =>
    obtain rfl : t = token := by simpa [tokens] using ht
    exact .inr (.inr h.1)
  | prefixed token op operand ih =>
    rcases List.mem_cons.1 ht with rfl | ht
    · exact .inl (Token.isOperator_iff.2 ⟨op, h.1⟩)
    · exact ih h.2 ht

/-- The kinds of the tokens that a statement is made of, its semicolon apart. -/
def TokenKind.IsInner (kind : TokenKind) : Prop :=
  kind ∈ [letWord, returnWord, ident, int, assign, bang, minus]

instance (kind : TokenKind) : Decidable kind.IsInner := inferInstanceAs (Decidable (_ ∈ _))

theorem TokenKind.IsInner.ne_eof {kind : TokenKind} (h : kind.IsInner) : kind ≠ .eof := by
  rintro rfl
  exact absurd h (by decide)

theorem TokenKind.IsInner.ne_semicolon {kind : TokenKind} (h : kind.IsInner) :
    kind ≠ .semicolon := by
  rintro rfl
  exact absurd h (by decide)

theorem Token.IsOperator.isInner {t : Token} (h : t.IsOperator) : t.kind.IsInner := by
  rcases h with h | h <;> simp [h, TokenKind.IsInner]

theorem Token.IsOperator.ofToken_eq {t : Token} (h : t.IsOperator) :
    StatementKind.ofToken t.kind = .exprStmt := by
  rcases h with h | h <;> simp [h, StatementKind.ofToken]

theorem Expr.Grammatical.isInner {e : Expr} (h : e.Grammatical) {t : Token}
    (ht : t ∈ e.tokens) : t.kind.IsInner := by
  rcases h.kind_mem ht with h | h | h
  · exact h.isInner
  · simp [h, TokenKind.IsInner]
  · simp [h, TokenKind.IsInner]

theorem exists_zip_of_operators {ops : List Token} (h : ∀ t ∈ ops, t.IsOperator) :
    ∃ zipped : List (Token × PrefixOp), zipped.map Prod.fst = ops ∧
      ∀ p ∈ zipped, PrefixOp.ofKind? p.1.kind = some p.2 := by
  induction ops with
  | nil => exact ⟨[], rfl, by simp⟩
  | cons t ops ih =>
    obtain ⟨zipped, rfl, hzipped⟩ := ih fun u hu => h u (List.mem_cons_of_mem _ hu)
    obtain ⟨op, hop⟩ := Token.isOperator_iff.1 (h t List.mem_cons_self)
    exact ⟨(t, op) :: zipped, rfl, List.forall_mem_cons.2 ⟨hop, hzipped⟩⟩

theorem Expr.Grammatical.exists_prefixed {e : Expr} (he : e.Grammatical) {ops : List Token}
    (hops : ∀ t ∈ ops, t.IsOperator) :
    ∃ e' : Expr, e'.Grammatical ∧ e'.tokens = ops ++ e.tokens ∧
      e'.depth = ops.length + e.depth := by
  induction ops with
  | nil => exact ⟨e, he, rfl, by simp⟩
  | cons t ops ih =>
    obtain ⟨ht, hops⟩ := List.forall_mem_cons.1 hops
    obtain ⟨e', he', htokens, hdepth⟩ := ih hops
    obtain ⟨op, hop⟩ := Token.isOperator_iff.1 ht
    refine ⟨.prefixed t op e', ⟨hop, he'⟩, ?_, ?_⟩
    · rw [Expr.tokens, htokens, List.cons_append]
    · rw [Expr.depth, hdepth, List.length_cons]
      omega

theorem StatementKind.ofToken_eq_letStmt {k : TokenKind} : ofToken k = .letStmt ↔ k = .letWord := by
  cases k <;> simp [ofToken]

theorem StatementKind.ofToken_eq_returnStmt {k : TokenKind} :
    ofToken k = .returnStmt ↔ k = .returnWord := by
  cases k <;> simp [ofToken]

theorem ofToken_first {e : Expr} (he : e.Grammatical) :
    StatementKind.ofToken e.first.kind = .exprStmt := by
  obtain ⟨rest, hrest⟩ := e.tokens_eq_cons
  rcases he.kind_mem (t := e.first) (by simp [hrest]) with (h | h) | h | h <;>
    simp [h, StatementKind.ofToken]

theorem ofToken_of_mem_head? {ops : List Token} {x : Token} (hops : ∀ t ∈ ops, t.IsOperator)
    (hx : ops = [] → StatementKind.ofToken x.kind = .exprStmt) {t : Token}
    (ht : t ∈ (ops ++ [x]).head?) : StatementKind.ofToken t.kind = .exprStmt := by
  cases ops with
  | nil =>
    obtain rfl : x = t := Option.some.inj ht
    exact hx rfl
  | cons u ops =>
    obtain rfl : u = t := Option.some.inj ht
    exact (hops u List.mem_cons_self).ofToken_eq

/-- What stands before the expression of a statement. -/
inductive Lead where
  | binding (word name equals : Token)
  | returning (word : Token)
  | bare
  deriving DecidableEq, Repr

namespace Lead

def tokens : Lead → List Token
  | binding word name equals => [word, name, equals]
  | returning word => [word]
  | bare => []

def kind : Lead → StatementKind
  | binding .. => .letStmt
  | returning _ => .returnStmt
  | bare => .exprStmt

def statement (first : Token) : Lead → Expr → Statement
  | binding word name _ => .letStmt word ⟨name, name.literal⟩
  | returning word => .returnStmt word
  | bare => .exprStmt first

def Grammatical : Lead → Prop
  | binding word name equals =>
    word.kind = .letWord ∧ name.kind = .ident ∧ equals.kind = .assign
  | returning word => word.kind = .returnWord
  | bare => True

theorem kind_statement (lead : Lead) (first : Token) (e : Expr) :
    (lead.statement first e).kind = lead.kind := by
  cases lead <;> rfl

end Lead

theorem Lead.Grammatical.isInner {lead : Lead} (h : lead.Grammatical) {t : Token}
    (ht : t ∈ lead.tokens) : t.kind.IsInner := by
  cases lead with
  | binding word name equals =>
    obtain ⟨hword, hname, hequals⟩ := h
    simp only [tokens, List.mem_cons, List.not_mem_nil, or_false] at ht
    rcases ht with rfl | rfl | rfl <;> simp [hword, hname, hequals, TokenKind.IsInner]
  | returning word =>
    obtain rfl := List.mem_singleton.1 ht
    simp [show t.kind = .returnWord from h, TokenKind.IsInner]
  | bare => simp [tokens] at ht

/-- A statement as it is written. -/
structure Phrase where
  lead : Lead
  value : Expr
  stop : Option Token
  deriving DecidableEq, Repr

namespace Phrase

def kind (p : Phrase) : StatementKind := p.lead.kind

def body (p : Phrase) : List Token := p.lead.tokens ++ p.value.tokens

def tokens (p : Phrase) : List Token := p.body ++ p.stop.toList

def statement (p : Phrase) : Statement := p.lead.statement p.value.first p.value

structure Grammatical (p : Phrase) : Prop where
  lead : p.lead.Grammatical
  value : p.value.Grammatical
  depth : p.value.depth ≤ maxPrefixDepth
  stop : ∀ t ∈ p.stop, t.kind = .semicolon

/-- The semicolon is there, or the policy for the statement lets it be missing. -/
def Allowed (policies : Policies) (p : Phrase) : Prop :=
  p.stop = none → policies.ofKind p.kind = .optional

theorem kind_statement (p : Phrase) : p.statement.kind = p.kind := p.lead.kind_statement _ _

theorem tokens_ne_nil (p : Phrase) : p.tokens ≠ [] := by
  simp [tokens, body, p.value.tokens_ne_nil]

theorem tokens_eq_cons {p : Phrase} (hp : p.Grammatical) : ∃ t rest, p.tokens = t :: rest ∧
    (t.kind = .letWord ∨ t.kind = .returnWord ∨ t.IsOperator ∨ t.kind = .ident ∨ t.kind = .int) := by
  obtain ⟨lead, value, stop⟩ := p
  cases lead with
  | binding word name equals => exact ⟨word, _, rfl, .inl hp.lead.1⟩
  | returning word => exact ⟨word, _, rfl, .inr (.inl hp.lead)⟩
  | bare =>
    obtain ⟨rest, hrest⟩ := value.tokens_eq_cons
    refine ⟨value.first, rest ++ stop.toList, ?_, .inr (.inr ?_)⟩
    · simp [tokens, body, Lead.tokens, hrest]
    · exact hp.value.kind_mem (by simp [hrest])

theorem stop_eq {lead : Lead} {value : Expr} {stop stop' : Option Token}
    (h : (Phrase.mk lead value stop).tokens = (Phrase.mk lead value stop').tokens) :
    stop = stop' := by
  have h' : stop.toList = stop'.toList := List.append_cancel_left h
  cases stop <;> cases stop' <;> simp_all

/-- The statement and the tokens leave nothing of a phrase open. -/
theorem ext_of_statement {p q : Phrase} (hs : p.statement = q.statement)
    (ht : p.tokens = q.tokens) : p = q := by
  obtain ⟨lead, value, stop⟩ := p
  obtain ⟨lead', value', stop'⟩ := q
  cases lead <;> cases lead' <;>
    simp only [statement, Lead.statement, Statement.letStmt.injEq, Statement.returnStmt.injEq,
      Statement.exprStmt.injEq, Identifier.mk.injEq, reduceCtorEq] at hs
  case binding.binding word name equals word' name' equals' =>
    obtain ⟨rfl, ⟨rfl, -⟩, rfl⟩ := hs
    -- the equals sign is in the tokens only
    obtain rfl : equals = equals' := by
      simp only [tokens, body, Lead.tokens, List.cons_append, List.cons.injEq] at ht
      exact ht.2.2.1
    rw [stop_eq ht]
  case returning.returning =>
    obtain ⟨rfl, rfl⟩ := hs
    rw [stop_eq ht]
  case bare.bare =>
    obtain ⟨-, rfl⟩ := hs
    rw [stop_eq ht]

end Phrase

theorem Phrase.tokens_of_stop_eq_none {p : Phrase} (h : p.stop = none) : p.tokens = p.body := by
  simp [tokens, h]

theorem Phrase.Grammatical.isInner {p : Phrase} (h : p.Grammatical) {t : Token}
    (ht : t ∈ p.body) : t.kind.IsInner := by
  rcases List.mem_append.1 ht with ht | ht
  · exact h.lead.isInner ht
  · exact h.value.isInner ht

theorem Phrase.Grammatical.kind_ne_eof {p : Phrase} (h : p.Grammatical) {t : Token}
    (ht : t ∈ p.tokens) : t.kind ≠ .eof := by
  rcases List.mem_append.1 ht with ht | ht
  · exact (h.isInner ht).ne_eof
  · simp [h.stop t (Option.mem_toList.1 ht)]

theorem Phrase.dropLast_tokens_subset (p : Phrase) : p.tokens.dropLast ⊆ p.body := by
  cases h : p.stop with
  | none =>
    rw [tokens_of_stop_eq_none h]
    exact List.dropLast_subset _
  | some t => simp [tokens, h]

end LetLang
