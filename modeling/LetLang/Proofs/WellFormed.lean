import LetLang.Proofs.Integers
import LetLang.Proofs.RoundTrip

/-! Well-formed trees: those whose stored tokens, values and operators agree with one another, and
that nest no more operators than a parser reads. Exactly these come back from their text; they are
the statements of the phrases that a lexer can make. -/

namespace LetLang

def PrefixOp.token : PrefixOp → Token
  | not => ⟨.bang, "!"⟩
  | neg => ⟨.minus, "-"⟩

/-- The token is the name, and a word that is no keyword. -/
structure Identifier.WellFormed (name : Identifier) : Prop where
  kind : name.token.kind = .ident
  literal : name.token.literal = name.value
  lexeme : name.token.IsLexeme

/-- An integer is worth what its digits say, and an operator is the one of its token. -/
def Expr.WellFormed : Expr → Prop
  | ident name => name.WellFormed
  | int token value => token.kind = .int ∧ token.IsLexeme ∧
      value.toInt = Nat.ofDigitChars 10 token.literal.toList 0
  | prefixed token op operand => token = op.token ∧ operand.WellFormed

def Statement.WellFormed (s : Statement) : Prop :=
  s.value.WellFormed ∧ s.value.depth ≤ 256 ∧
    match s with
    | letStmt token name _ => token = ⟨.letWord, "let"⟩ ∧ name.WellFormed
    | returnStmt token _ => token = ⟨.returnWord, "return"⟩
    | exprStmt token value => token = value.first

def Program.WellFormed (p : Program) : Prop := ∀ s ∈ p.statements, s.WellFormed

theorem Identifier.wellFormed_iff {name : Identifier} :
    name.WellFormed ↔
      (name.token.kind = .ident ∧ name.value = name.token.literal) ∧ name.token.WellFormed := by
  constructor
  · rintro ⟨hkind, hliteral, hlexeme⟩
    exact ⟨⟨hkind, hliteral.symm⟩, hlexeme.wellFormed⟩
  · rintro ⟨⟨hkind, hvalue⟩, hwell⟩
    exact ⟨hkind, hvalue.symm, hwell.isLexeme⟩

theorem Token.isLexeme_int_iff {t : Token} (h : t.kind = .int) :
    t.IsLexeme ↔ t.literal.toList ≠ [] ∧ ∀ c ∈ t.literal.toList, c.isDigit := by
  simp [IsLexeme, h]

theorem PrefixOp.token_wellFormed (op : PrefixOp) : op.token.WellFormed := by
  cases op <;> exact wellFormed_of_spelling? rfl

theorem PrefixOp.eq_token_iff {t : Token} {op : PrefixOp} :
    t = op.token ↔ PrefixOp.ofKind? t.kind = some op ∧ t.WellFormed := by
  constructor
  · rintro rfl
    exact ⟨by cases op <;> rfl, op.token_wellFormed⟩
  · rintro ⟨hop, ht⟩
    have hliteral := ht.literal_eq (spelling?_of_ofKind? hop)
    obtain ⟨kind, literal⟩ := t
    cases kind <;> cases hop <;> cases hliteral <;> rfl

/-- A well-formed expression is one that can be parsed, made of tokens that can be lexed. -/
theorem Expr.wellFormed_iff {e : Expr} :
    e.WellFormed ↔ e.Grammatical ∧ ∀ t ∈ e.tokens, t.WellFormed := by
  induction e with
  | ident name =>
    simp only [WellFormed, Grammatical, tokens, List.mem_singleton, forall_eq]
    exact Identifier.wellFormed_iff
  | int token value =>
    simp only [WellFormed, Grammatical, tokens, List.mem_singleton, forall_eq]
    constructor
    · rintro ⟨hkind, hlexeme, hvalue⟩
      obtain ⟨hne, hdigits⟩ := (Token.isLexeme_int_iff hkind).1 hlexeme
      exact ⟨⟨hkind, (Number.int64?_eq_some_iff hne hdigits).2 hvalue⟩, hlexeme.wellFormed⟩
    · rintro ⟨⟨hkind, hvalue⟩, hwell⟩
      obtain ⟨hne, hdigits⟩ := (Token.isLexeme_int_iff hkind).1 hwell.isLexeme
      exact ⟨hkind, hwell.isLexeme, (Number.int64?_eq_some_iff hne hdigits).1 hvalue⟩
  | prefixed token op operand ih =>
    simp only [WellFormed, Grammatical, tokens, List.mem_cons, forall_eq_or_imp, ih,
      PrefixOp.eq_token_iff]
    exact and_and_and_comm

theorem Statement.WellFormed.exists_phrase {s : Statement} (h : s.WellFormed) :
    ∃ p : Phrase, p.statement = s ∧ p.Grammatical ∧ ∀ t ∈ p.body, t.WellFormed := by
  obtain ⟨hvalue, hdepth, hlead⟩ := h
  obtain ⟨hgram, htokens⟩ := Expr.wellFormed_iff.1 hvalue
  cases s with
  | letStmt token name value =>
    obtain ⟨rfl, hname⟩ := hlead
    obtain ⟨⟨hkind, hliteral⟩, hwell⟩ := Identifier.wellFormed_iff.1 hname
    obtain ⟨token, word⟩ := name
    obtain rfl : word = token.literal := hliteral
    have hlet : Token.WellFormed ⟨.letWord, "let"⟩ := wellFormed_of_spelling? rfl
    have hequals : Token.WellFormed ⟨.assign, "="⟩ := wellFormed_of_spelling? rfl
    refine ⟨⟨.binding ⟨.letWord, "let"⟩ token ⟨.assign, "="⟩, value, none⟩, rfl,
      ⟨⟨rfl, hkind, rfl⟩, hgram, hdepth, by simp⟩, ?_⟩
    exact List.forall_mem_append.2 ⟨by simp [Lead.tokens, hlet, hwell, hequals], htokens⟩
  | returnStmt token value =>
    obtain rfl : token = ⟨.returnWord, "return"⟩ := hlead
    have hreturn : Token.WellFormed ⟨.returnWord, "return"⟩ := wellFormed_of_spelling? rfl
    refine ⟨⟨.returning ⟨.returnWord, "return"⟩, value, none⟩, rfl,
      ⟨rfl, hgram, hdepth, by simp⟩, ?_⟩
    exact List.forall_mem_append.2 ⟨by simp [Lead.tokens, hreturn], htokens⟩
  | exprStmt token value =>
    obtain rfl : token = value.first := hlead
    exact ⟨⟨.bare, value, none⟩, rfl, ⟨trivial, hgram, hdepth, by simp⟩, htokens⟩

theorem Phrase.Grammatical.wellFormed_statement {p : Phrase} (hp : p.Grammatical)
    (hw : ∀ t ∈ p.body, t.WellFormed) : p.statement.WellFormed := by
  obtain ⟨lead, value, stop⟩ := p
  obtain ⟨hlead, htokens⟩ := List.forall_mem_append.1 hw
  have hvalue : value.WellFormed := Expr.wellFormed_iff.2 ⟨hp.value, htokens⟩
  have hdepth : value.depth ≤ 256 := hp.depth
  cases lead with
  | binding word name equals =>
    obtain ⟨hword, hname, -⟩ := hp.lead
    have hwell : name.WellFormed := hlead name (by simp [Lead.tokens])
    exact ⟨hvalue, hdepth,
      Token.eq_of_spelling? (hlead word (by simp [Lead.tokens])) hword rfl,
      Identifier.wellFormed_iff.2 ⟨⟨hname, rfl⟩, hwell⟩⟩
  | returning word =>
    exact ⟨hvalue, hdepth,
      Token.eq_of_spelling? (hlead word (by simp [Lead.tokens])) hp.lead rfl⟩
  | bare => exact ⟨hvalue, hdepth, rfl⟩

/-- The statements of a well-formed program are those of phrases that a lexer can make. -/
theorem Program.wellFormed_iff {p : Program} :
    p.WellFormed ↔ ∃ phrases : List Phrase, p = ⟨phrases.map Phrase.statement⟩ ∧
      ∀ q ∈ phrases, q.Grammatical ∧ ∀ t ∈ q.body, t.WellFormed := by
  constructor
  · intro h
    obtain ⟨statements⟩ := p
    induction statements with
    | nil => exact ⟨[], rfl, by simp⟩
    | cons s statements ih =>
      obtain ⟨hs, hstatements⟩ := List.forall_mem_cons.1 h
      obtain ⟨q, rfl, hq⟩ := hs.exists_phrase
      obtain ⟨phrases, heq, hphrases⟩ := ih hstatements
      obtain rfl : statements = _ := congrArg Program.statements heq
      exact ⟨q :: phrases, rfl, List.forall_mem_cons.2 ⟨hq, hphrases⟩⟩
  · rintro ⟨phrases, rfl, hphrases⟩
    refine List.forall_mem_map.2 fun q hq => ?_
    obtain ⟨hgram, hwell⟩ := hphrases q hq
    exact hgram.wellFormed_statement hwell

/-- A program is read back from its text, without an error, if and only if it is well formed. -/
theorem parse_render_eq_iff_wellFormed (p : Program) (policies : Policies) :
    parse p.render policies = ⟨p, []⟩ ↔ p.WellFormed := by
  rw [Program.wellFormed_iff]
  constructor
  · intro h
    obtain ⟨phrases, hprogram, hphrases⟩ := parse_exists_phrases p.render policies
    rw [h] at hprogram
    exact ⟨phrases, hprogram, hphrases⟩
  · rintro ⟨phrases, rfl, hphrases⟩
    exact parse_render_phrases hphrases policies

end LetLang
