import LetLang.Proofs.Phrase
import LetLang.Proofs.Lexeme
import LetLang.Proofs.Queue

/-! Rendered programs. The text of a statement spells the tokens that the statement was read from,
with a semicolon at its end, if these were tokens that a lexer can make. -/

namespace LetLang

theorem Token.not_absorbs_semicolon (t : Token) : ¬ t.Absorbs ';' := by
  rintro (⟨-, h⟩ | ⟨-, h⟩ | ⟨-, h⟩) <;> exact absurd h (by decide)

theorem Spells.semicolon {text : List Char} {ts : List Token} (h : Spells text ts) :
    Spells (';' :: text) (⟨.semicolon, ";"⟩ :: ts) := by
  refine .token (t := ⟨.semicolon, ";"⟩) (.symbol (c := ';') rfl) ?_ h
  rintro c hc (⟨hkind, -⟩ | ⟨hkind, -⟩ | ⟨hkind, -⟩) <;> exact absurd hkind (by decide)

theorem tokens_empty : tokens "" = [] := by decide

theorem tokens_append {a b : String} (h : ∀ c ∈ b.toList.head?, ∀ t : Token, ¬ t.Absorbs c) :
    tokens (a ++ b) = tokens a ++ tokens b := by
  rw [tokens_eq_scanAll, tokens_eq_scanAll, tokens_eq_scanAll, String.toList_append]
  exact ((spells_scanAll a.toList).append (spells_scanAll b.toList) h).scanAll_eq

theorem Spells.head?_ne_equals {text : List Char} {t : Token} {ts : List Token}
    (h : Spells text (t :: ts)) (hassign : t.kind ≠ .assign) (heq : t.kind ≠ .eq) :
    ∀ c ∈ text.head?, c ≠ '=' := by
  rintro c hc rfl
  cases h with
  | blank hsep hrest =>
    obtain rfl : _ = '=' := by simpa using hc
    exact absurd hsep (by decide)
  | token ht hstop hrest =>
    obtain ⟨c, rest, hliteral, -, -⟩ := ht.exists_lexeme_eq hstop
    rw [hliteral] at hc
    rcases (ht.head_iff (by rw [hliteral]; exact hc)).2.2.1 rfl with h | h
    · exact hassign h
    · exact heq h

theorem spelling?_of_ofKind? {kind : TokenKind} {op : PrefixOp}
    (h : PrefixOp.ofKind? kind = some op) : kind.spelling? = some op.symbol := by
  cases kind <;> simp [PrefixOp.ofKind?] at h <;> subst h <;> rfl

theorem not_isWord_of_ofKind? {kind : TokenKind} {op : PrefixOp}
    (h : PrefixOp.ofKind? kind = some op) : ¬ kind.IsWord ∧ kind ≠ .int := by
  cases kind <;> simp_all [PrefixOp.ofKind?, TokenKind.IsWord]

theorem Spells.operator {token t : Token} {op : PrefixOp} {text : List Char} {ts : List Token}
    (hop : PrefixOp.ofKind? token.kind = some op) (htoken : token.WellFormed)
    (h : Spells text (t :: ts)) (hassign : t.kind ≠ .assign) (heq : t.kind ≠ .eq) :
    Spells (op.symbol.toList ++ text) (token :: t :: ts) := by
  obtain ⟨hword, hint⟩ := not_isWord_of_ofKind? hop
  rw [← htoken.literal_eq (spelling?_of_ofKind? hop)]
  refine .token htoken ?_ h
  rintro c hc (⟨h', -⟩ | ⟨h', -⟩ | ⟨-, h'⟩)
  · exact hword h'
  · exact hint h'
  · exact h.head?_ne_equals hassign heq c hc h'

theorem Expr.Grammatical.spells_render {e : Expr} (he : e.Grammatical)
    (hw : ∀ t ∈ e.tokens, t.WellFormed) {text : List Char} {ts : List Token}
    (hhead : text.head? = some ';') (hrest : Spells text ts) :
    Spells (e.render.toList ++ text) (e.tokens ++ ts) := by
  have hstop (t : Token) : ∀ c ∈ text.head?, ¬ t.Absorbs c := by
    intro c hc
    obtain rfl : ';' = c := Option.some.inj (hhead.symm.trans hc)
    exact t.not_absorbs_semicolon
  induction e with
  | ident name =>
    rw [render, he.2]
    exact .token (hw _ List.mem_cons_self) (hstop _) hrest
  | int token value => exact .token (hw _ List.mem_cons_self) (hstop _) hrest
  | prefixed token op operand ih =>
    obtain ⟨htoken, hoperand⟩ := List.forall_mem_cons.1 hw
    have hspells := ih he.2 hoperand
    obtain ⟨rest, hfirst⟩ := operand.tokens_eq_cons
    have hkind := he.2.kind_mem (t := operand.first) (by simp [hfirst])
    rw [hfirst] at hspells
    rw [render, String.toList_append, List.append_assoc, tokens, hfirst]
    refine .operator he.1 htoken hspells ?_ ?_
    · rcases hkind with (h | h) | h | h <;> simp [h]
    · rcases hkind with (h | h) | h | h <;> simp [h]

def Phrase.terminated (p : Phrase) : Phrase := { p with stop := some ⟨.semicolon, ";"⟩ }

theorem Phrase.tokens_terminated (p : Phrase) :
    p.terminated.tokens = p.lead.tokens ++ (p.value.tokens ++ [⟨.semicolon, ";"⟩]) :=
  List.append_assoc ..

theorem Phrase.Grammatical.terminated {p : Phrase} (hp : p.Grammatical) :
    p.terminated.Grammatical :=
  ⟨hp.lead, hp.value, hp.depth, by simp [Phrase.terminated]⟩

theorem Phrase.Grammatical.spells_render {p : Phrase} (hp : p.Grammatical)
    (hw : ∀ t ∈ p.body, t.WellFormed) {text : List Char} {ts : List Token}
    (hrest : Spells text ts) :
    Spells (p.statement.render.toList ++ text) (p.terminated.tokens ++ ts) := by
  obtain ⟨lead, value, stop⟩ := p
  have hspace (t : Token) (rest : List Char) : ∀ c ∈ (' ' :: rest).head?, ¬ t.Absorbs c := by
    intro c hc
    obtain rfl : ' ' = c := Option.some.inj hc
    exact t.not_absorbs_separator rfl
  have hlead : ∀ t ∈ lead.tokens, t.WellFormed := by
    intro t ht
    exact hw t (List.mem_append_left _ ht)
  have hvalue : ∀ t ∈ value.tokens, t.WellFormed := by
    intro t ht
    exact hw t (List.mem_append_right _ ht)
  have hend := hp.value.spells_render hvalue rfl hrest.semicolon
  rw [tokens_terminated, List.append_assoc, List.append_assoc]
  cases lead with
  | binding word name equals =>
    obtain ⟨hword, hlead⟩ := List.forall_mem_cons.1 hlead
    obtain ⟨hname, hlead⟩ := List.forall_mem_cons.1 hlead
    have hequals := List.forall_mem_singleton.1 hlead
    have hliteral : equals.literal = "=" := hequals.literal_eq (by rw [hp.lead.2.2]; rfl)
    have h := Spells.token hword (hspace _ _) (.blank rfl (.token hname (hspace _ _) (.blank rfl
      (.token hequals (hspace _ _) (.blank rfl hend)))))
    simpa [statement, Lead.statement, Statement.render, Lead.tokens, hliteral] using h
  | returning word =>
    have hword := List.forall_mem_singleton.1 hlead
    have h := Spells.token hword (hspace _ _) (.blank rfl hend)
    simpa [statement, Lead.statement, Statement.render, Lead.tokens] using h
  | bare => simpa [statement, Lead.statement, Statement.render, Lead.tokens] using hend

/-- A rendered program spells its statements, each with a semicolon. -/
theorem spells_render {phrases : List Phrase}
    (h : ∀ p ∈ phrases, p.Grammatical ∧ ∀ t ∈ p.body, t.WellFormed) :
    Spells (Program.mk (phrases.map Phrase.statement)).render.toList
      ((phrases.map Phrase.terminated).flatMap Phrase.tokens) := by
  induction phrases with
  | nil => exact .nil
  | cons p phrases ih =>
    obtain ⟨⟨hp, hw⟩, hphrases⟩ := List.forall_mem_cons.1 h
    cases phrases with
    | nil =>
      have hlast := hp.spells_render hw .nil
      simpa [Program.render] using hlast
    | cons q phrases =>
      have hrest := hp.spells_render hw (.blank (c := '\n') rfl (ih hphrases))
      simpa [Program.render] using hrest

theorem tokens_render {phrases : List Phrase}
    (h : ∀ p ∈ phrases, p.Grammatical ∧ ∀ t ∈ p.body, t.WellFormed) :
    tokens (Program.mk (phrases.map Phrase.statement)).render =
      (phrases.map Phrase.terminated).flatMap Phrase.tokens := by
  rw [tokens_eq_scanAll, (spells_render h).scanAll_eq]

end LetLang
