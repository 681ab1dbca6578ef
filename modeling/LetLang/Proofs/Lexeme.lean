import LetLang.Proofs.Spelling

/-! Lexemes: how the tokens of each kind are written, said kind by kind and without a lexer. These
are exactly the tokens that a lexer can make. -/

namespace LetLang

def keywords : List String := ["fn", "let", "true", "false", "if", "else", "return"]

def symbolStarts : List Char :=
  ['(', ')', '\x7b', '\x7d', ',', ';', '+', '-', '*', '/', '<', '>', '!', '=']

def TokenKind.spelling? : TokenKind → Option String
  | illegal | eof | ident | int => none
  | fnWord => some "fn"
  | letWord => some "let"
  | trueWord => some "true"
  | falseWord => some "false"
  | ifWord => some "if"
  | elseWord => some "else"
  | returnWord => some "return"
  | kind => some kind.symbol

/-- The literal of the token is one that its kind can have. -/
def Token.IsLexeme (t : Token) : Prop :=
  match t.kind with
  | .ident => t.literal ≠ "" ∧ (∀ c ∈ t.literal.toList, isLetter c) ∧ t.literal ∉ keywords
  | .int => t.literal ≠ "" ∧ ∀ c ∈ t.literal.toList, c.isDigit
  | .illegal => ∃ c, t.literal = String.ofList [c] ∧ ¬ isSeparator c ∧ ¬ isLetter c ∧
      ¬ c.isDigit ∧ c ∉ symbolStarts
  | kind => kind.spelling? = some t.literal

theorem ofKeyword?_eq_none_iff {word : String} :
    TokenKind.ofKeyword? word = none ↔ word ∉ keywords := by
  unfold TokenKind.ofKeyword?
  split <;> simp_all [keywords]

theorem spelling?_of_ofKeyword? {word : String} {kind : TokenKind}
    (h : TokenKind.ofKeyword? word = some kind) : kind.spelling? = some word := by
  unfold TokenKind.ofKeyword? at h
  split at h <;> cases h <;> rfl

theorem ofChar?_eq_none_iff {c : Char} : TokenKind.ofChar? c = none ↔ c ∉ symbolStarts := by
  unfold TokenKind.ofChar?
  split <;> simp_all [symbolStarts]

theorem spelling?_of_ofChar? {c : Char} {kind : TokenKind} (h : TokenKind.ofChar? c = some kind) :
    kind.spelling? = some (String.ofList [c]) := by
  unfold TokenKind.ofChar? at h
  split at h <;> cases h <;> rfl

theorem isLexeme_of_spelling? {t : Token} (h : t.kind.spelling? = some t.literal) :
    t.IsLexeme := by
  obtain ⟨kind, literal⟩ := t
  cases kind <;> first | exact h | cases h

theorem wellFormed_of_spelling? {t : Token} (h : t.kind.spelling? = some t.literal) :
    t.WellFormed := by
  have hscan : scanToken t.literal.toList = some (t, []) := by
    obtain ⟨kind, literal⟩ := t
    cases kind <;> cases h <;> decide
  exact (scanToken_spec hscan).1

theorem Token.WellFormed.isLexeme {t : Token} (h : t.WellFormed) : t.IsLexeme := by
  cases h with
  | @word l hne hl =>
    cases hkey : TokenKind.ofKeyword? (String.ofList l) with
    | none =>
      have ht : ofWord (String.ofList l) = ⟨.ident, String.ofList l⟩ := by simp [ofWord, hkey]
      rw [ht]
      exact ⟨by simpa using hne, by simpa using hl, ofKeyword?_eq_none_iff.1 hkey⟩
    | some kind =>
      have ht : ofWord (String.ofList l) = ⟨kind, String.ofList l⟩ := by simp [ofWord, hkey]
      rw [ht]
      exact isLexeme_of_spelling? (spelling?_of_ofKeyword? hkey)
  | int hne hl => exact ⟨by simpa using hne, by simpa using hl⟩
  | symbol hc => exact isLexeme_of_spelling? (spelling?_of_ofChar? hc)
  | @withEquals c kind longer hc hlonger =>
    apply isLexeme_of_spelling?
    unfold TokenKind.ofChar? at hc
    split at hc <;> cases hc <;> cases hlonger <;> rfl
  | @illegal c hsep hsymbol hletter hdigit =>
    exact ⟨c, rfl, by simp [hsep], by simp [hletter], by simp [hdigit],
      ofChar?_eq_none_iff.1 hsymbol⟩

theorem Token.IsLexeme.wellFormed {t : Token} (h : t.IsLexeme) : t.WellFormed := by
  obtain ⟨kind, literal⟩ := t
  have hliteral : String.ofList literal.toList = literal := String.ofList_toList
  cases kind
  case ident =>
    obtain ⟨hne, hl, hkey⟩ := h
    have hword := WellFormed.word (l := literal.toList) (by simpa using hne) hl
    simpa [ofWord, hliteral, ofKeyword?_eq_none_iff.2 hkey] using hword
  case int =>
    obtain ⟨hne, hl⟩ := h
    have hint := WellFormed.int (l := literal.toList) (by simpa using hne) hl
    rwa [hliteral] at hint
  case illegal =>
    obtain ⟨c, rfl, hsep, hletter, hdigit, hstart⟩ := h
    exact .illegal (by simpa using hsep) (ofChar?_eq_none_iff.2 hstart) (by simpa using hletter)
      (by simpa using hdigit)
  all_goals exact wellFormed_of_spelling? h

theorem Token.WellFormed.literal_eq {t : Token} (ht : t.WellFormed) {literal : String}
    (h : t.kind.spelling? = some literal) : t.literal = literal := by
  have hlexeme := ht.isLexeme
  obtain ⟨kind, l⟩ := t
  have hl : kind.spelling? = some l := by
    cases kind <;> first | exact hlexeme | cases h
  exact Option.some.inj (hl.symm.trans h)

theorem Token.eq_of_spelling? {t : Token} {kind : TokenKind} {literal : String}
    (ht : t.WellFormed) (hkind : t.kind = kind) (h : kind.spelling? = some literal) :
    t = ⟨kind, literal⟩ := by
  obtain rfl : t.literal = literal := ht.literal_eq (hkind ▸ h)
  rw [← hkind]

end LetLang
