import LetLang.Lexer
import Mathlib

/-! Spelling: a text spells a list of tokens if it is their literals in order, with blanks between
them wherever two would grow together. The lexer reads off exactly what a text spells. -/

namespace LetLang

/-- The tokens that a lexer can make. -/
inductive Token.WellFormed : Token → Prop
  | word {l : List Char} (hne : l ≠ []) (hl : ∀ c ∈ l, isLetter c) :
      WellFormed (Token.ofWord (String.ofList l))
  | int {l : List Char} (hne : l ≠ []) (hl : ∀ c ∈ l, c.isDigit) :
      WellFormed ⟨.int, String.ofList l⟩
  | symbol {c : Char} {kind : TokenKind} (hc : TokenKind.ofChar? c = some kind) :
      WellFormed ⟨kind, String.ofList [c]⟩
  | withEquals {c : Char} {kind longer : TokenKind} (hc : TokenKind.ofChar? c = some kind)
      (hlonger : kind.withEquals? = some longer) : WellFormed ⟨longer, String.ofList [c, '=']⟩
  | illegal {c : Char} (hsep : isSeparator c = false) (hsymbol : TokenKind.ofChar? c = none)
      (hletter : isLetter c = false) (hdigit : c.isDigit = false) :
      WellFormed ⟨.illegal, String.ofList [c]⟩

def TokenKind.IsWord (kind : TokenKind) : Prop :=
  kind ∈ [ident, fnWord, letWord, trueWord, falseWord, ifWord, elseWord, returnWord]

instance (kind : TokenKind) : Decidable kind.IsWord := inferInstanceAs (Decidable (_ ∈ _))

/-- A character that becomes part of a token when it follows at once. -/
def Token.Absorbs (t : Token) (c : Char) : Prop :=
  (t.kind.IsWord ∧ isLetter c) ∨ (t.kind = .int ∧ c.isDigit) ∨
    ((t.kind = .assign ∨ t.kind = .bang) ∧ c = '=')

inductive Spells : List Char → List Token → Prop
  | nil : Spells [] []
  | blank {c : Char} {text : List Char} {ts : List Token} (hc : isSeparator c)
      (hrest : Spells text ts) : Spells (c :: text) ts
  | token {t : Token} {text : List Char} {ts : List Token} (ht : t.WellFormed)
      (hstop : ∀ c ∈ text.head?, ¬ t.Absorbs c) (hrest : Spells text ts) :
      Spells (t.literal.toList ++ text) (t :: ts)

theorem ofChar?_of_isLetter {c : Char} (h : isLetter c) : TokenKind.ofChar? c = none := by
  unfold TokenKind.ofChar?
  split <;> first | rfl | exact absurd h (by decide)

theorem ofChar?_of_isDigit {c : Char} (h : c.isDigit) : TokenKind.ofChar? c = none := by
  unfold TokenKind.ofChar?
  split <;> first | rfl | exact absurd h (by decide)

theorem isLetter_of_isDigit {c : Char} (h : c.isDigit) : isLetter c = false := by
  simp only [Char.isDigit, isLetter, Char.isAlpha, Char.isUpper, Char.isLower, Bool.and_eq_true,
    decide_eq_true_eq, Bool.or_eq_false_iff, Bool.and_eq_false_iff, decide_eq_false_iff_not,
    beq_eq_false_iff_ne, ge_iff_le, UInt32.le_iff_toNat_le] at h ⊢
  refine ⟨?_, ?_⟩
  · rintro rfl
    exact absurd h (by decide)
  · have h9 : '9'.val.toNat = 57 := rfl
    have hA : 'A'.val.toNat = 65 := rfl
    have ha : 'a'.val.toNat = 97 := rfl
    omega

theorem isDigit_of_isLetter {c : Char} (h : isLetter c) : c.isDigit = false := by
  cases hdigit : c.isDigit with
  | false => rfl
  | true => rw [isLetter_of_isDigit hdigit] at h; cases h

theorem isSeparator_iff {c : Char} :
    isSeparator c ↔ c = ' ' ∨ c = '\t' ∨ c = '\n' ∨ c = '\r' := by
  simp [isSeparator, or_assoc]

theorem isSeparator_eq_false {c : Char}
    (h : isLetter c ∨ c.isDigit ∨ TokenKind.ofChar? c ≠ none) : isSeparator c = false := by
  cases hsep : isSeparator c with
  | false => rfl
  | true => rcases isSeparator_iff.1 hsep with rfl | rfl | rfl | rfl <;> exact absurd h (by decide)

theorem kind_of_withEquals? {kind longer : TokenKind} (h : kind.withEquals? = some longer) :
    kind = .assign ∨ kind = .bang := by
  cases kind <;> simp_all [TokenKind.withEquals?]

theorem withEquals?_of_kind {kind : TokenKind} (h : kind = .assign ∨ kind = .bang) :
    ∃ longer, kind.withEquals? = some longer := by
  rcases h with rfl | rfl <;> exact ⟨_, rfl⟩

theorem eq_or_notEq_of_withEquals? {kind longer : TokenKind}
    (h : kind.withEquals? = some longer) : longer = .eq ∨ longer = .notEq := by
  cases kind <;> simp_all [TokenKind.withEquals?]

theorem isWord_ofWord (word : String) : (Token.ofWord word).kind.IsWord := by
  unfold Token.ofWord TokenKind.ofKeyword?
  dsimp only
  split <;> decide

theorem absorbs_ofWord_iff {word : String} {c : Char} :
    (Token.ofWord word).Absorbs c ↔ isLetter c := by
  have hword := isWord_ofWord word
  constructor
  · rintro (⟨-, hc⟩ | ⟨hkind, -⟩ | ⟨hkind | hkind, -⟩)
    · exact hc
    all_goals
      rw [hkind] at hword
      exact absurd hword (by decide)
  · exact fun hc => .inl ⟨hword, hc⟩

theorem Token.not_absorbs_separator (t : Token) {c : Char} (hc : isSeparator c) :
    ¬ t.Absorbs c := by
  rintro (⟨-, h⟩ | ⟨-, h⟩ | ⟨-, rfl⟩)
  · rw [isSeparator_eq_false (.inl h)] at hc
    cases hc
  · rw [isSeparator_eq_false (.inr (.inl h))] at hc
    cases hc
  · cases hc

theorem kind_of_ofChar? {c : Char} {kind : TokenKind} (h : TokenKind.ofChar? c = some kind) :
    ¬ kind.IsWord ∧ kind ≠ .int ∧ kind ≠ .eof := by
  unfold TokenKind.ofChar? at h
  split at h <;> cases h <;> decide

theorem takeWhile_append_of_head? {α : Type} {p : α → Bool} {l text : List α}
    (hl : ∀ c ∈ l, p c) (htext : ∀ c ∈ text.head?, p c = false) :
    (l ++ text).takeWhile p = l ∧ (l ++ text).dropWhile p = text := by
  rw [List.takeWhile_append_of_pos hl, List.dropWhile_append_of_pos hl]
  cases text with
  | nil => simp
  | cons c text => simp [htext c rfl]

theorem Token.WellFormed.exists_lexeme_eq {t : Token} (ht : t.WellFormed) {text : List Char}
    (hstop : ∀ c ∈ text.head?, ¬ t.Absorbs c) :
    ∃ c rest, t.literal.toList = c :: rest ∧ isSeparator c = false ∧
      lexeme c (rest ++ text) = (t, text) := by
  cases ht with
  | @word l hne hl =>
    obtain ⟨c, rest, rfl⟩ := List.exists_cons_of_ne_nil hne
    obtain ⟨hc, hrest⟩ := List.forall_mem_cons.1 hl
    have hstop' : ∀ d ∈ text.head?, isLetter d = false := by
      intro d hd
      simpa [absorbs_ofWord_iff] using hstop d hd
    obtain ⟨htake, hdrop⟩ := takeWhile_append_of_head? hrest hstop'
    refine ⟨c, rest, by simp [Token.ofWord], isSeparator_eq_false (.inl hc), ?_⟩
    simp [lexeme, ofChar?_of_isLetter hc, hc, htake, hdrop]
  | @int l hne hl =>
    obtain ⟨c, rest, rfl⟩ := List.exists_cons_of_ne_nil hne
    obtain ⟨hc, hrest⟩ := List.forall_mem_cons.1 hl
    have hstop' : ∀ d ∈ text.head?, d.isDigit = false := by
      intro d hd
      simpa [Absorbs, TokenKind.IsWord] using hstop d hd
    obtain ⟨htake, hdrop⟩ := takeWhile_append_of_head? hrest hstop'
    refine ⟨c, rest, by simp, isSeparator_eq_false (.inr (.inl hc)), ?_⟩
    simp [lexeme, ofChar?_of_isDigit hc, isLetter_of_isDigit hc, hc, htake, hdrop]
  | @symbol c kind hc =>
    refine ⟨c, [], by simp, isSeparator_eq_false (.inr (.inr (by simp [hc]))), ?_⟩
    cases hlonger : kind.withEquals? with
    | none => simp [lexeme, hc, hlonger]
    | some longer =>
      have hkind := kind_of_withEquals? hlonger
      cases text with
      | nil => simp [lexeme, hc, hlonger]
      | cons d text =>
        have hd : d ≠ '=' := fun h => hstop d rfl (.inr (.inr ⟨hkind, h⟩))
        simp [lexeme, hc, hlonger, hd]
  | @withEquals c kind longer hc hlonger =>
    refine ⟨c, ['='], by simp, isSeparator_eq_false (.inr (.inr (by simp [hc]))), ?_⟩
    simp [lexeme, hc, hlonger]
  | @illegal c hsep hsymbol hletter hdigit =>
    exact ⟨c, [], by simp, hsep, by simp [lexeme, hsymbol, hletter, hdigit]⟩

theorem head?_dropWhile {p : Char → Bool} {l : List Char} {c : Char}
    (h : c ∈ (l.dropWhile p).head?) : p c = false := by
  have hnot := List.head?_dropWhile_not p l
  rw [Option.mem_def.1 h] at hnot
  exact hnot

theorem lexeme_spec {c : Char} (hc : isSeparator c = false) (rest : List Char) :
    (lexeme c rest).1.WellFormed ∧
      (lexeme c rest).1.literal.toList ++ (lexeme c rest).2 = c :: rest ∧
      ∀ d ∈ (lexeme c rest).2.head?, ¬ (lexeme c rest).1.Absorbs d := by
  unfold lexeme
  split
  · next kind hkind =>
    split
    · next longer rest' hlonger =>
      refine ⟨.withEquals hkind hlonger, by simp, ?_⟩
      rcases eq_or_notEq_of_withEquals? hlonger with rfl | rfl <;>
        simp [Token.Absorbs, TokenKind.IsWord]
    · next hshort =>
      refine ⟨.symbol hkind, by simp, ?_⟩
      rintro d hd (⟨hword, -⟩ | ⟨hint, -⟩ | ⟨hassign, rfl⟩)
      · exact (kind_of_ofChar? hkind).1 hword
      · exact (kind_of_ofChar? hkind).2.1 hint
      · obtain ⟨longer, hlonger⟩ := withEquals?_of_kind hassign
        obtain ⟨rest', rfl⟩ := List.head?_eq_some_iff.1 hd
        exact hshort longer rest' hlonger rfl
  · next hsymbol =>
    split
    · next hletter =>
      have hall : ∀ d ∈ c :: rest.takeWhile isLetter, isLetter d :=
        List.forall_mem_cons.2 ⟨hletter, List.all_eq_true.1 List.all_takeWhile⟩
      refine ⟨.word (List.cons_ne_nil _ _) hall, by simp [Token.ofWord], ?_⟩
      intro d hd
      rw [absorbs_ofWord_iff, head?_dropWhile hd]
      exact Bool.false_ne_true
    · next hletter =>
      split
      · next hdigit =>
        have hall : ∀ d ∈ c :: rest.takeWhile Char.isDigit, d.isDigit :=
          List.forall_mem_cons.2 ⟨hdigit, List.all_eq_true.1 List.all_takeWhile⟩
        refine ⟨.int (List.cons_ne_nil _ _) hall, by simp, ?_⟩
        intro d hd
        simp [Token.Absorbs, TokenKind.IsWord, head?_dropWhile hd]
      · next hdigit =>
        refine ⟨.illegal hc hsymbol (by simpa using hletter) (by simpa using hdigit), by simp, ?_⟩
        simp [Token.Absorbs, TokenKind.IsWord]

theorem TokenKind.IsWord.ne {kind : TokenKind} (h : kind.IsWord) :
    kind ≠ .int ∧ kind ≠ .assign ∧ kind ≠ .eq := by
  refine ⟨?_, ?_, ?_⟩ <;> rintro rfl <;> exact absurd h (by decide)

/-- The first character of a token tells what kind of token it is, as far as this decides whether
another token absorbs it. -/
theorem Token.WellFormed.head_iff {t : Token} (ht : t.WellFormed) {c : Char}
    (hc : c ∈ t.literal.toList.head?) : (isLetter c ↔ t.kind.IsWord) ∧
      (c.isDigit ↔ t.kind = .int) ∧ (c = '=' ↔ t.kind = .assign ∨ t.kind = .eq) := by
  cases ht with
  | @word l hne hl =>
    have hletter : isLetter c := hl c (List.mem_of_mem_head? (by simpa [ofWord] using hc))
    have hdigit : c.isDigit = false := isDigit_of_isLetter hletter
    have hequals : c ≠ '=' := by
      rintro rfl
      exact absurd hletter (by decide)
    have hword := isWord_ofWord (String.ofList l)
    simp [hletter, hdigit, hequals, hword, hword.ne]
  | @int l hne hl =>
    have hdigit : c.isDigit := hl c (List.mem_of_mem_head? (by simpa using hc))
    have hequals : c ≠ '=' := by
      rintro rfl
      exact absurd hdigit (by decide)
    simp [hdigit, isLetter_of_isDigit hdigit, hequals, TokenKind.IsWord]
  | @symbol d kind hd =>
    obtain rfl : d = c := by simpa using hc
    unfold TokenKind.ofChar? at hd
    split at hd <;> cases hd <;> decide
  | @withEquals d kind longer hd hlonger =>
    obtain rfl : d = c := by simpa using hc
    unfold TokenKind.ofChar? at hd
    split at hd <;> cases hd <;> cases hlonger <;> decide
  | @illegal d hsep hsymbol hletter hdigit =>
    obtain rfl : d = c := by simpa using hc
    have hequals : d ≠ '=' := by
      rintro rfl
      cases hsymbol
    simp [hletter, hdigit, hequals, TokenKind.IsWord]

theorem scanToken_blank {c : Char} (hc : isSeparator c) (text : List Char) :
    scanToken (c :: text) = scanToken text := by
  simp [scanToken, hc]

theorem Token.WellFormed.scanToken_eq {t : Token} (ht : t.WellFormed) {text : List Char}
    (hstop : ∀ c ∈ text.head?, ¬ t.Absorbs c) :
    scanToken (t.literal.toList ++ text) = some (t, text) := by
  obtain ⟨c, rest, hliteral, hc, hlexeme⟩ := ht.exists_lexeme_eq hstop
  simp [scanToken, hliteral, hc, hlexeme]

/-- The first token of a text is well formed, is written after the blanks, and does not end too
early. -/
theorem scanToken_spec {text rest : List Char} {t : Token} (h : scanToken text = some (t, rest)) :
    t.WellFormed ∧ text.dropWhile isSeparator = t.literal.toList ++ rest ∧
      ∀ c ∈ rest.head?, ¬ t.Absorbs c := by
  unfold scanToken at h
  split at h
  · cases h
  · next c text' heq =>
    have hc : isSeparator c = false := head?_dropWhile (by rw [heq]; rfl)
    obtain ⟨hwell, hliteral, hstop⟩ := lexeme_spec hc text'
    rw [Option.some.inj h] at hwell hliteral hstop
    exact ⟨hwell, heq.trans hliteral.symm, hstop⟩

def scanAll (text : List Char) : List Token :=
  match _h : scanToken text with
  | none => []
  | some (t, rest) => t :: scanAll rest
termination_by text.length
decreasing_by exact scanToken_length_lt _h

theorem scanAll_of_none {text : List Char} (h : scanToken text = none) : scanAll text = [] := by
  rw [scanAll]
  split
  · rfl
  · next h' => rw [h] at h'; cases h'

theorem scanAll_of_some {text rest : List Char} {t : Token} (h : scanToken text = some (t, rest)) :
    scanAll text = t :: scanAll rest := by
  rw [scanAll]
  split
  · next h' => rw [h] at h'; cases h'
  · next h' => rw [h] at h'; cases h'; rfl

theorem Spells.scanAll_eq {text : List Char} {ts : List Token} (h : Spells text ts) :
    scanAll text = ts := by
  induction h with
  | nil => exact scanAll_of_none rfl
  | @blank c text ts hc hrest ih =>
    rw [← ih]
    cases h : scanToken text with
    | none => rw [scanAll_of_none h, scanAll_of_none ((scanToken_blank hc text).trans h)]
    | some p => rw [scanAll_of_some h, scanAll_of_some ((scanToken_blank hc text).trans h)]
  | token ht hstop hrest ih => rw [scanAll_of_some (ht.scanToken_eq hstop), ih]

theorem Spells.of_dropWhile {text : List Char} {ts : List Token}
    (h : Spells (text.dropWhile isSeparator) ts) : Spells text ts := by
  induction text with
  | nil => exact h
  | cons c text ih =>
    rw [List.dropWhile_cons] at h
    split at h
    · next hc => exact .blank hc (ih h)
    · exact h

theorem spells_scanAll (text : List Char) : Spells text (scanAll text) := by
  fun_induction scanAll text with
  | case1 text h =>
    apply Spells.of_dropWhile
    unfold scanToken at h
    split at h
    · next hnil => rw [hnil]; exact .nil
    · cases h
  | case2 text t rest h ih =>
    obtain ⟨hwell, htext, hstop⟩ := scanToken_spec h
    apply Spells.of_dropWhile
    rw [htext]
    exact .token hwell hstop ih

theorem spells_iff {text : List Char} {ts : List Token} : Spells text ts ↔ scanAll text = ts :=
  ⟨Spells.scanAll_eq, fun h => h ▸ spells_scanAll text⟩

theorem Token.WellFormed.kind_ne_eof {t : Token} (ht : t.WellFormed) : t.kind ≠ .eof := by
  cases ht with
  | @word l hne hl =>
    intro heof
    have hword := isWord_ofWord (String.ofList l)
    rw [heof] at hword
    exact absurd hword (by decide)
  | int hne hl => simp
  | symbol hc => exact (kind_of_ofChar? hc).2.2
  | withEquals hc hlonger =>
    rcases eq_or_notEq_of_withEquals? hlonger with rfl | rfl <;> simp
  | illegal hsep hsymbol hletter hdigit => simp

theorem Spells.wellFormed {text : List Char} {ts : List Token} (h : Spells text ts) :
    ∀ t ∈ ts, t.WellFormed := by
  induction h with
  | nil => simp
  | blank hc hrest ih => exact ih
  | token ht hstop hrest ih => exact List.forall_mem_cons.2 ⟨ht, ih⟩

/-- Two texts may be joined where no token absorbs the first character of the second. -/
theorem Spells.append {text text' : List Char} {ts us : List Token} (h : Spells text ts)
    (h' : Spells text' us) (hjoin : ∀ c ∈ text'.head?, ∀ t : Token, ¬ t.Absorbs c) :
    Spells (text ++ text') (ts ++ us) := by
  induction h with
  | nil => exact h'
  | blank hc hrest ih => exact .blank hc ih
  | @token t text ts ht hstop hrest ih =>
    rw [List.append_assoc]
    refine .token ht ?_ ih
    cases text with
    | nil => exact fun c hc => hjoin c hc t
    | cons d text => exact hstop

theorem length_scanAll_le (text : List Char) : (scanAll text).length ≤ text.length := by
  fun_induction scanAll text with
  | case1 text h => simp
  | case2 text t rest h ih =>
    have hlt := scanToken_length_lt h
    rw [List.length_cons]
    omega

end LetLang
