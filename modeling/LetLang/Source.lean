import LetLang.Lexer

/-!
Where a parser takes its tokens from. A source never runs dry: past its last token it gives
end-of-input tokens, and only finitely many others come before that.
-/

namespace LetLang

/-- A supply of tokens. `left` bounds the tokens still to come that are not the end of input. -/
class TokenSource (σ : Type) where
  next : σ → Token × σ
  left : σ → Nat
  left_next_le : ∀ s, left (next s).2 ≤ left s
  left_next_lt : ∀ s, (next s).1.kind ≠ .eof → left (next s).2 < left s

/-- A list gives its tokens in order, then the end of input for ever. -/
def nextInList : List Token → Token × List Token
  | [] => (Token.eof, [])
  | t :: ts => (t, ts)

instance : TokenSource (List Token) where
  next := nextInList
  left := List.length
  left_next_le s := by cases s <;> simp [nextInList]
  left_next_lt s h := by
    cases s with
    | nil => exact absurd rfl h
    | cons t ts => simp [nextInList]

namespace Lexer

theorem nextToken_length_le (l : Lexer) : l.nextToken.2.rest.length ≤ l.rest.length := by
  unfold nextToken
  split
  · next h => exact Nat.le_of_lt (scanToken_length_lt h)
  · simp

theorem nextToken_length_lt {l : Lexer} (h : l.nextToken.1.kind ≠ .eof) :
    l.nextToken.2.rest.length < l.rest.length := by
  unfold nextToken at h ⊢
  split at h
  · next heq => exact scanToken_length_lt heq
  · exact absurd rfl h

theorem next?_length_le (l : Lexer) : l.next?.2.rest.length ≤ l.rest.length := by
  unfold next?
  split
  · simp
  · split
    · next h => exact Nat.le_of_lt (scanToken_length_lt h)
    · simp

theorem next?_length_lt {l l' : Lexer} {t : Token} (h : l.next? = (some t, l')) :
    l'.rest.length < l.rest.length := by
  unfold next? at h
  split at h
  · simp at h
  · split at h
    · next heq =>
      have hlt := scanToken_length_lt heq
      simp only [Prod.mk.injEq] at h
      rw [← h.2]
      exact hlt
    · simp at h

end Lexer

instance : TokenSource Lexer where
  next := Lexer.nextToken
  left l := l.rest.length
  left_next_le := Lexer.nextToken_length_le
  left_next_lt _ h := Lexer.nextToken_length_lt h

/-- The tokens that iterating over a lexer gives, without those of the kinds in `dropped`. -/
structure Sifted where
  lexer : Lexer
  dropped : List TokenKind := []

namespace Sifted

/-- The next token by iterating whose kind is kept. -/
def nextKept? (dropped : List TokenKind) (l : Lexer) : Option Token × Lexer :=
  match _h : l.next? with
  | (some t, l') => if t.kind ∈ dropped then nextKept? dropped l' else (some t, l')
  | (none, l') => (none, l')
termination_by l.rest.length
decreasing_by exact Lexer.next?_length_lt _h

theorem nextKept?_length_le (dropped : List TokenKind) (l : Lexer) :
    (nextKept? dropped l).2.rest.length ≤ l.rest.length := by
  fun_induction nextKept? dropped l with
  | case1 l t l' h _ ih => exact Nat.le_trans ih (Nat.le_of_lt (Lexer.next?_length_lt h))
  | case2 l t l' h _ => exact Nat.le_of_lt (Lexer.next?_length_lt h)
  | case3 l l' h => simpa [h] using l.next?_length_le

theorem nextKept?_length_lt {dropped : List TokenKind} {l : Lexer}
    (hs : (nextKept? dropped l).1 ≠ none) :
    (nextKept? dropped l).2.rest.length < l.rest.length := by
  fun_induction nextKept? dropped l with
  | case1 l t l' h _ ih => exact Nat.lt_trans (ih hs) (Lexer.next?_length_lt h)
  | case2 l t l' h _ => exact Lexer.next?_length_lt h
  | case3 l l' h => exact absurd rfl hs

def next (s : Sifted) : Token × Sifted :=
  match nextKept? s.dropped s.lexer with
  | (some t, l) => (t, { s with lexer := l })
  | (none, l) => (Token.eof, { s with lexer := l })

end Sifted

instance : TokenSource Sifted where
  next := Sifted.next
  left s := s.lexer.rest.length
  left_next_le s := by
    have := Sifted.nextKept?_length_le s.dropped s.lexer
    unfold Sifted.next
    split <;> simp_all
  left_next_lt s h := by
    have := @Sifted.nextKept?_length_lt s.dropped s.lexer
    unfold Sifted.next at h ⊢
    split at h
    · simp_all
    · exact absurd rfl h

/-- A source together with the number of tokens taken from it. -/
structure Counted (σ : Type) where
  source : σ
  pulled : Nat := 0

instance {σ : Type} [TokenSource σ] : TokenSource (Counted σ) where
  next s := let (t, source) := TokenSource.next s.source; (t, ⟨source, s.pulled + 1⟩)
  left s := TokenSource.left s.source
  left_next_le s := TokenSource.left_next_le s.source
  left_next_lt s h := TokenSource.left_next_lt s.source h

end LetLang
