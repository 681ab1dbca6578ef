import LetLang.Proofs.Reading
import LetLang.Proofs.Queue

/-! A lexer as a source of tokens. Asked for its next token or iterated over, it is shown like the
list of the tokens that it has left. -/

namespace LetLang

theorem nextInList_eq (ts : List Token) : nextInList ts = (ts.headD Token.eof, ts.tail) := by
  cases ts <;> rfl

theorem Sifted.next_of_dropped_nil (l : Lexer) :
    (Sifted.mk l []).next = (l.next?.1.getD Token.eof, ⟨l.next?.2, []⟩) := by
  have hkept : nextKept? [] l = l.next? := by
    rw [nextKept?]
    split <;> simp_all
  rw [Sifted.next, hkept]
  split <;> simp_all

/-- The tokens `ts` are left, and none of them is dropped. -/
structure Sifted.Holds (s : Sifted) (ts : List Token) : Prop where
  dropped : s.dropped = []
  lexer : s.lexer.Holds ts

namespace Lexer.Holds

variable {l : Lexer} {ts : List Token}

theorem stream_ofSource (h : l.Holds ts) :
    (Window.ofSource l).stream = (Window.ofSource ts).stream := by
  refine Window.stream_ofSource_eq (fun l ts h => ?_) h
  have hlist : TokenSource.next ts = (ts.headD Token.eof, ts.tail) := nextInList_eq ts
  rw [hlist]
  exact h.nextToken

theorem stream_ofSource_sifted (h : l.Holds ts) :
    (Window.ofSource (Sifted.mk l [])).stream = (Window.ofSource ts).stream := by
  refine Window.stream_ofSource_eq (R := Sifted.Holds) ?_ ⟨rfl, h⟩
  rintro ⟨l, _⟩ ts ⟨rfl, h⟩
  have hsifted : TokenSource.next (Sifted.mk l []) = _ := Sifted.next_of_dropped_nil l
  have hlist : TokenSource.next ts = (ts.headD Token.eof, ts.tail) := nextInList_eq ts
  obtain ⟨hanswer, hleft⟩ := h.next?
  rw [hsifted, hlist, hanswer, List.headD_eq_head?_getD]
  exact ⟨rfl, rfl, hleft⟩

/-- Leaving tokens out takes them off the front; past the end there are none. -/
theorem skip (h : l.Holds ts) (n : Nat) : (l.skip n).Holds (ts.drop n) := by
  induction n generalizing l ts with
  | zero => exact h
  | succ n ih =>
    have hskip := ih h.nextToken.2
    rwa [List.drop_tail] at hskip

end Lexer.Holds

theorem parse_eq_parse_tokens (text : String) (policies : Policies) :
    parse text policies = (Parser.ofSource (tokens text) policies).parse := by
  have hstream := (Lexer.holds_ofString text).stream_ofSource
  rw [parse, Parser.parse_ofSource, Parser.parse_ofSource, tokens_eq_scanAll,
    Window.outcomes_eq_of_stream_eq policies hstream]

end LetLang
