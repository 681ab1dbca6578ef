import LetLang.Lexer.Session
import LetLang.Proofs.Spelling

/-! A lexer is a queue of tokens. It may be asked for the next token, iterated over, copied and put
aside, in any order: what it answers depends on nothing but the list of the tokens that it has not
delivered yet. -/

namespace LetLang

/-- The lexer has the tokens `ts` left, and iterating has not met the end while there are any. -/
structure Lexer.Holds (l : Lexer) (ts : List Token) : Prop where
  left : scanAll l.rest = ts
  finished : l.finished → ts = []

theorem Lexer.nextToken_scanAll (l : Lexer) :
    l.nextToken.1 = (scanAll l.rest).headD Token.eof ∧
      scanAll l.nextToken.2.rest = (scanAll l.rest).tail := by
  unfold Lexer.nextToken
  cases hscan : scanToken l.rest with
  | none =>
    rw [scanAll_of_none hscan]
    exact ⟨rfl, scanAll_of_none rfl⟩
  | some p =>
    rw [scanAll_of_some hscan]
    exact ⟨rfl, rfl⟩

theorem Lexer.nextToken_finished (l : Lexer) : l.nextToken.2.finished = l.finished := by
  unfold Lexer.nextToken
  cases scanToken l.rest <;> rfl

theorem Lexer.holds_ofString (text : String) : (Lexer.ofString text).Holds (scanAll text.toList) :=
  ⟨rfl, fun h => nomatch h⟩

namespace Lexer.Holds

variable {l : Lexer} {ts : List Token}

theorem nextToken (h : l.Holds ts) :
    l.nextToken.1 = ts.headD Token.eof ∧ l.nextToken.2.Holds ts.tail := by
  obtain ⟨rfl, hfinished⟩ := h
  obtain ⟨hanswer, hleft⟩ := l.nextToken_scanAll
  refine ⟨hanswer, hleft, ?_⟩
  intro hl
  rw [l.nextToken_finished] at hl
  rw [hfinished hl, List.tail_nil]

theorem next? (h : l.Holds ts) : l.next?.1 = ts.head? ∧ l.next?.2.Holds ts.tail := by
  unfold Lexer.next?
  split
  · next hl =>
    obtain rfl := h.finished hl
    exact ⟨rfl, h⟩
  · next hl =>
    obtain ⟨rfl, -⟩ := h
    cases hscan : scanToken l.rest with
    | none =>
      rw [scanAll_of_none hscan]
      exact ⟨rfl, scanAll_of_none rfl, fun _ => rfl⟩
    | some p =>
      rw [scanAll_of_some hscan]
      exact ⟨rfl, rfl, fun hl' => absurd hl' hl⟩

theorem nth? (h : l.Holds ts) (n : Nat) :
    (l.nth? n).1 = ts[n]? ∧ (l.nth? n).2.Holds (ts.drop (n + 1)) := by
  induction n generalizing l ts with
  | zero => simpa [Lexer.nth?, ← List.head?_eq_getElem?] using h.next?
  | succ n ih =>
    obtain ⟨hhead, htail⟩ := h.next?
    unfold Lexer.nth?
    split
    · next t l' heq =>
      rw [heq] at hhead htail
      obtain ⟨us, rfl⟩ := List.head?_eq_some_iff.1 hhead.symm
      simpa using ih htail
    · next l' heq =>
      rw [heq] at hhead htail
      obtain rfl := List.head?_eq_none_iff.1 hhead.symm
      exact ⟨rfl, htail⟩

theorem takeAfter (h : l.Holds ts) (done : Array Token) (n : Nat) :
    (takeAfter done l n).1.toList = done.toList ++ ts.take n ∧
      (Lexer.takeAfter done l n).2.Holds (ts.drop n) := by
  induction n generalizing l ts done with
  | zero => simpa [Lexer.takeAfter] using h
  | succ n ih =>
    obtain ⟨hhead, htail⟩ := h.next?
    unfold Lexer.takeAfter
    split
    · next t l' heq =>
      rw [heq] at hhead htail
      obtain ⟨us, rfl⟩ := List.head?_eq_some_iff.1 hhead.symm
      simpa using ih htail (done.push t)
    · next l' heq =>
      rw [heq] at hhead htail
      obtain rfl := List.head?_eq_none_iff.1 hhead.symm
      simpa using htail

theorem take (h : l.Holds ts) (n : Nat) :
    (l.take n).1 = ts.take n ∧ (l.take n).2.Holds (ts.drop n) := by
  simpa [Lexer.take] using h.takeAfter #[] n

theorem collect (h : l.Holds ts) : l.collect.1 = ts ∧ l.collect.2.Holds [] := by
  have hle : ts.length ≤ l.rest.length + 1 := by
    have := length_scanAll_le l.rest
    rw [h.left] at this
    omega
  have htake := h.take (l.rest.length + 1)
  rwa [List.take_of_length_le hle, List.drop_of_length_le hle] at htake

end Lexer.Holds

theorem tokens_eq_scanAll (text : String) : tokens text = scanAll text.toList :=
  (Lexer.holds_ofString text).collect.1

/-- The tokens not yet delivered by the current lexer and by the copy put aside. -/
structure TokenQueues where
  current : List Token
  saved : List Token
  deriving DecidableEq, Repr

namespace TokenQueues

def ofTokens (ts : List Token) : TokenQueues := ⟨ts, ts⟩

def step (q : TokenQueues) : LexerOp → LexerAnswer × TokenQueues
  | .nextToken => (.token (q.current.headD Token.eof), { q with current := q.current.tail })
  | .fromSource => (.token (q.current.headD Token.eof), { q with current := q.current.tail })
  | .next => (.token? q.current.head?, { q with current := q.current.tail })
  | .nth n => (.token? q.current[n]?, { q with current := q.current.drop (n + 1) })
  | .take n => (.tokens (q.current.take n), { q with current := q.current.drop n })
  | .collect => (.tokens q.current, { q with current := [] })
  | .count => (.count q.current.length, { q with current := [] })
  | .save => (.done, { q with saved := q.current })
  | .swap => (.done, ⟨q.saved, q.current⟩)

def run (q : TokenQueues) : List LexerOp → List LexerAnswer
  | [] => []
  | op :: ops => (q.step op).1 :: (q.step op).2.run ops

def after (q : TokenQueues) (ops : List LexerOp) : TokenQueues :=
  ops.foldl (fun q op => (q.step op).2) q

end TokenQueues

namespace LexerPair

def after (p : LexerPair) (ops : List LexerOp) : LexerPair :=
  ops.foldl (fun p op => (p.step op).2) p

/-- Both lexers have exactly the tokens of their queues left. -/
structure Holds (p : LexerPair) (q : TokenQueues) : Prop where
  current : p.current.Holds q.current
  saved : p.saved.Holds q.saved

theorem Holds.step {p : LexerPair} {q : TokenQueues} (h : p.Holds q) (op : LexerOp) :
    (p.step op).1 = (q.step op).1 ∧ (p.step op).2.Holds (q.step op).2 := by
  cases op with
  | nextToken =>
    obtain ⟨hanswer, hrest⟩ := h.current.nextToken
    exact ⟨congrArg LexerAnswer.token hanswer, hrest, h.saved⟩
  | fromSource =>
    obtain ⟨hanswer, hrest⟩ := h.current.nextToken
    exact ⟨congrArg LexerAnswer.token hanswer, hrest, h.saved⟩
  | next =>
    obtain ⟨hanswer, hrest⟩ := h.current.next?
    exact ⟨congrArg LexerAnswer.token? hanswer, hrest, h.saved⟩
  | nth n =>
    obtain ⟨hanswer, hrest⟩ := h.current.nth? n
    exact ⟨congrArg LexerAnswer.token? hanswer, hrest, h.saved⟩
  | take n =>
    obtain ⟨hanswer, hrest⟩ := h.current.take n
    exact ⟨congrArg LexerAnswer.tokens hanswer, hrest, h.saved⟩
  | collect =>
    obtain ⟨hanswer, hrest⟩ := h.current.collect
    exact ⟨congrArg LexerAnswer.tokens hanswer, hrest, h.saved⟩
  | count =>
    obtain ⟨hanswer, hrest⟩ := h.current.collect
    exact ⟨congrArg (fun ts : List Token => LexerAnswer.count ts.length) hanswer, hrest, h.saved⟩
  | save => exact ⟨rfl, h.current, h.current⟩
  | swap => exact ⟨rfl, h.saved, h.current⟩

theorem Holds.run {p : LexerPair} {q : TokenQueues} (h : p.Holds q) (ops : List LexerOp) :
    p.run ops = q.run ops ∧ (p.after ops).Holds (q.after ops) := by
  induction ops generalizing p q with
  | nil => exact ⟨rfl, h⟩
  | cons op ops ih =>
    obtain ⟨hanswer, hnext⟩ := h.step op
    obtain ⟨hanswers, hend⟩ := ih hnext
    refine ⟨?_, hend⟩
    rw [LexerPair.run, TokenQueues.run, hanswer, hanswers]

/-- Whatever is done with a lexer and its copy, the answers are those of two queues that start as
the tokens of the text. After every operation each lexer has the tokens of its queue left, and one
whose iteration has met the end has none. -/
theorem run_eq_run_queues (text : String) (ops : List LexerOp) :
    (ofString text).run ops = (TokenQueues.ofTokens (tokens text)).run ops ∧
      ((ofString text).after ops).Holds ((TokenQueues.ofTokens (tokens text)).after ops) := by
  have hstart : (ofString text).Holds (TokenQueues.ofTokens (tokens text)) := by
    rw [tokens_eq_scanAll]
    exact ⟨Lexer.holds_ofString text, Lexer.holds_ofString text⟩
  exact hstart.run ops

end LexerPair

end LetLang
