import LetLang.Proofs.Consumption

/-! Every error that is recorded is true of the tokens that the parser took from its source: it
quotes one of them, and says of it what is the case. A run of operators is counted as a whole, since
no statement and no error ends inside one. -/

namespace LetLang

def TokenSource.delivered {σ : Type} [TokenSource σ] : σ → Nat → List Token
  | _, 0 => []
  | source, n + 1 =>
    (TokenSource.next source).1 :: delivered (TokenSource.next source).2 n

/-- No run of operators goes on after these tokens. -/
def ClosesRuns (ts : List Token) : Prop := ∀ t ∈ ts.getLast?, ¬ t.IsOperator

/-- Among the tokens there is a run of `n` operators, without an operator before or after it. -/
def HasRun (ts : List Token) (n : Nat) : Prop :=
  ∃ before run x after, ts = before ++ (run ++ x :: after) ∧ run.length = n ∧
    (∀ t ∈ run, t.IsOperator) ∧ ClosesRuns before ∧ ¬ x.IsOperator

/-- What an error says holds of the tokens `ts`, and it was an error under the policies. -/
def ParseError.Truthful (policies : Policies) (ts : List Token) (e : ParseError) : Prop :=
  match e.fault with
  | .expected want found =>
    found ∈ ts ∧ found.kind ≠ want ∧
      ((want = .ident ∨ want = .assign) ∧ e.statement = .letStmt ∨
        want = .semicolon ∧ policies.ofKind e.statement = .required)
  | .expectedExpression found =>
    found ∈ ts ∧ found.kind ∉ [TokenKind.ident, .int, .bang, .minus]
  | .intRange literal =>
    ∃ t ∈ ts, t.kind = .int ∧ t.literal = literal ∧ Number.int64? literal.toList = none
  | .tooDeep depth => maxPrefixDepth < depth ∧ HasRun ts depth

theorem closesRuns_nil : ClosesRuns [] := by simp [ClosesRuns]

theorem closesRuns_concat (ts : List Token) {x : Token} (hx : ¬ x.IsOperator) :
    ClosesRuns (ts ++ [x]) := by
  intro t ht
  obtain rfl : x = t := by simpa using ht
  exact hx

theorem ClosesRuns.append {ts us : List Token} (hts : ClosesRuns ts) (hus : ClosesRuns us) :
    ClosesRuns (ts ++ us) := by
  intro t ht
  rw [List.getLast?_append] at ht
  cases h : us.getLast? with
  | none => exact hts t (by simpa [h] using ht)
  | some u => exact hus t (by simpa [h] using ht)

theorem Lead.Grammatical.closesRuns {lead : Lead} (h : lead.Grammatical) :
    ClosesRuns lead.tokens := by
  cases lead with
  | binding word name equals =>
    exact closesRuns_concat [word, name] (Token.not_isOperator_of_kind h.2.2 rfl)
  | returning word =>
    exact closesRuns_concat [] (Token.not_isOperator_of_kind h rfl)
  | bare => exact closesRuns_nil

theorem Expr.Grammatical.closesRuns {e : Expr} (h : e.Grammatical) : ClosesRuns e.tokens := by
  obtain ⟨ops, x, leaf, hops, hx, hleaf, htokens, heq, hdepth⟩ := h.exists_operand
  rw [htokens]
  exact closesRuns_concat _ (Token.not_isOperator_iff.2 hx)

theorem Phrase.Grammatical.closesRuns {p : Phrase} (hp : p.Grammatical) : ClosesRuns p.tokens := by
  refine (hp.lead.closesRuns.append hp.value.closesRuns).append ?_
  intro t ht
  have hkind := hp.stop t (Option.mem_toList.1 (List.mem_of_getLast? ht))
  exact Token.not_isOperator_of_kind hkind rfl

theorem Faulty.closesRuns {body : List Token} {fault : ParseFault} (h : Faulty body fault) :
    ClosesRuns body := by
  cases h with
  | tooDeep hops hx hlen => exact closesRuns_concat _ hx
  | intRange hops hlen hx hval => exact closesRuns_concat _ (Token.not_isOperator_of_kind hx rfl)
  | noOperand hops hlen hx hident hint => exact closesRuns_concat _ hx

namespace Segment

variable {policies : Policies} {next : Token} {ts : List Token}
  {outcome : Except ParseError Statement}

theorem closesRuns (h : Segment policies next ts outcome) : ClosesRuns ts := by
  cases h with
  | unnamed hword hnext => exact closesRuns_concat [] (Token.not_isOperator_of_kind hword rfl)
  | @unassigned word name hword hname hnext =>
    exact closesRuns_concat [word] (Token.not_isOperator_of_kind hname rfl)
  | faulty hlead hbare hbody => exact hlead.closesRuns.append hbody.closesRuns
  | unterminated hp hstop hnext hpolicy => exact hp.closesRuns
  | statement hp hallowed hnext => exact hp.closesRuns

/-- The error of a segment is true of all tokens around it, if no run of operators reaches into the
segment from before. -/
theorem truthful {e : ParseError} (h : Segment policies next ts (.error e)) {before : List Token}
    (hbefore : ClosesRuns before) (after : List Token) :
    e.Truthful policies (before ++ (ts ++ next :: after)) := by
  have hnextMem : next ∈ before ++ (ts ++ next :: after) := by simp
  cases h with
  | unnamed hword hnext => exact ⟨hnextMem, hnext, .inl ⟨.inl rfl, rfl⟩⟩
  | unassigned hword hname hnext => exact ⟨hnextMem, hnext, .inl ⟨.inr rfl, rfl⟩⟩
  | unterminated hp hstop hnext hpolicy => exact ⟨hnextMem, hnext, .inr ⟨rfl, hpolicy⟩⟩
  | @faulty lead body fault hlead hbare hbody =>
    cases hbody with
    | @tooDeep ops x hops hx hlen =>
      -- the run starts after what leads up to the expression
      refine ⟨hlen, before ++ lead.tokens, ops, x, next :: after, ?_, rfl, hops,
        hbefore.append hlead.closesRuns, hx⟩
      simp
    | @intRange ops x hops hlen hx hval => exact ⟨x, by simp, hx, rfl, hval⟩
    | @noOperand ops x hops hlen hx hident hint =>
      have hx' : x.kind ≠ .bang ∧ x.kind ≠ .minus := not_or.1 hx
      exact ⟨by simp, by simp [hident, hint, hx']⟩

end Segment

theorem TokenSource.delivered_counted {σ : Type} [TokenSource σ] (source : σ) (k n : Nat) :
    delivered (Counted.mk source k) n = delivered source n := by
  induction n generalizing source k with
  | zero => rfl
  | succ n ih => exact congrArg _ (ih _ _)

namespace Window

variable {σ : Type} [TokenSource σ]

/-- The tokens that a window has moved past and the two that it holds, as its source gave them. -/
theorem Shows.append_window {w w' : Window σ} {ts : List Token} (h : Shows w ts w') :
    ts ++ [w'.current, w'.peek] =
      w.current :: w.peek :: TokenSource.delivered w.source ts.length := by
  induction h with
  | nil w => rfl
  | cons rest ih =>
    rw [List.cons_append, ih]
    rfl

theorem Shows.delivered {source : σ} {w : Window σ} {ts : List Token}
    (h : Shows (ofSource source) ts w) :
    TokenSource.delivered source (ts.length + 2) = ts ++ [w.current, w.peek] := by
  rw [h.append_window]
  rfl

/-- A whole run: its errors are true of the tokens it has taken, whatever stood before, as long as
no run of operators reaches in from there. -/
theorem errors_truthful_of_closesRuns (policies : Policies) (w : Window σ) :
    ∃ ts, Shows w ts (outcomes policies w).2 ∧ ∀ before, ClosesRuns before →
      ∀ e ∈ errorsOf (outcomes policies w).1, e.Truthful policies
        (before ++ (ts ++ [(outcomes policies w).2.current, (outcomes policies w).2.peek])) := by
  refine segment_induction policies ?stop ?segment w
  case stop =>
    intro w hw
    rw [outcomes_of_eof policies hw]
    exact ⟨[], .nil w, by simp⟩
  case segment =>
    intro w seg outcome w' hw hshows hseg ih
    obtain ⟨ts, hts, htruthful⟩ := ih
    have hwindow := hts.append_window
    rw [outcomes_of_segment hw hshows hseg]
    refine ⟨seg ++ ts, hshows.append hts, ?_⟩
    intro before hbefore e he
    have hrest (he : e ∈ errorsOf (outcomes policies w').1) :=
      htruthful (before ++ seg) (hbefore.append hseg.closesRuns) e he
    rw [List.append_assoc] at hrest
    rw [List.append_assoc seg]
    cases outcome with
    | ok s => exact hrest he
    | error e' =>
      rcases List.mem_cons.1 he with rfl | he
      · rw [hwindow]
        exact hseg.truthful hbefore _
      · exact hrest he

theorem operand_ne_expected (t : Token) (want : TokenKind) (found : Token) :
    operand t ≠ .error (.expected want found) := by
  intro h
  by_cases hident : t.kind = .ident
  · simp [operand, hident, nameOf_of_ident hident, Except.map] at h
  by_cases hint : t.kind = .int
  · simp only [operand, hint, integerOf, ne_eq, not_true_eq_false, if_false] at h
    split at h <;> cases h
  · rw [operand_eq_expectedExpression hident hint] at h
    cases h

end Window

/-- Every recorded error is true of the tokens that the parser took from its source. Neither reading
a name nor reading an operand ever fails for its kind: both are looked at before. -/
theorem errors_truthful {σ : Type} [TokenSource σ] (source : σ) (policies : Policies) :
    let pulled := (Parser.ofSource (Counted.mk source 0) policies).parseProgram.2.pulled
    (∀ e ∈ (Parser.ofSource source policies).parse.errors,
      e.Truthful policies (TokenSource.delivered source pulled)) ∧
    (∀ w : Window σ, w.peek.kind = .ident →
      Window.nameOf w.advance.current = .ok ⟨w.peek, w.peek.literal⟩) ∧
    ∀ t want found, Window.operand t ≠ .error (.expected want found) := by
  intro pulled
  refine ⟨?_, fun w hw => Window.nameOf_of_ident hw, Window.operand_ne_expected⟩
  intro e he
  let w := Window.ofSource (Counted.mk source 0)
  have hrun : (w.outcomes policies).1 = ((Window.ofSource source).outcomes policies).1 :=
    Window.outcomes_eq_of_stream_eq policies (Window.stream_ofSource_counted source 0)
  obtain ⟨ts, hshows, htruthful⟩ := w.errors_truthful_of_closesRuns policies
  have hpulled : pulled = ts.length + 2 := by
    have hcount := hshows.pulled
    rw [Nat.add_comm] at hcount
    exact hcount
  rw [Parser.parse_ofSource, ← hrun] at he
  rw [hpulled, ← TokenSource.delivered_counted source 0, hshows.delivered]
  exact htruthful [] closesRuns_nil e he

/-- A run of operators that is too long, a number that is too large, and a binding whose name is
missing. -/
theorem errors_truthful_long_run :
    let bang : Token := ⟨.bang, "!"⟩
    let large : Token := ⟨.int, "9223372036854775808"⟩
    let word : Token := ⟨.letWord, "let"⟩
    let source := List.replicate 257 bang ++ [large, large, word]
    let pulled := (Parser.ofSource (Counted.mk source 0) {}).parseProgram.2.pulled
    let errors := (Parser.ofSource source {}).parse.errors
    errors = [⟨.exprStmt, .tooDeep 257⟩, ⟨.exprStmt, .intRange large.literal⟩,
        ⟨.letStmt, .expected .ident Token.eof⟩] ∧
      (∀ e ∈ errors, e.Truthful {} (TokenSource.delivered source pulled)) ∧
      Window.nameOf (Window.ofSource [word, ⟨.ident, "x"⟩]).advance.current =
        .ok ⟨⟨.ident, "x"⟩, "x"⟩ := by
  intro bang large word source pulled errors
  have herrors : errors = [⟨.exprStmt, .tooDeep 257⟩, ⟨.exprStmt, .intRange large.literal⟩,
      ⟨.letStmt, .expected .ident Token.eof⟩] := by
    decide +kernel
  obtain ⟨htruthful, hname, -⟩ := errors_truthful source {}
  exact ⟨herrors, htruthful, hname (Window.ofSource [word, ⟨.ident, "x"⟩]) rfl⟩

end LetLang
