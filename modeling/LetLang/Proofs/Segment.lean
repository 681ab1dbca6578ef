import LetLang.Proofs.Phrase

/-! Segments: the tokens that one statement or one error takes. Each case names the tokens of the
segment, the one that follows, and the outcome, without a word about how a parser moves; the end of
input counts as a token. -/

namespace LetLang

/-- What is no expression, and its fault: a run of operators and the token after it. Too long a run
is a fault whatever that token is. -/
inductive Faulty : List Token → ParseFault → Prop
  | tooDeep {ops : List Token} {x : Token} (hops : ∀ t ∈ ops, t.IsOperator)
      (hx : ¬ x.IsOperator) (hlen : maxPrefixDepth < ops.length) :
      Faulty (ops ++ [x]) (.tooDeep ops.length)
  | intRange {ops : List Token} {x : Token} (hops : ∀ t ∈ ops, t.IsOperator)
      (hlen : ops.length ≤ maxPrefixDepth) (hx : x.kind = .int)
      (hval : Number.int64? x.literal.toList = none) :
      Faulty (ops ++ [x]) (.intRange x.literal)
  | noOperand {ops : List Token} {x : Token} (hops : ∀ t ∈ ops, t.IsOperator)
      (hlen : ops.length ≤ maxPrefixDepth) (hx : ¬ x.IsOperator) (hident : x.kind ≠ .ident)
      (hint : x.kind ≠ .int) :
      Faulty (ops ++ [x]) (.expectedExpression x)

/-- The first tokens of an input, up to the token `next`, make one statement or one error. -/
inductive Segment (policies : Policies) (next : Token) :
    List Token → Except ParseError Statement → Prop
  | unnamed {word : Token} (hword : word.kind = .letWord) (hnext : next.kind ≠ .ident) :
      Segment policies next [word] (.error ⟨.letStmt, .expected .ident next⟩)
  | unassigned {word name : Token} (hword : word.kind = .letWord) (hname : name.kind = .ident)
      (hnext : next.kind ≠ .assign) :
      Segment policies next [word, name] (.error ⟨.letStmt, .expected .assign next⟩)
  | faulty {lead : Lead} {body : List Token} {fault : ParseFault} (hlead : lead.Grammatical)
      (hbare : lead = .bare → ∀ t ∈ body.head?, StatementKind.ofToken t.kind = .exprStmt)
      (hbody : Faulty body fault) :
      Segment policies next (lead.tokens ++ body) (.error ⟨lead.kind, fault⟩)
  | unterminated {p : Phrase} (hp : p.Grammatical) (hstop : p.stop = none)
      (hnext : next.kind ≠ .semicolon) (hpolicy : policies.ofKind p.kind = .required) :
      Segment policies next p.tokens (.error ⟨p.kind, .expected .semicolon next⟩)
  | statement {p : Phrase} (hp : p.Grammatical) (hallowed : p.Allowed policies)
      (hnext : p.stop = none → next.kind ≠ .semicolon) :
      Segment policies next p.tokens (.ok p.statement)

theorem Faulty.eq_append {body : List Token} {fault : ParseFault} (h : Faulty body fault) :
    ∃ ops x, body = ops ++ [x] ∧ ∀ t ∈ ops, t.IsOperator := by
  cases h with
  | tooDeep hops _ _ => exact ⟨_, _, rfl, hops⟩
  | intRange hops _ _ _ => exact ⟨_, _, rfl, hops⟩
  | noOperand hops _ _ _ _ => exact ⟨_, _, rfl, hops⟩

namespace Segment

variable {policies : Policies} {next : Token} {ts : List Token}
  {outcome : Except ParseError Statement}

theorem ne_nil (h : Segment policies next ts outcome) : ts ≠ [] := by
  cases h with
  | unnamed _ _ => simp
  | unassigned _ _ _ => simp
  | faulty _ _ hbody =>
    obtain ⟨ops, x, rfl, -⟩ := hbody.eq_append
    simp
  | @unterminated p _ _ _ _ => exact p.tokens_ne_nil
  | @statement p _ _ _ => exact p.tokens_ne_nil

theorem faulty_run (lead : Lead) (hlead : lead.Grammatical) {ops : List Token}
    (hops : ∀ t ∈ ops, t.IsOperator) {x : Token} {fault : ParseFault}
    (hx : ops = [] → StatementKind.ofToken x.kind = .exprStmt) (h : Faulty (ops ++ [x]) fault) :
    Segment policies next (lead.tokens ++ (ops ++ [x])) (.error ⟨lead.kind, fault⟩) :=
  .faulty hlead (fun _ _ ht => ofToken_of_mem_head? hops hx ht) h

theorem isInner_of_mem_dropLast (h : Segment policies next ts outcome) :
    ∀ t ∈ ts.dropLast, t.kind.IsInner := by
  intro t ht
  cases h with
  | unnamed _ _ => simp at ht
  | unassigned hword _ _ =>
    obtain rfl : t = _ := by simpa using ht
    simp [hword, TokenKind.IsInner]
  | faulty hlead _ hbody =>
    obtain ⟨ops, x, rfl, hops⟩ := hbody.eq_append
    rw [← List.append_assoc, List.dropLast_concat, List.mem_append] at ht
    rcases ht with ht | ht
    · exact hlead.isInner ht
    · exact (hops t ht).isInner
  | @unterminated p hp _ _ _ => exact hp.isInner (p.dropLast_tokens_subset ht)
  | @statement p hp _ _ => exact hp.isInner (p.dropLast_tokens_subset ht)

theorem kind_ne_eof_of_mem_dropLast (h : Segment policies next ts outcome) :
    ∀ t ∈ ts.dropLast, t.kind ≠ .eof :=
  fun t ht => (h.isInner_of_mem_dropLast t ht).ne_eof

/-- What follows a semicolon does not matter to the segment that the semicolon is in. -/
theorem change_next (h : Segment policies next ts outcome)
    (hsemi : ∃ t ∈ ts, t.kind = .semicolon) (next' : Token) :
    Segment policies next' ts outcome := by
  obtain ⟨t, ht, hkind⟩ := hsemi
  -- a segment without an end of its own has no semicolon in it
  have hstop {p : Phrase} (hp : p.Grammatical) (hmem : t ∈ p.tokens) : p.stop ≠ none := by
    intro hnone
    rw [Phrase.tokens_of_stop_eq_none hnone] at hmem
    exact (hp.isInner hmem).ne_semicolon hkind
  cases h with
  | unnamed hword _ =>
    obtain rfl := List.mem_singleton.1 ht
    rw [hkind] at hword
    cases hword
  | unassigned hword hname _ =>
    simp only [List.mem_cons, List.not_mem_nil, or_false] at ht
    rcases ht with rfl | rfl
    · rw [hkind] at hword
      cases hword
    · rw [hkind] at hname
      cases hname
  | faulty hlead hbare hbody => exact .faulty hlead hbare hbody
  | unterminated hp hnone _ _ => exact absurd hnone (hstop hp ht)
  | statement hp hallowed _ => exact .statement hp hallowed fun hnone => absurd hnone (hstop hp ht)

/-- A segment that makes a statement is a phrase. -/
theorem exists_phrase {s : Statement} (h : Segment policies next ts (.ok s)) :
    ∃ p : Phrase, p.Grammatical ∧ p.Allowed policies ∧ p.tokens = ts ∧ p.statement = s := by
  cases h with
  | @statement p hp hallowed _ => exact ⟨p, hp, hallowed, rfl, rfl⟩

theorem ne_ok_of_cutOff {s : Statement}
    (h : Segment policies next (ts ++ [Token.eof]) outcome) : outcome ≠ .ok s := by
  rintro rfl
  obtain ⟨p, hp, -, htokens, -⟩ := h.exists_phrase
  have hmem : Token.eof ∈ p.tokens := by simp [htokens]
  exact hp.kind_ne_eof hmem rfl

end Segment

end LetLang
