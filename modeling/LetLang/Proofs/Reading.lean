import LetLang.Proofs.Segment
import LetLang.Proofs.Stream

/-! A parser reads segment after segment: `statement_eq_of_segment` says what a round of the loop
does with a segment, `exists_segment` that every window not at the end of input starts with one, and
`segment_induction` turns both into an induction over a whole run. -/

namespace LetLang

theorem Expr.Grammatical.exists_operand {e : Expr} (h : e.Grammatical) :
    ∃ (ops : List (Token × PrefixOp)) (x : Token) (leaf : Expr),
      (∀ p ∈ ops, PrefixOp.ofKind? p.1.kind = some p.2) ∧ PrefixOp.ofKind? x.kind = none ∧
      Window.operand x = .ok leaf ∧ e.tokens = ops.map Prod.fst ++ [x] ∧
      e = Window.applyOps ops leaf ∧ e.depth = ops.length := by
  induction e with
  | ident name =>
    obtain ⟨token, value⟩ := name
    obtain ⟨hkind, hvalue⟩ : token.kind = .ident ∧ value = token.literal := h
    subst hvalue
    refine ⟨[], token, .ident ⟨token, token.literal⟩, by simp, ?_, ?_, rfl, rfl, rfl⟩
    · simp [hkind, PrefixOp.ofKind?]
    · simp [Window.operand, Window.nameOf_of_ident hkind, hkind, Except.map]
  | int token value =>
    obtain ⟨hkind, hvalue⟩ := h
    refine ⟨[], token, .int token value, by simp, ?_, ?_, rfl, rfl, rfl⟩
    · simp [hkind, PrefixOp.ofKind?]
    · simp [Window.operand, Window.integerOf, hkind, hvalue]
  | prefixed token op operand ih =>
    obtain ⟨ops, x, leaf, hops, hx, hleaf, htokens, heq, hdepth⟩ := ih h.2
    refine ⟨(token, op) :: ops, x, leaf, List.forall_mem_cons.2 ⟨h.1, hops⟩, hx, hleaf, ?_, ?_, ?_⟩
    · rw [Expr.tokens, htokens, List.map_cons, List.cons_append]
    · rw [heq]; rfl
    · rw [Expr.depth, hdepth, List.length_cons]

namespace Window

variable {σ : Type} [TokenSource σ]

theorem operatorsAfter_eq (done : Array (Token × PrefixOp)) {w w' : Window σ}
    {ops : List (Token × PrefixOp)} (hops : ∀ p ∈ ops, PrefixOp.ofKind? p.1.kind = some p.2)
    (hshows : Shows w (ops.map Prod.fst) w') (hend : PrefixOp.ofKind? w'.current.kind = none) :
    w.operatorsAfter done = (done ++ ops.toArray, w') := by
  induction ops generalizing done w with
  | nil =>
    obtain rfl := shows_nil_iff.1 hshows
    rw [operatorsAfter]
    split
    · next op h => rw [hend] at h; cases h
    · simp
  | cons p ops ih =>
    obtain ⟨t, op⟩ := p
    rw [List.map_cons, shows_cons_iff] at hshows
    obtain ⟨hcur, hrest⟩ := hshows
    obtain ⟨hop, hops'⟩ := List.forall_mem_cons.1 hops
    subst hcur
    rw [operatorsAfter]
    split
    · next op' h =>
      obtain rfl : op = op' := Option.some.inj (hop.symm.trans h)
      rw [ih _ hops' hrest]
      simp
    · next h => rw [hop] at h; cases h

theorem exists_operators (w : Window σ) :
    ∃ ops w', Shows w ops w' ∧ (∀ t ∈ ops, t.IsOperator) ∧ ¬ w'.current.IsOperator := by
  fun_induction operatorsAfter #[] w with
  | case1 done w op h ih =>
    obtain ⟨ops, w', hshows, hops, hend⟩ := ih
    have hcur : w.current.IsOperator := Token.isOperator_iff.2 ⟨op, h⟩
    exact ⟨w.current :: ops, w', .cons hshows, List.forall_mem_cons.2 ⟨hcur, hops⟩, hend⟩
  | case2 done w h => exact ⟨[], w, .nil w, by simp, Token.not_isOperator_iff.2 h⟩

theorem expression_eq_of_grammatical {e : Expr} (he : e.Grammatical)
    (hdepth : e.depth ≤ maxPrefixDepth) {w w' : Window σ} (hshows : Shows w e.tokens w') :
    ∃ v, w.expression = (.ok e, v) ∧ v.advance = w' := by
  obtain ⟨ops, x, leaf, hops, hx, hleaf, htokens, heq, hlen⟩ := he.exists_operand
  rw [htokens, shows_append_iff] at hshows
  obtain ⟨v, hops', hlast⟩ := hshows
  obtain ⟨rfl, rfl⟩ := shows_singleton_iff.1 hlast
  refine ⟨v, ?_, rfl⟩
  have hle : ¬ maxPrefixDepth < ops.length := by omega
  rw [expression, operatorsAfter_eq #[] hops hops' hx]
  simp [hle, hleaf, ← heq, Except.map]

theorem operand_eq_intRange {x : Token} (hx : x.kind = .int)
    (hval : Number.int64? x.literal.toList = none) :
    operand x = .error (.intRange x.literal) := by
  simp [operand, integerOf, hx, hval]

theorem operand_eq_expectedExpression {x : Token} (hident : x.kind ≠ .ident)
    (hint : x.kind ≠ .int) : operand x = .error (.expectedExpression x) := by
  unfold operand
  split <;> simp_all

/-- A run of operators and the token after it: the run is collected, and the window stays on that
token. -/
theorem exists_operatorsAfter_eq {ops : List Token} {x : Token} (hops : ∀ t ∈ ops, t.IsOperator)
    (hx : ¬ x.IsOperator) {w w' : Window σ} (hshows : Shows w (ops ++ [x]) w') :
    ∃ (v : Window σ) (zipped : List (Token × PrefixOp)), v.advance = w' ∧ v.current = x ∧
      zipped.length = ops.length ∧ w.operatorsAfter #[] = (zipped.toArray, v) := by
  obtain ⟨zipped, rfl, hzipped⟩ := exists_zip_of_operators hops
  obtain ⟨v, hv, hlast⟩ := shows_append_iff.1 hshows
  obtain ⟨rfl, rfl⟩ := shows_singleton_iff.1 hlast
  refine ⟨v, zipped, rfl, rfl, by simp, ?_⟩
  simpa using operatorsAfter_eq #[] hzipped hv (Token.not_isOperator_iff.1 hx)

theorem expression_eq_of_faulty {body : List Token} {fault : ParseFault} (h : Faulty body fault)
    {w w' : Window σ} (hshows : Shows w body w') :
    ∃ v, w.expression = (.error fault, v) ∧ v.advance = w' := by
  cases h with
  | tooDeep hops hx hlen =>
    obtain ⟨v, zipped, hadv, hcur, hlength, heq⟩ := exists_operatorsAfter_eq hops hx hshows
    refine ⟨v, ?_, hadv⟩
    simp [expression, heq, hlength, hlen]
  | @intRange ops x hops hlen hx hval =>
    have hop : ¬ x.IsOperator := Token.not_isOperator_of_kind hx rfl
    obtain ⟨v, zipped, hadv, hcur, hlength, heq⟩ := exists_operatorsAfter_eq hops hop hshows
    refine ⟨v, ?_, hadv⟩
    simp [expression, heq, hlength, Nat.not_lt.2 hlen, hcur, operand_eq_intRange hx hval,
      Except.map]
  | noOperand hops hlen hx hident hint =>
    obtain ⟨v, zipped, hadv, hcur, hlength, heq⟩ := exists_operatorsAfter_eq hops hx hshows
    refine ⟨v, ?_, hadv⟩
    simp [expression, heq, hlength, Nat.not_lt.2 hlen, hcur,
      operand_eq_expectedExpression hident hint, Except.map]

theorem finishWith_of_ok {policy : SemicolonPolicy} {make : Expr → Statement} {w v : Window σ}
    {e : Expr} (h : w.expression = (.ok e, v)) :
    finishWith policy make w = finish policy (make e) v := by
  rw [finishWith, h]

theorem finishWith_of_error {policy : SemicolonPolicy} {make : Expr → Statement} {w v : Window σ}
    {fault : ParseFault} (h : w.expression = (.error fault, v)) :
    finishWith policy make w = (.error fault, v) := by
  rw [finishWith, h]

theorem statement_eq_of_lead (policies : Policies) {lead : Lead} (hlead : lead.Grammatical)
    {w w' : Window σ} (hshows : Shows w lead.tokens w')
    (hbare : lead = .bare → StatementKind.ofToken w'.current.kind = .exprStmt) :
    statement policies w =
      let read := finishWith (policies.ofKind lead.kind) (lead.statement w'.current) w'
      (read.1.mapError (ParseError.mk lead.kind), read.2) := by
  cases lead with
  | binding word name equals =>
    obtain ⟨hword, hname, hequals⟩ := hlead
    simp only [Lead.tokens, shows_cons_iff, shows_nil_iff] at hshows
    obtain ⟨rfl, rfl, rfl, rfl⟩ := hshows
    have hpeek : w.peek.kind = .ident := hname
    have hpeek' : w.advance.peek.kind = .assign := hequals
    simp [statement, hword, StatementKind.ofToken, letStatement, hpeek, nameOf_of_ident hname,
      hpeek', Lead.kind, Lead.statement]
  | returning word =>
    obtain ⟨rfl, rfl⟩ := shows_singleton_iff.1 hshows
    have hword : w.current.kind = .returnWord := hlead
    simp [statement, hword, StatementKind.ofToken, Lead.kind, Lead.statement]
  | bare =>
    obtain rfl := shows_nil_iff.1 hshows
    simp [statement, hbare rfl, Lead.kind, Lead.statement]

/-- The statement of a phrase is read up to its semicolon, which is looked for after the body. -/
theorem statement_eq_of_phrase (policies : Policies) {p : Phrase} (hp : p.Grammatical)
    {w w' : Window σ} (hshows : Shows w p.body w') :
    ∃ v, v.advance = w' ∧ statement policies w =
      let read := finish (policies.ofKind p.kind) p.statement v
      (read.1.mapError (ParseError.mk p.kind), read.2) := by
  obtain ⟨u, hlead, hvalue⟩ := shows_append_iff.1 hshows
  have hfirst : u.current = p.value.first := by
    obtain ⟨rest, hrest⟩ := p.value.tokens_eq_cons
    rw [hrest, shows_cons_iff] at hvalue
    exact hvalue.1
  have hbare : p.lead = .bare → StatementKind.ofToken u.current.kind = .exprStmt :=
    fun _ => hfirst ▸ ofToken_first hp.value
  obtain ⟨v, hv, hadv⟩ := expression_eq_of_grammatical hp.value hp.depth hvalue
  refine ⟨v, hadv, ?_⟩
  rw [statement_eq_of_lead policies hp.lead hlead hbare, finishWith_of_ok hv, hfirst]
  rfl

/-- What a round of the loop does with a segment: it gives the outcome, and the window stays on the
last token. -/
theorem statement_eq_of_segment {policies : Policies} {w w' : Window σ} {ts : List Token}
    {outcome : Except ParseError Statement} (hseg : Segment policies w'.current ts outcome)
    (hshows : Shows w ts w') : ∃ v, statement policies w = (outcome, v) ∧ v.advance = w' := by
  cases hseg with
  | unnamed hword hnext =>
    obtain ⟨rfl, rfl⟩ := shows_singleton_iff.1 hshows
    have hpeek : w.peek.kind ≠ .ident := hnext
    refine ⟨w, ?_, rfl⟩
    simp [statement, hword, StatementKind.ofToken, letStatement, hpeek, Except.mapError,
      advance_current]
  | unassigned hword hname hnext =>
    simp only [shows_cons_iff, shows_nil_iff] at hshows
    obtain ⟨rfl, rfl, rfl⟩ := hshows
    have hpeek : w.peek.kind = .ident := hname
    have hpeek' : w.advance.peek.kind ≠ .assign := hnext
    refine ⟨w.advance, ?_, rfl⟩
    simp [statement, hword, StatementKind.ofToken, letStatement, hpeek, nameOf_of_ident hpeek,
      hpeek', Except.mapError, advance_current]
  | @faulty lead body fault hlead hbare hbody =>
    obtain ⟨u, hu, hrest⟩ := shows_append_iff.1 hshows
    obtain ⟨v, hv, hadv⟩ := expression_eq_of_faulty hbody hrest
    have hstart : lead = .bare → StatementKind.ofToken u.current.kind = .exprStmt := by
      intro h
      obtain ⟨ops, x, rfl, -⟩ := hbody.eq_append
      cases ops <;> exact hbare h _ (by simp [(shows_cons_iff.1 hrest).1])
    refine ⟨v, ?_, hadv⟩
    rw [statement_eq_of_lead policies hlead hu hstart, finishWith_of_error hv]
    rfl
  | @unterminated p hp hstop hnext hpolicy =>
    rw [Phrase.tokens_of_stop_eq_none hstop] at hshows
    obtain ⟨v, rfl, hv⟩ := statement_eq_of_phrase policies hp hshows
    have hpeek : v.peek.kind ≠ .semicolon := hnext
    refine ⟨v, ?_, rfl⟩
    rw [hv, hpolicy]
    simp [finish, hpeek, Except.mapError, advance_current]
  | @statement p hp hallowed hnext =>
    obtain ⟨u, hbody, hstop⟩ := shows_append_iff.1 hshows
    obtain ⟨v, rfl, hv⟩ := statement_eq_of_phrase policies hp hbody
    cases hp' : p.stop with
    | none =>
      rw [hp'] at hstop
      obtain rfl := shows_nil_iff.1 hstop
      have hpeek : v.peek.kind ≠ .semicolon := hnext hp'
      refine ⟨v, ?_, rfl⟩
      rw [hv, hallowed hp']
      simp [finish, hpeek, Except.mapError]
    | some t =>
      rw [hp'] at hstop
      obtain ⟨hcur, rfl⟩ := shows_singleton_iff.1 hstop
      have hpeek : v.peek.kind = .semicolon := by
        rw [← advance_current, hcur]
        exact hp.stop t (by simp [hp'])
      refine ⟨v.advance, ?_, rfl⟩
      rw [hv]
      simp [finish, hpeek, Except.mapError]

theorem exists_expression (w : Window σ) :
    (∃ e w', Shows w (Expr.tokens e) w' ∧ e.Grammatical ∧ e.depth ≤ maxPrefixDepth) ∨
      ∃ body fault w', Shows w body w' ∧ Faulty body fault := by
  obtain ⟨ops, v, hshows, hops, hx⟩ := w.exists_operators
  have hbody : Shows w (ops ++ [v.current]) v.advance := hshows.append (.single v)
  by_cases hlen : maxPrefixDepth < ops.length
  · exact .inr ⟨_, _, _, hbody, .tooDeep hops hx hlen⟩
  have hlen' : ops.length ≤ maxPrefixDepth := Nat.le_of_not_lt hlen
  -- the operators go around an operand one by one
  have wrap (leaf : Expr) (hleaf : leaf.Grammatical) (htokens : leaf.tokens = [v.current])
      (hdepth : leaf.depth = 0) : ∃ e : Expr, Shows w e.tokens v.advance ∧ e.Grammatical ∧
        e.depth ≤ maxPrefixDepth := by
    obtain ⟨e, he, htokens', hdepth'⟩ := hleaf.exists_prefixed hops
    exact ⟨e, by rw [htokens', htokens]; exact hbody, he, by omega⟩
  by_cases hident : v.current.kind = .ident
  · obtain ⟨e, he⟩ := wrap (.ident ⟨v.current, v.current.literal⟩) ⟨hident, rfl⟩ rfl rfl
    exact .inl ⟨e, _, he⟩
  by_cases hint : v.current.kind = .int
  · cases hval : Number.int64? v.current.literal.toList with
    | none => exact .inr ⟨_, _, _, hbody, .intRange hops hlen' hint hval⟩
    | some value =>
      obtain ⟨e, he⟩ := wrap (.int v.current value) ⟨hint, hval⟩ rfl rfl
      exact .inl ⟨e, _, he⟩
  · exact .inr ⟨_, _, _, hbody, .noOperand hops hlen' hx hident hint⟩

theorem exists_segment_of_lead (policies : Policies) {lead : Lead} (hlead : lead.Grammatical)
    {w u : Window σ} (hshows : Shows w lead.tokens u)
    (hbare : lead = .bare → StatementKind.ofToken u.current.kind = .exprStmt) :
    ∃ ts outcome w', Shows w ts w' ∧ Segment policies w'.current ts outcome := by
  rcases u.exists_expression with ⟨e, v, hvalue, he, hdepth⟩ | ⟨body, fault, v, hbody, hfault⟩
  · have hphrase : Shows w (lead.tokens ++ e.tokens) v := hshows.append hvalue
    by_cases hsemi : v.current.kind = .semicolon
    · have hp : (Phrase.mk lead e (some v.current)).Grammatical :=
        ⟨hlead, he, hdepth, by simp [hsemi]⟩
      exact ⟨_, _, _, hphrase.append (.single v), .statement hp (by simp [Phrase.Allowed]) (by simp)⟩
    have hp : (Phrase.mk lead e none).Grammatical := ⟨hlead, he, hdepth, by simp⟩
    have hphrase' : Shows w (Phrase.mk lead e none).tokens v := by
      simpa [Phrase.tokens, Phrase.body] using hphrase
    cases hpolicy : policies.ofKind lead.kind with
    | required => exact ⟨_, _, _, hphrase', .unterminated hp rfl hsemi hpolicy⟩
    | optional => exact ⟨_, _, _, hphrase', .statement hp (fun _ => hpolicy) (fun _ => hsemi)⟩
  · refine ⟨_, _, _, hshows.append hbody, .faulty hlead ?_ hfault⟩
    intro h t ht
    obtain ⟨rest, rfl⟩ := List.head?_eq_some_iff.1 ht
    rw [← (shows_cons_iff.1 hbody).1]
    exact hbare h

theorem exists_segment (policies : Policies) (w : Window σ) :
    ∃ ts outcome w', Shows w ts w' ∧ Segment policies w'.current ts outcome := by
  cases hkind : StatementKind.ofToken w.current.kind with
  | letStmt =>
    have hword : w.current.kind = .letWord := StatementKind.ofToken_eq_letStmt.1 hkind
    by_cases hname : w.advance.current.kind = .ident
    · by_cases hequals : w.advance.advance.current.kind = .assign
      · have hlead : (Lead.binding w.current w.advance.current
            w.advance.advance.current).Grammatical := ⟨hword, hname, hequals⟩
        exact exists_segment_of_lead policies hlead (.cons (.cons (.single _))) (by simp)
      · exact ⟨_, _, _, .cons (.single _), .unassigned hword hname hequals⟩
    · exact ⟨_, _, _, .single _, .unnamed hword hname⟩
  | returnStmt =>
    have hlead : (Lead.returning w.current).Grammatical :=
      StatementKind.ofToken_eq_returnStmt.1 hkind
    exact exists_segment_of_lead policies hlead (.single _) (by simp)
  | exprStmt =>
    have hlead : Lead.bare.Grammatical := trivial
    exact exists_segment_of_lead policies hlead (.nil _) fun _ => hkind

@[elab_as_elim]
theorem round_induction (policies : Policies) {motive : Window σ → Prop}
    (stop : ∀ w, w.current.kind = .eof → motive w)
    (round : ∀ w, w.current.kind ≠ .eof → motive (statement policies w).2.advance → motive w)
    (w : Window σ) : motive w := by
  fun_induction outcomesAfter policies #[] w with
  | case1 done w h => exact stop w h
  | case2 done w h ih => exact round w h ih

theorem outcomesAfter_eq (policies : Policies) (w : Window σ)
    (done : Array (Except ParseError Statement)) :
    outcomesAfter policies done w =
      (done ++ (outcomesAfter policies #[] w).1, (outcomesAfter policies #[] w).2) := by
  revert done
  refine round_induction policies ?stop ?round w
  case stop =>
    intro w h done
    have hstop (d) : outcomesAfter policies d w = (d, w) := by rw [outcomesAfter, dif_pos h]
    simp [hstop]
  case round =>
    intro w h ih done
    have hround (d) : outcomesAfter policies d w =
        outcomesAfter policies (d.push (statement policies w).1)
          (statement policies w).2.advance := by
      rw [outcomesAfter, dif_neg h]
    rw [hround, ih, hround #[], ih (#[].push _)]
    simp

theorem outcomes_of_eof (policies : Policies) {w : Window σ} (h : w.current.kind = .eof) :
    outcomes policies w = ([], w) := by
  rw [outcomes, outcomesAfter, dif_pos h]

theorem outcomes_of_segment {policies : Policies} {w w' : Window σ} {ts : List Token}
    {outcome : Except ParseError Statement} (hw : w.current.kind ≠ .eof)
    (hshows : Shows w ts w') (hseg : Segment policies w'.current ts outcome) :
    outcomes policies w = (outcome :: (outcomes policies w').1, (outcomes policies w').2) := by
  obtain ⟨v, hv, rfl⟩ := statement_eq_of_segment hseg hshows
  rw [outcomes, outcomesAfter, dif_neg hw, hv, outcomesAfter_eq]
  simp [outcomes]

/-- Induction over the segments that a run reads. -/
@[elab_as_elim]
theorem segment_induction (policies : Policies) {motive : Window σ → Prop}
    (stop : ∀ w, w.current.kind = .eof → motive w)
    (segment : ∀ w ts outcome w', w.current.kind ≠ .eof → Shows w ts w' →
      Segment policies w'.current ts outcome → motive w' → motive w)
    (w : Window σ) : motive w := by
  refine round_induction policies stop (fun w h ih => ?_) w
  obtain ⟨ts, outcome, w', hshows, hseg⟩ := exists_segment policies w
  obtain ⟨v, hv, rfl⟩ := statement_eq_of_segment hseg hshows
  rw [hv] at ih
  exact segment w ts outcome _ h hshows hseg ih

/-- What the outcomes of a run are, and how far it goes, depends on the stream only. -/
theorem exists_outcomes_eq (policies : Policies) (w : Window σ) :
    ∃ results n, ∀ {τ : Type} [TokenSource τ] {v : Window τ}, w.stream = v.stream →
      outcomes policies v = (results, advance^[n] v) := by
  refine segment_induction policies ?stop ?segment w
  case stop =>
    intro w hw
    refine ⟨[], 0, fun {τ} _ {v} h => ?_⟩
    have hcur : w.current = v.current := congrFun h 0
    exact outcomes_of_eof policies (hcur ▸ hw)
  case segment =>
    intro w ts outcome w' hw hshows hseg ih
    obtain ⟨results, n, hrun⟩ := ih
    refine ⟨outcome :: results, n + ts.length, fun {τ} _ {v} h => ?_⟩
    have hcur : w.current = v.current := congrFun h 0
    obtain ⟨hshows', hrest⟩ := hshows.transfer h
    have hnext : w'.current = (advance^[ts.length] v).current := congrFun hrest 0
    rw [outcomes_of_segment (hcur ▸ hw) hshows' (hnext ▸ hseg), hrun hrest,
      Function.iterate_add_apply]

theorem outcomes_eq_of_stream_eq {τ : Type} [TokenSource τ] (policies : Policies) {w : Window σ}
    {v : Window τ} (h : w.stream = v.stream) :
    (outcomes policies w).1 = (outcomes policies v).1 := by
  obtain ⟨results, n, hrun⟩ := exists_outcomes_eq policies w
  rw [hrun rfl, hrun h]

end Window

theorem Parser.parseProgram_of_outcomes {σ : Type} [TokenSource σ] {p : Parser σ}
    {results : List (Except ParseError Statement)} {v : Window σ}
    (h : p.window.outcomes p.policies = (results, v)) :
    p.parseProgram =
      (⟨statementsOf results⟩, { p with window := v, errors := p.errors ++ errorsOf results }) := by
  rw [parseProgram, h]

theorem Parser.parse_ofSource {σ : Type} [TokenSource σ] (source : σ) (policies : Policies) :
    (Parser.ofSource source policies).parse =
      ⟨⟨statementsOf ((Window.ofSource source).outcomes policies).1⟩,
        errorsOf ((Window.ofSource source).outcomes policies).1⟩ := by
  simp only [Parser.parse, Parser.parseProgram, Parser.ofSource, List.nil_append]

end LetLang
