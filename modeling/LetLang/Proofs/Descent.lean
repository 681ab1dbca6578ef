import LetLang.Proofs.Reading

/-! Reading an expression collects the operators before the operand in a loop. Plain recursive
descent reads an operator and then, as its operand, an expression: this leaves the window in the
same place, and gives the same tree or fault unless there are too many operators. -/

namespace LetLang.Window

variable {σ : Type}

/-- What is read depends on the first token; `prefixed` reads what starts with an operator. -/
def dispatch (prefixed : Window σ → Except ParseFault Expr × Window σ) (w : Window σ) :
    Except ParseFault Expr × Window σ :=
  match w.current.kind with
  | .bang | .minus => prefixed w
  | _ => (operand w.current, w)

theorem dispatch_of_isOperator (prefixed : Window σ → Except ParseFault Expr × Window σ)
    {w : Window σ} (h : w.current.IsOperator) : dispatch prefixed w = prefixed w := by
  unfold dispatch
  rcases h with h | h <;> rw [h]

theorem dispatch_of_not_isOperator (prefixed : Window σ → Except ParseFault Expr × Window σ)
    {w : Window σ} (h : ¬ w.current.IsOperator) :
    dispatch prefixed w = (operand w.current, w) := by
  obtain ⟨hbang, hminus⟩ := not_or.1 h
  unfold dispatch
  split
  · next heq => exact absurd heq hbang
  · next heq => exact absurd heq hminus
  · rfl

variable [TokenSource σ]

/-- Collects the operators and has `read` read what comes after them. It reads too if there are too
many operators, but then its result does not matter. -/
def collect (read : Window σ → Except ParseFault Expr × Window σ) (w : Window σ) :
    Except ParseFault Expr × Window σ :=
  let (ops, w') := w.operatorsAfter #[]
  let (result, w'') := read w'
  if ops.size > maxPrefixDepth then (.error (.tooDeep ops.size), w'')
  else (result.map (applyOps ops.toList), w'')

/-- Plain recursive descent: an operator goes before the expression that follows it. -/
def descend (w : Window σ) : Except ParseFault Expr × Window σ :=
  match _h : PrefixOp.ofKind? w.current.kind with
  | some op =>
    let (result, w') := descend w.advance
    (result.map (.prefixed w.current op), w')
  | none => (operand w.current, w)
termination_by w.size
decreasing_by exact advance_size_lt (kind_ne_eof_of_op _h)

theorem descend_of_op {w : Window σ} {op : PrefixOp}
    (h : PrefixOp.ofKind? w.current.kind = some op) :
    w.descend = (w.advance.descend.1.map (.prefixed w.current op), w.advance.descend.2) := by
  rw [descend]
  split
  · next op' h' =>
    obtain rfl : op = op' := Option.some.inj (h.symm.trans h')
    rfl
  · next h' => rw [h] at h'; cases h'

theorem descend_of_none {w : Window σ} (h : PrefixOp.ofKind? w.current.kind = none) :
    w.descend = (operand w.current, w) := by
  rw [descend]
  split
  · next op h' => rw [h] at h'; cases h'
  · rfl

section Run

variable {w w' : Window σ} {ops : List (Token × PrefixOp)}

theorem descend_eq (hops : ∀ p ∈ ops, PrefixOp.ofKind? p.1.kind = some p.2)
    (hshows : Shows w (ops.map Prod.fst) w') (hend : PrefixOp.ofKind? w'.current.kind = none) :
    w.descend = ((operand w'.current).map (applyOps ops), w') := by
  induction ops generalizing w with
  | nil =>
    obtain rfl := shows_nil_iff.1 hshows
    rw [descend_of_none hend]
    cases operand w'.current <;> rfl
  | cons p ops ih =>
    obtain ⟨t, op⟩ := p
    obtain ⟨rfl, hrest⟩ := shows_cons_iff.1 hshows
    obtain ⟨hop, hops'⟩ := List.forall_mem_cons.1 hops
    rw [descend_of_op hop, ih hops' hrest]
    cases operand w'.current <;> rfl

theorem expression_eq (hops : ∀ p ∈ ops, PrefixOp.ofKind? p.1.kind = some p.2)
    (hshows : Shows w (ops.map Prod.fst) w') (hend : PrefixOp.ofKind? w'.current.kind = none) :
    w.expression = (if maxPrefixDepth < ops.length then .error (.tooDeep ops.length)
      else (operand w'.current).map (applyOps ops), w') := by
  rw [expression, operatorsAfter_eq #[] hops hshows hend]
  by_cases hlen : maxPrefixDepth < ops.length <;> simp [hlen]

/-- Whatever `prefixed` is, it is not called where the operators end. -/
theorem collect_dispatch_eq (prefixed : Window σ → Except ParseFault Expr × Window σ)
    (hops : ∀ p ∈ ops, PrefixOp.ofKind? p.1.kind = some p.2)
    (hshows : Shows w (ops.map Prod.fst) w') (hend : PrefixOp.ofKind? w'.current.kind = none) :
    collect (dispatch prefixed) w = w.expression := by
  have hread := dispatch_of_not_isOperator prefixed (Token.not_isOperator_iff.2 hend)
  rw [expression_eq hops hshows hend, collect, operatorsAfter_eq #[] hops hshows hend]
  by_cases hlen : maxPrefixDepth < ops.length <;> simp [hlen, hread]

theorem dispatch_collect_eq (prefixed : Window σ → Except ParseFault Expr × Window σ)
    (hops : ∀ p ∈ ops, PrefixOp.ofKind? p.1.kind = some p.2)
    (hshows : Shows w (ops.map Prod.fst) w') (hend : PrefixOp.ofKind? w'.current.kind = none) :
    dispatch (collect (dispatch prefixed)) w = w.expression := by
  cases ops with
  | nil =>
    obtain rfl := shows_nil_iff.1 hshows
    rw [dispatch_of_not_isOperator _ (Token.not_isOperator_iff.2 hend),
      expression_eq hops hshows hend]
    cases operand w'.current <;> rfl
  | cons p ops =>
    have hop : w.current.IsOperator := by
      rw [(shows_cons_iff.1 hshows).1]
      exact Token.isOperator_iff.2 ⟨p.2, hops p List.mem_cons_self⟩
    rw [dispatch_of_isOperator _ hop, collect_dispatch_eq prefixed hops hshows hend]

end Run

theorem outcomes_of_tooDeep (policies : Policies) {lead : Lead} (hlead : lead.Grammatical)
    {u w v : Window σ} {ops : List Token} (hu : Shows u lead.tokens w) (hshows : Shows w ops v)
    (hops : ∀ t ∈ ops, t.IsOperator) (hend : ¬ v.current.IsOperator)
    (hlen : maxPrefixDepth < ops.length) :
    outcomes policies u = (.error ⟨lead.kind, .tooDeep ops.length⟩ ::
      (outcomes policies v.advance).1, (outcomes policies v.advance).2) := by
  have hne : ops ≠ [] := List.ne_nil_of_length_pos (Nat.zero_lt_of_lt hlen)
  have hinner : ∀ t ∈ lead.tokens ++ ops, t.kind.IsInner :=
    List.forall_mem_append.2 ⟨fun _ ht => hlead.isInner ht, fun t ht => (hops t ht).isInner⟩
  have hcur := (hu.append hshows).current_mem (List.append_ne_nil_of_right_ne_nil _ hne)
  exact outcomes_of_segment (hinner _ hcur).ne_eof (hu.append (hshows.append (.single v)))
    (.faulty_run lead hlead hops (absurd · hne) (.tooDeep hops hend hlen))

/-- From any window on, where `n` operators come next: the loop and plain recursive descent leave
the window on the token after the operators; neither is given the errors recorded so far. Both come
to the same tree or fault if there are at most 256 operators. If there are more, the fault is their
number, and a statement around them is this one error and no other. What follows the operators is
never read as starting with an operator: it does not matter what would be called for that. -/
theorem expression_eq_descend (w : Window σ) :
    ∃ n, (∀ k < n, (w.stream k).IsOperator) ∧ ¬ (w.stream n).IsOperator ∧
      w.expression.2 = advance^[n] w ∧ w.descend.2 = advance^[n] w ∧
      (n ≤ 256 → w.expression.1 = w.descend.1) ∧
      (256 < n → w.expression.1 = .error (.tooDeep n) ∧
        ∀ (policies : Policies) (lead : Lead) (u : Window σ), lead.Grammatical →
          Shows u lead.tokens w → outcomes policies u = (.error ⟨lead.kind, .tooDeep n⟩ ::
            (outcomes policies (advance^[n] w).advance).1,
            (outcomes policies (advance^[n] w).advance).2)) ∧
      ∀ prefixed, dispatch (collect (dispatch prefixed)) w = w.expression := by
  obtain ⟨ops, w', hshows, hops, hend⟩ := w.exists_operators
  obtain ⟨zipped, rfl, hzipped⟩ := exists_zip_of_operators hops
  have hend' : PrefixOp.ofKind? w'.current.kind = none := Token.not_isOperator_iff.1 hend
  have hw' : w' = advance^[zipped.length] w := by
    rw [hshows.eq_iterate, List.length_map]
  have hexpression := expression_eq hzipped hshows hend'
  have hdescend := descend_eq hzipped hshows hend'
  refine ⟨zipped.length, ?_, ?_, ?_, ?_, ?_, ?_, ?_⟩
  · intro k hk
    have hk' : k < (zipped.map Prod.fst).length := by rwa [List.length_map]
    rw [← hshows.getElem_eq hk']
    exact hops _ (List.getElem_mem hk')
  · rw [stream, ← hw']
    exact hend
  · rw [hexpression, hw']
  · rw [hdescend, hw']
  · intro hlen
    rw [hexpression, hdescend]
    exact if_neg (Nat.not_lt.2 hlen)
  · intro hlen
    refine ⟨?_, ?_⟩
    · rw [hexpression]
      exact if_pos hlen
    · intro policies lead u hlead hu
      have hlen' : maxPrefixDepth < (zipped.map Prod.fst).length := by rwa [List.length_map]
      rw [← hw', outcomes_of_tooDeep policies hlead hu hshows hops hend hlen', List.length_map]
  · exact fun prefixed => dispatch_collect_eq prefixed hzipped hshows hend'

/-- One operator too many before what is no operand: plain recursive descent finds fault with the
operand, the loop with the operators. -/
theorem expression_eq_descend_long_run :
    let bang : Token := ⟨.bang, "!"⟩
    let paren : Token := ⟨.rparen, ")"⟩
    let w := ofSource (List.replicate 257 bang ++ [paren])
    w.descend = (.error (.expectedExpression paren), ofSource [paren]) ∧
      w.expression = (.error (.tooDeep 257), ofSource [paren]) := by
  intro bang paren w
  have hshows : Shows w (List.replicate 257 bang) (ofSource [paren]) := shows_ofSource _ _
  have hlast : advance^[257] w = ofSource [paren] := by
    rw [hshows.eq_iterate, List.length_replicate]
  obtain ⟨n, hrun, hend, hexpression, hdescend, -, hdeep, -⟩ := expression_eq_descend w
  have hn : n = 257 := by
    rcases Nat.lt_trichotomy n 257 with hlt | heq | hgt
    · have hlt' : n < (List.replicate 257 bang).length := by rwa [List.length_replicate]
      rw [← hshows.getElem_eq hlt', List.getElem_replicate] at hend
      exact absurd (.inl rfl) hend
    · exact heq
    · have hparen := hrun 257 hgt
      rw [stream, hlast] at hparen
      exact absurd hparen (by decide)
  subst hn
  rw [hlast] at hexpression hdescend
  refine ⟨Prod.ext ?_ hdescend, Prod.ext (hdeep (by decide)).1 hexpression⟩
  decide +kernel

end LetLang.Window
