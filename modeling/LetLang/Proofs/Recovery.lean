import LetLang.Proofs.Reading

/-! Recovery: whatever the tokens are, the parser cuts them into segments from left to right. No
token is read twice, skipped or made up, and each segment is one statement or one error. -/

namespace LetLang

/-- Tokens cut into segments, each with its outcome. The last expression may be cut off: then the
end of input is the token that ends its segment. -/
inductive Cut (policies : Policies) :
    List Token → List (List Token × Except ParseError Statement) → Prop
  | nil : Cut policies [] []
  | cons {ts rest : List Token} {outcome : Except ParseError Statement}
      {pieces : List (List Token × Except ParseError Statement)}
      (hseg : Segment policies (rest.headD Token.eof) ts outcome)
      (hrest : Cut policies rest pieces) :
      Cut policies (ts ++ rest) ((ts, outcome) :: pieces)
  | cutOff {ts : List Token} {outcome : Except ParseError Statement} (hne : ts ≠ [])
      (hseg : Segment policies Token.eof (ts ++ [Token.eof]) outcome) :
      Cut policies ts [(ts, outcome)]

namespace Window

variable {σ : Type} [TokenSource σ]

theorem segment_unique {policies : Policies} {w u u' : Window σ} {ts ts' : List Token}
    {outcome outcome' : Except ParseError Statement} (hshows : Shows w ts u)
    (hseg : Segment policies u.current ts outcome) (hshows' : Shows w ts' u')
    (hseg' : Segment policies u'.current ts' outcome') : outcome = outcome' ∧ u = u' := by
  obtain ⟨v, hv, rfl⟩ := statement_eq_of_segment hseg hshows
  obtain ⟨v', hv', rfl⟩ := statement_eq_of_segment hseg' hshows'
  obtain ⟨rfl, rfl⟩ := Prod.mk.inj (hv.symm.trans hv')
  exact ⟨rfl, rfl⟩

theorem ofSource_injective {ts us : List Token} (hts : ∀ t ∈ ts, t.kind ≠ .eof)
    (hus : ∀ t ∈ us, t.kind ≠ .eof) (h : ofSource ts = ofSource us) : ts = us := by
  induction ts generalizing us with
  | nil =>
    cases us with
    | nil => rfl
    | cons u us =>
      have hcur := congrArg current h
      rw [current_ofSource, current_ofSource] at hcur
      exact absurd (congrArg Token.kind hcur.symm) (hus u List.mem_cons_self)
  | cons t ts ih =>
    have hcur := congrArg current h
    have hadv := congrArg advance h
    rw [current_ofSource, current_ofSource] at hcur
    rw [advance_ofSource, advance_ofSource] at hadv
    cases us with
    | nil => exact absurd (congrArg Token.kind hcur) (hts t List.mem_cons_self)
    | cons u us =>
      obtain rfl : t = u := hcur
      rw [ih (fun t ht => hts t (List.mem_cons_of_mem _ ht))
        (fun u hu => hus u (List.mem_cons_of_mem _ hu)) hadv]

theorem current_kind_ne_eof {ts : List Token} (hts : ∀ t ∈ ts, t.kind ≠ .eof) (hne : ts ≠ []) :
    (ofSource ts).current.kind ≠ .eof := by
  obtain ⟨t, rest, rfl⟩ := List.exists_cons_of_ne_nil hne
  rw [current_ofSource]
  exact hts t List.mem_cons_self

end Window

namespace Cut

open Window

variable {policies : Policies} {ts : List Token}
  {pieces pieces' : List (List Token × Except ParseError Statement)}

theorem flatten_eq (h : Cut policies ts pieces) : (pieces.map Prod.fst).flatten = ts := by
  induction h with
  | nil => rfl
  | cons hseg hrest ih => rw [List.map_cons, List.flatten_cons, ih]
  | cutOff hne hseg => simp

theorem ne_nil (h : Cut policies ts pieces) : ∀ p ∈ pieces, p.1 ≠ [] := by
  induction h with
  | nil => simp
  | cons hseg hrest ih => exact List.forall_mem_cons.2 ⟨hseg.ne_nil, ih⟩
  | cutOff hne hseg => exact List.forall_mem_singleton.2 hne

theorem exists_cut (policies : Policies) {ts : List Token} (h : ∀ t ∈ ts, t.kind ≠ .eof) :
    ∃ pieces, Cut policies ts pieces := by
  induction hn : ts.length using Nat.strongRecOn generalizing ts with
  | _ n ih =>
    cases hts : ts with
    | nil => exact ⟨[], .nil⟩
    | cons t us =>
      rw [← hts]
      obtain ⟨seg, outcome, w, hshows, hseg⟩ := exists_segment policies (ofSource ts)
      rcases hshows.of_list hseg.kind_ne_eof_of_mem_dropLast with ⟨rest, heq, rfl⟩ | ⟨rfl, rfl⟩
      · have hlt : rest.length < n := by
          have := List.length_pos_iff.2 hseg.ne_nil
          rw [← hn, heq, List.length_append]
          omega
        obtain ⟨pieces, hpieces⟩ := ih _ hlt
          (fun t ht => h t (heq ▸ List.mem_append_right _ ht)) rfl
        rw [current_ofSource] at hseg
        rw [heq]
        exact ⟨_, .cons hseg hpieces⟩
      · exact ⟨_, .cutOff (by simp [hts]) hseg⟩

theorem eq_nil (h : Cut policies [] pieces) : pieces = [] := by
  have hflat := h.flatten_eq
  have hne := h.ne_nil
  cases pieces with
  | nil => rfl
  | cons p pieces => exact absurd (List.append_eq_nil_iff.1 hflat).1 (hne p List.mem_cons_self)

theorem starts {p : List Token × Except ParseError Statement} (h : Cut policies ts (p :: pieces)) :
    ∃ rest shown, ts = p.1 ++ rest ∧ Cut policies rest pieces ∧
      Shows (ofSource ts) shown (ofSource rest) ∧
      Segment policies (ofSource rest).current shown p.2 := by
  cases h with
  | @cons seg rest outcome _ hseg hrest =>
    rw [← current_ofSource] at hseg
    exact ⟨rest, seg, rfl, hrest, shows_ofSource seg rest, hseg⟩
  | cutOff _ hseg =>
    exact ⟨[], ts ++ [Token.eof], (List.append_nil ts).symm, .nil, shows_ofSource_end ts, hseg⟩

/-- The run of the parser along a cut: the outcomes in order, and then the end of the list. -/
theorem outcomes_eq (h : Cut policies ts pieces) (hts : ∀ t ∈ ts, t.kind ≠ .eof) :
    outcomes policies (ofSource ts) = (pieces.map Prod.snd, ofSource []) := by
  induction pieces generalizing ts with
  | nil =>
    obtain rfl : [] = ts := h.flatten_eq
    exact outcomes_of_eof policies rfl
  | cons p pieces ih =>
    have hne : ts ≠ [] := by
      rintro rfl
      cases h.eq_nil
    obtain ⟨rest, shown, rfl, hrest, hshows, hseg⟩ := h.starts
    rw [outcomes_of_segment (current_kind_ne_eof hts hne) hshows hseg,
      ih hrest fun t ht => hts t (List.mem_append_right _ ht)]
    rfl

/-- Tokens are cut in one way. -/
theorem unique (h : Cut policies ts pieces) (h' : Cut policies ts pieces')
    (hts : ∀ t ∈ ts, t.kind ≠ .eof) : pieces = pieces' := by
  induction pieces generalizing ts pieces' with
  | nil =>
    obtain rfl : [] = ts := h.flatten_eq
    exact h'.eq_nil.symm
  | cons p pieces ih =>
    cases pieces' with
    | nil =>
      obtain rfl : [] = ts := h'.flatten_eq
      exact h.eq_nil
    | cons p' pieces' =>
      obtain ⟨rest, shown, heq, hrest, hshows, hseg⟩ := h.starts
      obtain ⟨rest', shown', heq', hrest', hshows', hseg'⟩ := h'.starts
      have htail : ∀ t ∈ rest, t.kind ≠ .eof := by
        intro t ht
        exact hts t (heq ▸ List.mem_append_right _ ht)
      have htail' : ∀ t ∈ rest', t.kind ≠ .eof := by
        intro t ht
        exact hts t (heq' ▸ List.mem_append_right _ ht)
      -- one outcome and one window come after it, and the window tells the rest of the list
      obtain ⟨houtcome, hwindow⟩ := segment_unique hshows hseg hshows' hseg'
      obtain rfl := ofSource_injective htail htail' hwindow
      have htokens : p.1 = p'.1 := List.append_cancel_right (heq.symm.trans heq')
      rw [ih hrest hrest' htail, Prod.ext htokens houtcome]

theorem parse_eq (h : Cut policies ts pieces) (hts : ∀ t ∈ ts, t.kind ≠ .eof) :
    (Parser.ofSource ts policies).parse =
      ⟨⟨statementsOf (pieces.map Prod.snd)⟩, errorsOf (pieces.map Prod.snd)⟩ := by
  rw [Parser.parse_ofSource, h.outcomes_eq hts]

end Cut

/-- A statement that ends with the input, without a semicolon: the policy for statements of its own
kind decides. -/
theorem parse_unterminated (policies : Policies) {p : Phrase} (hp : p.Grammatical)
    (hstop : p.stop = none) :
    let wanted := match p.lead with
      | .binding .. => policies.letStmt
      | .returning _ => policies.returnStmt
      | .bare => policies.exprStmt
    (Parser.ofSource p.tokens policies).parse =
      match wanted with
      | .required => ⟨⟨[]⟩, [⟨p.kind, .expected .semicolon Token.eof⟩]⟩
      | .optional => ⟨⟨[p.statement]⟩, []⟩ := by
  intro wanted
  have hwanted : policies.ofKind p.kind = wanted := by
    obtain ⟨lead, value, stop⟩ := p
    cases lead <;> rfl
  have hnext : ([].headD Token.eof).kind ≠ .semicolon := by decide
  have hts : ∀ t ∈ p.tokens ++ [], t.kind ≠ .eof := by
    rw [List.append_nil]
    exact fun t ht => hp.kind_ne_eof ht
  rw [← List.append_nil p.tokens]
  cases hpolicy : wanted with
  | required =>
    have hcut := Cut.cons (.unterminated hp hstop hnext (hwanted.trans hpolicy)) .nil
    exact hcut.parse_eq hts
  | optional =>
    have hcut := Cut.cons (.statement hp (fun _ => hwanted.trans hpolicy) fun _ => hnext) .nil
    exact hcut.parse_eq hts

/-- Every list of tokens is cut in exactly one way into segments, of which each has at least one
token and makes one statement or one error; the parser gives these, in the order of the segments. -/
theorem parse_follows_cut (policies : Policies) (ts : List Token)
    (hts : ∀ t ∈ ts, t.kind ≠ .eof) :
    ∃ pieces, Cut policies ts pieces ∧ (∀ pieces', Cut policies ts pieces' → pieces' = pieces) ∧
      (pieces.map Prod.fst).flatten = ts ∧ (∀ p ∈ pieces, p.1 ≠ []) ∧
      (Parser.ofSource ts policies).parse =
        ⟨⟨statementsOf (pieces.map Prod.snd)⟩, errorsOf (pieces.map Prod.snd)⟩ := by
  obtain ⟨pieces, hcut⟩ := Cut.exists_cut policies hts
  refine ⟨pieces, hcut, ?_, hcut.flatten_eq, hcut.ne_nil, hcut.parse_eq hts⟩
  intro pieces' hcut'
  exact hcut'.unique hcut hts

/-- A binding without a name, a statement, and an operator without an operand. -/
theorem parse_follows_cut_no_name :
    let word : Token := ⟨.letWord, "let"⟩
    let five : Token := ⟨.int, "5"⟩
    let minus : Token := ⟨.minus, "-"⟩
    (∀ t ∈ [word, five, minus], t.kind ≠ .eof) ∧
      (Parser.ofSource [word, five, minus] {}).parse =
        ⟨⟨[.exprStmt five (.int five 5)]⟩,
          [⟨.letStmt, .expected .ident five⟩, ⟨.exprStmt, .expectedExpression Token.eof⟩]⟩ := by
  intro word five minus
  have hts : ∀ t ∈ [word, five, minus], t.kind ≠ .eof := by decide
  have hfive : (Phrase.mk .bare (.int five 5) none).Grammatical :=
    ⟨trivial, ⟨rfl, by decide⟩, by decide, by simp⟩
  have hminus : Faulty [minus, Token.eof] (.expectedExpression Token.eof) := by
    have hops : ∀ t ∈ [minus], t.IsOperator := by decide
    exact .noOperand hops (by decide) (by decide) (by decide) (by decide)
  have hcut : Cut {} [word, five, minus] [([word], .error ⟨.letStmt, .expected .ident five⟩),
      ([five], .ok (.exprStmt five (.int five 5))),
      ([minus], .error ⟨.exprStmt, .expectedExpression Token.eof⟩)] :=
    .cons (.unnamed rfl (by decide))
      (.cons (.statement hfive (fun _ => rfl) (fun _ => by decide))
        (.cutOff (by decide) (@Segment.faulty _ _ .bare _ _ trivial (fun _ => by decide) hminus)))
  obtain ⟨pieces, -, hunique, -, -, hparse⟩ := parse_follows_cut {} [word, five, minus] hts
  rw [← hunique _ hcut] at hparse
  exact ⟨hts, hparse⟩

end LetLang
