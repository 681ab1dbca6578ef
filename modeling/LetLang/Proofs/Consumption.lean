import LetLang.Parser.Session
import LetLang.Proofs.Recovery

/-! How many tokens a parser takes from its source. It takes two before it starts and one whenever
its window moves on, so it takes a list and two ends of input after it. Only an expression that the
list cuts off takes one more: the end of input stands where its operand should be. -/

namespace LetLang

variable {policies : Policies}

namespace Window

variable {σ : Type} [TokenSource σ]

theorem Shows.pulled {w w' : Window (Counted σ)} {ts : List Token} (h : Shows w ts w') :
    w'.source.pulled = w.source.pulled + ts.length := by
  induction h with
  | nil w => rfl
  | @cons w w' ts rest ih =>
    have hone : w.advance.source.pulled = w.source.pulled + 1 := rfl
    rw [ih, hone, List.length_cons]
    omega

theorem stream_ofSource_counted (source : σ) (n : Nat) :
    (ofSource (Counted.mk source n)).stream = (ofSource source).stream :=
  stream_ofSource_eq (R := fun (c : Counted σ) (s : σ) => c.source = s)
    (by rintro c _ rfl; exact ⟨rfl, rfl⟩) rfl

/-- A window with the stream of a list shows the list, and then the end of input for ever. -/
theorem exists_shows_of_list {w : Window σ} {ts : List Token}
    (h : w.stream = (ofSource ts).stream) :
    ∃ v, Shows w ts v ∧ v.current = Token.eof ∧ v.advance.current = Token.eof := by
  have hlist := shows_ofSource ts []
  rw [List.append_nil] at hlist
  obtain ⟨hshows, hstream⟩ := hlist.transfer h.symm
  exact ⟨_, hshows, (congrFun hstream 0).symm, (congrFun hstream 1).symm⟩

theorem outcomes_current (policies : Policies) (w : Window σ) :
    (outcomes policies w).2.current.kind = .eof := by
  refine segment_induction policies ?stop ?segment w
  case stop =>
    intro w hw
    rw [outcomes_of_eof policies hw]
    exact hw
  case segment =>
    intro w ts outcome w' hw hshows hseg ih
    rw [outcomes_of_segment hw hshows hseg]
    exact ih

end Window

/-- A parser that has read its program finds nothing more and takes nothing more. -/
theorem Parser.parseProgram_again {σ : Type} [TokenSource σ] (p : Parser σ) :
    p.parseProgram.2.parseProgram = (⟨[]⟩, p.parseProgram.2) := by
  have hend := Window.outcomes_of_eof p.policies (p.window.outcomes_current p.policies)
  simp [Parser.parseProgram, hend]

/-- Segment after segment, up to the token `next`; the outcomes of the segments in order. -/
inductive Segments (policies : Policies) (next : Token) :
    List Token → List (Except ParseError Statement) → Prop
  | nil : Segments policies next [] []
  | cons {ts rest : List Token} {outcome : Except ParseError Statement}
      {results : List (Except ParseError Statement)}
      (hseg : Segment policies (rest.headD next) ts outcome)
      (hrest : Segments policies next rest results) :
      Segments policies next (ts ++ rest) (outcome :: results)

namespace Segments

variable {next : Token} {ts : List Token} {results : List (Except ParseError Statement)}

theorem length_le (h : Segments policies next ts results) : results.length ≤ ts.length := by
  induction h with
  | nil => exact Nat.le_refl 0
  | cons hseg hrest ih =>
    have hpos := List.length_pos_iff.2 hseg.ne_nil
    rw [List.length_append, List.length_cons]
    omega

theorem outcomes_eq (h : Segments policies next ts results) (hts : ∀ t ∈ ts, t.kind ≠ .eof)
    {σ : Type} [TokenSource σ] {w v : Window σ} (hshows : w.Shows ts v) (hv : v.current = next) :
    w.outcomes policies = (results ++ (v.outcomes policies).1, (v.outcomes policies).2) := by
  induction h generalizing w with
  | nil =>
    obtain rfl := Window.shows_nil_iff.1 hshows
    rfl
  | @cons seg rest outcome results hseg hrest ih =>
    obtain ⟨hseg', hrest'⟩ := List.forall_mem_append.1 hts
    obtain ⟨u, hu, hshows⟩ := Window.shows_append_iff.1 hshows
    have hw : w.current.kind ≠ .eof := hseg' _ (hu.current_mem hseg.ne_nil)
    have hcur : u.current = rest.headD next := by rw [hshows.current_eq, hv]
    rw [← hcur] at hseg
    rw [Window.outcomes_of_segment hw hu hseg, ih hrest' hshows]
    rfl

end Segments

/-- The tokens end inside an expression: after whole segments comes all that leads up to it, and
operators, but no operand. -/
def EndsInside (policies : Policies) (ts : List Token) (lead : Lead) (ops : List Token) : Prop :=
  lead.Grammatical ∧ (∀ t ∈ ops, t.IsOperator) ∧ lead.tokens ++ ops ≠ [] ∧
    ∃ front results, ts = front ++ (lead.tokens ++ ops) ∧
      Segments policies ((lead.tokens ++ ops).headD Token.eof) front results

def lacksOperand (ops : List Token) : ParseFault :=
  if maxPrefixDepth < ops.length then .tooDeep ops.length else .expectedExpression Token.eof

theorem faulty_lacksOperand {ops : List Token} (hops : ∀ t ∈ ops, t.IsOperator) :
    Faulty (ops ++ [Token.eof]) (lacksOperand ops) := by
  have heof : ¬ Token.eof.IsOperator := by decide
  unfold lacksOperand
  split
  · next hlen => exact .tooDeep hops heof hlen
  · next hlen => exact .noOperand hops (Nat.le_of_not_lt hlen) heof (by decide) (by decide)

theorem segment_lacksOperand (next : Token) {lead : Lead} (hlead : lead.Grammatical)
    {ops : List Token} (hops : ∀ t ∈ ops, t.IsOperator) :
    Segment policies next (lead.tokens ++ (ops ++ [Token.eof]))
      (.error ⟨lead.kind, lacksOperand ops⟩) :=
  .faulty_run lead hlead hops (fun _ => rfl) (faulty_lacksOperand hops)

theorem EndsInside.exists_outcomes_eq {ts : List Token} {lead : Lead} {ops : List Token}
    (h : EndsInside policies ts lead ops) (hts : ∀ t ∈ ts, t.kind ≠ .eof) :
    ∃ results, results.length < ts.length ∧
      ∀ {σ : Type} [TokenSource σ] {w v : Window σ}, w.Shows ts v → v.current = Token.eof →
        w.outcomes policies = (results ++ .error ⟨lead.kind, lacksOperand ops⟩ ::
          (v.advance.outcomes policies).1, (v.advance.outcomes policies).2) := by
  obtain ⟨hlead, hops, hne, front, results, rfl, hfront⟩ := h
  obtain ⟨hfront', htail⟩ := List.forall_mem_append.1 hts
  refine ⟨results, ?_, ?_⟩
  · have hle := hfront.length_le
    have hpos := List.length_pos_iff.2 hne
    rw [List.length_append]
    omega
  intro σ _ w v hshows hv
  obtain ⟨u, hu, hopen⟩ := Window.shows_append_iff.1 hshows
  have hcur : u.current = (lead.tokens ++ ops).headD Token.eof := by rw [hopen.current_eq, hv]
  have hkind : u.current.kind ≠ .eof := htail _ (hopen.current_mem hne)
  have hcut : u.Shows (lead.tokens ++ (ops ++ [Token.eof])) v.advance := by
    rw [← List.append_assoc, ← hv]
    exact hopen.append (.single v)
  rw [hfront.outcomes_eq hfront' hu hcur,
    Window.outcomes_of_segment hkind hcut (segment_lacksOperand _ hlead hops)]

theorem Segment.exists_of_cutOff {next : Token} {ts : List Token}
    {outcome : Except ParseError Statement} (hne : ts ≠ [])
    (h : Segment policies next (ts ++ [Token.eof]) outcome) :
    ∃ (lead : Lead) (ops : List Token), lead.Grammatical ∧ (∀ t ∈ ops, t.IsOperator) ∧
      ts = lead.tokens ++ ops := by
  have hlast : Token.eof ∈ ts ++ [Token.eof] := by simp
  generalize hshown : ts ++ [Token.eof] = shown at h hlast
  cases h with
  | unnamed hword hnext =>
    have hlen := congrArg List.length hshown
    have hpos := List.length_pos_iff.2 hne
    simp only [List.length_append, List.length_cons, List.length_nil] at hlen
    omega
  | @unassigned word name hword hname hnext =>
    have hshown' : ts ++ [Token.eof] = [word] ++ [name] := hshown
    obtain ⟨-, heq⟩ := List.append_inj' hshown' rfl
    cases heq
    cases hname
  | @faulty lead body fault hlead hbare hbody =>
    obtain ⟨ops, x, rfl, hops⟩ := hbody.eq_append
    rw [← List.append_assoc] at hshown
    obtain ⟨hts, -⟩ := List.append_inj' hshown rfl
    exact ⟨lead, ops, hlead, hops, hts⟩
  | unterminated hp _ _ _ => exact absurd rfl (hp.kind_ne_eof hlast)
  | statement hp _ _ => exact absurd rfl (hp.kind_ne_eof hlast)

/-- Tokens are whole segments, or they end inside an expression. -/
theorem Cut.segments_or_endsInside {ts : List Token}
    {pieces : List (List Token × Except ParseError Statement)} (h : Cut policies ts pieces) :
    (∃ results, Segments policies Token.eof ts results) ∨
      ∃ lead ops, EndsInside policies ts lead ops := by
  induction h with
  | nil => exact .inl ⟨[], .nil⟩
  | @cons seg rest outcome pieces hseg hrest ih =>
    rcases ih with ⟨results, hresults⟩ | ⟨lead, ops, hlead, hops, hne, front, results, rfl, hfront⟩
    · exact .inl ⟨_, .cons hseg hresults⟩
    · refine .inr ⟨lead, ops, hlead, hops, hne, seg ++ front, outcome :: results, ?_,
        .cons ?_ hfront⟩
      · rw [List.append_assoc]
      · cases front <;> exact hseg
  | cutOff hne hseg =>
    obtain ⟨lead, ops, hlead, hops, rfl⟩ := hseg.exists_of_cutOff hne
    exact .inr ⟨lead, ops, hlead, hops, hne, [], [], rfl, .nil⟩

namespace Window

variable {σ : Type} [TokenSource σ] {ts : List Token} {w v : Window σ}

theorem outcomes_of_segments {results : List (Except ParseError Statement)}
    (h : Segments policies Token.eof ts results) (hts : ∀ t ∈ ts, t.kind ≠ .eof)
    (hshows : Shows w ts v) (hv : v.current = Token.eof) :
    outcomes policies w = (results, v) := by
  have hend : v.current.kind = .eof := by rw [hv]; rfl
  rw [h.outcomes_eq hts hshows hv, outcomes_of_eof policies hend, List.append_nil]

theorem outcomes_of_endsInside {lead : Lead} {ops : List Token}
    (h : EndsInside policies ts lead ops) (hts : ∀ t ∈ ts, t.kind ≠ .eof) (hshows : Shows w ts v)
    (hv : v.current = Token.eof) (hv' : v.advance.current = Token.eof) :
    ∃ results, results.length < ts.length ∧ outcomes policies w =
      (results ++ [.error ⟨lead.kind, lacksOperand ops⟩], v.advance) := by
  obtain ⟨results, hlt, hrun⟩ := h.exists_outcomes_eq hts
  have hend : v.advance.current.kind = .eof := by rw [hv']; rfl
  refine ⟨results, hlt, ?_⟩
  rw [hrun hshows hv, outcomes_of_eof policies hend]

end Window

/-- A parser takes two tokens when it is made, and reads all of a list. It then has taken two tokens
more than there are, or three if the list ends inside an expression, which is the last error. There
are at most as many statements and errors as tokens, and what follows is the empty program for
ever. -/
theorem parse_pulls (policies : Policies) (ts : List Token) (hts : ∀ t ∈ ts, t.kind ≠ .eof) :
    let parser := Parser.ofSource (Counted.mk ts 0) policies
    let done := parser.parseProgram
    parser.pulled = 2 ∧
      (∀ lead ops, EndsInside policies ts lead ops → done.2.pulled = ts.length + 3 ∧
        done.2.errors.getLast? = some ⟨lead.kind, lacksOperand ops⟩) ∧
      ((∀ lead ops, ¬ EndsInside policies ts lead ops) → done.2.pulled = ts.length + 2) ∧
      done.1.statements.length + done.2.errors.length ≤ ts.length ∧
      done.2.parseProgram = (⟨[]⟩, done.2) := by
  intro parser done
  obtain ⟨v, hshows, hv, hv'⟩ :=
    Window.exists_shows_of_list (Window.stream_ofSource_counted ts 0)
  have hpulled : v.source.pulled = ts.length + 2 := by
    rw [hshows.pulled, Nat.add_comm]
    rfl
  have hpulled' : v.advance.source.pulled = ts.length + 3 := congrArg (· + 1) hpulled
  have hwhole : ∀ results, Segments policies Token.eof ts results →
      parser.window.outcomes policies = (results, v) :=
    fun results h => Window.outcomes_of_segments h hts hshows hv
  have hinside : ∀ lead ops, EndsInside policies ts lead ops → ∃ results,
      results.length < ts.length ∧ parser.window.outcomes policies =
        (results ++ [.error ⟨lead.kind, lacksOperand ops⟩], v.advance) :=
    fun lead ops h => Window.outcomes_of_endsInside h hts hshows hv hv'
  have hdone : done = (⟨statementsOf (parser.window.outcomes policies).1⟩,
      { parser with
        window := (parser.window.outcomes policies).2
        errors := errorsOf (parser.window.outcomes policies).1 }) := by
    simp [done, parser, Parser.parseProgram, Parser.ofSource]
  have hcount : done.1.statements.length + done.2.errors.length =
      (parser.window.outcomes policies).1.length := by
    rw [hdone]
    exact length_statementsOf_add_errorsOf _
  obtain ⟨pieces, hcut⟩ := Cut.exists_cut policies hts
  refine ⟨rfl, ?_, ?_, ?_, parser.parseProgram_again⟩
  · intro lead ops h
    obtain ⟨results, -, heq⟩ := hinside lead ops h
    rw [hdone, heq]
    exact ⟨hpulled', by simp [errorsOf_append]⟩
  · intro hnot
    rcases hcut.segments_or_endsInside with ⟨results, hsegments⟩ | ⟨lead, ops, h⟩
    · rw [hdone, hwhole results hsegments]
      exact hpulled
    · exact absurd h (hnot lead ops)
  · rw [hcount]
    rcases hcut.segments_or_endsInside with ⟨results, hsegments⟩ | ⟨lead, ops, h⟩
    · rw [hwhole results hsegments]
      exact hsegments.length_le
    · obtain ⟨results, hlt, heq⟩ := hinside lead ops h
      rw [heq, List.length_append]
      exact hlt

/-- A statement that ends after its first operator. -/
theorem parse_pulls_no_operand :
    let word : Token := ⟨.returnWord, "return"⟩
    let bang : Token := ⟨.bang, "!"⟩
    let parser := (Parser.ofSource (Counted.mk [word, bang] 0) {}).parseProgram.2
    (∀ t ∈ [word, bang], t.kind ≠ .eof) ∧ EndsInside {} [word, bang] (.returning word) [bang] ∧
      parser.pulled = 5 ∧
      parser.errors.getLast? = some ⟨.returnStmt, .expectedExpression Token.eof⟩ := by
  intro word bang parser
  have hts : ∀ t ∈ [word, bang], t.kind ≠ .eof := by decide
  have hinside : EndsInside {} [word, bang] (.returning word) [bang] :=
    ⟨rfl, by decide, by decide, [], [], rfl, .nil⟩
  obtain ⟨-, htaken, -⟩ := parse_pulls {} [word, bang] hts
  exact ⟨hts, hinside, htaken _ _ hinside⟩

end LetLang
