import LetLang.Proofs.Reading
import LetLang.Parser.Session

/-! Two policies for one input. A missing semicolon is an error under the one and nothing under the
other, but neither moves the window, so both runs stop at the same places. -/

namespace LetLang

/-- `loose` asks for a semicolon only where `strict` does. -/
def Policies.Loosens (loose strict : Policies) : Prop :=
  ∀ kind, loose.ofKind kind = .required → strict.ofKind kind = .required

/-- The outcome of one round under `strict` and under `loose`: the same, or a statement for which
only `strict` misses the semicolon. -/
inductive Forgives (strict loose : Policies) :
    Except ParseError Statement → Except ParseError Statement → Prop
  | same (outcome : Except ParseError Statement) : Forgives strict loose outcome outcome
  | forgiven {s : Statement} {found : Token} (hstrict : strict.ofKind s.kind = .required)
      (hloose : loose.ofKind s.kind = .optional) (hfound : found.kind ≠ .semicolon) :
      Forgives strict loose (.error ⟨s.kind, .expected .semicolon found⟩) (.ok s)

variable {strict loose : Policies}

theorem Phrase.Allowed.loosen (h : loose.Loosens strict) {p : Phrase} (hp : p.Allowed strict) :
    p.Allowed loose := by
  intro hstop
  cases hloose : loose.ofKind p.kind with
  | optional => rfl
  | required =>
    have hstrict := h _ hloose
    rw [hp hstop] at hstrict
    cases hstrict

theorem Segment.loosen (h : loose.Loosens strict) {next : Token} {ts : List Token}
    {outcome : Except ParseError Statement} (hseg : Segment strict next ts outcome) :
    ∃ outcome', Segment loose next ts outcome' ∧ Forgives strict loose outcome outcome' := by
  cases hseg with
  | unnamed hword hnext => exact ⟨_, .unnamed hword hnext, .same _⟩
  | unassigned hword hname hnext => exact ⟨_, .unassigned hword hname hnext, .same _⟩
  | faulty hlead hbare hbody => exact ⟨_, .faulty hlead hbare hbody, .same _⟩
  | statement hp hallowed hnext => exact ⟨_, .statement hp (hallowed.loosen h) hnext, .same _⟩
  | @unterminated p hp hstop hnext hpolicy =>
    cases hloose : loose.ofKind p.kind with
    | required => exact ⟨_, .unterminated hp hstop hnext hloose, .same _⟩
    | optional =>
      refine ⟨_, .statement hp (fun _ => hloose) (fun _ => hnext), ?_⟩
      rw [← p.kind_statement] at hpolicy hloose ⊢
      exact .forgiven hpolicy hloose hnext

/-- Two runs in step: outcome by outcome they are the same up to forgiven semicolons, and they end
in the same window. -/
theorem Window.outcomes_forgive {σ : Type} [TokenSource σ] (h : loose.Loosens strict)
    (w : Window σ) :
    List.Forall₂ (Forgives strict loose) (w.outcomes strict).1 (w.outcomes loose).1 ∧
      (w.outcomes strict).2 = (w.outcomes loose).2 := by
  refine segment_induction strict ?stop ?segment w
  case stop =>
    intro w hw
    rw [outcomes_of_eof strict hw, outcomes_of_eof loose hw]
    exact ⟨.nil, rfl⟩
  case segment =>
    intro w ts outcome w' hw hshows hseg ih
    obtain ⟨outcome', hseg', hforgives⟩ := hseg.loosen h
    rw [outcomes_of_segment hw hshows hseg, outcomes_of_segment hw hshows hseg']
    exact ⟨.cons hforgives ih.1, ih.2⟩

variable {results results' : List (Except ParseError Statement)}

theorem statementsOf_sublist (h : List.Forall₂ (Forgives strict loose) results results') :
    (statementsOf results).Sublist (statementsOf results') := by
  induction h with
  | nil => exact .slnil
  | @cons outcome _ _ _ hforgives _ ih =>
    cases hforgives with
    | same =>
      cases outcome with
      | ok s => exact ih.cons_cons s
      | error e => exact ih
    | forgiven _ _ _ => exact ih.cons _

theorem errorsOf_sublist (h : List.Forall₂ (Forgives strict loose) results results') :
    (errorsOf results').Sublist (errorsOf results) := by
  induction h with
  | nil => exact .slnil
  | @cons outcome _ _ _ hforgives _ ih =>
    cases hforgives with
    | same =>
      cases outcome with
      | ok s => exact ih
      | error e => exact ih.cons_cons e
    | forgiven _ _ _ => exact ih.cons _

theorem eq_of_errorsOf_nil (h : List.Forall₂ (Forgives strict loose) results results')
    (hnil : errorsOf results = []) : results' = results := by
  induction h with
  | nil => rfl
  | @cons outcome _ _ _ hforgives _ ih =>
    cases hforgives with
    | same =>
      cases outcome with
      | ok s => rw [ih hnil]
      | error e => cases hnil
    | forgiven _ _ _ => cases hnil

/-- The policies only filter: both runs take the same tokens from the source, and round by round
they have the same outcome, unless the stricter one misses a semicolon after a statement of the
looser one. -/
theorem policies_only_filter {σ : Type} [TokenSource σ] (source : σ) {strict loose : Policies}
    (h : loose.Loosens strict) :
    let rounds (policies : Policies) := ((Window.ofSource source).outcomes policies).1
    let parsed (policies : Policies) := (Parser.ofSource source policies).parse
    let pulled (policies : Policies) :=
      (Parser.ofSource (Counted.mk source 0) policies).parseProgram.2.pulled
    pulled strict = pulled loose ∧
      (parsed strict).program.statements.Sublist (parsed loose).program.statements ∧
      (parsed loose).errors.Sublist (parsed strict).errors ∧
      (parsed strict).program.statements.length + (parsed strict).errors.length =
        (parsed loose).program.statements.length + (parsed loose).errors.length ∧
      List.Forall₂ (Forgives strict loose) (rounds strict) (rounds loose) ∧
      (∀ policies, parsed policies =
        ⟨⟨statementsOf (rounds policies)⟩, errorsOf (rounds policies)⟩) ∧
      ((parsed strict).errors = [] → parsed loose = parsed strict) := by
  intro rounds parsed pulled
  have hparsed (policies : Policies) : parsed policies =
      ⟨⟨statementsOf (rounds policies)⟩, errorsOf (rounds policies)⟩ :=
    Parser.parse_ofSource source policies
  obtain ⟨hforgives, -⟩ := Window.outcomes_forgive h (Window.ofSource source)
  obtain ⟨-, hwindow⟩ := Window.outcomes_forgive h (Window.ofSource (Counted.mk source 0))
  refine ⟨congrArg (fun w => w.source.pulled) hwindow, ?_, ?_, ?_, hforgives, hparsed, ?_⟩
  · rw [hparsed, hparsed]
    exact statementsOf_sublist hforgives
  · rw [hparsed, hparsed]
    exact errorsOf_sublist hforgives
  · rw [hparsed, hparsed, length_statementsOf_add_errorsOf, length_statementsOf_add_errorsOf,
      hforgives.length_eq]
  · rw [hparsed, hparsed]
    intro hnil
    have heq : rounds loose = rounds strict := eq_of_errorsOf_nil hforgives hnil
    rw [heq]

/-- Two names in a row, the first without its semicolon, and a statement that is cut off. Under both
policies the parser takes seven tokens, and only the missing semicolon makes a difference. -/
theorem policies_only_filter_two_names :
    let a : Token := ⟨.ident, "a"⟩
    let b : Token := ⟨.ident, "b"⟩
    let source : List Token := [a, b, ⟨.semicolon, ";"⟩, ⟨.returnWord, "return"⟩]
    let strict : Policies := { exprStmt := .required }
    let pulled (policies : Policies) :=
      (Parser.ofSource (Counted.mk source 0) policies).parseProgram.2.pulled
    Policies.lenient.Loosens strict ∧
      (Parser.ofSource source strict).parse.program.statements.Sublist
        (Parser.ofSource source .lenient).parse.program.statements ∧
      (Parser.ofSource source .lenient).parse.errors.Sublist
        (Parser.ofSource source strict).parse.errors ∧
      (Parser.ofSource source .lenient).parse =
        ⟨⟨[.exprStmt a (.ident ⟨a, "a"⟩), .exprStmt b (.ident ⟨b, "b"⟩)]⟩,
          [⟨.returnStmt, .expectedExpression Token.eof⟩]⟩ ∧
      (Parser.ofSource source strict).parse =
        ⟨⟨[.exprStmt b (.ident ⟨b, "b"⟩)]⟩,
          [⟨.exprStmt, .expected .semicolon b⟩, ⟨.returnStmt, .expectedExpression Token.eof⟩]⟩ ∧
      pulled strict = 7 ∧ pulled .lenient = 7 := by
  intro a b source strict pulled
  have hloosens : Policies.lenient.Loosens strict := by
    intro kind hkind
    cases kind <;> cases hkind
  obtain ⟨hpulled, hstatements, herrors, -⟩ := policies_only_filter source hloosens
  have hlenient : (Parser.ofSource (Counted.mk source 0) .lenient).parseProgram.2.pulled = 7 := by
    cbv
  exact ⟨hloosens, hstatements, herrors, by cbv, by cbv, hpulled.trans hlenient, hlenient⟩

end LetLang
