import LetLang.Proofs.Consumption

/-! Going on after an end of input that more tokens follow. To the loop it is where the program
ends, and to an expression that still lacks its operand it is the token that cannot be one: so it
either stays the current token, to be left out by hand, or is taken with the last error. In both
cases the parser then stands before what follows just as one that has been made for it. -/

namespace LetLang

variable {policies : Policies}

theorem exists_segments_iff {ts : List Token} (hts : ∀ t ∈ ts, t.kind ≠ .eof) :
    (∃ results, Segments policies Token.eof ts results) ↔
      ∀ lead ops, ¬ EndsInside policies ts lead ops := by
  constructor
  · rintro ⟨results, hsegments⟩ lead ops hinside
    obtain ⟨v, hshows, hv, hv'⟩ :=
      Window.exists_shows_of_list (Window.stream_ofSource_counted ts 0)
    have hwhole := Window.outcomes_of_segments hsegments hts hshows hv
    obtain ⟨results', -, hcut⟩ := Window.outcomes_of_endsInside hinside hts hshows hv hv'
    have hwindow : v = v.advance := congrArg Prod.snd (hwhole.symm.trans hcut)
    have hpulled : v.advance.source.pulled = v.source.pulled + 1 := rfl
    rw [← hwindow] at hpulled
    omega
  · intro hnot
    obtain ⟨pieces, hcut⟩ := Cut.exists_cut policies hts
    rcases hcut.segments_or_endsInside with hsegments | ⟨lead, ops, h⟩
    · exact hsegments
    · exact absurd h (hnot lead ops)

namespace Parser

variable {σ : Type} [TokenSource σ] {source : σ} {results : List (Except ParseError Statement)}
  {v : Window σ}

theorem parse_of_outcomes (h : (Window.ofSource source).outcomes policies = (results, v)) :
    (Parser.ofSource source policies).parse = ⟨⟨statementsOf results⟩, errorsOf results⟩ := by
  rw [parse_ofSource, h]

/-- What was recorded before does not matter to what is read. -/
theorem parseProgram_withErrors (source : σ) (policies : Policies) (es : List ParseError) :
    (Parser.mk (Window.ofSource source) policies es).parseProgram =
      let fresh := (Parser.ofSource source policies).parseProgram
      (fresh.1, { fresh.2 with errors := es ++ fresh.2.errors }) := rfl

end Parser

/-- An end of input between two lists of tokens. If the first list does not end inside an
expression, its program ends there, and the parser goes on with the second list once it has left out
the end of input. If it does, the end of input is taken with the expression, and one program is read
from both lists. Either way the parser is in the end one that was made for the second list, its
errors recorded after those of the first. -/
theorem parseProgram_resumes (policies : Policies) (ts us : List Token)
    (hts : ∀ t ∈ ts, t.kind ≠ .eof) :
    let first := (Parser.ofSource (ts ++ [Token.eof] ++ us) policies).parseProgram
    let alone := (Parser.ofSource ts policies).parse
    let fresh := (Parser.ofSource us policies).parseProgram
    let resumed := { fresh.2 with errors := alone.errors ++ fresh.2.errors }
    ((∀ lead ops, ¬ EndsInside policies ts lead ops) →
      first.1 = alone.program ∧ first.2.errors = alone.errors ∧
        first.2.nextToken.parseProgram = (fresh.1, resumed)) ∧
    ∀ lead ops, EndsInside policies ts lead ops →
      first = (⟨alone.program.statements ++ fresh.1.statements⟩, resumed) := by
  intro first alone fresh resumed
  have hinner : (Window.ofSource (ts ++ [Token.eof] ++ us)).Shows ts
      (Window.ofSource (Token.eof :: us)) := by
    rw [List.append_assoc]
    exact Window.shows_ofSource ts _
  have hlast := Window.shows_ofSource ts []
  rw [List.append_nil] at hlast
  have hcur : (Window.ofSource (Token.eof :: us)).current = Token.eof := Window.current_ofSource _
  have hadvance : (Window.ofSource (Token.eof :: us)).advance = Window.ofSource us :=
    Window.advance_ofSource _
  refine ⟨?whole, ?inside⟩
  case whole =>
    intro hnot
    obtain ⟨results, hsegments⟩ := (exists_segments_iff hts).2 hnot
    have halone : alone = ⟨⟨statementsOf results⟩, errorsOf results⟩ :=
      Parser.parse_of_outcomes (Window.outcomes_of_segments hsegments hts hlast rfl)
    have hfirst : first = (alone.program,
        ⟨Window.ofSource (Token.eof :: us), policies, alone.errors⟩) := by
      rw [halone]
      exact Parser.parseProgram_of_outcomes
        (Window.outcomes_of_segments hsegments hts hinner hcur)
    have hnext : first.2.nextToken = ⟨Window.ofSource us, policies, alone.errors⟩ := by
      rw [hfirst, Parser.nextToken, hadvance]
    refine ⟨by rw [hfirst], by rw [hfirst], ?_⟩
    rw [hnext]
    exact Parser.parseProgram_withErrors us policies alone.errors
  case inside =>
    intro lead ops hinside
    obtain ⟨results, -, hrun⟩ := hinside.exists_outcomes_eq hts
    have hend : (Window.ofSource ([] : List Token)).advance.outcomes policies =
        ([], Window.ofSource []) := Window.outcomes_of_eof policies rfl
    have hcut := hrun hlast rfl
    have hwhole := hrun hinner hcur
    rw [hend] at hcut
    rw [hadvance] at hwhole
    -- the two runs have their results up to the end of input in common
    have halone : alone = _ := Parser.parse_of_outcomes hcut
    have hfirst : first = _ := Parser.parseProgram_of_outcomes hwhole
    have hfresh : fresh = _ := Parser.parseProgram_of_outcomes (Prod.eta _).symm
    rw [hfirst]
    simp [resumed, halone, hfresh, Parser.ofSource, statementsOf_append, errorsOf_append]

/-- A binding without its name leaves the end of input where it is, an operator without its operand
takes it. -/
theorem parseProgram_resumes_after_word :
    let word : Token := ⟨.letWord, "let"⟩
    let bang : Token := ⟨.bang, "!"⟩
    let a : Token := ⟨.ident, "a"⟩
    let program : Program := ⟨[.exprStmt a (.ident ⟨a, "a"⟩)]⟩
    let stopped := (Parser.ofSource ([word] ++ [Token.eof] ++ [a]) {}).parseProgram
    let swallowed := (Parser.ofSource ([bang] ++ [Token.eof] ++ [a]) {}).parseProgram
    (∀ t ∈ [word], t.kind ≠ .eof) ∧ (∀ lead ops, ¬ EndsInside {} [word] lead ops) ∧
      (∀ t ∈ [bang], t.kind ≠ .eof) ∧ EndsInside {} [bang] .bare [bang] ∧
      stopped.1 = ⟨[]⟩ ∧ stopped.2.errors = [⟨.letStmt, .expected .ident Token.eof⟩] ∧
      stopped.2.nextToken.parseProgram.1 = program ∧
      stopped.2.nextToken.parseProgram.2.errors = stopped.2.errors ∧
      swallowed.1 = program ∧
      swallowed.2.errors = [⟨.exprStmt, .expectedExpression Token.eof⟩] := by
  intro word bang a program stopped swallowed
  have hword : ∀ t ∈ [word], t.kind ≠ .eof := by decide
  have hbang : ∀ t ∈ [bang], t.kind ≠ .eof := by decide
  have hsegments : Segments {} Token.eof [word] [.error ⟨.letStmt, .expected .ident Token.eof⟩] :=
    .cons (.unnamed rfl (by decide)) .nil
  have hwhole := (exists_segments_iff hword).1 ⟨_, hsegments⟩
  have hinside : EndsInside {} [bang] .bare [bang] :=
    ⟨trivial, by decide, by decide, [], [], rfl, .nil⟩
  have hfresh : (Parser.ofSource [a] {}).parseProgram.1 = program ∧
      (Parser.ofSource [a] {}).parseProgram.2.errors = [] := by decide +kernel
  obtain ⟨hprogram, herrors, hnext⟩ := (parseProgram_resumes {} [word] [a] hword).1 hwhole
  have hlast : swallowed = _ := (parseProgram_resumes {} [bang] [a] hbang).2 _ _ hinside
  refine ⟨hword, hwhole, hbang, hinside, ?_, ?_, ?_, ?_, ?_, ?_⟩
  · rw [hprogram]; decide +kernel
  · rw [herrors]; decide +kernel
  · rw [hnext]; exact hfresh.1
  · rw [hnext, herrors, hfresh.2, List.append_nil]
  · rw [hlast, hfresh.1]; decide +kernel
  · rw [hlast, hfresh.2]; decide +kernel

end LetLang
