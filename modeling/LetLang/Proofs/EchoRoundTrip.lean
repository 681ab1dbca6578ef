import LetLang.Proofs.RoundTrip
import LetLang.Proofs.Session

/-! A rendered program is shown by the shell as it is. Each of its lines is one statement, which
ends with a semicolon and so is no exit line, and which is parsed without the others to itself. -/

namespace LetLang

theorem Token.WellFormed.isSeparator_eq_false {t : Token} (ht : t.WellFormed) {c : Char}
    (hc : c ∈ t.literal.toList) : isSeparator c = false := by
  cases ht with
  | @word l hne hl =>
    have hletter : isLetter c := hl c (by simpa [ofWord] using hc)
    exact LetLang.isSeparator_eq_false (.inl hletter)
  | @int l hne hl =>
    have hdigit : c.isDigit := hl c (by simpa using hc)
    exact LetLang.isSeparator_eq_false (.inr (.inl hdigit))
  | @symbol d kind hd =>
    obtain rfl : c = d := by simpa using hc
    exact LetLang.isSeparator_eq_false (.inr (.inr (by simp [hd])))
  | @withEquals d kind longer hd hlonger =>
    have hc' : c = d ∨ c = '=' := by simpa using hc
    rcases hc' with rfl | rfl
    · exact LetLang.isSeparator_eq_false (.inr (.inr (by simp [hd])))
    · rfl
  | @illegal d hsep hsymbol hletter hdigit =>
    obtain rfl : c = d := by simpa using hc
    exact hsep

theorem Expr.Grammatical.isSeparator_render {e : Expr} (he : e.Grammatical)
    (hw : ∀ t ∈ e.tokens, t.WellFormed) : ∀ c ∈ e.render.toList, isSeparator c = false := by
  induction e with
  | ident name =>
    intro c hc
    rw [render, he.2] at hc
    exact (hw _ List.mem_cons_self).isSeparator_eq_false hc
  | int token value =>
    intro c hc
    exact (hw _ List.mem_cons_self).isSeparator_eq_false hc
  | prefixed token op operand ih =>
    intro c hc
    obtain ⟨-, hoperand⟩ := List.forall_mem_cons.1 hw
    rw [render, String.toList_append, List.mem_append] at hc
    rcases hc with hc | hc
    · cases op <;> (obtain rfl := List.mem_singleton.1 hc; rfl)
    · exact ih he.2 hoperand c hc

theorem newline_not_mem {text : String} (h : ∀ c ∈ text.toList, isSeparator c = false) :
    '\n' ∉ text.toList := fun hmem => absurd (h _ hmem) (by decide)

theorem Phrase.Grammatical.newline_not_mem_render {p : Phrase} (hp : p.Grammatical)
    (hw : ∀ t ∈ p.body, t.WellFormed) : '\n' ∉ p.statement.render.toList := by
  obtain ⟨lead, value, stop⟩ := p
  have hvalue : '\n' ∉ value.render.toList :=
    newline_not_mem (hp.value.isSeparator_render fun t ht => hw t (List.mem_append_right _ ht))
  have hliteral {t : Token} (ht : t ∈ lead.tokens) : '\n' ∉ t.literal.toList :=
    newline_not_mem fun c hc => (hw t (List.mem_append_left _ ht)).isSeparator_eq_false hc
  cases lead with
  | binding word name equals =>
    have hword := hliteral (t := word) (by simp [Lead.tokens])
    have hname := hliteral (t := name) (by simp [Lead.tokens])
    simp [statement, Lead.statement, Statement.render, hword, hname, hvalue]
  | returning word =>
    have hword := hliteral (t := word) (by simp [Lead.tokens])
    simp [statement, Lead.statement, Statement.render, hword, hvalue]
  | bare => simp [statement, Lead.statement, Statement.render, hvalue]

theorem Program.render_newline {statements : List Statement} (h : statements ≠ []) :
    (Program.mk statements).render ++ "\n" =
      String.join (statements.map fun s => s.render ++ "\n") := by
  induction statements with
  | nil => exact absurd rfl h
  | cons s statements ih =>
    cases statements with
    | nil => simp [Program.render]
    | cons s' statements =>
      rw [List.map_cons, String.join_cons, ← ih (List.cons_ne_nil _ _)]
      simp [Program.render, String.append_assoc]

theorem tokens_append_newline (a b : String) : tokens (a ++ "\n" ++ b) = tokens a ++ tokens b := by
  have hrest : ("\n" ++ b).toList = '\n' :: b.toList := String.toList_append
  have hblank : tokens ("\n" ++ b) = tokens b := by
    rw [tokens_eq_scanAll, tokens_eq_scanAll, hrest]
    exact (Spells.blank rfl (spells_scanAll b.toList)).scanAll_eq
  have hjoin : ∀ c ∈ ("\n" ++ b).toList.head?, ∀ t : Token, ¬ t.Absorbs c := by
    intro c hc t
    rw [hrest] at hc
    obtain rfl : '\n' = c := Option.some.inj hc
    exact t.not_absorbs_separator rfl
  rw [String.append_assoc, tokens_append hjoin, hblank]

theorem parse_append_newline (text : String) (policies : Policies) :
    parse (text ++ "\n") policies = parse text policies := by
  have h := tokens_append_newline text ""
  rw [String.append_empty, tokens_empty, List.append_nil] at h
  rw [parse_eq_parse_tokens, h, ← parse_eq_parse_tokens]

theorem Statement.exists_render_eq (s : Statement) : ∃ text, s.render = text ++ ";" := by
  cases s <;> exact ⟨_, rfl⟩

theorem Shell.isExit_semicolon (text : String) : isExit (text ++ ";" ++ "\n") = false := by
  have htrim : Text.trimEnd (text ++ ";" ++ "\n").toList = text.toList ++ [';'] := by
    have hnewline : Text.isBlank '\n' = true := by decide
    have hsemicolon : Text.isBlank ';' = false := by decide
    simp [Text.trimEnd, Text.dropEndWhile, hnewline, hsemicolon]
  rw [isExit, htrim, beq_eq_false_iff_ne]
  intro heq
  have hlast := congrArg List.getLast? heq
  rw [List.getLast?_concat] at hlast
  exact absurd hlast (by decide)

theorem Phrase.Grammatical.echo_render {p : Phrase} (hp : p.Grammatical)
    (hw : ∀ t ∈ p.body, t.WellFormed) (policies : Policies) :
    echo .ast policies (p.statement.render ++ "\n") = p.statement.render ++ "\n" := by
  have hrender : (Program.mk [p.statement]).render = p.statement.render := by
    simp [Program.render]
  have hparse := parse_render_phrases (List.forall_mem_singleton.2 ⟨hp, hw⟩) policies
  rw [List.map_singleton, hrender] at hparse
  rw [echo, reply, parse_append_newline, hparse, Parsed.reply, hrender]
  simp

/-- A program that was read from some text is rendered, and a session in which programs are shown
reads this text under any policies: it shows each statement as it is after a prompt of its own, and
ends with the input. -/
theorem run_render_parse (text : String) (policies policies' : Policies)
    (h : (parse text policies).program.statements ≠ []) :
    let program := (parse text policies).program
    let shown := String.join (program.statements.map fun s => ">> " ++ s.render ++ "\n")
    Shell.run .ast policies' {} (program.render ++ "\n").toUTF8.toList =
      ⟨.ok (), { written := (shown ++ ">> Bye!\n").toUTF8.toList.toArray }, []⟩ := by
  intro program shown
  obtain ⟨phrases, hprogram, hphrases⟩ := parse_exists_phrases text policies
  have hstatements : program.statements = phrases.map Phrase.statement :=
    congrArg Program.statements hprogram
  have hsink : Sink.Unlimited {} := ⟨rfl, rfl⟩
  have hlines : ∀ line ∈ program.statements.map Statement.render,
      '\n' ∉ line.toList ∧ Shell.isExit (line ++ "\n") = false := by
    rw [hstatements, List.map_map, List.forall_mem_map]
    intro p hp
    obtain ⟨hgram, hw⟩ := hphrases p hp
    obtain ⟨body, hbody⟩ := p.statement.exists_render_eq
    refine ⟨hgram.newline_not_mem_render hw, ?_⟩
    rw [Function.comp_apply, hbody]
    exact Shell.isExit_semicolon body
  have hinput : program.render ++ "\n" =
      String.join ((program.statements.map Statement.render).map fun line => line ++ "\n") := by
    rw [List.map_map]
    exact Program.render_newline h
  have hechoes : (program.statements.map Statement.render).map
        (fun line => Shell.prompt ++ echo .ast policies' (line ++ "\n")) =
      program.statements.map fun s => ">> " ++ s.render ++ "\n" := by
    rw [hstatements, List.map_map, List.map_map, List.map_map]
    refine List.map_congr_left fun p hp => ?_
    obtain ⟨hgram, hw⟩ := hphrases p hp
    simp only [Function.comp_apply, hgram.echo_render hw, Shell.prompt, String.append_assoc]
  have hwritten : Sink.wrote {} (shown ++ ">> Bye!\n") =
      { written := (shown ++ ">> Bye!\n").toUTF8.toList.toArray } := by
    simp [Sink.wrote]
  rw [Shell.run, hinput, Shell.session_lines hsink hlines, hechoes, String.append_assoc, ← hwritten]
  rfl

/-- A name that is spelled like the word that ends a session is shown like any other. -/
theorem run_render_parse_exit :
    (parse "let; exit return 007" .lenient).program.statements ≠ [] ∧
      (parse "let; exit return 007" .lenient).program.render = "exit;\nreturn 007;" ∧
      Shell.run .ast {} {} "exit;\nreturn 007;\n".toUTF8.toList =
        ⟨.ok (), { written := ">> exit;\n>> return 007;\n>> Bye!\n".toUTF8.toList.toArray }, []⟩ := by
  have hprogram : (parse "let; exit return 007" .lenient).program =
      ⟨[.exprStmt ⟨.ident, "exit"⟩ (.ident ⟨⟨.ident, "exit"⟩, "exit"⟩),
        .returnStmt ⟨.returnWord, "return"⟩ (.int ⟨.int, "007"⟩ 7)]⟩ := by
    cbv
  have hne : (parse "let; exit return 007" .lenient).program.statements ≠ [] := by
    rw [hprogram]
    exact List.cons_ne_nil _ _
  have hrun := run_render_parse "let; exit return 007" .lenient {} hne
  rw [hprogram] at hrun ⊢
  exact ⟨List.cons_ne_nil _ _, by decide, hrun⟩

end LetLang
