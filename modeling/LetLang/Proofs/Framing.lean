import LetLang.Proofs.Diagnosis
import LetLang.Proofs.TokenEcho

/-! The lines that the shell writes for a text. A statement and a diagnostic take one line each: no
token has a line break in it, and neither has what is written around the tokens. How a line starts
tells them apart, since a diagnostic is set in by a tab. -/

namespace LetLang

/-- The tokens that a message quotes. -/
def ParseFault.quoted : ParseFault → List Token
  | expected _ found => [found]
  | expectedExpression found => [found]
  | intRange literal => [⟨.int, literal⟩]
  | tooDeep _ => []

theorem ParseError.Truthful.quoted_mem {policies : Policies} {ts : List Token} {e : ParseError}
    (h : e.Truthful policies ts) : ∀ t ∈ e.fault.quoted, t ∈ ts := by
  obtain ⟨statement, fault⟩ := e
  cases fault with
  | expected want found => exact List.forall_mem_singleton.2 h.1
  | expectedExpression found => exact List.forall_mem_singleton.2 h.1
  | intRange literal =>
    obtain ⟨⟨kind, literal'⟩, ht, rfl, rfl, -⟩ := h
    exact List.forall_mem_singleton.2 ht
  | tooDeep depth => exact List.forall_mem_nil _

theorem Cut.quoted_mem {policies : Policies} {ts : List Token}
    {pieces : List (List Token × Except ParseError Statement)} (h : Cut policies ts pieces) :
    ∀ e ∈ errorsOf (pieces.map Prod.snd), ∀ t ∈ e.fault.quoted, t ∈ ts ∨ t = Token.eof := by
  induction h with
  | nil => simp
  | @cons seg rest outcome pieces hseg hrest ih =>
    have htail : ∀ e ∈ errorsOf (pieces.map Prod.snd), ∀ t ∈ e.fault.quoted,
        t ∈ seg ++ rest ∨ t = Token.eof := by
      intro e he t ht
      exact (ih e he t ht).imp_left (List.mem_append_right seg)
    cases outcome with
    | ok s => exact htail
    | error e =>
      refine List.forall_mem_cons.2 ⟨?_, htail⟩
      intro t ht
      have hmem : t ∈ seg ∨ t = rest.headD Token.eof := by
        simpa using (hseg.truthful closesRuns_nil []).quoted_mem t ht
      have hnext : rest.headD Token.eof ∈ rest ∨ rest.headD Token.eof = Token.eof := by
        cases rest <;> simp
      rcases hmem with hmem | rfl
      · exact .inl (List.mem_append_left rest hmem)
      · exact hnext.imp_left (List.mem_append_right seg)
  | @cutOff ts outcome hne hseg =>
    cases outcome with
    | ok s => simp
    | error e =>
      refine List.forall_mem_singleton.2 fun t ht => ?_
      simpa using (hseg.truthful closesRuns_nil []).quoted_mem t ht

theorem Token.newline_notMem_display {t : Token} (h : '\n' ∉ t.literal.toList) :
    '\n' ∉ t.display.toList := by
  unfold display
  split
  case h_1 => decide
  case h_5 => exact h
  all_goals
    rw [‹t.kind = _›]
    simp [TokenKind.symbol, h]

theorem TokenKind.newline_notMem_symbol (kind : TokenKind) : '\n' ∉ kind.symbol.toList := by
  cases kind <;> decide

theorem TokenKind.newline_notMem_describe (kind : TokenKind) : '\n' ∉ kind.describe.toList := by
  cases kind <;> decide

theorem ParseFault.newline_notMem_message {fault : ParseFault}
    (h : ∀ t ∈ fault.quoted, '\n' ∉ t.literal.toList) : '\n' ∉ fault.message.toList := by
  have hdigit : ∀ d, Nat.digitChar d ≠ '\n' :=
    fun d => Nat.digitChar_ne (n := d) '\n' (by decide)
  cases fault with
  | expected want found =>
    have hfound := Token.newline_notMem_display (h found List.mem_cons_self)
    have hmessage : (expected want found).message = "expected " ++ want.describe ++ " `" ++
      want.symbol ++ "`, have " ++ found.kind.describe ++ " `" ++ found.display ++ "`" := rfl
    rw [hmessage]
    simp [hfound, TokenKind.newline_notMem_symbol, TokenKind.newline_notMem_describe]
  | expectedExpression found =>
    have hfound := Token.newline_notMem_display (h found List.mem_cons_self)
    have hmessage : (expectedExpression found).message =
      "expected expression, have " ++ found.kind.describe ++ " `" ++ found.display ++ "`" := rfl
    rw [hmessage]
    simp [hfound, TokenKind.newline_notMem_describe]
  | intRange literal =>
    have hliteral : '\n' ∉ literal.toList := h ⟨.int, literal⟩ List.mem_cons_self
    have hmessage : (intRange literal).message =
      "could not parse `" ++ literal ++ "` as a 64-bit integer" := rfl
    rw [hmessage]
    simp [hliteral]
  | tooDeep depth =>
    have hdepth := Text.notMem_toDigits (by decide : 1 < 10) hdigit
    have hmessage : (tooDeep depth).message = toString depth ++
      " nested prefix operators, at most " ++ toString maxPrefixDepth ++ " allowed" := rfl
    rw [hmessage]
    simp [hdepth]

/-- A message takes one line, and does not start with a tab itself. -/
theorem ParseError.message_spec {e : ParseError}
    (h : ∀ t ∈ e.fault.quoted, '\n' ∉ t.literal.toList) :
    '\n' ∉ e.message.toList ∧ ∀ c ∈ e.message.toList.head?, c ≠ '\t' := by
  have hfault := ParseFault.newline_notMem_message h
  obtain ⟨statement, fault⟩ := e
  cases statement <;> simp [message, StatementKind.describe, hfault]

theorem Token.WellFormed.exists_cons_of_ne {t : Token} (ht : t.WellFormed) (hkind : t.kind ≠ .gt) :
    ∃ c rest, t.literal.toList = c :: rest ∧ c ≠ '\t' ∧ c ≠ '>' := by
  have hend : ∀ c ∈ [].head?, ¬ t.Absorbs c := by simp
  obtain ⟨c, rest, hliteral, hsep, hlexeme⟩ := ht.exists_lexeme_eq hend
  refine ⟨c, rest, hliteral, ?_, ?_⟩
  · rintro rfl
    cases hsep
  · rintro rfl
    apply hkind
    rw [← (Prod.mk.inj hlexeme).1]

theorem Expr.Grammatical.exists_render_eq {e : Expr} (he : e.Grammatical)
    (hw : ∀ t ∈ e.tokens, t.WellFormed) : ∃ text, e.render = e.first.literal ++ text := by
  cases e with
  | ident name => exact ⟨"", by rw [String.append_empty]; exact he.2⟩
  | int token value => exact ⟨"", by rw [String.append_empty]; rfl⟩
  | prefixed token op operand =>
    have hliteral := (hw token List.mem_cons_self).literal_eq (spelling?_of_ofKind? he.1)
    exact ⟨operand.render, by rw [render, first, hliteral]⟩

theorem Phrase.Grammatical.exists_render_eq {p : Phrase} (hp : p.Grammatical)
    (hw : ∀ t ∈ p.body, t.WellFormed) :
    ∃ t ∈ p.body, ∃ text, p.statement.render = t.literal ++ text := by
  obtain ⟨lead, value, stop⟩ := p
  cases lead with
  | binding word name equals =>
    refine ⟨word, by simp [body, Lead.tokens], " " ++ name.literal ++ " = " ++ value.render ++ ";", ?_⟩
    simp only [statement, Lead.statement, Statement.render, String.append_assoc]
  | returning word =>
    refine ⟨word, by simp [body, Lead.tokens], " " ++ value.render ++ ";", ?_⟩
    simp only [statement, Lead.statement, Statement.render, String.append_assoc]
  | bare =>
    obtain ⟨rest, hrest⟩ := value.tokens_eq_cons
    obtain ⟨text, hrender⟩ := hp.value.exists_render_eq fun t ht => hw t (List.mem_append_right _ ht)
    refine ⟨value.first, by simp [body, hrest], text ++ ";", ?_⟩
    simp only [statement, Lead.statement, Statement.render, hrender, String.append_assoc]

/-- A rendered statement takes one line, which ends with its semicolon and starts neither like a
diagnostic nor like a prompt. -/
theorem Phrase.Grammatical.render_spec {p : Phrase} (hp : p.Grammatical)
    (hw : ∀ t ∈ p.body, t.WellFormed) :
    '\n' ∉ p.statement.render.toList ∧ p.statement.render.toList.getLast? = some ';' ∧
      ∀ c ∈ p.statement.render.toList.head?, c ≠ '\t' ∧ c ≠ '>' := by
  refine ⟨hp.newline_not_mem_render hw, ?_, ?_⟩
  · obtain ⟨text, htext⟩ := p.statement.exists_render_eq
    simp [htext]
  · obtain ⟨t, ht, text, htext⟩ := hp.exists_render_eq hw
    have hkind : t.kind ≠ .gt := by
      intro h
      exact absurd (h ▸ hp.isInner ht) (by decide)
    obtain ⟨c, rest, hliteral, hc⟩ := (hw t ht).exists_cons_of_ne hkind
    simpa [htext, hliteral] using hc

/-- Only a text without tokens is parsed to nothing at all. -/
theorem parse_eq_empty_iff (text : String) (policies : Policies) :
    (parse text policies).program.statements = [] ∧ (parse text policies).errors = [] ↔
      tokens text = [] := by
  obtain ⟨pieces, hcut, hparse⟩ := parse_exists_cut text policies
  rw [hparse]
  constructor
  · rintro ⟨hstatements, herrors⟩
    have hlength := length_statementsOf_add_errorsOf (pieces.map Prod.snd)
    have hpieces : pieces = [] := by
      rw [show statementsOf _ = [] from hstatements, show errorsOf _ = [] from herrors] at hlength
      simpa using hlength.symm
    rw [← hcut.flatten_eq, hpieces]
    rfl
  · intro htokens
    rw [htokens] at hcut
    rw [hcut.eq_nil]
    exact ⟨rfl, rfl⟩

theorem parse_render_spec (text : String) (policies : Policies) :
    ∀ s ∈ (parse text policies).program.statements, '\n' ∉ s.render.toList ∧
      s.render.toList.getLast? = some ';' ∧ ∀ c ∈ s.render.toList.head?, c ≠ '\t' ∧ c ≠ '>' := by
  obtain ⟨phrases, hprogram, hphrases⟩ := parse_exists_phrases text policies
  rw [hprogram, List.forall_mem_map]
  intro p hp
  obtain ⟨hgram, hw⟩ := hphrases p hp
  exact hgram.render_spec hw

theorem parse_message_spec (text : String) (policies : Policies) :
    ∀ e ∈ (parse text policies).errors,
      '\n' ∉ e.message.toList ∧ ∀ c ∈ e.message.toList.head?, c ≠ '\t' := by
  obtain ⟨pieces, hcut, hparse⟩ := parse_exists_cut text policies
  rw [hparse]
  intro e he
  apply ParseError.message_spec
  intro t ht
  rcases hcut.quoted_mem e he t ht with hmem | rfl
  · exact newline_not_mem fun c hc => (tokens_wellFormed text t hmem).isSeparator_eq_false hc
  · decide

namespace Parsed

variable {p : Parsed}

theorem lines_reply_of_ok (hok : p.errors = [])
    (h : ∀ s ∈ p.program.statements, '\n' ∉ s.render.toList) :
    Text.lines (String.join p.reply) = p.program.statements.map fun s => s.render ++ "\n" := by
  obtain ⟨⟨statements⟩, errors⟩ := p
  obtain rfl : errors = [] := hok
  have hjoin : String.join (Parsed.mk ⟨statements⟩ []).reply =
      String.join ((statements.map Statement.render).map fun line => line ++ "\n") := by
    rw [List.map_map]
    cases statements with
    | nil => rfl
    | cons s statements =>
      calc String.join (Parsed.mk ⟨s :: statements⟩ []).reply
          = (Program.mk (s :: statements)).render ++ "\n" := by simp [reply]
        _ = _ := Program.render_newline (List.cons_ne_nil s statements)
  rw [hjoin, Text.lines_join (List.forall_mem_map.2 h), List.map_map]
  rfl

theorem lines_reply_of_errors (hne : p.errors ≠ [])
    (h : ∀ e ∈ p.errors, '\n' ∉ e.message.toList) :
    Text.lines (String.join p.reply) =
      "parser errors:\n" :: p.errors.map fun e => "\t" ++ e.message ++ "\n" := by
  have hreply : p.reply =
      ("parser errors:" :: p.errors.map fun e => "\t" ++ e.message).map fun line => line ++ "\n" := by
    simp [reply, hne, Function.comp_def]
  have hlines : ∀ line ∈ "parser errors:" :: p.errors.map fun e => "\t" ++ e.message,
      '\n' ∉ line.toList := by
    refine List.forall_mem_cons.2 ⟨by decide, List.forall_mem_map.2 fun e he => ?_⟩
    simpa using h e he
  rw [hreply, Text.lines_join hlines, List.map_cons, List.map_map]
  rfl

end Parsed

/-- What the shell writes for a text when it shows programs: nothing, if the text has no tokens; if
there is no error, one line for each statement, which ends with its semicolon and starts neither with
a tab nor like a prompt; else a heading and one line for each error, which starts with one tab. -/
theorem echo_ast_lines (policies : Policies) (text : String) :
    let parsed := parse text policies
    let output := echo .ast policies text
    (output = "" ↔ tokens text = []) ∧
    (parsed.errors = [] →
      Text.lines output = parsed.program.statements.map (fun s => s.render ++ "\n") ∧
      ∀ s ∈ parsed.program.statements, '\n' ∉ s.render.toList ∧
        s.render.toList.getLast? = some ';' ∧
        ∀ c ∈ s.render.toList.head?, c ≠ '\t' ∧ c ≠ '>') ∧
    (parsed.errors ≠ [] →
      Text.lines output = "parser errors:\n" :: parsed.errors.map (fun e => "\t" ++ e.message ++ "\n") ∧
      ∀ e ∈ parsed.errors, '\n' ∉ e.message.toList ∧ ∀ c ∈ e.message.toList.head?, c ≠ '\t') := by
  intro parsed output
  have hrender := parse_render_spec text policies
  have hmessage := parse_message_spec text policies
  have hok (h : parsed.errors = []) :
      Text.lines output = parsed.program.statements.map fun s => s.render ++ "\n" :=
    Parsed.lines_reply_of_ok h fun s hs => (hrender s hs).1
  have hfailed (h : parsed.errors ≠ []) : Text.lines output =
      "parser errors:\n" :: parsed.errors.map fun e => "\t" ++ e.message ++ "\n" :=
    Parsed.lines_reply_of_errors h fun e he => (hmessage e he).1
  refine ⟨?_, fun h => ⟨hok h, hrender⟩, fun h => ⟨hfailed h, hmessage⟩⟩
  rw [← parse_eq_empty_iff text policies]
  constructor
  · intro hempty
    rw [hempty, Text.lines_empty] at hok hfailed
    have herrors : parsed.errors = [] := by
      by_contra hne
      cases hfailed hne
    exact ⟨List.map_eq_nil_iff.1 (hok herrors).symm, herrors⟩
  · rintro ⟨hstatements, herrors⟩
    have hreply : parsed.reply = [] := by simp [Parsed.reply, parsed, hstatements, herrors]
    show String.join parsed.reply = ""
    rw [hreply]
    rfl

/-- The line separator that is an illegal character of the text stands in the diagnostic as it is. -/
theorem echo_ast_lines_separator :
    let text := "let \u2028\r\n"
    (parse text {}).errors ≠ [] ∧
      Text.lines (echo .ast {} text) = ["parser errors:\n",
        "\tlet statement: expected identifier `IDENT`, have illegal character `ILLEGAL(\u2028)`\n",
        "\texpression statement: expected expression, have illegal character `ILLEGAL(\u2028)`\n"] := by
  intro text
  have herrors : (parse text {}).errors = [⟨.letStmt, .expected .ident ⟨.illegal, "\u2028"⟩⟩,
      ⟨.exprStmt, .expectedExpression ⟨.illegal, "\u2028"⟩⟩] := by
    cbv
  have hne : (parse text {}).errors ≠ [] := by
    rw [herrors]
    exact List.cons_ne_nil _ _
  have hlines := ((echo_ast_lines {} text).2.2 hne).1
  rw [herrors] at hlines
  exact ⟨hne, hlines⟩

end LetLang
