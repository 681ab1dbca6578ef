import LetLang.Proofs.WellFormed

/-! Integer literals in a text. Digits are one token, however many they are and whatever operators
stand before them; they are read as the number that they say, or not at all. An operator is no part
of the literal, so a minus sign does not widen the range. -/

namespace LetLang

def PrefixOp.symbols (ops : List PrefixOp) : String := String.join (ops.map symbol)

namespace Expr

/-- The expression after operators, the last of which stands next to it. -/
def under (e : Expr) (ops : List PrefixOp) : Expr :=
  ops.foldr (fun op operand => .prefixed op.token op operand) e

def innermost : Expr → Expr
  | prefixed _ _ operand => operand.innermost
  | e => e

theorem render_under (e : Expr) (ops : List PrefixOp) :
    (e.under ops).render = PrefixOp.symbols ops ++ e.render := by
  induction ops with
  | nil => simp [under, PrefixOp.symbols]
  | cons op ops ih =>
    rw [PrefixOp.symbols, List.map_cons, String.join_cons, String.append_assoc]
    exact congrArg (op.symbol ++ ·) ih

theorem depth_under (e : Expr) (ops : List PrefixOp) :
    (e.under ops).depth = ops.length + e.depth := by
  induction ops with
  | nil => simp [under]
  | cons op ops ih =>
    rw [List.length_cons, Nat.add_right_comm, ← ih]
    rfl

theorem innermost_under (e : Expr) (ops : List PrefixOp) :
    (e.under ops).innermost = e.innermost := by
  induction ops with
  | nil => rfl
  | cons op ops ih => exact ih

namespace WellFormed

variable {e : Expr}

theorem under (h : e.WellFormed) (ops : List PrefixOp) : (e.under ops).WellFormed := by
  induction ops with
  | nil => exact h
  | cons op ops ih => exact ⟨rfl, ih⟩

theorem innermost (h : e.WellFormed) : e.innermost.WellFormed := by
  induction e with
  | ident name => exact h
  | int token value => exact h
  | prefixed token op operand ih => exact ih h.2

end WellFormed

end Expr

theorem Program.WellFormed.parse_render {p : Program} (h : p.WellFormed) (policies : Policies) :
    parse p.render policies = ⟨p, []⟩ := by
  obtain ⟨phrases, rfl, hphrases⟩ := wellFormed_iff.1 h
  exact parse_render_phrases hphrases policies

theorem parse_wellFormed (text : String) (policies : Policies) :
    (parse text policies).program.WellFormed := by
  obtain ⟨phrases, hprogram, hphrases⟩ := parse_exists_phrases text policies
  exact Program.wellFormed_iff.2 ⟨phrases, hprogram, hphrases⟩

theorem Spells.operators (ops : List PrefixOp) {text : List Char} {t : Token} {ts : List Token}
    (h : Spells text (t :: ts)) (hassign : t.kind ≠ .assign) (heq : t.kind ≠ .eq) :
    Spells ((PrefixOp.symbols ops).toList ++ text) (ops.map PrefixOp.token ++ t :: ts) := by
  induction ops with
  | nil => simpa [PrefixOp.symbols] using h
  | cons op ops ih =>
    have hop : PrefixOp.ofKind? op.token.kind = some op := by cases op <;> rfl
    have hsymbols : PrefixOp.symbols (op :: ops) = op.symbol ++ PrefixOp.symbols ops := by
      rw [PrefixOp.symbols, List.map_cons, String.join_cons]
      rfl
    rw [hsymbols, String.toList_append, List.append_assoc, List.map_cons, List.cons_append]
    cases ops with
    | nil => exact .operator hop op.token_wellFormed ih hassign heq
    | cons next ops =>
      refine .operator hop op.token_wellFormed ih ?_ ?_
      · cases next <;> decide
      · cases next <;> decide

theorem tokens_literal (ops : List PrefixOp) {d : String} (hne : d ≠ "")
    (hd : ∀ c ∈ d.toList, c.isDigit) :
    tokens (PrefixOp.symbols ops ++ d ++ ";") =
      ops.map PrefixOp.token ++ [⟨.int, d⟩, ⟨.semicolon, ";"⟩] := by
  have hlexeme : Token.IsLexeme ⟨.int, d⟩ := ⟨hne, hd⟩
  have hstop : ∀ c ∈ [';'].head?, ¬ (Token.mk .int d).Absorbs c := by
    intro c hc
    obtain rfl : ';' = c := Option.some.inj hc
    exact Token.not_absorbs_semicolon _
  have hliteral := Spells.token hlexeme.wellFormed hstop Spells.nil.semicolon
  have hspells := hliteral.operators ops nofun nofun
  rw [tokens_eq_scanAll, String.toList_append, String.toList_append, List.append_assoc]
  exact hspells.scanAll_eq

theorem cut_literal (policies : Policies) {ops : List PrefixOp} (hops : ops.length ≤ maxPrefixDepth)
    {d : String} (hd : Number.int64? d.toList = none) :
    Cut policies (ops.map PrefixOp.token ++ [⟨.int, d⟩, ⟨.semicolon, ";"⟩])
      [(ops.map PrefixOp.token ++ [⟨.int, d⟩], .error ⟨.exprStmt, .intRange d⟩),
        ([⟨.semicolon, ";"⟩], .error ⟨.exprStmt, .expectedExpression ⟨.semicolon, ";"⟩⟩)] := by
  have hoperator : ∀ t ∈ ops.map PrefixOp.token, t.IsOperator := by
    refine List.forall_mem_map.2 fun op _ => ?_
    cases op <;> decide
  have hlarge : Faulty (ops.map PrefixOp.token ++ [⟨.int, d⟩]) (.intRange d) :=
    .intRange hoperator (by rwa [List.length_map]) rfl hd
  have hsemicolon : Faulty ([] ++ [⟨.semicolon, ";"⟩]) (.expectedExpression ⟨.semicolon, ";"⟩) :=
    .noOperand (List.forall_mem_nil _) (Nat.zero_le _) (by decide) nofun nofun
  have hlast : Segment policies Token.eof [⟨.semicolon, ";"⟩]
      (.error ⟨.exprStmt, .expectedExpression ⟨.semicolon, ";"⟩⟩) :=
    Segment.faulty_run .bare trivial (List.forall_mem_nil _) (fun _ => rfl) hsemicolon
  rw [List.append_cons]
  exact .cons (Segment.faulty_run .bare trivial hoperator (fun _ => rfl) hlarge) (.cons hlast .nil)

/-- Digits after at most 256 operators, with a semicolon. If the number that the digits say fits
into 64 bits, they are read as one statement: the operators, and inside them the integer of that
value, which keeps the digits; its text is the text that was read. If it does not fit, the first
error says so, and the second that no expression starts with the semicolon. Whatever the text is,
every integer that is read from it is worth what its digits say, so that none is negative. -/
theorem parse_integer_exact (policies : Policies) (ops : List PrefixOp) (hops : ops.length ≤ 256)
    (d : String) (hne : d ≠ "") (hd : ∀ c ∈ d.toList, c.isDigit) :
    let text := PrefixOp.symbols ops ++ d ++ ";"
    let value := Nat.ofDigitChars 10 d.toList 0
    let leaf := Expr.int ⟨.int, d⟩ (Int64.ofNat value)
    let e := leaf.under ops
    (value ≤ 2 ^ 63 - 1 →
      (Int64.ofNat value).toInt = value ∧ e.innermost = leaf ∧
        parse text policies = ⟨⟨[.exprStmt e.first e]⟩, []⟩ ∧
        (parse text policies).program.render = text) ∧
    (2 ^ 63 - 1 < value → parse text policies = ⟨⟨[]⟩,
      [⟨.exprStmt, .intRange d⟩, ⟨.exprStmt, .expectedExpression ⟨.semicolon, ";"⟩⟩]⟩) ∧
    ∀ (text : String), ∀ s ∈ (parse text policies).program.statements, ∀ token v,
      s.value.innermost = .int token v →
        (∀ c ∈ token.literal.toList, c.isDigit) ∧ 0 ≤ v.toInt ∧
          v.toInt = Nat.ofDigitChars 10 token.literal.toList 0 := by
  intro text value leaf e
  have hne' : d.toList ≠ [] := by simpa using hne
  refine ⟨?fits, ?tooLarge, ?anyText⟩
  case fits =>
    intro hle
    have hvalue : (Int64.ofNat value).toInt = value := Int64.toInt_ofNat_of_lt (by omega)
    have hleaf : leaf.WellFormed := ⟨rfl, ⟨hne, hd⟩, hvalue⟩
    have hdepth : e.depth ≤ 256 := by rwa [leaf.depth_under ops]
    have hprogram : (Program.mk [.exprStmt e.first e]).WellFormed :=
      List.forall_mem_singleton.2 ⟨hleaf.under ops, hdepth, rfl⟩
    have htext : (Program.mk [.exprStmt e.first e]).render = text := by
      simp [Program.render, Statement.render, text, e, leaf, Expr.render_under, Expr.render]
    have hparse := hprogram.parse_render policies
    rw [htext] at hparse
    exact ⟨hvalue, leaf.innermost_under ops, hparse, by rw [hparse, htext]⟩
  case tooLarge =>
    intro hgt
    have hcut := cut_literal policies hops ((Number.int64?_eq_none_iff hne' hd).2 hgt)
    have heof := tokens_kind_ne_eof text
    rw [tokens_literal ops hne hd] at heof
    rw [parse_eq_parse_tokens, tokens_literal ops hne hd, hcut.parse_eq heof]
    rfl
  case anyText =>
    intro text s hs token v hinner
    have hwell := (parse_wellFormed text policies s hs).1.innermost
    rw [hinner] at hwell
    obtain ⟨hkind, hlexeme, hv⟩ := hwell
    obtain ⟨-, hdigits⟩ := (Token.isLexeme_int_iff hkind).1 hlexeme
    exact ⟨hdigits, by omega, hv⟩

/-- The largest integer with zeros before it, and one more than it after a minus sign. -/
theorem parse_integer_exact_bounds :
    let largest : Token := ⟨.int, "009223372036854775807"⟩
    let minus : Token := ⟨.minus, "-"⟩
    "9223372036854775808" ≠ "" ∧ (∀ c ∈ "9223372036854775808".toList, c.isDigit) ∧
      parse "-009223372036854775807;" =
        ⟨⟨[.exprStmt minus (.prefixed minus .neg (.int largest 9223372036854775807))]⟩, []⟩ ∧
      parse "-9223372036854775808;" = ⟨⟨[]⟩, [⟨.exprStmt, .intRange "9223372036854775808"⟩,
        ⟨.exprStmt, .expectedExpression ⟨.semicolon, ";"⟩⟩]⟩ := by
  intro largest minus
  have hne : "009223372036854775807" ≠ "" := by decide
  have hd : ∀ c ∈ "009223372036854775807".toList, c.isDigit := List.all_eq_true.1 (by decide)
  have hne' : "9223372036854775808" ≠ "" := by decide
  have hd' : ∀ c ∈ "9223372036854775808".toList, c.isDigit := List.all_eq_true.1 (by decide)
  have hle : Nat.ofDigitChars 10 "009223372036854775807".toList 0 ≤ 2 ^ 63 - 1 := by decide
  have hgt : 2 ^ 63 - 1 < Nat.ofDigitChars 10 "9223372036854775808".toList 0 := by decide
  obtain ⟨hfits, -, -⟩ := parse_integer_exact {} [.neg] (by decide) _ hne hd
  obtain ⟨-, htooLarge, -⟩ := parse_integer_exact {} [.neg] (by decide) _ hne' hd'
  obtain ⟨-, -, hparse, -⟩ := hfits hle
  exact ⟨hne', hd', hparse, htooLarge hgt⟩

end LetLang
