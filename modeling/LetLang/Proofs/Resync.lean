import LetLang.Proofs.RoundTrip

/-! A semicolon resynchronises the parser: it is the last token of the statement or the error that
it belongs to, and nothing before it looks beyond it. So what stands on its two sides is cut, and
parsed, as if there were nothing else. -/

namespace LetLang

def Parsed.append (p q : Parsed) : Parsed :=
  ⟨⟨p.program.statements ++ q.program.statements⟩, p.errors ++ q.errors⟩

instance : Append Parsed := ⟨Parsed.append⟩

/-- The cut of tokens that end with a semicolon goes on with the cut of what comes after. -/
theorem Cut.append {policies : Policies} {ts us : List Token}
    {pieces pieces' : List (List Token × Except ParseError Statement)}
    (h : Cut policies ts pieces) (hlast : ∀ t ∈ ts.getLast?, t.kind = .semicolon)
    (h' : Cut policies us pieces') : Cut policies (ts ++ us) (pieces ++ pieces') := by
  induction h with
  | nil => exact h'
  | @cons seg rest outcome pieces hseg hrest ih =>
    rw [List.append_assoc, List.cons_append]
    cases rest with
    | nil =>
      -- the semicolon is in this segment, which hence does not depend on the next token
      have hmem := List.getLast_mem hseg.ne_nil
      rw [List.append_nil] at hlast
      have hkind := hlast _ (List.getLast?_eq_some_getLast hseg.ne_nil)
      exact .cons (hseg.change_next ⟨_, hmem, hkind⟩ _) (ih (by simp))
    | cons t rest =>
      have hlast' : ∀ u ∈ (t :: rest).getLast?, u.kind = .semicolon := by
        simpa [List.getLast?_append] using hlast
      exact .cons hseg (ih hlast')
  | @cutOff ts outcome hne hseg =>
    have hmem : ts.getLast hne ∈ (ts ++ [Token.eof]).dropLast := by
      rw [List.dropLast_concat]
      exact List.getLast_mem hne
    have hkind := hlast _ (List.getLast?_eq_some_getLast hne)
    exact absurd hkind (hseg.isInner_of_mem_dropLast _ hmem).ne_semicolon

theorem parse_append_of_getLast? (policies : Policies) {ts us : List Token}
    (hlast : ∀ t ∈ ts.getLast?, t.kind = .semicolon) (hts : ∀ t ∈ ts, t.kind ≠ .eof)
    (hus : ∀ t ∈ us, t.kind ≠ .eof) :
    (Parser.ofSource (ts ++ us) policies).parse =
      (Parser.ofSource ts policies).parse ++ (Parser.ofSource us policies).parse := by
  obtain ⟨pieces, hcut⟩ := Cut.exists_cut policies hts
  obtain ⟨pieces', hcut'⟩ := Cut.exists_cut policies hus
  have happend : ∀ t ∈ ts ++ us, t.kind ≠ .eof := List.forall_mem_append.2 ⟨hts, hus⟩
  rw [(hcut.append hlast hcut').parse_eq happend, hcut.parse_eq hts, hcut'.parse_eq hus,
    List.map_append, statementsOf_append, errorsOf_append]
  rfl

theorem tokens_append_semicolon (a b : String) :
    tokens (a ++ ";" ++ b) = tokens a ++ [⟨.semicolon, ";"⟩] ++ tokens b := by
  have hrest : (";" ++ b).toList = ';' :: b.toList := String.toList_append
  have hsemicolon : tokens (";" ++ b) = ⟨.semicolon, ";"⟩ :: tokens b := by
    rw [tokens_eq_scanAll, tokens_eq_scanAll, hrest]
    exact (spells_scanAll b.toList).semicolon.scanAll_eq
  have hjoin : ∀ c ∈ (";" ++ b).toList.head?, ∀ t : Token, ¬ t.Absorbs c := by
    intro c hc t
    rw [hrest] at hc
    obtain rfl : ';' = c := Option.some.inj hc
    exact t.not_absorbs_semicolon
  rw [String.append_assoc, tokens_append hjoin, hsemicolon, List.append_assoc,
    List.singleton_append]

theorem tokens_semicolon (a : String) : tokens (a ++ ";") = tokens a ++ [⟨.semicolon, ";"⟩] := by
  have h := tokens_append_semicolon a ""
  rwa [String.append_empty, tokens_empty, List.append_nil] at h

/-- A semicolon always resynchronises the parser, whatever was wrong before it: what stands before,
the semicolon included, and what stands after are parsed apart. -/
theorem semicolon_resynchronises (policies : Policies) :
    (∀ (ts us : List Token) (semicolon : Token), semicolon.kind = .semicolon →
      (∀ t ∈ ts, t.kind ≠ .eof) → (∀ t ∈ us, t.kind ≠ .eof) →
      (Parser.ofSource (ts ++ [semicolon] ++ us) policies).parse =
        (Parser.ofSource (ts ++ [semicolon]) policies).parse ++
          (Parser.ofSource us policies).parse) ∧
    ∀ a b : String, parse (a ++ ";" ++ b) policies = parse (a ++ ";") policies ++ parse b policies := by
  have hlast {ts : List Token} {semicolon : Token} (hkind : semicolon.kind = .semicolon) :
      ∀ t ∈ (ts ++ [semicolon]).getLast?, t.kind = .semicolon := by
    simp [hkind]
  refine ⟨?_, ?_⟩
  · intro ts us semicolon hkind hts hus
    have hts' : ∀ t ∈ ts ++ [semicolon], t.kind ≠ .eof :=
      List.forall_mem_append.2 ⟨hts, by simp [hkind]⟩
    exact parse_append_of_getLast? policies (hlast hkind) hts' hus
  · intro a b
    have ha := tokens_kind_ne_eof (a ++ ";")
    rw [parse_eq_parse_tokens, parse_eq_parse_tokens, parse_eq_parse_tokens,
      tokens_append_semicolon, tokens_semicolon]
    rw [tokens_semicolon] at ha
    exact parse_append_of_getLast? policies (hlast rfl) ha (tokens_kind_ne_eof b)

/-- The semicolon after too long a run of operators is the token that ends the error. -/
theorem semicolon_resynchronises_long_run :
    let bangs : List Token := List.replicate 257 ⟨.bang, "!"⟩
    let semicolon : Token := ⟨.semicolon, ";"⟩
    let a : Token := ⟨.ident, "a"⟩
    semicolon.kind = .semicolon ∧ (∀ t ∈ bangs, t.kind ≠ .eof) ∧ (∀ t ∈ [a], t.kind ≠ .eof) ∧
      (Parser.ofSource (bangs ++ [semicolon] ++ [a]) {}).parse =
        ⟨⟨[.exprStmt a (.ident ⟨a, "a"⟩)]⟩, [⟨.exprStmt, .tooDeep 257⟩]⟩ := by
  intro bangs semicolon a
  have hbangs : ∀ t ∈ bangs, t.kind ≠ .eof := by
    intro t ht
    rw [List.eq_of_mem_replicate ht]
    decide
  have ha : ∀ t ∈ [a], t.kind ≠ .eof := by decide
  refine ⟨rfl, hbangs, ha, ?_⟩
  rw [(semicolon_resynchronises {}).1 bangs [a] semicolon rfl hbangs ha]
  decide +kernel

end LetLang
