import LetLang.Proofs.Recovery

/-! The grammar: a program is phrase after phrase, with semicolons where the policies ask for them.
The parser accepts exactly what can be derived. Even where no semicolon is asked for a derivation is
unique, since no phrase starts with a semicolon and no expression can be continued. -/

namespace LetLang

/-- A derivation of a list of tokens: the phrases that it is made of. -/
structure Derivation (policies : Policies) (ts : List Token) where
  phrases : List Phrase
  grammatical : ∀ p ∈ phrases, p.Grammatical
  allowed : ∀ p ∈ phrases, p.Allowed policies
  yield : phrases.flatMap Phrase.tokens = ts

def Derivation.program {policies : Policies} {ts : List Token} (d : Derivation policies ts) :
    Program :=
  ⟨d.phrases.map Phrase.statement⟩

theorem headD_flatMap_kind_ne_semicolon {phrases : List Phrase}
    (h : ∀ p ∈ phrases, p.Grammatical) :
    ((phrases.flatMap Phrase.tokens).headD Token.eof).kind ≠ .semicolon := by
  cases phrases with
  | nil => simp [Token.eof]
  | cons p phrases =>
    obtain ⟨t, rest, htokens, hkind⟩ := Phrase.tokens_eq_cons (h p List.mem_cons_self)
    rw [List.flatMap_cons, htokens]
    rcases hkind with hkind | hkind | (hkind | hkind) | hkind | hkind <;> simp [hkind]

theorem cut_of_phrases {policies : Policies} {phrases : List Phrase}
    (hgram : ∀ p ∈ phrases, p.Grammatical) (hallowed : ∀ p ∈ phrases, p.Allowed policies) :
    Cut policies (phrases.flatMap Phrase.tokens)
      (phrases.map fun p => (p.tokens, .ok p.statement)) := by
  induction phrases with
  | nil => exact .nil
  | cons p phrases ih =>
    obtain ⟨hp, hgram⟩ := List.forall_mem_cons.1 hgram
    obtain ⟨ha, hallowed⟩ := List.forall_mem_cons.1 hallowed
    rw [List.flatMap_cons, List.map_cons]
    exact .cons (.statement hp ha fun _ => headD_flatMap_kind_ne_semicolon hgram)
      (ih hgram hallowed)

theorem statementsOf_map_ok (phrases : List Phrase) :
    statementsOf (phrases.map fun p => .ok p.statement) = phrases.map Phrase.statement := by
  induction phrases with
  | nil => rfl
  | cons p phrases ih => rw [List.map_cons, statementsOf_ok_cons, ih, List.map_cons]

theorem errorsOf_map_ok (phrases : List Phrase) :
    errorsOf (phrases.map fun p => .ok p.statement) = [] := by
  induction phrases with
  | nil => rfl
  | cons p phrases ih => rw [List.map_cons, errorsOf_ok_cons, ih]

namespace Derivation

variable {policies : Policies} {ts : List Token}

theorem cut (d : Derivation policies ts) :
    Cut policies ts (d.phrases.map fun p => (p.tokens, .ok p.statement)) := by
  have h := cut_of_phrases d.grammatical d.allowed
  rwa [d.yield] at h

theorem kind_ne_eof (d : Derivation policies ts) : ∀ t ∈ ts, t.kind ≠ .eof := by
  intro t ht
  rw [← d.yield] at ht
  obtain ⟨p, hp, ht⟩ := List.mem_flatMap.1 ht
  exact (d.grammatical p hp).kind_ne_eof ht

/-- What can be derived is parsed without an error, into the tree of the derivation. -/
theorem parse_eq (d : Derivation policies ts) :
    (Parser.ofSource ts policies).parse = ⟨d.program, []⟩ := by
  rw [d.cut.parse_eq d.kind_ne_eof, List.map_map]
  exact congrArg₂ Parsed.mk (congrArg Program.mk (statementsOf_map_ok d.phrases))
    (errorsOf_map_ok d.phrases)

theorem unique (d d' : Derivation policies ts) : d = d' := by
  have hinj : ∀ p q : Phrase, ((p.tokens, .ok p.statement) : List Token × Except ParseError _) =
      (q.tokens, .ok q.statement) → p = q := by
    intro p q h
    obtain ⟨htokens, hstatement⟩ := Prod.mk.inj h
    exact Phrase.ext_of_statement (Except.ok.inj hstatement) htokens
  have hphrases := (List.map_inj_right hinj).1 (d.cut.unique d'.cut d.kind_ne_eof)
  cases d
  cases d'
  cases hphrases
  rfl

end Derivation

theorem Cut.exists_derivation {policies : Policies} {ts : List Token}
    {pieces : List (List Token × Except ParseError Statement)} (h : Cut policies ts pieces)
    (hok : errorsOf (pieces.map Prod.snd) = []) : Nonempty (Derivation policies ts) := by
  induction h with
  | nil => exact ⟨⟨[], by simp, by simp, rfl⟩⟩
  | @cons _ _ outcome _ hseg hrest ih =>
    cases outcome with
    | error e => cases hok
    | ok s =>
      obtain ⟨p, hp, hallowed, rfl, -⟩ := hseg.exists_phrase
      obtain ⟨d⟩ := ih hok
      exact ⟨⟨p :: d.phrases, List.forall_mem_cons.2 ⟨hp, d.grammatical⟩,
        List.forall_mem_cons.2 ⟨hallowed, d.allowed⟩, by rw [List.flatMap_cons, d.yield]⟩⟩
  | @cutOff _ outcome hne hseg =>
    cases outcome with
    | error e => cases hok
    | ok s => exact absurd rfl hseg.ne_ok_of_cutOff

theorem exists_derivation_of_parse {policies : Policies} {ts : List Token}
    (hts : ∀ t ∈ ts, t.kind ≠ .eof) (herr : (Parser.ofSource ts policies).parse.errors = []) :
    Nonempty (Derivation policies ts) := by
  obtain ⟨pieces, hcut⟩ := Cut.exists_cut policies hts
  rw [hcut.parse_eq hts] at herr
  exact hcut.exists_derivation herr

/-- The parser accepts exactly its grammar: it records no error if and only if the tokens can be
derived, the derivation is then unique, and the program is its tree. -/
theorem parse_accepts_grammar (policies : Policies) (ts : List Token)
    (hts : ∀ t ∈ ts, t.kind ≠ .eof) :
    ((Parser.ofSource ts policies).parse.errors = [] ↔ Nonempty (Derivation policies ts)) ∧
      (∀ d d' : Derivation policies ts, d = d') ∧
      ∀ d : Derivation policies ts, (Parser.ofSource ts policies).parse.program = d.program := by
  refine ⟨⟨exists_derivation_of_parse hts, ?_⟩, Derivation.unique, ?_⟩
  · rintro ⟨d⟩
    rw [d.parse_eq]
  · intro d
    rw [d.parse_eq]

/-- A minus between two names starts the second of two statements. -/
theorem parse_accepts_grammar_abutting :
    let a : Token := ⟨.ident, "a"⟩
    let minus : Token := ⟨.minus, "-"⟩
    let b : Token := ⟨.ident, "b"⟩
    (∀ t ∈ [a, minus, b], t.kind ≠ .eof) ∧
      (Parser.ofSource [a, minus, b] .lenient).parse.errors = [] ∧
      (Parser.ofSource [a, minus, b] .lenient).parse.program =
        ⟨[.exprStmt a (.ident ⟨a, "a"⟩),
          .exprStmt minus (.prefixed minus .neg (.ident ⟨b, "b"⟩))]⟩ := by
  intro a minus b
  have hts : ∀ t ∈ [a, minus, b], t.kind ≠ .eof := by decide
  let d : Derivation .lenient [a, minus, b] := {
    phrases := [⟨.bare, .ident ⟨a, "a"⟩, none⟩,
      ⟨.bare, .prefixed minus .neg (.ident ⟨b, "b"⟩), none⟩]
    grammatical := by
      refine List.forall_mem_cons.2 ⟨⟨trivial, ⟨rfl, rfl⟩, by decide, by simp⟩, ?_⟩
      exact List.forall_mem_singleton.2 ⟨trivial, ⟨rfl, rfl, rfl⟩, by decide, by simp⟩
    allowed := List.forall_mem_cons.2 ⟨fun _ => rfl, List.forall_mem_singleton.2 fun _ => rfl⟩
    yield := rfl }
  obtain ⟨haccepts, -, hprogram⟩ := parse_accepts_grammar .lenient [a, minus, b] hts
  exact ⟨hts, haccepts.2 ⟨d⟩, hprogram d⟩

namespace Phrase

def withoutStop (p : Phrase) : Phrase := { p with stop := none }

theorem Grammatical.withoutStop {p : Phrase} (h : p.Grammatical) : p.withoutStop.Grammatical :=
  ⟨h.lead, h.value, h.depth, by simp [Phrase.withoutStop]⟩

theorem tokens_withoutStop {p : Phrase} (h : p.Grammatical) :
    p.withoutStop.tokens = p.tokens.filter fun t => t.kind ≠ .semicolon := by
  have hbody : p.body.filter (fun t => t.kind ≠ .semicolon) = p.body :=
    List.filter_eq_self.2 fun t ht => decide_eq_true (h.isInner ht).ne_semicolon
  have hstop : p.stop.toList.filter (fun t => t.kind ≠ .semicolon) = [] :=
    List.filter_eq_nil_iff.2 fun t ht => by simp [h.stop t (Option.mem_toList.1 ht)]
  rw [tokens_of_stop_eq_none rfl, tokens, List.filter_append, hbody, hstop, List.append_nil]
  rfl

end Phrase

theorem Policies.ofKind_lenient (kind : StatementKind) : lenient.ofKind kind = .optional := by
  cases kind <;> rfl

namespace Derivation

variable {policies : Policies} {ts : List Token}

/-- No semicolon of a derivation is needed if none is asked for. -/
def withoutStops (d : Derivation policies ts) :
    Derivation .lenient (ts.filter fun t => t.kind ≠ .semicolon) where
  phrases := d.phrases.map Phrase.withoutStop
  grammatical := List.forall_mem_map.2 fun p hp => (d.grammatical p hp).withoutStop
  allowed := fun _ _ _ => Policies.ofKind_lenient _
  yield := by
    have hyield : ts.filter (fun t => t.kind ≠ .semicolon) =
        d.phrases.flatMap fun p => p.tokens.filter fun t => t.kind ≠ .semicolon := by
      rw [← List.filter_flatMap, d.yield]
    rw [List.flatMap_map, hyield]
    exact List.flatMap_congr fun p hp => Phrase.tokens_withoutStop (d.grammatical p hp)

theorem program_withoutStops (d : Derivation policies ts) : d.withoutStops.program = d.program :=
  congrArg Program.mk (List.map_map ..)

end Derivation

/-- Semicolons only matter where they are asked for: tokens that are accepted under some policies are
accepted without their semicolons if none is asked for, as the same program. -/
theorem parse_without_semicolons (policies : Policies) (ts : List Token)
    (hts : ∀ t ∈ ts, t.kind ≠ .eof) (herr : (Parser.ofSource ts policies).parse.errors = []) :
    (Parser.ofSource (ts.filter fun t => t.kind ≠ .semicolon) .lenient).parse =
      ⟨(Parser.ofSource ts policies).parse.program, []⟩ := by
  obtain ⟨d⟩ := exists_derivation_of_parse hts herr
  rw [d.withoutStops.parse_eq, d.program_withoutStops, d.parse_eq]

theorem parse_without_semicolons_abutting :
    let a : Token := ⟨.ident, "a"⟩
    let semicolon : Token := ⟨.semicolon, ";"⟩
    let minus : Token := ⟨.minus, "-"⟩
    let b : Token := ⟨.ident, "b"⟩
    let ts := [a, semicolon, minus, b, semicolon]
    (∀ t ∈ ts, t.kind ≠ .eof) ∧ (Parser.ofSource ts {}).parse.errors = [] ∧
      (Parser.ofSource [a, minus, b] .lenient).parse =
        ⟨(Parser.ofSource ts {}).parse.program, []⟩ := by
  intro a semicolon minus b ts
  have hts : ∀ t ∈ ts, t.kind ≠ .eof := by decide
  have herr : (Parser.ofSource ts {}).parse.errors = [] := by cbv
  exact ⟨hts, herr, parse_without_semicolons {} ts hts herr⟩

end LetLang
