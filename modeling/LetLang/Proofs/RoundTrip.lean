import LetLang.Proofs.Grammar
import LetLang.Proofs.Rendering
import LetLang.Proofs.Sources

/-! The round trip from a program to its text and back. A statement that was read is the statement
of a phrase, its text spells this phrase with a semicolon, and a phrase with a semicolon is read
under every policy. -/

namespace LetLang

theorem Cut.exists_phrases {policies : Policies} {ts : List Token}
    {pieces : List (List Token × Except ParseError Statement)} (h : Cut policies ts pieces) :
    ∃ phrases : List Phrase,
      statementsOf (pieces.map Prod.snd) = phrases.map Phrase.statement ∧
      ∀ p ∈ phrases, p.Grammatical ∧ ∀ t ∈ p.tokens, t ∈ ts := by
  induction h with
  | nil => exact ⟨[], rfl, by simp⟩
  | @cons seg rest outcome _ hseg hrest ih =>
    obtain ⟨phrases, hstatements, hphrases⟩ := ih
    have hweaken : ∀ p ∈ phrases, p.Grammatical ∧ ∀ t ∈ p.tokens, t ∈ seg ++ rest := by
      intro p hp
      obtain ⟨hgram, hmem⟩ := hphrases p hp
      exact ⟨hgram, fun t ht => List.mem_append_right _ (hmem t ht)⟩
    cases outcome with
    | error e => exact ⟨phrases, hstatements, hweaken⟩
    | ok s =>
      obtain ⟨p, hp, -, rfl, rfl⟩ := hseg.exists_phrase
      refine ⟨p :: phrases, ?_, List.forall_mem_cons.2 ⟨⟨hp, ?_⟩, hweaken⟩⟩
      · rw [List.map_cons, statementsOf_ok_cons, hstatements, List.map_cons]
      · exact fun t ht => List.mem_append_left _ ht
  | @cutOff _ outcome hne hseg =>
    cases outcome with
    | error e => exact ⟨[], rfl, by simp⟩
    | ok s => exact absurd rfl hseg.ne_ok_of_cutOff

theorem tokens_wellFormed (text : String) : ∀ t ∈ tokens text, t.WellFormed := by
  rw [tokens_eq_scanAll]
  exact (spells_scanAll text.toList).wellFormed

theorem tokens_kind_ne_eof (text : String) : ∀ t ∈ tokens text, t.kind ≠ .eof :=
  fun t ht => (tokens_wellFormed text t ht).kind_ne_eof

theorem Phrase.body_subset_tokens (p : Phrase) : p.body ⊆ p.tokens := List.subset_append_left ..

theorem parse_exists_cut (text : String) (policies : Policies) :
    ∃ pieces, Cut policies (tokens text) pieces ∧ parse text policies =
      ⟨⟨statementsOf (pieces.map Prod.snd)⟩, errorsOf (pieces.map Prod.snd)⟩ := by
  have heof := tokens_kind_ne_eof text
  obtain ⟨pieces, hcut⟩ := Cut.exists_cut policies heof
  exact ⟨pieces, hcut, by rw [parse_eq_parse_tokens, hcut.parse_eq heof]⟩

/-- What is read from a text are the statements of phrases that a lexer can make. -/
theorem parse_exists_phrases (text : String) (policies : Policies) :
    ∃ phrases : List Phrase,
      (parse text policies).program = ⟨phrases.map Phrase.statement⟩ ∧
      ∀ p ∈ phrases, p.Grammatical ∧ ∀ t ∈ p.body, t.WellFormed := by
  obtain ⟨pieces, hcut, hparse⟩ := parse_exists_cut text policies
  obtain ⟨phrases, hstatements, hphrases⟩ := hcut.exists_phrases
  refine ⟨phrases, ?_, ?_⟩
  · rw [hparse, hstatements]
  · intro p hp
    obtain ⟨hgram, hmem⟩ := hphrases p hp
    exact ⟨hgram, fun t ht => tokens_wellFormed text t (hmem t (p.body_subset_tokens ht))⟩

theorem parse_render_phrases {phrases : List Phrase}
    (h : ∀ p ∈ phrases, p.Grammatical ∧ ∀ t ∈ p.body, t.WellFormed) (policies : Policies) :
    parse (Program.mk (phrases.map Phrase.statement)).render policies =
      ⟨⟨phrases.map Phrase.statement⟩, []⟩ := by
  let d : Derivation policies (tokens (Program.mk (phrases.map Phrase.statement)).render) := {
    phrases := phrases.map Phrase.terminated
    grammatical := List.forall_mem_map.2 fun p hp => (h p hp).1.terminated
    allowed := List.forall_mem_map.2 fun p _ hstop => by cases hstop
    yield := (tokens_render h).symm }
  have hprogram : d.program = ⟨phrases.map Phrase.statement⟩ := by
    simp only [Derivation.program, d, List.map_map]
    rfl
  rw [parse_eq_parse_tokens, d.parse_eq, hprogram]

/-- The text of a program that was read from some text is parsed without an error under all
policies, back into the same program, even if errors were recorded when it was read. -/
theorem parse_render_parse (text : String) (policies policies' : Policies) :
    parse (parse text policies).program.render policies' =
      ⟨(parse text policies).program, []⟩ := by
  obtain ⟨phrases, hprogram, hphrases⟩ := parse_exists_phrases text policies
  rw [hprogram]
  exact parse_render_phrases hphrases policies'

end LetLang
