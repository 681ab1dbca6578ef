import LetLang.Proofs.RoundTrip

/-! What rendering makes of the tokens of a source. A text that is parsed without an error is phrase
after phrase, and the rendered program is the same phrases, each with its semicolon. -/

namespace LetLang

/-- The semicolon that a phrase lacks. -/
def Phrase.missing (p : Phrase) : List Token :=
  match p.stop with
  | none => [⟨.semicolon, ";"⟩]
  | some _ => []

theorem Phrase.tokens_terminated_eq {p : Phrase} (h : ∀ t ∈ p.stop, t = ⟨.semicolon, ";"⟩) :
    p.terminated.tokens = p.tokens ++ p.missing := by
  obtain ⟨lead, value, stop⟩ := p
  cases stop with
  | none => simp [tokens, body, terminated, missing]
  | some t =>
    obtain rfl := h t rfl
    simp [tokens, body, terminated, missing]

theorem Phrase.filter_missing (p : Phrase) :
    p.missing.filter (fun t => t.kind ≠ .semicolon) = [] := by
  unfold missing
  split <;> rfl

theorem Phrase.Allowed.missing_eq_nil {policies : Policies} {p : Phrase} (h : p.Allowed policies)
    (hrequired : policies.ofKind p.kind = .required) : p.missing = [] := by
  unfold missing
  split
  · next hstop =>
    rw [h hstop] at hrequired
    cases hrequired
  · rfl

namespace Derivation

variable {text : String} {policies : Policies}

theorem wellFormed (d : Derivation policies (tokens text)) {p : Phrase} (hp : p ∈ d.phrases) :
    ∀ t ∈ p.tokens, t.WellFormed := by
  intro t ht
  have hmem : t ∈ tokens text := d.yield ▸ List.mem_flatMap.2 ⟨p, hp, ht⟩
  exact tokens_wellFormed text t hmem

theorem stop_eq (d : Derivation policies (tokens text)) {p : Phrase} (hp : p ∈ d.phrases) :
    ∀ t ∈ p.stop, t = ⟨.semicolon, ";"⟩ := by
  intro t ht
  have hmem : t ∈ p.tokens := List.mem_append_right _ (Option.mem_toList.2 ht)
  exact Token.eq_of_spelling? (d.wellFormed hp t hmem) ((d.grammatical p hp).stop t ht) rfl

theorem tokens_render (d : Derivation policies (tokens text)) :
    tokens d.program.render = d.phrases.flatMap fun p => p.tokens ++ p.missing := by
  have hphrases : ∀ p ∈ d.phrases, p.Grammatical ∧ ∀ t ∈ p.body, t.WellFormed := fun p hp =>
    ⟨d.grammatical p hp, fun t ht => d.wellFormed hp t (p.body_subset_tokens ht)⟩
  rw [program, LetLang.tokens_render hphrases, List.flatMap_map]
  exact List.flatMap_congr fun p hp => p.tokens_terminated_eq (d.stop_eq hp)

end Derivation

theorem exists_derivation_of_errors_eq_nil {text : String} {policies : Policies}
    (h : (parse text policies).errors = []) :
    ∃ d : Derivation policies (tokens text), d.program = (parse text policies).program := by
  obtain ⟨pieces, hcut, hparse⟩ := parse_exists_cut text policies
  rw [hparse] at h
  obtain ⟨d⟩ := hcut.exists_derivation h
  exact ⟨d, by rw [parse_eq_parse_tokens, d.parse_eq]⟩

/-- Rendering reproduces the tokens of a text that is parsed without an error: the only change is
that each phrase without a semicolon gets one. So nothing else is changed where semicolons do not
count, and nothing at all where they are always required. -/
theorem tokens_render_parse (text : String) (policies : Policies)
    (h : (parse text policies).errors = []) :
    let rendered := tokens (parse text policies).program.render
    (∃ d : Derivation policies (tokens text), d.program = (parse text policies).program ∧
      rendered = d.phrases.flatMap fun p => p.tokens ++ p.missing) ∧
    rendered.filter (fun t => t.kind ≠ .semicolon) =
      (tokens text).filter (fun t => t.kind ≠ .semicolon) ∧
    ((∀ kind, policies.ofKind kind = .required) → rendered = tokens text) := by
  intro rendered
  obtain ⟨d, hprogram⟩ := exists_derivation_of_errors_eq_nil h
  have hrendered : rendered = d.phrases.flatMap fun p => p.tokens ++ p.missing := by
    rw [← d.tokens_render, hprogram]
  refine ⟨⟨d, hprogram, hrendered⟩, ?_, ?_⟩
  · have hfilter : ∀ p ∈ d.phrases, (p.tokens ++ p.missing).filter (fun t => t.kind ≠ .semicolon) =
        p.tokens.filter fun t => t.kind ≠ .semicolon := by
      intro p _
      rw [List.filter_append, p.filter_missing, List.append_nil]
    have hyield := congrArg (List.filter fun t => t.kind ≠ .semicolon) d.yield
    rw [List.filter_flatMap] at hyield
    rw [hrendered, List.filter_flatMap, ← hyield]
    exact List.flatMap_congr hfilter
  · intro hrequired
    have hmissing : ∀ p ∈ d.phrases, p.tokens ++ p.missing = p.tokens := by
      intro p hp
      rw [(d.allowed p hp).missing_eq_nil (hrequired p.kind), List.append_nil]
    rw [hrendered, List.flatMap_congr hmissing, d.yield]

/-- Two statements of which the second has no semicolon; and one where all policies ask for it. -/
theorem tokens_render_parse_unterminated :
    let text := "let x =05;a"
    let strict : Policies := ⟨.required, .required, .required⟩
    (parse text {}).errors = [] ∧ (parse "return --x ;" strict).errors = [] ∧
      (∀ kind, strict.ofKind kind = .required) ∧
      (tokens (parse text {}).program.render).filter (fun t => t.kind ≠ .semicolon) =
        (tokens text).filter (fun t => t.kind ≠ .semicolon) ∧
      tokens (parse "return --x ;" strict).program.render = tokens "return --x ;" := by
  intro text strict
  have hlenient : (parse text {}).errors = [] := by cbv
  have hstrict : (parse "return --x ;" strict).errors = [] := by cbv
  have hrequired : ∀ kind, strict.ofKind kind = .required := by
    intro kind
    cases kind <;> rfl
  exact ⟨hlenient, hstrict, hrequired, (tokens_render_parse text {} hlenient).2.1,
    (tokens_render_parse _ strict hstrict).2.2 hrequired⟩

end LetLang
