import LetLang.Proofs.Lexeme
import LetLang.Proofs.Queue

/-! Layout: which texts are read as which tokens, said without a lexer. Every token is written as
its kind says, blanks may stand anywhere between, and must stand where two tokens would fuse. -/

namespace LetLang

/-- Without a blank between them the two tokens would be read as others: both are words, both are
integers, or the equals sign of the second would become part of the first. -/
def Token.Fuses (t u : Token) : Prop :=
  (t.kind.IsWord ∧ u.kind.IsWord) ∨ (t.kind = .int ∧ u.kind = .int) ∨
    ((t.kind = .assign ∨ t.kind = .bang) ∧ (u.kind = .assign ∨ u.kind = .eq))

def written (pieces : List (Token × List Char)) : List Char :=
  pieces.flatMap fun p => p.1.literal.toList ++ p.2

/-- A text cut into the literals of `ts` and the blanks around them. -/
@[ext]
structure Layout (text : List Char) (ts : List Token) where
  indent : List Char
  pieces : List (Token × List Char)
  text_eq : text = indent ++ written pieces
  tokens_eq : pieces.map Prod.fst = ts
  blank_indent : ∀ c ∈ indent, isSeparator c
  blank_after : ∀ p ∈ pieces, ∀ c ∈ p.2, isSeparator c
  lexemes : ∀ t ∈ ts, t.IsLexeme
  apart : pieces.IsChain fun p q => p.1.Fuses q.1 → p.2 ≠ []

theorem Token.WellFormed.absorbs_iff_fuses {t u : Token} (hu : u.WellFormed) {c : Char}
    (hc : c ∈ u.literal.toList.head?) : t.Absorbs c ↔ t.Fuses u := by
  obtain ⟨hletter, hdigit, hequals⟩ := hu.head_iff hc
  rw [Absorbs, Fuses, hletter, hdigit, hequals]

theorem Token.WellFormed.exists_cons {t : Token} (h : t.WellFormed) :
    ∃ c rest, t.literal.toList = c :: rest ∧ isSeparator c = false := by
  obtain ⟨c, rest, hliteral, hc, -⟩ := @exists_lexeme_eq t h [] (by simp)
  exact ⟨c, rest, hliteral, hc⟩

theorem Spells.blanks {blanks text : List Char} {ts : List Token}
    (hblanks : ∀ c ∈ blanks, isSeparator c) (h : Spells text ts) : Spells (blanks ++ text) ts := by
  induction blanks with
  | nil => exact h
  | cons c blanks ih =>
    obtain ⟨hc, hblanks⟩ := List.forall_mem_cons.1 hblanks
    exact .blank hc (ih hblanks)

theorem written_cons (t : Token) (after : List Char) (pieces : List (Token × List Char)) :
    written ((t, after) :: pieces) = t.literal.toList ++ (after ++ written pieces) := by
  rw [written, List.flatMap_cons, List.append_assoc]
  rfl

theorem isSeparator_head_written {pieces : List (Token × List Char)}
    (h : ∀ p ∈ pieces, p.1.WellFormed) : ∀ c ∈ (written pieces).head?, isSeparator c = false := by
  cases pieces with
  | nil => simp [written]
  | cons p pieces =>
    obtain ⟨c, rest, hliteral, hc⟩ := (h p List.mem_cons_self).exists_cons
    intro d hd
    rw [written_cons, hliteral] at hd
    obtain rfl : c = d := by simpa using hd
    exact hc

theorem not_absorbs_written_iff {t : Token} {after : List Char}
    {pieces : List (Token × List Char)} (hafter : ∀ c ∈ after, isSeparator c)
    (hwell : ∀ p ∈ pieces, p.1.WellFormed) :
    (∀ c ∈ (after ++ written pieces).head?, ¬ t.Absorbs c) ↔
      ∀ q ∈ pieces.head?, t.Fuses q.1 → after ≠ [] := by
  cases after with
  | cons d after =>
    have hd := t.not_absorbs_separator (hafter d List.mem_cons_self)
    simp [hd]
  | nil =>
    cases pieces with
    | nil => simp [written]
    | cons q pieces =>
      obtain ⟨c, rest, hliteral, -⟩ := (hwell q List.mem_cons_self).exists_cons
      have hc : c ∈ q.1.literal.toList.head? := by rw [hliteral]; rfl
      have hhead : (written (q :: pieces)).head? = some c := by
        rw [written_cons, hliteral]
        rfl
      rw [List.nil_append, hhead]
      simp [(hwell q List.mem_cons_self).absorbs_iff_fuses hc]

theorem spells_written {pieces : List (Token × List Char)}
    (hblank : ∀ p ∈ pieces, ∀ c ∈ p.2, isSeparator c) (hwell : ∀ p ∈ pieces, p.1.WellFormed)
    (hapart : pieces.IsChain fun p q => p.1.Fuses q.1 → p.2 ≠ []) :
    Spells (written pieces) (pieces.map Prod.fst) := by
  induction pieces with
  | nil => exact .nil
  | cons p pieces ih =>
    obtain ⟨t, after⟩ := p
    obtain ⟨hafter, hblank⟩ := List.forall_mem_cons.1 hblank
    obtain ⟨ht, hwell⟩ := List.forall_mem_cons.1 hwell
    obtain ⟨hnext, hapart⟩ := List.isChain_cons.1 hapart
    rw [written_cons, List.map_cons]
    exact .token ht ((not_absorbs_written_iff hafter hwell).2 hnext)
      (.blanks hafter (ih hblank hwell hapart))

theorem written_injective {indent indent' : List Char} {pieces pieces' : List (Token × List Char)}
    (hindent : ∀ c ∈ indent, isSeparator c) (hindent' : ∀ c ∈ indent', isSeparator c)
    (hblank : ∀ p ∈ pieces, ∀ c ∈ p.2, isSeparator c)
    (hblank' : ∀ p ∈ pieces', ∀ c ∈ p.2, isSeparator c)
    (hwell : ∀ p ∈ pieces, p.1.WellFormed) (hwell' : ∀ p ∈ pieces', p.1.WellFormed)
    (htext : indent ++ written pieces = indent' ++ written pieces')
    (htokens : pieces.map Prod.fst = pieces'.map Prod.fst) :
    indent = indent' ∧ pieces = pieces' := by
  induction pieces generalizing indent indent' pieces' with
  | nil =>
    obtain rfl : pieces' = [] := List.map_eq_nil_iff.1 htokens.symm
    exact ⟨by simpa [written] using htext, rfl⟩
  | cons p pieces ih =>
    obtain ⟨htake, hdrop⟩ := takeWhile_append_of_head? hindent (isSeparator_head_written hwell)
    obtain ⟨htake', hdrop'⟩ := takeWhile_append_of_head? hindent' (isSeparator_head_written hwell')
    rw [htext] at htake hdrop
    obtain rfl : indent = indent' := htake.symm.trans htake'
    have hwritten := hdrop.symm.trans hdrop'
    cases pieces' with
    | nil => cases htokens
    | cons p' pieces' =>
      obtain ⟨t, after⟩ := p
      obtain ⟨t', after'⟩ := p'
      rw [List.map_cons, List.map_cons] at htokens
      obtain ⟨rfl, htail⟩ := List.cons.inj htokens
      rw [written_cons, written_cons] at hwritten
      obtain ⟨hafter, hblank⟩ := List.forall_mem_cons.1 hblank
      obtain ⟨hafter', hblank'⟩ := List.forall_mem_cons.1 hblank'
      obtain ⟨rfl, rfl⟩ := ih hafter hafter' hblank hblank' (List.forall_mem_cons.1 hwell).2
        (List.forall_mem_cons.1 hwell').2 (List.append_cancel_left hwritten) htail
      exact ⟨rfl, rfl⟩

namespace Layout

variable {text : List Char} {ts : List Token}

theorem wellFormed (d : Layout text ts) : ∀ p ∈ d.pieces, p.1.WellFormed := by
  intro p hp
  have hmem : p.1 ∈ ts := d.tokens_eq ▸ List.mem_map_of_mem hp
  exact (d.lexemes _ hmem).wellFormed

theorem spells (d : Layout text ts) : Spells text ts := by
  have h := (spells_written d.blank_after d.wellFormed d.apart).blanks d.blank_indent
  rwa [← d.text_eq, d.tokens_eq] at h

/-- The blanks are those of the text: nothing of a layout is open. -/
theorem unique (d d' : Layout text ts) : d = d' := by
  obtain ⟨hindent, hpieces⟩ := written_injective d.blank_indent d'.blank_indent d.blank_after
    d'.blank_after d.wellFormed d'.wellFormed (d.text_eq.symm.trans d'.text_eq)
    (d.tokens_eq.trans d'.tokens_eq.symm)
  exact Layout.ext hindent hpieces

end Layout

theorem Spells.exists_layout {text : List Char} {ts : List Token} (h : Spells text ts) :
    Nonempty (Layout text ts) := by
  induction h with
  | nil => exact ⟨⟨[], [], rfl, rfl, by simp, by simp, by simp, .nil⟩⟩
  | @blank c text ts hc hrest ih =>
    obtain ⟨d⟩ := ih
    exact ⟨{ d with
      indent := c :: d.indent
      text_eq := by rw [List.cons_append, ← d.text_eq]
      blank_indent := List.forall_mem_cons.2 ⟨hc, d.blank_indent⟩ }⟩
  | @token t text ts ht hstop hrest ih =>
    obtain ⟨d⟩ := ih
    refine ⟨{
      indent := []
      pieces := (t, d.indent) :: d.pieces
      text_eq := by rw [List.nil_append, written_cons, ← d.text_eq]
      tokens_eq := by rw [List.map_cons, d.tokens_eq]
      blank_indent := by simp
      blank_after := List.forall_mem_cons.2 ⟨d.blank_indent, d.blank_after⟩
      lexemes := List.forall_mem_cons.2 ⟨ht.isLexeme, d.lexemes⟩
      apart := List.isChain_cons.2 ⟨?_, d.apart⟩ }⟩
    rw [d.text_eq] at hstop
    exact (not_absorbs_written_iff d.blank_indent d.wellFormed).1 hstop

/-- A text is read as the tokens that it is laid out as, and is laid out in one way: its tokens
are well formed, nothing but blanks stands around them, and blanks stand wherever two tokens would
fuse. -/
theorem tokens_eq_iff_layout (text : String) (ts : List Token) :
    (tokens text = ts ↔ Nonempty (Layout text.toList ts)) ∧
      ∀ d d' : Layout text.toList ts, d = d' := by
  refine ⟨⟨?_, ?_⟩, Layout.unique⟩
  · intro h
    rw [tokens_eq_scanAll] at h
    exact (spells_iff.2 h).exists_layout
  · rintro ⟨d⟩
    rw [tokens_eq_scanAll]
    exact d.spells.scanAll_eq

end LetLang
