import LetLang.Lexer.Cursor
import LetLang.Proofs.Spelling

/-! A cursor stays in its text. It always tracks a lexer that holds the characters from its position
on, so that every slice lies in the text and every call gives what the lexer answers, although the
end mark may be a character of the text. -/

namespace LetLang

/-- What is answered at the end of the input: nothing, or the token that stands for it. -/
def IsEnd (answer : Option Token) : Prop := ∀ t ∈ answer, t.kind = .eof

theorem scanToken_eq_none_iff {text : List Char} :
    scanToken text = none ↔ ∀ x ∈ text, isSeparator x := by
  rw [← List.dropWhile_eq_nil_iff, scanToken]
  split
  · next hnil => simp [hnil]
  · next hcons => simp [hcons]

namespace Lexer

variable {l : Lexer}

/-- A call reads the first token that is left, or all that is left if there is none. -/
theorem call_cases (hfinished : l.finished → l.rest = []) (call : LexerCall) :
    (scanToken l.rest = none ∧ IsEnd (l.call call).1 ∧ (l.call call).2.rest = []) ∨
      ∃ t rest, scanToken l.rest = some (t, rest) ∧ (l.call call).1 = some t ∧
        (l.call call).2.rest = rest := by
  have hend : IsEnd (some Token.eof) := by
    rintro t ⟨⟩
    rfl
  cases call with
  | nextToken =>
    cases hscan : scanToken l.rest with
    | none => exact .inl ⟨rfl, by simpa [call, nextToken, hscan] using hend⟩
    | some p => exact .inr ⟨p.1, p.2, rfl, by simp [call, nextToken, hscan]⟩
  | next =>
    by_cases hl : l.finished
    · have hrest := hfinished hl
      have hnone : scanToken l.rest = none := by rw [hrest]; rfl
      exact .inl ⟨hnone, by simp [call, next?, hl, hrest, IsEnd]⟩
    · cases hscan : scanToken l.rest with
      | none => exact .inl ⟨rfl, by simp [call, next?, hl, hscan, IsEnd]⟩
      | some p => exact .inr ⟨p.1, p.2, rfl, by simp [call, next?, hl, hscan]⟩

theorem call_spec (hfinished : l.finished → l.rest = []) (call : LexerCall) :
    (IsEnd (l.call call).1 ↔ ∀ x ∈ l.rest, isSeparator x) ∧
      (IsEnd (l.call call).1 → (l.call call).2.rest = []) ∧
      (¬ IsEnd (l.call call).1 → (l.call call).2.rest.length < l.rest.length) := by
  rw [← scanToken_eq_none_iff]
  obtain ⟨hscan, hend, hrest⟩ | ⟨t, rest, hscan, hanswer, hrest⟩ := call_cases hfinished call
  · exact ⟨iff_of_true hend hscan, fun _ => hrest, fun h => absurd hend h⟩
  · have hkind := (scanToken_spec hscan).1.kind_ne_eof
    have hend : ¬ IsEnd (l.call call).1 := fun h => hkind (h t hanswer)
    have hlt := scanToken_length_lt hscan
    exact ⟨iff_of_false hend (by simp [hscan]), fun h => absurd h hend, fun _ => hrest ▸ hlt⟩

end Lexer

theorem drop_length_takeWhile {α : Type} (p : α → Bool) (l : List α) :
    l.drop (l.takeWhile p).length = l.dropWhile p := by
  calc l.drop (l.takeWhile p).length
      = (l.takeWhile p ++ l.dropWhile p).drop (l.takeWhile p).length := by
        rw [List.takeWhile_append_dropWhile]
    _ = l.dropWhile p := List.drop_left

namespace Cursor

/-- The loop with this guard moves on `n` times from `c`, and no more. -/
def Guard.Turns (g : Guard) (c : Cursor) (n : Nat) : Prop :=
  (∀ m < n, g.holds (readChar^[m] c)) ∧ g.holds (readChar^[n] c) = false

/-- Every loop ends, whatever the cursor. -/
theorem exists_turns (g : Guard) (c : Cursor) :
    ∃ n, g.Turns c n ∧ c.readOn g = readChar^[n] c := by
  fun_induction readOn g c with
  | case1 c hholds ih =>
    obtain ⟨n, ⟨hbefore, hend⟩, heq⟩ := ih
    refine ⟨n + 1, ⟨?_, hend⟩, heq⟩
    intro m hm
    cases m with
    | zero => exact hholds
    | succ m => exact hbefore m (Nat.lt_of_succ_lt_succ hm)
  | case2 c hholds => exact ⟨0, ⟨fun m hm => absurd hm m.not_lt_zero, by simpa using hholds⟩, rfl⟩

def left (c : Cursor) : List Char := c.chars.toList.drop c.position

def toLexer (c : Cursor) : Lexer := ⟨c.left, c.finished⟩

/-- The cursor is in its text or at the end of it, and keeps the character that is there. -/
structure Valid (c : Cursor) : Prop where
  position_le : c.position ≤ c.chars.size
  ch_eq : c.ch = c.charAt c.position

def advance (c : Cursor) (n : Nat) : Cursor :=
  { c with position := c.position + n, ch := c.charAt (c.position + n) }

variable {c : Cursor}

@[simp] theorem chars_advance (c : Cursor) (n : Nat) : (c.advance n).chars = c.chars := rfl

@[simp] theorem position_advance (c : Cursor) (n : Nat) :
    (c.advance n).position = c.position + n := rfl

theorem length_left (c : Cursor) : c.left.length = c.chars.size - c.position := by
  simp [left]

theorem charAt_add (c : Cursor) (n : Nat) :
    c.charAt (c.position + n) = c.left[n]?.getD endMark := by
  simp [charAt, left]

theorem left_advance (c : Cursor) (n : Nat) : (c.advance n).left = c.left.drop n := by
  simp [left, advance]

theorem advance_advance (c : Cursor) (m n : Nat) :
    (c.advance m).advance n = c.advance (m + n) := by
  simp [advance, charAt, Nat.add_assoc]

theorem atEnd_eq (c : Cursor) : c.atEnd = c.left.isEmpty := by
  rw [Bool.eq_iff_iff, List.isEmpty_iff, left, List.drop_eq_nil_iff]
  simp [atEnd]

theorem readChar_eq {x : Char} {rest : List Char} (hleft : c.left = x :: rest) :
    c.readChar = c.advance 1 := by
  have hend : c.atEnd = false := by rw [atEnd_eq, hleft]; rfl
  simp [readChar, hend, advance]

theorem left_readChar {x : Char} {rest : List Char} (hleft : c.left = x :: rest) :
    c.readChar.left = rest := by
  rw [readChar_eq hleft, left_advance, hleft, List.drop_one, List.tail_cons]

namespace Valid

theorem ofString (text : String) : (Cursor.ofString text).Valid :=
  ⟨Nat.zero_le _, rfl⟩

theorem advance (h : c.Valid) {n : Nat} (hn : n ≤ c.left.length) : (c.advance n).Valid := by
  have hle := h.position_le
  rw [length_left] at hn
  exact ⟨by simp only [chars_advance, position_advance]; omega, rfl⟩

theorem readChar (h : c.Valid) : c.readChar.Valid := by
  refine ⟨?_, rfl⟩
  cases hend : c.atEnd with
  | false =>
    obtain ⟨hlt, hposition⟩ := readChar_of_not_atEnd hend
    rw [hposition]
    exact hlt
  | true =>
    rw [(readChar_of_atEnd hend).1]
    exact h.position_le

theorem advance_zero (h : c.Valid) : c.advance 0 = c := by
  have hch := h.ch_eq
  simp [Cursor.advance, ← hch]

theorem position_add (h : c.Valid) : c.position + c.left.length = c.chars.size := by
  have hle := h.position_le
  rw [length_left]
  omega

theorem ch_eq_head? (h : c.Valid) : c.ch = c.left.head?.getD endMark := by
  rw [h.ch_eq, List.head?_eq_getElem?]
  exact c.charAt_add 0

theorem getElem?_position (h : c.Valid) :
    c.chars[c.position]? = some c.ch ∨ c.position = c.chars.size ∧ c.ch = endMark := by
  have hle := h.position_le
  rw [h.ch_eq, charAt]
  cases hget : c.chars[c.position]? with
  | none => exact .inr ⟨Nat.le_antisymm hle (Array.getElem?_eq_none_iff.1 hget), rfl⟩
  | some x => exact .inl rfl

theorem ch_eq_endMark_iff (h : c.Valid) :
    c.ch = endMark ↔ c.position = c.chars.size ∨ c.chars[c.position]? = some endMark := by
  obtain hget | ⟨hend, hch⟩ := h.getElem?_position
  · obtain ⟨hlt, -⟩ := Array.getElem?_eq_some_iff.1 hget
    simp [hget, Nat.ne_of_lt hlt]
  · exact iff_of_true hch (.inl hend)

/-- A loop that asks for the characters of a class ends behind the last of them. The induction is on
the characters left: every turn takes one. -/
theorem readOn_eq {g : Guard} {p : Char → Bool}
    (hg : ∀ d : Cursor, d.Valid → g.holds d = d.left.head?.any p) (h : c.Valid) :
    c.readOn g = c.advance (c.left.takeWhile p).length := by
  induction hleft : c.left generalizing c with
  | nil =>
    rw [readOn, hg c h, hleft]
    simp [h.advance_zero]
  | cons x rest ih =>
    rw [readOn, hg c h, hleft, List.takeWhile_cons]
    cases hx : p x with
    | false => simp [hx, h.advance_zero]
    | true =>
      have hrest := ih h.readChar (left_readChar hleft)
      rw [readChar_eq hleft, advance_advance] at hrest
      simp [hx, readChar_eq hleft, hrest, Nat.add_comm]

theorem skipBlanks_eq (h : c.Valid) :
    c.skipBlanks = c.advance (c.left.takeWhile isSeparator).length := by
  apply h.readOn_eq
  intro d hd
  rw [blanks_holds, hd.ch_eq_head?]
  -- at the end the loop stops because the end mark is no blank
  cases d.left <;> rfl

theorem readOn_inClass_eq (h : c.Valid) (p : Char → Bool) :
    c.readOn (inClass p) = c.advance (c.left.takeWhile p).length := by
  apply h.readOn_eq
  intro d hd
  rw [inClass_holds, hd.ch_eq_head?, atEnd_eq]
  cases d.left <;> rfl

theorem slice?_advance (h : c.Valid) {n : Nat} (hn : n ≤ c.left.length) :
    (c.advance n).slice? c.position (c.advance n).position =
      some (String.ofList (c.left.take n)) := by
  have hposition := h.position_add
  rw [slice?, if_pos ⟨by simp, by simp only [chars_advance, position_advance]; omega⟩]
  simp [left]

theorem readWhile_eq (h : c.Valid) (p : Char → Bool) :
    c.readWhile p = some (String.ofList (c.left.takeWhile p), c.readOn (inClass p)) := by
  have hslice := h.slice?_advance (List.takeWhile_prefix p).length_le
  rw [← List.prefix_iff_eq_take.1 (List.takeWhile_prefix p), ← h.readOn_inClass_eq p] at hslice
  rw [readWhile, hslice]
  rfl

/-- Reading a word comes to an end, and the word is a slice of the text. -/
theorem exists_readWhile (h : c.Valid) (p : Char → Bool) : ∃ n word d,
    (inClass p).Turns c n ∧ d = Cursor.readChar^[n] c ∧ c.readWhile p = some (word, d) ∧
      d.slice? c.position d.position = some word ∧ c.position ≤ d.position ∧
      d.position ≤ d.chars.size := by
  obtain ⟨n, hturns, hread⟩ := exists_turns (inClass p) c
  have hle := (List.takeWhile_prefix p (l := c.left)).length_le
  refine ⟨n, _, _, hturns, hread, h.readWhile_eq p, ?_, ?_, ?_⟩
  all_goals rw [h.readOn_inClass_eq p]
  · rw [h.slice?_advance hle, ← List.prefix_iff_eq_take.1 (List.takeWhile_prefix p)]
  · simp
  · exact (h.advance hle).position_le

section

variable {x : Char} {rest : List Char}

theorem ch_eq_of_cons (h : c.Valid) (hleft : c.left = x :: rest) : c.ch = x := by
  rw [h.ch_eq_head?, hleft]
  rfl

theorem peekChar_eq_of_cons (hleft : c.left = x :: rest) :
    c.peekChar = rest.head?.getD endMark := by
  rw [peekChar, charAt_add, hleft, List.head?_eq_getElem?]
  rfl

theorem readWhile_of_cons (h : c.Valid) (hleft : c.left = x :: rest) {p : Char → Bool}
    (hx : p x) : ∃ n, c.readWhile p = some (String.ofList (x :: rest.takeWhile p), c.advance n) ∧
      n ≤ c.left.length ∧ c.left.drop n = rest.dropWhile p := by
  refine ⟨(c.left.takeWhile p).length, ?_, (List.takeWhile_prefix p).length_le, ?_⟩
  · rw [h.readWhile_eq p, h.readOn_inClass_eq p, hleft, List.takeWhile_cons_of_pos hx]
  · rw [drop_length_takeWhile, hleft, List.dropWhile_cons_of_pos hx]

theorem joined_eq (h : c.Valid) (hleft : c.left = x :: rest) (longer short : TokenKind) :
    c.joined '=' longer short =
      if rest.head? = some '=' then (⟨longer, String.ofList [x, '=']⟩, c.readChar)
      else (⟨short, String.ofList [x]⟩, c) := by
  unfold joined
  rw [peekChar_eq_of_cons hleft, single, h.ch_eq_of_cons hleft]
  cases rest with
  | nil => simp [endMark]
  | cons d rest =>
    have hch := h.readChar.ch_eq_of_cons (left_readChar hleft)
    by_cases hd : d = '=' <;> simp [hd, hch]

theorem lexeme_eq (h : c.Valid) (hleft : c.left = x :: rest) :
    ∃ n, c.lexeme = some ((LetLang.lexeme x rest).1, c.advance n) ∧ n ≤ c.left.length ∧
      c.left.drop n = (LetLang.lexeme x rest).2 := by
  have hch := h.ch_eq_of_cons hleft
  have hread := readChar_eq hleft
  have hone : 1 ≤ c.left.length ∧ c.left.drop 1 = rest := by simp [hleft]
  unfold Cursor.lexeme LetLang.lexeme
  rw [hch]
  cases TokenKind.ofChar? x with
  | some kind =>
    dsimp only
    cases kind.withEquals? with
    | none => exact ⟨1, by simp [single, hch, hread], hone⟩
    | some longer =>
      dsimp only
      rw [h.joined_eq hleft]
      cases rest with
      | nil => exact ⟨1, by simp [hread], by simp [hleft]⟩
      | cons d rest =>
        by_cases hd : d = '='
        · have hreads : c.readChar.readChar = c.advance 2 := by
            rw [readChar_eq (left_readChar hleft), hread, advance_advance]
          exact ⟨2, by simp [hd, hreads], by simp [hleft, hd]⟩
        · exact ⟨1, by simp [hd, hread], by simp [hleft, hd]⟩
  | none =>
    dsimp only
    split
    · next hletter =>
      obtain ⟨n, hword, hle, hdrop⟩ := h.readWhile_of_cons hleft hletter
      exact ⟨n, by simp [hword], hle, hdrop⟩
    · split
      · next hdigit =>
        obtain ⟨n, hword, hle, hdrop⟩ := h.readWhile_of_cons hleft hdigit
        exact ⟨n, by simp [hword], hle, hdrop⟩
      · exact ⟨1, by simp [single, hch, hread], hone⟩

end

end Valid

/-- The cursor stands in the text `chars` where the lexer has come to. -/
structure Tracks (c : Cursor) (chars : Array Char) (l : Lexer) : Prop where
  valid : c.Valid
  chars_eq : c.chars = chars
  left_eq : c.left = l.rest
  finished_eq : c.finished = l.finished
  rest_of_finished : l.finished → l.rest = []

namespace Tracks

variable {chars : Array Char} {l : Lexer}

theorem ofString (text : String) :
    (Cursor.ofString text).Tracks text.toList.toArray (Lexer.ofString text) :=
  ⟨.ofString text, rfl, rfl, rfl, fun h => nomatch h⟩

theorem toLexer_eq (h : c.Tracks chars l) : c.toLexer = l := by
  rw [toLexer, h.left_eq, h.finished_eq]

theorem position_add (h : c.Tracks chars l) : c.position + l.rest.length = chars.size := by
  rw [← h.left_eq, ← h.chars_eq]
  exact h.valid.position_add

theorem advance (h : c.Tracks chars l) {n : Nat} (hn : n ≤ c.left.length) {rest : List Char}
    (hrest : c.left.drop n = rest) : (c.advance n).Tracks chars { l with rest } where
  valid := h.valid.advance hn
  chars_eq := h.chars_eq
  left_eq := (c.left_advance n).trans hrest
  finished_eq := h.finished_eq
  rest_of_finished hl := by rw [← hrest, h.left_eq, h.rest_of_finished hl, List.drop_nil]

theorem skipBlanks (h : c.Tracks chars l) :
    c.skipBlanks.Tracks chars { l with rest := l.rest.dropWhile isSeparator } := by
  rw [h.valid.skipBlanks_eq, ← h.left_eq, ← drop_length_takeWhile]
  exact h.advance (List.takeWhile_prefix isSeparator).length_le rfl

theorem nextToken (h : c.Tracks chars l) :
    ∃ d, c.nextToken = some (l.nextToken.1, d) ∧ d.Tracks chars l.nextToken.2 := by
  have hd := h.skipBlanks
  unfold Cursor.nextToken Lexer.nextToken scanToken
  generalize c.skipBlanks = d at hd
  cases hrest : l.rest.dropWhile isSeparator with
  | nil =>
    rw [hrest] at hd
    have hend : d.atEnd = true := by rw [atEnd_eq, hd.left_eq]; rfl
    exact ⟨d, by simp [hend], hd⟩
  | cons x rest =>
    rw [hrest] at hd
    have hend : d.atEnd = false := by rw [atEnd_eq, hd.left_eq]; rfl
    obtain ⟨n, hlexeme, hn, hdrop⟩ := hd.valid.lexeme_eq hd.left_eq
    exact ⟨d.advance n, by simp [hend, hlexeme], hd.advance hn hdrop⟩

theorem next? (h : c.Tracks chars l) :
    ∃ d, c.next? = some (l.next?.1, d) ∧ d.Tracks chars l.next?.2 := by
  obtain ⟨d, hnext, hd⟩ := h.nextToken
  unfold Cursor.next? Lexer.next?
  rw [h.finished_eq, hnext]
  by_cases hl : l.finished
  · exact ⟨c, by simp [hl], by simpa [hl] using h⟩
  · cases hscan : scanToken l.rest with
    | none =>
      simp only [Lexer.nextToken, hscan] at hd
      have hfinished : ({ d with finished := true } : Cursor).Tracks chars ⟨[], true⟩ :=
        ⟨⟨hd.valid.position_le, hd.valid.ch_eq⟩, hd.chars_eq, hd.left_eq, rfl, fun _ => rfl⟩
      exact ⟨{ d with finished := true }, by simp [hl, Lexer.nextToken, hscan, Token.eof],
        by simpa [hl] using hfinished⟩
    | some p =>
      have hkind := (scanToken_spec hscan).1.kind_ne_eof
      simp only [Lexer.nextToken, hscan] at hd
      exact ⟨d, by simp [hl, Lexer.nextToken, hscan, hkind], by simpa [hl] using hd⟩

theorem call (h : c.Tracks chars l) (call : LexerCall) :
    ∃ d, c.call call = some ((l.call call).1, d) ∧ d.Tracks chars (l.call call).2 := by
  cases call with
  | nextToken =>
    obtain ⟨d, hnext, hd⟩ := h.nextToken
    exact ⟨d, by simp [Cursor.call, hnext, Lexer.call], hd⟩
  | next => exact h.next?

theorem after (h : c.Tracks chars l) (calls : List LexerCall) :
    ∃ d, c.after calls = some d ∧ d.Tracks chars (l.after calls) := by
  induction calls generalizing c l with
  | nil => exact ⟨c, rfl, h⟩
  | cons call calls ih =>
    obtain ⟨d, hcall, hd⟩ := h.call call
    obtain ⟨e, hcalls, he⟩ := ih hd
    exact ⟨e, by simpa [Cursor.after, hcall] using hcalls, he⟩

/-- A call moves the cursor: to the end of the text if it meets the end, forwards otherwise. -/
theorem call_spec (h : c.Tracks chars l) (call : LexerCall) :
    ∃ answer d, c.call call = some (answer, d) ∧ answer = (l.call call).1 ∧
      (¬ IsEnd answer → c.position < d.position) ∧
      (IsEnd answer ↔ ∀ x ∈ c.left, isSeparator x) ∧
      (IsEnd answer → d.position = d.chars.size) := by
  obtain ⟨d, hcall, hd⟩ := h.call call
  obtain ⟨hend, hleft, hless⟩ := l.call_spec h.rest_of_finished call
  have hc := h.position_add
  have hd' := hd.position_add
  refine ⟨_, d, hcall, rfl, ?_, ?_, ?_⟩
  · intro hanswer
    have hlt := hless hanswer
    omega
  · rw [h.left_eq]
    exact hend
  · intro hanswer
    rw [hleft hanswer] at hd'
    rw [hd.chars_eq]
    exact hd'

end Tracks

/-- Every sequence of calls on the cursor at the start of a text returns, and so does every further
call, with the answer of the lexer. The cursor is in the text or at its end and keeps the character
that is there, or the end mark. A token moves it forwards; the end is met exactly when only blanks
are left, and then the cursor is at the end of the text. -/
theorem stays_in_text (text : String) (calls : List LexerCall) :
    ∃ c, (ofString text).after calls = some c ∧ c.chars = text.toList.toArray ∧
      c.toLexer = (Lexer.ofString text).after calls ∧ c.position ≤ c.chars.size ∧
      (c.chars[c.position]? = some c.ch ∨ c.position = c.chars.size ∧ c.ch = endMark) ∧
      (c.ch = endMark ↔ c.position = c.chars.size ∨ c.chars[c.position]? = some endMark) ∧
      (∃ n, blanks.Turns c n ∧ c.skipBlanks = readChar^[n] c) ∧
      (∀ p, ∃ n word d, (inClass p).Turns c.skipBlanks n ∧ d = readChar^[n] c.skipBlanks ∧
        c.skipBlanks.readWhile p = some (word, d) ∧
        d.slice? c.skipBlanks.position d.position = some word ∧
        c.skipBlanks.position ≤ d.position ∧ d.position ≤ d.chars.size) ∧
      ∀ call, ∃ answer d, c.call call = some (answer, d) ∧
        answer = (c.toLexer.call call).1 ∧
        (¬ IsEnd answer → c.position < d.position) ∧
        (IsEnd answer ↔ ∀ x ∈ c.left, isSeparator x) ∧
        (IsEnd answer → d.position = d.chars.size) := by
  obtain ⟨c, hafter, hc⟩ := (Tracks.ofString text).after calls
  refine ⟨c, hafter, hc.chars_eq, hc.toLexer_eq, hc.valid.position_le,
    hc.valid.getElem?_position, hc.valid.ch_eq_endMark_iff, exists_turns blanks c,
    hc.skipBlanks.valid.exists_readWhile, ?_⟩
  rw [hc.toLexer_eq]
  exact hc.call_spec

example : (ofString "\x00 ==").after [.next, .nextToken, .next] =
    some ⟨#['\x00', ' ', '=', '='], 4, endMark, true⟩ := by cbv

end Cursor

end LetLang
