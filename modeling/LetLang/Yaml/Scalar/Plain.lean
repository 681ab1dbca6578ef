import LetLang.Yaml.Mark

/-!
Scalars without quotes. Words are joined across white space and line breaks until an indicator, a
comment or a line that is not indented enough ends the scalar.
-/

namespace LetLang.Yaml.Plain

def isFlowIndicator (c : Char) : Bool :=
  c == ',' || c == '[' || c == ']' || c == '\x7b' || c == '\x7d'

def isIndicator (c : Char) : Bool :=
  isFlowIndicator c || c == '-' || c == '?' || c == ':' || c == '#' || c == '&' || c == '*' ||
    c == '!' || c == '|' || c == '>' || c == '\'' || c == '"' || c == '%' || c == '@' || c == '`'

def starts (flow : Bool) : List Glyph → Bool
  | [] => false
  | g :: rest =>
    !(isGap g.char || isIndicator g.char) ||
      (g.char == '-' && !startsWith isSpaceOrTab rest) ||
      (!flow && (g.char == '?' || g.char == ':') && !endsWord rest)

/-- Reads a word after the characters in `done`. A colon right before a flow indicator is not
allowed inside brackets. -/
def word? (flow : Bool) (done : Array Char) : List Glyph → Option (Array Char × List Glyph)
  | [] => some (done, [])
  | g :: rest =>
    if isGap g.char then some (done, g :: rest)
    else if flow && g.char == ':' && startsWith (fun c => isFlowIndicator c || c == '?') rest then
      none
    else if (g.char == ':' && endsWord rest) || (flow && isFlowIndicator g.char) then
      some (done, g :: rest)
    else word? flow (done.push g.char) rest

/-- A tab after a line break, where indentation should be. -/
def misplacedTab (margin : Nat) (gap : List Glyph) : Bool :=
  (gap.dropWhile fun g => !isBreak g.char).any fun g => g.char == '\t' && g.mark.column < margin

structure Result where
  text : List Char
  atLineStart : Bool
  rest : List Glyph

theorem word?_length_le {flow : Bool} {done word : Array Char} {gs rest : List Glyph}
    (h : word? flow done gs = some (word, rest)) : rest.length ≤ gs.length := by
  induction gs generalizing done with
  | nil =>
    simp only [word?, Option.some.injEq, Prod.mk.injEq] at h
    simp [← h.2]
  | cons g tail ih =>
    simp only [word?] at h
    split at h
    · simp only [Option.some.injEq, Prod.mk.injEq] at h
      simp [← h.2]
    · split at h
      · simp at h
      · split at h
        · simp only [Option.some.injEq, Prod.mk.injEq] at h
          simp [← h.2]
        · exact Nat.le_succ_of_le (ih h)

/-- Reads words after those in `done` and the white space in `gap`. -/
def readWords (flow : Bool) (margin : Nat) (fin : Mark) (done : Array Char) (gap : List Char)
    (gs : List Glyph) : Option Result :=
  if isDocumentMarker gs || startsWith (· == '#') gs then
    some ⟨done.toList, gap.any isBreak, gs⟩
  else
    match _hw : word? flow #[] gs with
    | none => none
    | some (word, rest) =>
      let (done, gap) :=
        if word.isEmpty then (done, gap) else (done ++ foldGap false gap ++ word, [])
      if _hg : startsWith isGap rest then
        let blank := rest.takeWhile fun g => isGap g.char
        let after := dropChars isGap rest
        if misplacedTab margin blank then none
        else if !flow && (markAt fin after).column < margin then
          some ⟨done.toList, (chars blank).any isBreak, after⟩
        else readWords flow margin fin done (chars blank) after
      else some ⟨done.toList, gap.any isBreak, rest⟩
termination_by gs.length
decreasing_by exact Nat.lt_of_lt_of_le (dropChars_length_lt _hg) (word?_length_le _hw)

/-- Reads a plain scalar whose lines are indented by at least `margin`, unless `flow` holds. -/
def read? (flow : Bool) (margin : Nat) (fin : Mark) (gs : List Glyph) : Option Result :=
  readWords flow margin fin #[] [] gs

end LetLang.Yaml.Plain
