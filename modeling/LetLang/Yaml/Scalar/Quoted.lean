import LetLang.Number.Integer
import LetLang.Yaml.Mark

/-!
Scalars in quotes. In single quotes a quote is written twice; in double quotes a backslash starts
an escape, or hides a line break.
-/

namespace LetLang.Yaml.Quoted

def letterEscape? : Char → Option Char
  | '0' => some '\x00'
  | 'a' => some '\x07'
  | 'b' => some '\x08'
  | 't' => some '\t'
  | '\t' => some '\t'
  | 'n' => some '\n'
  | 'v' => some '\x0b'
  | 'f' => some '\x0c'
  | 'r' => some '\r'
  | 'e' => some '\x1b'
  | ' ' => some ' '
  | '"' => some '"'
  | '/' => some '/'
  | '\\' => some '\\'
  | 'N' => some '\u0085'
  | '_' => some '\u00a0'
  | 'L' => some '\u2028'
  | 'P' => some '\u2029'
  | _ => none

def escapeWidth? : Char → Option Nat
  | 'x' => some 2
  | 'u' => some 4
  | 'U' => some 8
  | _ => none

def charOfNumber? (n : Nat) : Option Char :=
  if n.isValidChar then some (Char.ofNat n) else none

def escape? : List Glyph → Option (Char × List Glyph)
  | [] => none
  | g :: rest =>
    match letterEscape? g.char with
    | some c => some (c, rest)
    | none => do
      let width ← escapeWidth? g.char
      let digits := rest.take width
      if digits.length < width then none
      else
        let n ← Number.natUpTo? 16 0x10ffff (chars digits)
        return (← charOfNumber? n, rest.drop width)

inductive Piece where
  | text (c : Char)
  | gap (cs : List Char)
  | hiddenBreak
  | close

def piece? (quote : Char) (gs : List Glyph) : Option (Piece × List Glyph) :=
  match gs with
  | [] => none
  | g :: rest =>
    if isDocumentMarker gs then none
    else if isGap g.char then some (.gap (takeChars isGap gs), dropChars isGap gs)
    else if g.char == quote then
      if quote == '\'' && startsWith (· == '\'') rest then some (.text quote, rest.drop 1)
      else some (.close, rest)
    else if quote == '"' && g.char == '\\' then
      if startsWith isBreak rest then some (.hiddenBreak, rest.drop 1)
      else (escape? rest).map fun (c, rest) => (.text c, rest)
    else some (.text g.char, rest)

theorem escape?_length_lt {gs rest : List Glyph} {c : Char} (h : escape? gs = some (c, rest)) :
    rest.length < gs.length := by
  cases gs with
  | nil => simp [escape?] at h
  | cons g tail =>
    simp only [escape?] at h
    split at h
    · simp only [Option.some.injEq, Prod.mk.injEq] at h
      simp [← h.2]
    · simp only [Option.bind_eq_bind, Option.bind_eq_some_iff] at h
      obtain ⟨width, -, h⟩ := h
      split at h
      · simp at h
      · obtain ⟨n, -, c', -, h⟩ := by simpa only [Option.bind_eq_some_iff] using h
        simp only [Option.pure_def, Option.some.injEq, Prod.mk.injEq] at h
        rw [← h.2, List.length_drop, List.length_cons]
        omega

theorem piece?_length_lt {quote : Char} {gs rest : List Glyph} {p : Piece}
    (h : piece? quote gs = some (p, rest)) : rest.length < gs.length := by
  unfold piece? at h
  split at h
  · simp at h
  · next g tail =>
    split at h
    · simp at h
    · split at h
      · next hg =>
        simp only [Option.some.injEq, Prod.mk.injEq] at h
        rw [← h.2]
        exact dropChars_length_lt hg
      · split at h
        · split at h <;> simp only [Option.some.injEq, Prod.mk.injEq] at h <;>
            simp only [← h.2, List.length_drop, List.length_cons] <;> omega
        · split at h
          · split at h
            · simp only [Option.some.injEq, Prod.mk.injEq] at h
              simp only [← h.2, List.length_drop, List.length_cons]
              omega
            · obtain ⟨⟨c, r⟩, hr, h⟩ := Option.map_eq_some_iff.1 h
              simp only [Prod.mk.injEq] at h
              rw [← h.2]
              exact Nat.lt_succ_of_lt (escape?_length_lt hr)
          · simp only [Option.some.injEq, Prod.mk.injEq] at h
            simp [← h.2]

/-- Reads pieces up to the closing quote, after the text in `done`; `escaped` says that an escaped
line break comes right before. -/
def readPieces (quote : Char) (escaped : Bool) (done : Array Char) (gs : List Glyph) :
    Option (List Char × List Glyph) :=
  match _h : piece? quote gs with
  | none => none
  | some (.close, rest) => some (done.toList, rest)
  | some (.hiddenBreak, rest) => readPieces quote true done rest
  | some (.gap cs, rest) => readPieces quote false (done ++ foldGap escaped cs) rest
  | some (.text c, rest) => readPieces quote false (done.push c) rest
termination_by gs.length
decreasing_by all_goals exact piece?_length_lt _h

def read? (quote : Char) (gs : List Glyph) : Option (List Char × List Glyph) :=
  readPieces quote false #[] gs

end LetLang.Yaml.Quoted
