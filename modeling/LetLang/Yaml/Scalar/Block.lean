import LetLang.Yaml.Mark

/-!
Block scalars: indented lines after a header that says whether lines are folded and which line
breaks at the end are kept.
-/

namespace LetLang.Yaml.Block

inductive Chomping where
  | strip | clip | keep

/-- The header of a block scalar: chomping, and how far its lines are indented if that is given. -/
structure Header where
  chomping : Chomping := .clip
  increment : Option Nat := none

def chomping? : Char → Option Chomping
  | '+' => some .keep
  | '-' => some .strip
  | _ => none

def indicators? : List Glyph → Option (Header × List Glyph)
  | [] => some ({}, [])
  | g :: rest =>
    match chomping? g.char with
    | some chomping =>
      match rest with
      | d :: rest' =>
        if d.char == '0' then none
        else if d.char.isDigit then some (⟨chomping, some (d.char.toNat - '0'.toNat)⟩, rest')
        else some (⟨chomping, none⟩, rest)
      | [] => some (⟨chomping, none⟩, rest)
    | none =>
      if g.char == '0' then none
      else if g.char.isDigit then
        let increment := some (g.char.toNat - '0'.toNat)
        match rest with
        | c :: rest' =>
          match chomping? c.char with
          | some chomping => some (⟨chomping, increment⟩, rest')
          | none => some (⟨.clip, increment⟩, rest)
        | [] => some (⟨.clip, increment⟩, rest)
      else some ({}, g :: rest)

def endLine? (gs : List Glyph) : Option (List Glyph) :=
  let rest := dropChars isSpaceOrTab gs
  let rest := if startsWith (· == '#') rest then dropChars (!isBreak ·) rest else rest
  if endsLine rest then some (rest.drop 1) else none

/-- Skips indentation and empty lines. Gives the largest column where a line went on, the line
breaks, and the rest; without a known indent every space is indentation, and no tab may follow
it. -/
def emptyLines? (indent : Option Nat) (fin : Mark) (widest : Nat) (breaks : List Char) :
    List Glyph → Option (Nat × List Char × List Glyph)
  | [] => some (max widest fin.column, breaks.reverse, [])
  | g :: rest =>
    let inside := indent.all (g.mark.column < ·)
    if inside && g.char == ' ' then emptyLines? indent fin widest breaks rest
    else if inside && g.char == '\t' then none
    else if isBreak g.char then
      emptyLines? indent fin (max widest g.mark.column) (g.char :: breaks) rest
    else some (max widest g.mark.column, breaks.reverse, g :: rest)

/-- The lines read so far: their text, the line break of the last one, the empty lines after it,
and whether the last one starts with white space. -/
structure Lines where
  text : Array Char := #[]
  lastBreak : List Char := []
  empty : List Char := []
  indented : Bool := false

/-- Joins a line to those before it. A line break between two lines that do not start with white
space is folded. -/
def Lines.add (ls : Lines) (folded : Bool) (line : List Char) : Array Char :=
  let startsBlank := line.head?.any isSpaceOrTab
  if folded && ls.lastBreak == ['\n'] && !ls.indented && !startsBlank then
    ls.text ++ (if ls.empty.isEmpty then [' '] else ls.empty) ++ line
  else ls.text ++ ls.lastBreak ++ ls.empty ++ line

theorem emptyLines?_length_le {indent : Option Nat} {fin : Mark} {widest n : Nat}
    {breaks cs : List Char} {gs rest : List Glyph}
    (h : emptyLines? indent fin widest breaks gs = some (n, cs, rest)) :
    rest.length ≤ gs.length := by
  induction gs generalizing widest breaks with
  | nil =>
    simp only [emptyLines?, Option.some.injEq, Prod.mk.injEq] at h
    simp [← h.2.2]
  | cons g tail ih =>
    simp only [emptyLines?] at h
    split at h
    · exact Nat.le_succ_of_le (ih h)
    · split at h
      · simp at h
      · split at h
        · exact Nat.le_succ_of_le (ih h)
        · simp only [Option.some.injEq, Prod.mk.injEq] at h
          simp [← h.2.2]

theorem afterLine_length_lt {gs : List Glyph} (h : gs ≠ []) :
    ((dropChars (!isBreak ·) gs).drop 1).length < gs.length := by
  have := dropChars_length_le (!isBreak ·) gs
  have := List.length_pos_iff.2 h
  rw [List.length_drop]
  omega

def readLines (folded : Bool) (indent : Nat) (fin : Mark) (ls : Lines) (gs : List Glyph) :
    Option (Lines × List Glyph) :=
  if _hs : gs = [] then some (ls, gs)
  else if (markAt fin gs).column != indent then some (ls, gs)
  else
    let line := takeChars (!isBreak ·) gs
    let rest := dropChars (!isBreak ·) gs
    match _he : emptyLines? (some indent) fin 0 [] (rest.drop 1) with
    | none => none
    | some (_, empty, after) =>
      readLines folded indent fin
        ⟨ls.add folded line, chars (rest.take 1), empty, line.head?.any isSpaceOrTab⟩ after
termination_by gs.length
decreasing_by exact Nat.lt_of_le_of_lt (emptyLines?_length_le _he) (afterLine_length_lt _hs)

def Lines.finish (ls : Lines) : Chomping → List Char
  | .strip => ls.text.toList
  | .clip => (ls.text ++ ls.lastBreak).toList
  | .keep => (ls.text ++ ls.lastBreak ++ ls.empty).toList

/-- Reads a block scalar after its `|` or `>`. Where the header does not say it, the first line
that is not empty sets the indent, which is at least `margin` and at least one. -/
def read? (folded : Bool) (margin : Nat) (fin : Mark) (gs : List Glyph) :
    Option (List Char × List Glyph) := do
  let (header, rest) ← indicators? gs
  let rest ← endLine? rest
  let given := header.increment.map (margin - 1 + ·)
  let (widest, empty, rest) ← emptyLines? given fin 0 [] rest
  let indent := given.getD (max widest (max margin 1))
  let (ls, rest) ← readLines folded indent fin ⟨#[], [], empty, false⟩ rest
  return (ls.finish header.chomping, rest)

end LetLang.Yaml.Block
