import LetLang.Source
import LetLang.Number.Integer
import LetLang.Parser.Error

/-!
The parser sees its source through a window of two tokens. Each round of its loop reads one
statement, which either succeeds or is recorded as one error, and then moves the window on by one
token; the loop ends when the end of input is the current token.
-/

namespace LetLang

/-- A source with two tokens already taken from it. -/
structure Window (σ : Type) where
  source : σ
  current : Token
  peek : Token

namespace Window

variable {σ : Type} [TokenSource σ]

def advance (w : Window σ) : Window σ :=
  let (t, source) := TokenSource.next w.source
  ⟨source, w.peek, t⟩

def ofSource (source : σ) : Window σ := (Window.mk source Token.eof Token.eof).advance.advance

def weight (t : Token) : Nat := if t.kind = .eof then 0 else 1

/-- A bound on the tokens still to come, those in the window included. -/
def size (w : Window σ) : Nat := TokenSource.left w.source + weight w.peek + weight w.current

theorem advance_size (w : Window σ) : w.advance.size + weight w.current ≤ w.size := by
  have hle := TokenSource.left_next_le w.source
  have hlt := TokenSource.left_next_lt w.source
  simp only [advance, size]
  by_cases h : (TokenSource.next w.source).1.kind = .eof
  · simp [weight, h]; omega
  · simp [weight, h]; have := hlt h; omega

theorem advance_size_le (w : Window σ) : w.advance.size ≤ w.size := by
  have := w.advance_size; omega

theorem advance_size_lt {w : Window σ} (h : w.current.kind ≠ .eof) : w.advance.size < w.size := by
  have := w.advance_size
  rw [weight, if_neg h] at this
  omega

theorem kind_ne_eof_of_op {k : TokenKind} {op : PrefixOp} (h : PrefixOp.ofKind? k = some op) :
    k ≠ .eof := by
  rintro rfl; simp [PrefixOp.ofKind?] at h

/-- The run of prefix operators at the current token, after those in `done`. -/
def operatorsAfter (done : Array (Token × PrefixOp)) (w : Window σ) :
    Array (Token × PrefixOp) × Window σ :=
  match _h : PrefixOp.ofKind? w.current.kind with
  | some op => operatorsAfter (done.push (w.current, op)) w.advance
  | none => (done, w)
termination_by w.size
decreasing_by exact advance_size_lt (kind_ne_eof_of_op _h)

def nameOf (t : Token) : Except ParseFault Identifier :=
  if t.kind = .ident then .ok ⟨t, t.literal⟩ else .error (.expected .ident t)

def integerOf (t : Token) : Except ParseFault Expr :=
  if t.kind ≠ .int then .error (.expected .int t)
  else
    match Number.int64? t.literal.toList with
    | some value => .ok (.int t value)
    | none => .error (.intRange t.literal)

def operand (t : Token) : Except ParseFault Expr :=
  match t.kind with
  | .ident => (nameOf t).map .ident
  | .int => integerOf t
  | _ => .error (.expectedExpression t)

theorem nameOf_of_ident {t : Token} (h : t.kind = .ident) : nameOf t = .ok ⟨t, t.literal⟩ :=
  if_pos h

def applyOps (ops : List (Token × PrefixOp)) (e : Expr) : Expr :=
  ops.foldr (fun (t, op) operand => .prefixed t op operand) e

/-- Reads an expression; the window stays on its last token. Too long a run of operators is one
fault, whatever the operand is. -/
def expression (w : Window σ) : Except ParseFault Expr × Window σ :=
  let (ops, w') := w.operatorsAfter #[]
  if ops.size > maxPrefixDepth then (.error (.tooDeep ops.size), w')
  else ((operand w'.current).map (applyOps ops.toList), w')

/-- Ends a statement: a semicolon belongs to it, and may be missing where the policy says so. -/
def finish (policy : SemicolonPolicy) (s : Statement) (w : Window σ) :
    Except ParseFault Statement × Window σ :=
  if w.peek.kind = .semicolon then (.ok s, w.advance)
  else
    match policy with
    | .required => (.error (.expected .semicolon w.peek), w)
    | .optional => (.ok s, w)

def finishWith (policy : SemicolonPolicy) (make : Expr → Statement) (w : Window σ) :
    Except ParseFault Statement × Window σ :=
  match w.expression with
  | (.ok value, w') => finish policy (make value) w'
  | (.error fault, w') => (.error fault, w')

/-- A name, an equals sign and an expression after the current token. -/
def letStatement (policy : SemicolonPolicy) (w : Window σ) :
    Except ParseFault Statement × Window σ :=
  if w.peek.kind ≠ .ident then (.error (.expected .ident w.peek), w)
  else
    let atName := w.advance
    match nameOf atName.current with
    | .error fault => (.error fault, atName)
    | .ok name =>
      if atName.peek.kind ≠ .assign then (.error (.expected .assign atName.peek), atName)
      else finishWith policy (.letStmt w.current name) atName.advance.advance

/-- Reads the statement at the current token; the window stays on the last token that belongs to
it or to its error. -/
def statement (policies : Policies) (w : Window σ) : Except ParseError Statement × Window σ :=
  let kind := StatementKind.ofToken w.current.kind
  let policy := policies.ofKind kind
  let (result, w') :=
    match kind with
    | .letStmt => letStatement policy w
    | .returnStmt => finishWith policy (.returnStmt w.current) w.advance
    | .exprStmt => finishWith policy (.exprStmt w.current) w
  (result.mapError (ParseError.mk kind), w')

theorem operatorsAfter_advance_size_le (done : Array (Token × PrefixOp)) (w : Window σ) :
    (w.operatorsAfter done).2.advance.size ≤ w.advance.size := by
  fun_induction operatorsAfter done w with
  | case1 done w op h ih => exact Nat.le_trans ih (advance_size_le _)
  | case2 done w h => exact Nat.le_refl _

theorem expression_advance_size_le (w : Window σ) :
    w.expression.2.advance.size ≤ w.advance.size := by
  have := operatorsAfter_advance_size_le #[] w
  unfold expression
  split
  next ops w' h =>
    rw [h] at this
    split <;> exact this

theorem finish_advance_size_le (policy : SemicolonPolicy) (s : Statement) (w : Window σ) :
    (finish policy s w).2.advance.size ≤ w.advance.size := by
  unfold finish
  split
  · exact advance_size_le _
  · split <;> exact Nat.le_refl _

theorem finishWith_advance_size_le (policy : SemicolonPolicy) (make : Expr → Statement)
    (w : Window σ) : (finishWith policy make w).2.advance.size ≤ w.advance.size := by
  have := w.expression_advance_size_le
  unfold finishWith
  split
  · next value w' h =>
    rw [h] at this
    exact Nat.le_trans (finish_advance_size_le _ _ _) this
  · next fault w' h => rw [h] at this; exact this

theorem letStatement_advance_size_le (policy : SemicolonPolicy) (w : Window σ) :
    (letStatement policy w).2.advance.size ≤ w.advance.size := by
  unfold letStatement
  split
  · exact Nat.le_refl _
  · dsimp only
    split
    · exact advance_size_le _
    · split
      · exact advance_size_le _
      · refine Nat.le_trans (finishWith_advance_size_le _ _ _) ?_
        exact Nat.le_trans (advance_size_le _) (Nat.le_trans (advance_size_le _) (advance_size_le _))

theorem statement_advance_size_le (policies : Policies) (w : Window σ) :
    (statement policies w).2.advance.size ≤ w.advance.size := by
  unfold statement
  cases h : StatementKind.ofToken w.current.kind
  · exact letStatement_advance_size_le _ _
  · exact Nat.le_trans (finishWith_advance_size_le _ _ _) (advance_size_le _)
  · exact finishWith_advance_size_le _ _ _

/-- The results of the statements up to the end of input, after those in `done`. -/
def outcomesAfter (policies : Policies) (done : Array (Except ParseError Statement))
    (w : Window σ) : Array (Except ParseError Statement) × Window σ :=
  if _h : w.current.kind = .eof then (done, w)
  else
    outcomesAfter policies (done.push (statement policies w).1) (statement policies w).2.advance
termination_by w.size
decreasing_by
  exact Nat.lt_of_le_of_lt (statement_advance_size_le policies w) (advance_size_lt _h)

/-- One result for each statement up to the end of input, in order. -/
def outcomes (policies : Policies) (w : Window σ) :
    List (Except ParseError Statement) × Window σ :=
  let (done, w') := outcomesAfter policies #[] w
  (done.toList, w')

end Window

def statementsOf (results : List (Except ParseError Statement)) : List Statement :=
  results.filterMap fun
    | .ok s => some s
    | .error _ => none

def errorsOf (results : List (Except ParseError Statement)) : List ParseError :=
  results.filterMap fun
    | .ok _ => none
    | .error e => some e

@[simp] theorem statementsOf_nil : statementsOf [] = [] := rfl

@[simp] theorem statementsOf_ok_cons (s : Statement) (results : List (Except ParseError Statement)) :
    statementsOf (.ok s :: results) = s :: statementsOf results := rfl

@[simp] theorem statementsOf_error_cons (e : ParseError)
    (results : List (Except ParseError Statement)) :
    statementsOf (.error e :: results) = statementsOf results := rfl

@[simp] theorem errorsOf_nil : errorsOf [] = [] := rfl

@[simp] theorem errorsOf_ok_cons (s : Statement) (results : List (Except ParseError Statement)) :
    errorsOf (.ok s :: results) = errorsOf results := rfl

@[simp] theorem errorsOf_error_cons (e : ParseError)
    (results : List (Except ParseError Statement)) :
    errorsOf (.error e :: results) = e :: errorsOf results := rfl

theorem statementsOf_append (results results' : List (Except ParseError Statement)) :
    statementsOf (results ++ results') = statementsOf results ++ statementsOf results' :=
  List.filterMap_append

theorem errorsOf_append (results results' : List (Except ParseError Statement)) :
    errorsOf (results ++ results') = errorsOf results ++ errorsOf results' :=
  List.filterMap_append

theorem length_statementsOf_add_errorsOf (results : List (Except ParseError Statement)) :
    (statementsOf results).length + (errorsOf results).length = results.length := by
  induction results with
  | nil => rfl
  | cons outcome results ih =>
    cases outcome <;> simp only [statementsOf_ok_cons, statementsOf_error_cons, errorsOf_ok_cons,
      errorsOf_error_cons, List.length_cons] <;> omega

/-- A program, which lacks the statements that are recorded as errors. -/
structure Parsed where
  program : Program
  errors : List ParseError
  deriving DecidableEq, Repr

def Parsed.isOk (p : Parsed) : Bool := p.errors.isEmpty

/-- A window, the policies, and the errors recorded so far. -/
structure Parser (σ : Type) where
  window : Window σ
  policies : Policies
  errors : List ParseError := []

namespace Parser

variable {σ : Type} [TokenSource σ]

def ofSource (source : σ) (policies : Policies := {}) : Parser σ :=
  ⟨Window.ofSource source, policies, []⟩

def nextToken (p : Parser σ) : Parser σ := { p with window := p.window.advance }

def parseProgram (p : Parser σ) : Program × Parser σ :=
  let (results, window) := p.window.outcomes p.policies
  (⟨statementsOf results⟩, { p with window, errors := p.errors ++ errorsOf results })

def parse (p : Parser σ) : Parsed :=
  let (program, p') := p.parseProgram
  ⟨program, p'.errors⟩

end Parser

def parse (text : String) (policies : Policies := {}) : Parsed :=
  (Parser.ofSource (Lexer.ofString text) policies).parse

end LetLang
