import LetLang.Shell.Echo
import LetLang.Shell.Sink

/-!
The shell: it prompts, reads a line, writes what the line yields, and starts over, until the input
ends or a line says so. A line is read only after its prompt has been written and flushed.
-/

namespace LetLang.Text

/-- The characters with the property White_Space. -/
def isBlank (c : Char) : Bool :=
  let n := c.toNat
  (0x9 ≤ n && n ≤ 0xd) || n == 0x20 || n == 0x85 || n == 0xa0 || n == 0x1680 ||
    (0x2000 ≤ n && n ≤ 0x200a) || n == 0x2028 || n == 0x2029 || n == 0x202f || n == 0x205f ||
    n == 0x3000

def dropEndWhile (p : Char → Bool) (s : List Char) : List Char :=
  (s.reverse.dropWhile p).reverse

def trimEnd (s : List Char) : List Char := dropEndWhile isBlank s

end LetLang.Text

namespace LetLang.Shell

def prompt : String := ">> "

def farewell : String := "Bye!\n"

/-- The bytes up to the first newline, which is included. -/
def firstLine (input : List UInt8) : List UInt8 :=
  input.takeWhile (· != 10) ++ (input.dropWhile (· != 10)).take 1

def afterLine (input : List UInt8) : List UInt8 := (input.dropWhile (· != 10)).drop 1

theorem firstLine_append_afterLine (input : List UInt8) :
    firstLine input ++ afterLine input = input := by
  rw [firstLine, afterLine, List.append_assoc, List.take_append_drop,
    List.takeWhile_append_dropWhile]

theorem firstLine_ne_nil {input : List UInt8} (h : input ≠ []) : firstLine input ≠ [] := by
  cases input with
  | nil => exact absurd rfl h
  | cons b rest => by_cases hb : b = 10 <;> simp [firstLine, hb]

theorem afterLine_length_lt {input : List UInt8} (h : input ≠ []) :
    (afterLine input).length < input.length := by
  have hne := List.length_pos_iff.2 (firstLine_ne_nil h)
  have heq := congrArg List.length (firstLine_append_afterLine input)
  rw [List.length_append] at heq
  omega

/-- A line that ends the session: the word, and perhaps white space after it. -/
def isExit (line : String) : Bool := Text.trimEnd line.toList == "exit".toList

def ask (sink : Sink) : Except ShellFault Unit × Sink :=
  match sink.write prompt with
  | (.ok (), sink) => sink.flush
  | (.error fault, sink) => (.error fault, sink)

/-- How a session ends: its result, what was written, and the input that was not read. -/
structure Ending where
  result : Except ShellFault Unit
  sink : Sink
  unread : List UInt8

/-- The ending with a farewell. -/
def leave (sink : Sink) (unread : List UInt8) : Ending :=
  let (result, sink) := sink.write farewell
  ⟨result, sink, unread⟩

/-- Runs a session that answers each line of the input by the writes of its reply. -/
def session (reply : String → List String) (sink : Sink) (input : List UInt8) : Ending :=
  match ask sink with
  | (.error fault, sink) => ⟨.error fault, sink, input⟩
  | (.ok (), sink) =>
    if _h : input = [] then leave sink []
    else
      match String.fromUTF8? (firstLine input).toByteArray with
      | none => ⟨.error .notText, sink, afterLine input⟩
      | some line =>
        if isExit line then leave sink (afterLine input)
        else
          match sink.writeEach (reply line) with
          | (.error fault, sink) => ⟨.error fault, sink, afterLine input⟩
          | (.ok (), sink) => session reply sink (afterLine input)
termination_by input.length
decreasing_by exact afterLine_length_lt _h

def run (mode : Mode) (policies : Policies) (sink : Sink) (input : List UInt8) : Ending :=
  session (reply mode policies) sink input

end LetLang.Shell
