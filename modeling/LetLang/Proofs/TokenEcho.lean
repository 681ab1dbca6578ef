import LetLang.Proofs.EchoRoundTrip

/-! Sessions in which tokens are shown. An echoed token takes one line, and no token reaches over the
end of a line, so a session that lexes line by line shows the tokens of the whole text. -/

namespace LetLang

namespace Text

theorem notMem_toDigits {base : Nat} (hbase : 1 < base) {c : Char}
    (hc : ∀ d, Nat.digitChar d ≠ c) (n : Nat) : c ∉ Nat.toDigits base n := by
  induction n using Nat.strongRecOn with
  | ind n ih =>
    rw [Nat.toDigits_eq_if hbase]
    split
    · simpa using (hc n).symm
    · next hle =>
      have hlt : n / base < n := Nat.div_lt_self (by omega) hbase
      simpa [ih _ hlt] using (hc (n % base)).symm

theorem newline_notMem_escape (shown : Char → Bool) (c : Char) : '\n' ∉ escape shown c := by
  unfold escape
  split
  case h_7 _ _ hnewline _ _ _ =>
    split
    · simpa using fun h => hnewline h.symm
    · have hdigits := notMem_toDigits (by decide : 1 < 16)
        (fun d => Nat.digitChar_ne (n := d) '\n' (by decide)) c.toNat
      simp [numericEscape, hdigits]
  all_goals decide

theorem newline_notMem_quoteWith (shown : Char → Bool) (text : List Char) :
    '\n' ∉ quoteWith shown text := by
  simp [quoteWith, newline_notMem_escape]

end Text

namespace Token

/-- The echo of a token if `shown` says which characters stand for themselves in its literal. -/
def echoWith (shown : Char → Bool) (t : Token) : String :=
  "Token \x7b kind: " ++ t.kind.name ++ ", literal: " ++
    String.ofList (Text.quoteWith shown t.literal.toList) ++ " \x7d"

theorem echoWith_eq (shown : Char → Bool) (t : Token) : t.echoWith shown =
    "Token \x7b kind: " ++ t.kind.name ++ ", literal: " ++
      String.ofList (Text.quoteWith shown t.literal.toList) ++ " \x7d" :=
  rfl

theorem echoWith_isShown (t : Token) : t.echoWith Text.isShown = t.echo := rfl

theorem newline_notMem_echoWith (shown : Char → Bool) (t : Token) :
    '\n' ∉ (t.echoWith shown).toList := by
  have hname : '\n' ∉ t.kind.name.toList := by cases t.kind <;> decide
  rw [echoWith_eq]
  simp [hname, Text.newline_notMem_quoteWith]

theorem newline_notMem_echo (t : Token) : '\n' ∉ t.echo.toList :=
  t.newline_notMem_echoWith Text.isShown

end Token

theorem tokens_takeWhile_lines (p : String → Bool) (text : String) :
    tokens (String.join ((Text.lines text).takeWhile p)) =
      ((Text.lines text).takeWhile p).flatMap tokens := by
  induction text using Text.lines_induction with
  | empty => rw [Text.lines_empty]; exact tokens_empty
  | opened line hne hline =>
    rw [Text.lines_open hne hline]
    cases hp : p line <;> simp [hp, tokens_empty]
  | closed line rest hline ih =>
    rw [Text.lines_closed hline]
    cases hp : p (line ++ "\n") with
    | false => simp [hp, tokens_empty]
    | true =>
      have halone : tokens (line ++ "\n") = tokens line := by
        have h := tokens_append_newline line ""
        rwa [String.append_empty, tokens_empty, List.append_nil] at h
      rw [List.takeWhile_cons_of_pos hp, String.join_cons, tokens_append_newline, ih,
        List.flatMap_cons, halone]

namespace Shell

def unprompted : List Char → List Char
  | '>' :: '>' :: ' ' :: rest => unprompted rest
  | line => line

/-- The lines of an output, without the prompts at their starts. -/
def shownLines (output : String) : List String :=
  (Text.lines output).map fun line => String.ofList (unprompted line.toList)

theorem shownLines_prompt {output : String} (hne : output ≠ "") :
    shownLines (prompt ++ output) = shownLines output := by
  have hprompt : '\n' ∉ prompt.toList := by decide
  obtain ⟨line, others, hlines, happend⟩ := Text.lines_append hprompt hne
  have hline : unprompted (prompt ++ line).toList = unprompted line.toList := by
    rw [String.toList_append]
    rfl
  rw [shownLines, shownLines, happend, hlines, List.map_cons, List.map_cons, hline]

theorem shownLines_echo (t : Token) (output : String) :
    shownLines (t.echo ++ "\n" ++ output) = (t.echo ++ "\n") :: shownLines output := by
  have hline : unprompted (t.echo ++ "\n").toList = (t.echo ++ "\n").toList := by
    rw [← Token.echoWith_isShown, Token.echoWith_eq]
    simp [unprompted]
  rw [shownLines, Text.lines_closed t.newline_notMem_echo, List.map_cons, hline,
    String.ofList_toList, shownLines]

theorem shownLines_tokenLines (ts : List Token) (output : String) :
    shownLines (String.join (tokenLines ts) ++ output) = tokenLines ts ++ shownLines output := by
  induction ts with
  | nil => simp [tokenLines]
  | cons t ts ih =>
    rw [tokenLines, List.map_cons, String.join_cons, String.append_assoc, shownLines_echo,
      ← tokenLines, ih, List.cons_append]

theorem shownLines_tokens (lines : List (List Token)) :
    shownLines (String.join (lines.map fun ts => prompt ++ String.join (tokenLines ts)) ++ prompt ++
      farewell) = tokenLines lines.flatten ++ [farewell] := by
  induction lines with
  | nil => decide
  | cons ts lines ih =>
    have houtput : String.join ((ts :: lines).map fun ts => prompt ++ String.join (tokenLines ts)) ++
        prompt ++ farewell = prompt ++ (String.join (tokenLines ts) ++
          (String.join (lines.map fun ts => prompt ++ String.join (tokenLines ts)) ++ prompt ++
            farewell)) := by
      rw [List.map_cons, String.join_cons]
      simp only [String.append_assoc]
    rw [houtput, shownLines_prompt (by simp [farewell]), shownLines_tokenLines, ih,
      List.flatten_cons, tokenLines, tokenLines, tokenLines, List.map_append, List.append_assoc]

/-- The lines that a session shows, without their prompts, are those of the tokens of the text up to
its first exit line, and the farewell. -/
theorem run_tokens_text (policies : Policies) (text : String) :
    let before := String.join ((Text.lines text).takeWhile (!isExit ·))
    ∃ output : String,
      (run .tokens policies {} text.toUTF8.toList).sink.written.toList = output.toUTF8.toList ∧
        shownLines output = (tokens before).map (fun t => t.echo ++ "\n") ++ ["Bye!\n"] := by
  intro before
  have hsink : Sink.Unlimited {} := ⟨rfl, rfl⟩
  let texts := (Text.lines text).takeWhile (!isExit ·)
  have hbefore : tokens before = (texts.map tokens).flatten := by
    rw [tokens_takeWhile_lines, List.flatMap_def]
  have hrun := session_of_texts hsink (reply .tokens policies) (Text.lines_toUTF8 text)
  have hshown := shownLines_tokens (texts.map tokens)
  rw [← hbefore, List.map_map] at hshown
  refine ⟨_, ?_, hshown⟩
  rw [run, hrun]
  simp only [Sink.wrote, Array.toList_appendList, List.nil_append]
  rfl

example : (run .tokens {} {} "exit\r\n1".toUTF8.toList).sink.written =
    ">> Bye!\n".toUTF8.data := by cbv

end Shell

end LetLang
