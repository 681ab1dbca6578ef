import LetLang.Shell
import LetLang.Proofs.Octets

/-! Lines: a list is cut after each newline, and only the last line may lack one. A text may be cut
before or after it is encoded, so the lines that a session reads are the lines of the text. -/

namespace LetLang

section

variable {α : Type} {stop : α → Bool}

/-- A list cut after each of its elements at which `stop` holds. -/
def cutAfter (stop : α → Bool) (l : List α) : List (List α) := l.splitBy fun a _ => !stop a

theorem isChain_of_dropLast {l : List α} (h : ∀ a ∈ l.dropLast, stop a = false) :
    l.IsChain fun a _ => (!stop a) = true := by
  induction l with
  | nil => exact .nil
  | cons a l ih =>
    cases l with
    | nil => exact .singleton a
    | cons b l =>
      rw [List.dropLast_cons_cons, List.forall_mem_cons] at h
      rw [List.isChain_cons_cons, Bool.not_eq_true']
      exact ⟨h.1, ih h.2⟩

theorem cutAfter_open {l : List α} (hne : l ≠ []) (h : ∀ a ∈ l, stop a = false) :
    cutAfter stop l = [l] :=
  List.splitBy_of_isChain hne (isChain_of_dropLast fun a ha => h a (List.mem_of_mem_dropLast ha))

theorem cutAfter_closed {l : List α} {a : α} (h : ∀ b ∈ l, stop b = false) (ha : stop a = true)
    (rest : List α) : cutAfter stop (l ++ a :: rest) = (l ++ [a]) :: cutAfter stop rest := by
  have hpiece : cutAfter stop (l ++ [a]) = [l ++ [a]] := by
    apply List.splitBy_of_isChain (by simp)
    apply isChain_of_dropLast
    rwa [List.dropLast_concat]
  rw [List.append_cons, cutAfter, List.splitBy_append (by simp [ha])]
  exact congrArg (· ++ _) hpiece

theorem cutAfter_of_mem {l piece : List α} (h : piece ∈ cutAfter stop l) :
    cutAfter stop piece = [piece] :=
  List.splitBy_of_isChain (List.ne_nil_of_mem_splitBy h) (List.isChain_of_mem_splitBy h)

/-- A list is made of pieces with their stops, and perhaps a last piece without one. -/
theorem cut_induction (stop : α → Bool) {motive : List α → Prop} (empty : motive [])
    (opened : ∀ l, l ≠ [] → (∀ a ∈ l, stop a = false) → motive l)
    (closed : ∀ l a rest, (∀ b ∈ l, stop b = false) → stop a = true → motive rest →
      motive (l ++ a :: rest)) (l : List α) : motive l := by
  induction hn : l.length using Nat.strongRecOn generalizing l with
  | _ n ih =>
    have hfront : ∀ a ∈ l.takeWhile (!stop ·), stop a = false := by
      intro a ha
      simpa using List.mem_takeWhile_imp ha
    have hsplit : l.takeWhile (!stop ·) ++ l.dropWhile (!stop ·) = l :=
      List.takeWhile_append_dropWhile
    cases hrest : l.dropWhile (!stop ·) with
    | nil =>
      rw [hrest, List.append_nil] at hsplit
      rw [hsplit] at hfront
      by_cases hne : l = []
      · exact hne ▸ empty
      · exact opened l hne hfront
    | cons a rest =>
      have ha : stop a = true := by
        simpa [hrest] using List.head?_dropWhile_not (!stop ·) l
      rw [hrest] at hsplit
      rw [← hsplit, List.length_append, List.length_cons] at hn
      rw [← hsplit]
      exact closed _ a rest hfront ha (ih rest.length (by omega) rest rfl)

end

theorem beq_eq_false_of_notMem {α : Type} [DecidableEq α] {l : List α} {a : α} (h : a ∉ l) :
    ∀ b ∈ l, (b == a) = false := by
  intro b hb
  rw [beq_eq_false_iff_ne]
  rintro rfl
  exact h hb

namespace Shell

def lines (input : List UInt8) : List (List UInt8) := cutAfter (· == 10) input

theorem firstLine_open {line : List UInt8} (h : ∀ b ∈ line, (b == 10) = false) :
    firstLine line = line ∧ afterLine line = [] := by
  have hline : ∀ b ∈ line, (b != 10) = true := fun b hb => by simpa using h b hb
  rw [firstLine, afterLine, List.takeWhile_eq_self_iff.2 hline, List.dropWhile_eq_nil_iff.2 hline]
  simp

theorem firstLine_closed {line : List UInt8} (h : ∀ b ∈ line, (b == 10) = false)
    (rest : List UInt8) :
    firstLine (line ++ 10 :: rest) = line ++ [10] ∧ afterLine (line ++ 10 :: rest) = rest := by
  have hline : ∀ b ∈ line, (b != 10) = true := fun b hb => by simpa using h b hb
  rw [firstLine, afterLine, List.takeWhile_append_of_pos hline, List.dropWhile_append_of_pos hline]
  simp

theorem lines_eq_cons {input : List UInt8} (h : input ≠ []) :
    lines input = firstLine input :: lines (afterLine input) := by
  induction input using cut_induction (fun b : UInt8 => b == 10) with
  | empty => exact absurd rfl h
  | opened line hne hline =>
    obtain ⟨hfirst, hafter⟩ := firstLine_open hline
    rw [hfirst, hafter, lines, cutAfter_open hne hline]
    rfl
  | closed line b rest hline hb =>
    obtain rfl : b = 10 := beq_iff_eq.1 hb
    obtain ⟨hfirst, hafter⟩ := firstLine_closed hline rest
    rw [hfirst, hafter, lines, cutAfter_closed hline hb, lines]

theorem flatten_lines (input : List UInt8) : (lines input).flatten = input :=
  List.flatten_splitBy ..

end Shell

namespace Text

def lines (text : String) : List String :=
  (cutAfter (· == '\n') text.toList).map String.ofList

theorem newline_notMem_flatMap {l : List Char} (h : ∀ c ∈ l, (c == '\n') = false) :
    ∀ b ∈ l.flatMap String.utf8EncodeChar, (b == 10) = false := by
  apply beq_eq_false_of_notMem
  intro hmem
  obtain ⟨c, hc, hb⟩ := List.mem_flatMap.1 hmem
  simpa [newline_mem_utf8EncodeChar.1 hb] using h c hc

theorem cutAfter_utf8EncodeChar (l : List Char) :
    cutAfter (· == 10) (l.flatMap String.utf8EncodeChar) =
      (cutAfter (· == '\n') l).map (List.flatMap String.utf8EncodeChar) := by
  induction l using cut_induction (fun c : Char => c == '\n') with
  | empty => rfl
  | opened l hne hl =>
    have hne' : l.flatMap String.utf8EncodeChar ≠ [] := by
      obtain ⟨c, rest, rfl⟩ := List.exists_cons_of_ne_nil hne
      simp [List.flatMap_cons, String.utf8EncodeChar_ne_nil]
    rw [cutAfter_open hne hl, cutAfter_open hne' (newline_notMem_flatMap hl)]
    rfl
  | closed l c rest hl hc ih =>
    obtain rfl : c = '\n' := beq_iff_eq.1 hc
    have hnewline : String.utf8EncodeChar '\n' = [10] := by decide
    rw [cutAfter_closed hl hc, List.flatMap_append, List.flatMap_cons, hnewline,
      List.singleton_append, cutAfter_closed (newline_notMem_flatMap hl) rfl, ih, List.map_cons,
      List.flatMap_append, List.flatMap_singleton, hnewline]

theorem lines_toUTF8 (text : String) :
    Shell.lines text.toUTF8.toList = (lines text).map fun line => line.toUTF8.toList := by
  rw [toUTF8_toList, Shell.lines, cutAfter_utf8EncodeChar, lines, List.map_map]
  refine List.map_congr_left fun l _ => ?_
  rw [Function.comp_apply, toUTF8_toList, String.toList_ofList]

theorem lines_empty : lines "" = [] := by decide

theorem lines_open {line : String} (hne : line ≠ "") (h : '\n' ∉ line.toList) :
    lines line = [line] := by
  have hne' : line.toList ≠ [] := by simpa using hne
  rw [lines, cutAfter_open hne' (beq_eq_false_of_notMem h), List.map_singleton,
    String.ofList_toList]

theorem lines_closed {line : String} (h : '\n' ∉ line.toList) (rest : String) :
    lines (line ++ "\n" ++ rest) = (line ++ "\n") :: lines rest := by
  have htext : (line ++ "\n" ++ rest).toList = line.toList ++ '\n' :: rest.toList := by
    simp
  rw [lines, htext, cutAfter_closed (beq_eq_false_of_notMem h) rfl, List.map_cons, lines]
  simp [String.ofList_append]

/-- A text is made of lines that are closed, and perhaps a last one that is open. -/
theorem lines_induction {motive : String → Prop} (empty : motive "")
    (opened : ∀ line, line ≠ "" → '\n' ∉ line.toList → motive line)
    (closed : ∀ line rest, '\n' ∉ line.toList → motive rest → motive (line ++ "\n" ++ rest))
    (text : String) : motive text := by
  have hnewline {l : List Char} (h : ∀ c ∈ l, (c == '\n') = false) : '\n' ∉ l :=
    fun hmem => absurd (h _ hmem) (by decide)
  rw [← String.ofList_toList (s := text)]
  induction text.toList using cut_induction (fun c : Char => c == '\n') with
  | empty => exact empty
  | opened l hne hl =>
    exact opened _ (by simpa using hne) (by rw [String.toList_ofList]; exact hnewline hl)
  | closed l c rest hl hc ih =>
    obtain rfl : c = '\n' := beq_iff_eq.1 hc
    have h := closed (String.ofList l) _ (by rw [String.toList_ofList]; exact hnewline hl) ih
    have htext : String.ofList (l ++ '\n' :: rest) = String.ofList l ++ "\n" ++ String.ofList rest := by
      rw [List.append_cons, String.ofList_append, String.ofList_append]
    rwa [htext]

theorem lines_append {front : String} (hfront : '\n' ∉ front.toList) {text : String}
    (hne : text ≠ "") :
    ∃ line others, lines text = line :: others ∧ lines (front ++ text) = (front ++ line) :: others := by
  induction text using lines_induction with
  | empty => exact absurd rfl hne
  | opened line hne hline =>
    refine ⟨line, [], lines_open hne hline, lines_open ?_ ?_⟩
    · simp [hne]
    · simp [hfront, hline]
  | closed line rest hline =>
    refine ⟨line ++ "\n", lines rest, lines_closed hline rest, ?_⟩
    have hboth : '\n' ∉ (front ++ line).toList := by simp [hfront, hline]
    rw [← String.append_assoc, ← String.append_assoc, lines_closed hboth, String.append_assoc]

theorem lines_join {texts : List String} (h : ∀ text ∈ texts, '\n' ∉ text.toList) :
    lines (String.join (texts.map fun text => text ++ "\n")) = texts.map fun text => text ++ "\n" := by
  induction texts with
  | nil => exact lines_empty
  | cons text texts ih =>
    obtain ⟨htext, htexts⟩ := List.forall_mem_cons.1 h
    rw [List.map_cons, String.join_cons, lines_closed htext, ih htexts]

end Text

end LetLang
