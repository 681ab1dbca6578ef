import LetLang.Proofs.Script

/-! Sessions with a writer that never fails. Each line up to the one that ends the session is
answered by what it would be answered alone, after a prompt of its own; the farewell comes after the
last prompt, unless the line there is no text. -/

namespace LetLang

/-- Nothing keeps the sink from taking more. -/
structure Sink.Unlimited (s : Sink) : Prop where
  room : s.room = none
  flushes : s.flushes = none

namespace Sink

def wrote (s : Sink) (text : String) : Sink :=
  { s with written := s.written ++ text.toUTF8.toList }

theorem wrote_empty (s : Sink) : s.wrote "" = s := by
  simp [wrote]

theorem wrote_wrote (s : Sink) (text text' : String) :
    (s.wrote text).wrote text' = s.wrote (text ++ text') := by
  have hwritten : s.written ++ text.toUTF8.toList ++ text'.toUTF8.toList =
      s.written ++ (text ++ text').toUTF8.toList := by
    apply Array.ext'
    simp only [Array.toList_appendList, Text.toUTF8_toList_append, List.append_assoc]
  simp only [wrote, hwritten]

theorem Unlimited.wrote {s : Sink} (h : s.Unlimited) (text : String) :
    (s.wrote text).Unlimited :=
  ⟨h.room, h.flushes⟩

theorem Unlimited.write_eq {s : Sink} (h : s.Unlimited) (text : String) :
    s.write text = (.ok (), s.wrote text) := by
  rw [write, writeBytes, h.room]
  simp only [Sink.wrote, h.room]

theorem Unlimited.flush_eq {s : Sink} (h : s.Unlimited) : s.flush = (.ok (), s) := by
  rw [flush, h.flushes]

theorem Unlimited.play_eq {s : Sink} (h : s.Unlimited) (verdict : Except ShellFault Unit)
    (steps : List Step) :
    s.play verdict steps = ⟨verdict, s.wrote (output steps), steps.count .flush⟩ := by
  induction steps generalizing s with
  | nil =>
    rw [play, output_nil, wrote_empty, List.count_nil]
  | cons step steps ih =>
    cases step with
    | write text =>
      rw [play, h.write_eq, output_cons]
      simp [ih (h.wrote text), wrote_wrote, Step.text]
    | flush =>
      rw [play, h.flush_eq, output_cons]
      simp [ih h, Step.text]

end Sink

namespace Shell

theorem output_answering (reply : String → List String) (text : String) :
    output (answering reply text) = prompt ++ String.join (reply text) := by
  rw [answering, output_append, output_map_write]
  rfl

theorem output_flatMap_answering (reply : String → List String) (texts : List String) :
    output (texts.flatMap (answering reply)) =
      String.join (texts.map fun text => prompt ++ String.join (reply text)) := by
  induction texts with
  | nil => rfl
  | cons text texts ih =>
    rw [List.flatMap_cons, output_append, output_answering, ih, List.map_cons, String.join_cons]

theorem output_script (reply : String → List String) (ls : List (List UInt8)) :
    output (script reply ls) =
      String.join ((answered ls).map fun text => prompt ++ String.join (reply text)) ++ prompt ++
        output (closing (ls.dropWhile (!stops ·))) := by
  rw [script, output_append, output_append, output_flatMap_answering]
  rfl

theorem count_flush_answering (reply : String → List String) (texts : List String) :
    (texts.flatMap (answering reply)).count .flush = texts.length := by
  have hwrites (text : String) : ((reply text).map Step.write).count .flush = 0 := by
    simp [List.count_eq_zero]
  induction texts with
  | nil => rfl
  | cons text texts ih =>
    rw [List.flatMap_cons, List.count_append, ih, answering, List.count_append, hwrites,
      List.length_cons]
    exact Nat.add_comm 1 _

theorem count_flush_script (reply : String → List String) (ls : List (List UInt8)) :
    (script reply ls).count .flush = (answered ls).length + 1 := by
  have hclosing (left : List (List UInt8)) : (closing left).count .flush = 0 := by
    unfold closing
    split
    · rfl
    · split <;> rfl
  rw [script, List.count_append, List.count_append, count_flush_answering, hclosing]
  rfl

theorem stops_toUTF8 (text : String) : stops text.toUTF8.toList = isExit text := by
  rw [stops, text?, Text.fromUTF8?_toUTF8]
  rfl

theorem takeWhile_eq_map_answered (ls : List (List UInt8)) :
    ls.takeWhile (!stops ·) = (answered ls).map fun text => text.toUTF8.toList := by
  induction ls with
  | nil => rfl
  | cons line ls ih =>
    cases hstops : stops line with
    | true => simp [answered, hstops]
    | false =>
      cases htext : text? line with
      | none => simp [stops, htext] at hstops
      | some text =>
        have hexit : isExit text = false := by simpa [stops, htext] using hstops
        rw [answered_cons htext hexit, List.takeWhile_cons_of_pos (by simp [hstops]), ih,
          List.map_cons, Text.toUTF8_of_fromUTF8? htext]

theorem drop_length_answered (ls : List (List UInt8)) :
    ls.drop ((answered ls).length + 1) = (ls.dropWhile (!stops ·)).tail := by
  have hlength : (answered ls).length = (ls.takeWhile (!stops ·)).length := by
    rw [takeWhile_eq_map_answered, List.length_map]
  calc ls.drop ((answered ls).length + 1)
      = ((ls.takeWhile (!stops ·) ++ ls.dropWhile (!stops ·)).drop (answered ls).length).drop 1 := by
        rw [List.takeWhile_append_dropWhile, List.drop_drop]
    _ = (ls.dropWhile (!stops ·)).tail := by rw [List.drop_left' hlength.symm, List.drop_one]

variable {sink : Sink}

theorem session_eq (h : sink.Unlimited) (reply : String → List String) (input : List UInt8) :
    session reply sink input =
      ⟨verdict (lines input), sink.wrote (output (script reply (lines input))),
        ((lines input).dropWhile (!stops ·)).tail.flatten⟩ := by
  rw [session_eq_play, h.play_eq, count_flush_script]
  simp only [drop_length_answered]

/-- A session over lines that are texts. -/
theorem session_of_texts (h : sink.Unlimited) (reply : String → List String) {input : List UInt8}
    {texts : List String} (hlines : lines input = texts.map fun text => text.toUTF8.toList) :
    session reply sink input =
      ⟨.ok (), sink.wrote (String.join ((texts.takeWhile (!isExit ·)).map fun text =>
        prompt ++ String.join (reply text)) ++ prompt ++ farewell),
        ((texts.dropWhile (!isExit ·)).tail.map fun text => text.toUTF8.toList).flatten⟩ := by
  have hstops : ((!stops ·) ∘ fun text : String => text.toUTF8.toList) = fun text => !isExit text :=
    funext fun text => congrArg (!·) (stops_toUTF8 text)
  have htext : (text? ∘ fun text : String => text.toUTF8.toList) = some :=
    funext fun text => Text.fromUTF8?_toUTF8 text
  have hanswered : answered (lines input) = texts.takeWhile (!isExit ·) := by
    rw [hlines, answered, List.takeWhile_map, hstops, List.filterMap_map, htext,
      List.filterMap_some]
  have hleft : (lines input).dropWhile (!stops ·) =
      (texts.dropWhile (!isExit ·)).map fun text => text.toUTF8.toList := by
    rw [hlines, List.dropWhile_map, hstops]
  rw [session_eq h, output_script, hanswered, verdict, hleft]
  cases texts.dropWhile (!isExit ·) with
  | nil => rfl
  | cons text left =>
    have hsome : (text? text.toUTF8.toList).isSome = true := by
      rw [text?, Text.fromUTF8?_toUTF8]
      rfl
    simp only [List.map_cons, closing, hsome, if_true, List.tail_cons]
    rfl

/-- A session over texts, each on its line, of which none is an exit line. -/
theorem session_lines {mode : Mode} {policies : Policies} (h : sink.Unlimited) {texts : List String}
    (htexts : ∀ text ∈ texts, '\n' ∉ text.toList ∧ isExit (text ++ "\n") = false) :
    session (reply mode policies) sink
        (String.join (texts.map fun text => text ++ "\n")).toUTF8.toList =
      ⟨.ok (), sink.wrote (String.join (texts.map fun text =>
        prompt ++ echo mode policies (text ++ "\n")) ++ prompt ++ farewell), []⟩ := by
  have hlines := Text.lines_toUTF8 (String.join (texts.map fun text => text ++ "\n"))
  rw [Text.lines_join fun text htext => (htexts text htext).1] at hlines
  have hgoesOn : ∀ line ∈ texts.map fun text => text ++ "\n", (!isExit line) = true := by
    rw [List.forall_mem_map]
    intro text htext
    simp [(htexts text htext).2]
  rw [session_of_texts h _ hlines, List.takeWhile_eq_self_iff.2 hgoesOn,
    List.dropWhile_eq_nil_iff.2 hgoesOn, List.map_map]
  rfl

/-- Each line of a session is answered by what it would be answered if it were the only one. The
session goes on up to the first line that is no text or an exit line, and leaves what comes after
that line unread. -/
theorem run_eq_lines (mode : Mode) (policies : Policies) (input : List UInt8) :
    let before := (lines input).takeWhile (!stops ·)
    let left := (lines input).dropWhile (!stops ·)
    ∃ texts : List String, before = texts.map (fun text => text.toUTF8.toList) ∧
      (∀ text ∈ texts, run mode policies {} text.toUTF8.toList =
        ⟨.ok (), Sink.wrote {} (">> " ++ echo mode policies text ++ ">> Bye!\n"), []⟩) ∧
      run mode policies {} input =
        let shown := String.join (texts.map fun text => ">> " ++ echo mode policies text)
        match left with
        | [] => ⟨.ok (), Sink.wrote {} (shown ++ ">> Bye!\n"), []⟩
        | line :: after =>
          if (text? line).isSome then ⟨.ok (), Sink.wrote {} (shown ++ ">> Bye!\n"), after.flatten⟩
          else ⟨.error .notText, Sink.wrote {} (shown ++ ">> "), after.flatten⟩ := by
  intro before left
  have hsink : Sink.Unlimited {} := ⟨rfl, rfl⟩
  refine ⟨answered (lines input), takeWhile_eq_map_answered _, ?_, ?_⟩
  · intro text htext
    have hmem : text.toUTF8.toList ∈ before := by
      rw [show before = _ from takeWhile_eq_map_answered _]
      exact List.mem_map_of_mem htext
    have hline : lines text.toUTF8.toList = [text].map fun text => text.toUTF8.toList :=
      cutAfter_of_mem ((List.takeWhile_sublist _).subset hmem)
    have hexit : isExit text = false := by
      rw [← stops_toUTF8]
      simpa using List.mem_takeWhile_imp hmem
    rw [run, session_of_texts hsink (reply mode policies) hline]
    simp only [List.takeWhile_cons, hexit, List.dropWhile_cons, Bool.not_false, if_true,
      List.takeWhile_nil, List.dropWhile_nil, List.map_cons, List.map_nil, String.join_cons,
      String.join_nil, String.append_empty, String.append_assoc]
    rfl
  · simp only [run, session_eq hsink, output_script, verdict, left]
    cases (lines input).dropWhile (!stops ·) with
    | nil =>
      simp only [closing, String.append_assoc]
      rfl
    | cons line after =>
      cases hline : (text? line).isSome <;>
        simp only [closing, hline, String.append_assoc] <;> rfl

/-- White space at the end of an exit line does not count, but no other character is left out. -/
example : isExit "exit\r\n" = true ∧ isExit "exit \u3000\n" = true ∧ isExit " exit\n" = false ∧
    isExit "exit\x00\n" = false := by decide

end Shell

end LetLang
