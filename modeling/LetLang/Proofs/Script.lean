import LetLang.Proofs.Lines

/-! Sessions as scripts: what a session does to its sink, step by step, as long as nothing fails.
The script depends on the lines of the input only. A session plays its script up to the first step
that fails, and has then read a line for each prompt that came through. -/

namespace LetLang

inductive Step where
  | write (text : String)
  | flush
  deriving DecidableEq

def Step.text : Step → String
  | write text => text
  | flush => ""

def output (steps : List Step) : String := String.join (steps.map Step.text)

/-- How far a script was played. -/
structure Played where
  result : Except ShellFault Unit
  sink : Sink
  flushed : Nat

/-- Takes the steps in order, up to the first fault; without one the result is `verdict`. -/
def Sink.play (s : Sink) (verdict : Except ShellFault Unit) : List Step → Played
  | [] => ⟨verdict, s, 0⟩
  | .write text :: steps =>
    match s.write text with
    | (.ok (), s') => s'.play verdict steps
    | (.error fault, s') => ⟨.error fault, s', 0⟩
  | .flush :: steps =>
    match s.flush with
    | (.ok (), s') =>
      { s'.play verdict steps with flushed := (s'.play verdict steps).flushed + 1 }
    | (.error fault, s') => ⟨.error fault, s', 0⟩

theorem output_nil : output [] = "" := String.join_nil

theorem output_cons (step : Step) (steps : List Step) :
    output (step :: steps) = step.text ++ output steps :=
  String.join_cons

theorem output_append (steps steps' : List Step) :
    output (steps ++ steps') = output steps ++ output steps' := by
  rw [output, List.map_append, String.join_append, output, output]

theorem output_map_write (texts : List String) :
    output (texts.map .write) = String.join texts := by
  rw [output, List.map_map]
  exact congrArg String.join (List.map_id texts)

theorem Sink.play_map_write (s : Sink) (verdict : Except ShellFault Unit) (texts : List String)
    (steps : List Step) :
    s.play verdict (texts.map .write ++ steps) =
      match s.writeEach texts with
      | (.ok (), s') => s'.play verdict steps
      | (.error fault, s') => ⟨.error fault, s', 0⟩ := by
  induction texts generalizing s with
  | nil => rfl
  | cons text texts ih =>
    rw [List.map_cons, List.cons_append, play, writeEach]
    rcases s.write text with ⟨fault | _, s'⟩
    · rfl
    · exact ih s'

namespace Shell

def text? (line : List UInt8) : Option String := String.fromUTF8? line.toByteArray

/-- A session ends with a line that is no text, and with an exit line. -/
def stops (line : List UInt8) : Bool := (text? line).all isExit

def answered (ls : List (List UInt8)) : List String := (ls.takeWhile (!stops ·)).filterMap text?

def asking : List Step := [.write prompt, .flush]

def answering (reply : String → List String) (text : String) : List Step :=
  asking ++ (reply text).map .write

/-- What is done at the line that ends the session, or at the end of the input. -/
def closing : List (List UInt8) → List Step
  | [] => [.write farewell]
  | line :: _ => if (text? line).isSome then [.write farewell] else []

def script (reply : String → List String) (ls : List (List UInt8)) : List Step :=
  (answered ls).flatMap (answering reply) ++ asking ++ closing (ls.dropWhile (!stops ·))

def verdict (ls : List (List UInt8)) : Except ShellFault Unit :=
  match ls.dropWhile (!stops ·) with
  | [] => .ok ()
  | line :: _ => if (text? line).isSome then .ok () else .error .notText

variable {reply : String → List String} {line : List UInt8} {ls : List (List UInt8)}

theorem script_cons_of_stops (h : stops line = true) :
    script reply (line :: ls) = asking ++ closing [line] := by
  simp [script, answered, h, closing]

theorem verdict_cons_of_stops (h : stops line = true) :
    verdict (line :: ls) = if (text? line).isSome then .ok () else .error .notText := by
  simp [verdict, h]

theorem stops_eq_false {text : String} (htext : text? line = some text)
    (hexit : isExit text = false) : stops line = false := by
  simp [stops, htext, hexit]

theorem answered_cons {text : String} (htext : text? line = some text)
    (hexit : isExit text = false) : answered (line :: ls) = text :: answered ls := by
  simp [answered, stops_eq_false htext hexit, htext]

theorem script_cons {text : String} (htext : text? line = some text)
    (hexit : isExit text = false) :
    script reply (line :: ls) = asking ++ ((reply text).map .write ++ script reply ls) := by
  simp [script, answered_cons htext hexit, stops_eq_false htext hexit, answering]

theorem verdict_cons {text : String} (htext : text? line = some text)
    (hexit : isExit text = false) : verdict (line :: ls) = verdict ls := by
  simp [verdict, stops_eq_false htext hexit]

theorem exists_script_eq_asking_append (reply : String → List String) (ls : List (List UInt8)) :
    ∃ steps, script reply ls = asking ++ steps := by
  rw [script]
  cases answered ls with
  | nil => exact ⟨_, rfl⟩
  | cons text texts =>
    rw [List.flatMap_cons, answering]
    simp only [List.append_assoc]
    exact ⟨_, rfl⟩

variable (s : Sink) (result : Except ShellFault Unit)

theorem play_asking (steps : List Step) :
    s.play result (asking ++ steps) =
      match ask s with
      | (.ok (), s') =>
        { s'.play result steps with flushed := (s'.play result steps).flushed + 1 }
      | (.error fault, s') => ⟨.error fault, s', 0⟩ := by
  rw [asking, List.cons_append, List.singleton_append, Sink.play, ask]
  rcases s.write prompt with ⟨fault | _, s'⟩ <;> rfl

theorem play_farewell :
    s.play (.ok ()) [.write farewell] = ⟨(s.write farewell).1, (s.write farewell).2, 0⟩ := by
  rw [Sink.play]
  rcases s.write farewell with ⟨fault | _, s'⟩ <;> rfl

/-- A session reads a line after each prompt, and else only plays its script. -/
theorem session_eq_play (reply : String → List String) (input : List UInt8) :
    session reply s input =
      let played := s.play (verdict (lines input)) (script reply (lines input))
      ⟨played.result, played.sink, ((lines input).drop played.flushed).flatten⟩ := by
  induction hls : lines input generalizing s input with
  | nil =>
    obtain rfl : input = [] := by rw [← flatten_lines input, hls, List.flatten_nil]
    have hscript : script reply [] = asking ++ [.write farewell] := rfl
    have hverdict : verdict [] = .ok () := rfl
    rw [session, hscript, hverdict, play_asking]
    split
    · next fault s' hask => rw [hask]; rfl
    · next s' hask => simp [hask, play_farewell, leave]
  | cons line ls ih =>
    have hne : input ≠ [] := by
      rintro rfl
      cases hls
    have hcons := hls.symm.trans (lines_eq_cons hne)
    obtain ⟨rfl, rfl⟩ := List.cons.inj hcons
    rw [session]
    split
    · next fault s' hask =>
      obtain ⟨steps, hsteps⟩ :=
        exists_script_eq_asking_append reply (firstLine input :: lines (afterLine input))
      rw [hsteps, play_asking, hask]
      simp only [List.drop_zero, ← hls, flatten_lines]
    · next s' hask =>
      rw [dif_neg hne]
      split
      · next hnone =>
        have hstops : stops (firstLine input) = true := by simp [stops, text?, hnone]
        rw [script_cons_of_stops hstops, verdict_cons_of_stops hstops, play_asking, hask]
        simp [closing, text?, hnone, Sink.play, flatten_lines]
      · next text htext =>
        split
        · next hexit =>
          have hstops : stops (firstLine input) = true := by simp [stops, text?, htext, hexit]
          rw [script_cons_of_stops hstops, verdict_cons_of_stops hstops, play_asking, hask]
          simp [closing, text?, htext, play_farewell, leave, flatten_lines]
        · next hexit =>
          have hexit' : isExit text = false := by simpa using hexit
          rw [script_cons htext hexit', verdict_cons htext hexit', play_asking, hask]
          split
          · next fault s'' hwrite => simp [Sink.play_map_write, hwrite, flatten_lines]
          · next s'' hwrite => simp [Sink.play_map_write, hwrite, ih s'' (afterLine input) rfl]

end Shell

end LetLang
