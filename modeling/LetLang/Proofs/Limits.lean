import LetLang.Proofs.Session

/-! Sessions with a writer that fails, after some bytes or at some flush. What is written is the
output of the session with an unlimited writer, cut off where the first of the two limits is met, and
no line is read but after a prompt that came through. -/

namespace LetLang

def Fits (room : Option Nat) (n : Nat) : Prop := ∀ r ∈ room, n ≤ r

theorem not_fits_iff {room : Option Nat} {n : Nat} : ¬ Fits room n ↔ ∃ r ∈ room, r < n := by
  simp [Fits]

theorem Fits.sub_iff {room : Option Nat} {m : Nat} (h : Fits room m) (n : Nat) :
    Fits (room.map (· - m)) n ↔ Fits room (m + n) := by
  cases room with
  | none => simp [Fits]
  | some r =>
    have hle : m ≤ r := h r rfl
    simp only [Fits, Option.map_some, Option.mem_some_iff, forall_eq']
    omega

namespace Sink

def accept (s : Sink) (text : String) : Sink :=
  { s.wrote text with room := s.room.map (· - text.utf8ByteSize) }

theorem write_of_fits {s : Sink} {text : String} (h : Fits s.room text.utf8ByteSize) :
    s.write text = (.ok (), s.accept text) := by
  obtain ⟨written, room, flushes⟩ := s
  cases room with
  | none => rfl
  | some room =>
    have hle : text.utf8ByteSize ≤ room := h room rfl
    have htake : text.toUTF8.toList.take room = text.toUTF8.toList :=
      List.take_of_length_le (by rwa [Text.length_toUTF8_toList])
    simp only [write, writeBytes, htake, Text.length_toUTF8_toList, if_pos hle, accept, wrote,
      Option.map_some]

theorem write_of_not_fits {s : Sink} {text : String} {room : Nat} (hroom : room ∈ s.room)
    (hlt : room < text.utf8ByteSize) :
    ∃ s' : Sink, s.write text = (.error .writerFull, s') ∧
      s'.written.toList = s.written.toList ++ text.toUTF8.toList.take room := by
  have hnot : ¬ text.utf8ByteSize ≤ room := Nat.not_le.2 hlt
  simp only [write, writeBytes, Option.mem_def.1 hroom, Text.length_toUTF8_toList, if_neg hnot]
  exact ⟨_, rfl, by simp⟩

theorem written_accept (s : Sink) (text : String) :
    (s.accept text).written.toList = s.written.toList ++ text.toUTF8.toList := by
  simp [accept, wrote]

end Sink

/-- The number of bytes that are written before the flush with this number. -/
def flushedAt? : List Step → Nat → Option Nat
  | [], _ => none
  | .write text :: steps, i => (flushedAt? steps i).map (text.utf8ByteSize + ·)
  | .flush :: _, 0 => some 0
  | .flush :: steps, i + 1 => flushedAt? steps i

/-- Where an output is cut off, if the flush after `cut?` bytes fails, and with what result. -/
inductive CutOff (room : Option Nat) (cut? : Option Nat) (verdict : Except ShellFault Unit)
    (whole : List UInt8) : Except ShellFault Unit → List UInt8 → Prop
  | flushFailed {q : Nat} (hq : q ∈ cut?) (hfits : Fits room q) :
      CutOff room cut? verdict whole (.error .flushFailed) (whole.take q)
  | writerFull {r : Nat} (hr : r ∈ room) (hlt : r < whole.length) (hcut : ∀ q ∈ cut?, ¬ Fits room q) :
      CutOff room cut? verdict whole (.error .writerFull) (whole.take r)
  | complete (hfits : Fits room whole.length) (hcut : ∀ q ∈ cut?, ¬ Fits room q) :
      CutOff room cut? verdict whole verdict whole

namespace CutOff

variable {room cut? : Option Nat} {verdict result : Except ShellFault Unit} {whole part : List UInt8}

theorem eq_of_flushFailed (h : CutOff room cut? verdict whole result part) {q : Nat} (hq : q ∈ cut?)
    (hfits : Fits room q) : part = whole.take q ∧ result = .error .flushFailed := by
  cases h with
  | flushFailed hq' _ =>
    obtain rfl := Option.mem_unique hq hq'
    exact ⟨rfl, rfl⟩
  | writerFull _ _ hcut => exact absurd hfits (hcut q hq)
  | complete _ hcut => exact absurd hfits (hcut q hq)

theorem eq_of_writerFull (h : CutOff room cut? verdict whole result part)
    (hcut : ∀ q ∈ cut?, ¬ Fits room q) {r : Nat} (hr : r ∈ room) (hlt : r < whole.length) :
    part = whole.take r ∧ result = .error .writerFull := by
  cases h with
  | flushFailed hq hfits => exact absurd hfits (hcut _ hq)
  | writerFull hr' _ _ =>
    obtain rfl := Option.mem_unique hr hr'
    exact ⟨rfl, rfl⟩
  | complete hfits _ => exact absurd (hfits r hr) (Nat.not_le.2 hlt)

theorem eq_of_complete (h : CutOff room cut? verdict whole result part)
    (hcut : ∀ q ∈ cut?, ¬ Fits room q) (hfits : Fits room whole.length) :
    part = whole ∧ result = verdict := by
  cases h with
  | flushFailed hq hfits => exact absurd hfits (hcut _ hq)
  | writerFull hr hlt _ => exact absurd (hfits _ hr) (Nat.not_le.2 hlt)
  | complete _ _ => exact ⟨rfl, rfl⟩

theorem of_accept (front : List UInt8) (hfront : Fits room front.length)
    (h : CutOff (room.map (· - front.length)) cut? verdict whole result part) :
    CutOff room (cut?.map (front.length + ·)) verdict (front ++ whole) result (front ++ part) := by
  have hcut' (hcut : ∀ q ∈ cut?, ¬ Fits (room.map (· - front.length)) q) :
      ∀ q ∈ cut?.map (front.length + ·), ¬ Fits room q := by
    intro q hq
    obtain ⟨q', hq', rfl⟩ := Option.mem_map.1 hq
    rw [← hfront.sub_iff]
    exact hcut q' hq'
  cases h with
  | @flushFailed q hq hfits =>
    rw [← List.take_length_add_append]
    exact .flushFailed (Option.mem_map_of_mem _ hq) ((hfront.sub_iff q).1 hfits)
  | @writerFull r hr hlt hcut =>
    obtain ⟨r', hr', rfl⟩ := Option.mem_map.1 hr
    have hle : front.length ≤ r' := hfront r' hr'
    have hsplit : r' = front.length + (r' - front.length) := by omega
    rw [← List.take_length_add_append, ← hsplit]
    exact .writerFull hr' (by rw [List.length_append]; omega) (hcut' hcut)
  | complete hfits hcut =>
    refine .complete ?_ (hcut' hcut)
    rw [List.length_append]
    exact (hfront.sub_iff _).1 hfits

end CutOff

theorem Sink.play_cutOff (s : Sink) (verdict : Except ShellFault Unit) (steps : List Step) :
    ∃ part, (s.play verdict steps).sink.written.toList = s.written.toList ++ part ∧
      CutOff s.room (s.flushes.bind (flushedAt? steps)) verdict (output steps).toUTF8.toList
        (s.play verdict steps).result part := by
  induction steps generalizing s with
  | nil =>
    have hnone : ∀ q ∈ s.flushes.bind (flushedAt? []), ¬ Fits s.room q := by
      intro q hq
      obtain ⟨m, -, hm⟩ := Option.mem_bind_iff.1 hq
      cases hm
    have hempty : "".toUTF8.toList = [] := Text.toUTF8_toList ""
    rw [play, output_nil, hempty]
    exact ⟨[], (List.append_nil _).symm, .complete (fun _ _ => Nat.zero_le _) hnone⟩
  | cons step steps ih =>
    cases step with
    | write text =>
      have hcut : s.flushes.bind (flushedAt? (.write text :: steps)) =
          (s.flushes.bind (flushedAt? steps)).map (text.toUTF8.toList.length + ·) := by
        rw [Option.map_bind, Text.length_toUTF8_toList]
        rfl
      rw [hcut, output_cons, Step.text, Text.toUTF8_toList_append, play]
      by_cases hfits : Fits s.room text.utf8ByteSize
      · obtain ⟨part, hwritten, hpart⟩ := ih (s.accept text)
        rw [written_accept, List.append_assoc] at hwritten
        rw [write_of_fits hfits]
        refine ⟨_, hwritten, .of_accept _ ?_ ?_⟩
        · rwa [Text.length_toUTF8_toList]
        · rwa [Text.length_toUTF8_toList]
      · obtain ⟨r, hr, hlt⟩ := not_fits_iff.1 hfits
        obtain ⟨s', hwrite, hwritten⟩ := write_of_not_fits hr hlt
        rw [hwrite]
        refine ⟨_, hwritten, ?_⟩
        have hlt' : r < text.toUTF8.toList.length := by rwa [Text.length_toUTF8_toList]
        rw [← List.take_append_of_le_length (Nat.le_of_lt hlt')]
        refine .writerFull hr (by rw [List.length_append]; omega) fun q hq hq' => ?_
        obtain ⟨q', -, rfl⟩ := Option.mem_map.1 hq
        exact absurd (hq' r hr) (by omega)
    | flush =>
      rw [output_cons, Step.text, String.empty_append, play, flush]
      cases hflushes : s.flushes with
      | none =>
        obtain ⟨part, hwritten, hpart⟩ := ih s
        rw [hflushes] at hpart
        exact ⟨part, hwritten, hpart⟩
      | some m =>
        cases m with
        | zero => exact ⟨[], (List.append_nil _).symm, .flushFailed rfl fun _ _ => Nat.zero_le _⟩
        | succ m => exact ih { s with flushes := some m }

theorem Sink.lt_flushed_iff (s : Sink) (verdict : Except ShellFault Unit) (steps : List Step)
    (i : Nat) :
    i < (s.play verdict steps).flushed ↔ (∀ m ∈ s.flushes, i < m) ∧
      ∃ e ∈ flushedAt? steps i,
        s.written.toList.length + e ≤ (s.play verdict steps).sink.written.toList.length := by
  induction steps generalizing s i with
  | nil => simp [play, flushedAt?]
  | cons step steps ih =>
    cases step with
    | write text =>
      rw [play]
      by_cases hfits : Fits s.room text.utf8ByteSize
      · have ih := ih (s.accept text) i
        rw [written_accept, List.length_append, Text.length_toUTF8_toList] at ih
        simp only [write_of_fits hfits, ih, flushedAt?]
        simp [accept, wrote, Nat.add_assoc]
      · obtain ⟨r, hr, hlt⟩ := not_fits_iff.1 hfits
        obtain ⟨s', hwrite, hwritten⟩ := write_of_not_fits hr hlt
        have hshort : (text.toUTF8.toList.take r).length = r :=
          List.length_take_of_le (by rw [Text.length_toUTF8_toList]; exact Nat.le_of_lt hlt)
        rw [hwrite, hwritten, List.length_append, hshort]
        constructor
        · intro h
          cases h
        · rintro ⟨-, e, he, hle⟩
          obtain ⟨e', -, rfl⟩ := Option.mem_map.1 he
          omega
    | flush =>
      have hmono (s' : Sink) :
          s'.written.toList.length ≤ (s'.play verdict steps).sink.written.toList.length := by
        obtain ⟨part, hwritten, -⟩ := s'.play_cutOff verdict steps
        rw [hwritten, List.length_append]
        exact Nat.le_add_right _ _
      rw [play, flush]
      cases hflushes : s.flushes with
      | none =>
        cases i with
        | zero => simpa [flushedAt?] using hmono s
        | succ i => simp [flushedAt?, ih s i, hflushes]
      | some m =>
        cases m with
        | zero => simp
        | succ m =>
          cases i with
          | zero => simpa [flushedAt?] using hmono { s with flushes := some m }
          | succ i => simp [flushedAt?, ih { s with flushes := some m } i]

namespace Shell

/-- The number of bytes up to the end of the prompt with this number, among the echoes of the lines
before it. -/
def promptEnd? (echoes : List String) (i : Nat) : Option Nat :=
  if i ≤ echoes.length then
    some (String.join ((echoes.take i).map (prompt ++ ·)) ++ prompt).utf8ByteSize
  else none

theorem flushedAt?_map_write (texts : List String) (steps : List Step) (i : Nat) :
    flushedAt? (texts.map .write ++ steps) i =
      (flushedAt? steps i).map ((String.join texts).utf8ByteSize + ·) := by
  induction texts with
  | nil => simp
  | cons text texts ih =>
    rw [List.map_cons, List.cons_append, flushedAt?, ih, Option.map_map, String.join_cons,
      String.utf8ByteSize_append]
    congr 1
    funext n
    exact (Nat.add_assoc _ _ _).symm

theorem flushedAt?_closing (left : List (List UInt8)) (i : Nat) :
    flushedAt? (closing left) i = none := by
  cases left with
  | nil => rfl
  | cons line after => cases h : (text? line).isSome <;> simp [closing, h, flushedAt?]

theorem promptEnd?_cons_succ (echo : String) (echoes : List String) (i : Nat) :
    promptEnd? (echo :: echoes) (i + 1) =
      (promptEnd? echoes i).map ((prompt ++ echo).utf8ByteSize + ·) := by
  by_cases h : i ≤ echoes.length
  · have hsplit : String.join (((echo :: echoes).take (i + 1)).map (prompt ++ ·)) ++ prompt =
        (prompt ++ echo) ++ (String.join ((echoes.take i).map (prompt ++ ·)) ++ prompt) := by
      rw [List.take_succ_cons, List.map_cons, String.join_cons, String.append_assoc]
    rw [promptEnd?, promptEnd?, if_pos (by simpa using h), if_pos h, hsplit,
      String.utf8ByteSize_append, Option.map_some]
  · rw [promptEnd?, promptEnd?, if_neg (by simpa using h), if_neg h, Option.map_none]

/-- The flushes of a session come right after its prompts. -/
theorem flushedAt?_script (reply : String → List String) (ls : List (List UInt8)) (i : Nat) :
    flushedAt? (script reply ls) i =
      promptEnd? ((answered ls).map fun text => String.join (reply text)) i := by
  rw [script]
  generalize ls.dropWhile (!stops ·) = left
  induction answered ls generalizing i with
  | nil =>
    cases i with
    | zero => simp [asking, flushedAt?, promptEnd?]
    | succ i => simp [asking, flushedAt?, promptEnd?, flushedAt?_closing]
  | cons text texts ih =>
    cases i with
    | zero => simp [answering, asking, flushedAt?, promptEnd?]
    | succ i =>
      have hsteps : (text :: texts).flatMap (answering reply) ++ asking ++ closing left =
          .write prompt :: .flush :: ((reply text).map .write ++
            (texts.flatMap (answering reply) ++ asking ++ closing left)) := by
        simp [answering, asking]
      rw [hsteps, flushedAt?, flushedAt?, flushedAt?_map_write, ih, List.map_cons,
        promptEnd?_cons_succ, Option.map_map, String.utf8ByteSize_append]
      congr 1
      funext n
      exact (Nat.add_assoc _ _ _).symm

theorem output_closing (ls : List (List UInt8)) :
    output (closing (ls.dropWhile (!stops ·))) =
      match verdict ls with
      | .ok () => farewell
      | .error _ => "" := by
  rw [verdict]
  cases ls.dropWhile (!stops ·) with
  | nil => rfl
  | cons line after => cases h : (text? line).isSome <;> simp [closing, h] <;> rfl

/-- A writer that fails truncates the session and does nothing else. The output is cut off after the
first prompt that cannot be flushed, if there is room for it, and where the room ends otherwise; the
lines that were read are those whose prompt was written in full and flushed. -/
theorem run_truncated (mode : Mode) (policies : Policies) (room flushes : Option Nat)
    (input : List UInt8) :
    let full := run mode policies {} input
    let whole := full.sink.written.toList
    let limited := run mode policies { room, flushes } input
    let written := limited.sink.written.toList
    let echoes := (answered (lines input)).map (echo mode policies)
    let cut? := flushes.bind (promptEnd? echoes)
    let last := match full.result with
      | .ok () => "Bye!\n"
      | .error _ => ""
    whole = (String.join (echoes.map (">> " ++ ·)) ++ ">> " ++ last).toUTF8.toList ∧
    (∀ q ∈ cut?, Fits room q → written = whole.take q ∧ limited.result = .error .flushFailed) ∧
    ((∀ q ∈ cut?, ¬ Fits room q) →
      (∀ r ∈ room, r < whole.length →
        written = whole.take r ∧ limited.result = .error .writerFull) ∧
      (Fits room whole.length → written = whole ∧ limited.result = full.result)) ∧
    ∃ read ≤ (lines input).length, limited.unread = ((lines input).drop read).flatten ∧
      ∀ i < (lines input).length, i < read ↔
        (∀ m ∈ flushes, i < m) ∧ ∃ e ∈ promptEnd? echoes i, e ≤ written.length := by
  intro full whole limited written echoes cut? last
  let steps := script (reply mode policies) (lines input)
  let played := Sink.play { room, flushes } (verdict (lines input)) steps
  have hfull : full = _ := session_eq ⟨rfl, rfl⟩ (reply mode policies) input
  have hlimited : limited = _ := session_eq_play { room, flushes } (reply mode policies) input
  have hresult : limited.result = played.result := by rw [hlimited]
  have hwritten : written = played.sink.written.toList := by
    rw [show written = limited.sink.written.toList from rfl, hlimited]
  have hunread : limited.unread = ((lines input).drop played.flushed).flatten := by rw [hlimited]
  have hwhole : whole = (output steps).toUTF8.toList := by
    rw [show whole = full.sink.written.toList from rfl, hfull]
    simp [Sink.wrote, steps]
  have hlast : output (closing ((lines input).dropWhile (!stops ·))) = last := by
    rw [output_closing, ← show full.result = verdict (lines input) by rw [hfull]]
    rfl
  have hends : promptEnd? echoes = flushedAt? steps :=
    (funext (flushedAt?_script (reply mode policies) (lines input))).symm
  have hcut : cut? = flushes.bind (flushedAt? steps) := congrArg flushes.bind hends
  obtain ⟨part, hpart, hcutOff⟩ :=
    Sink.play_cutOff { room, flushes } (verdict (lines input)) steps
  replace hpart : written = part := hwritten.trans hpart
  rw [← hwhole, ← hcut, ← hpart, ← hresult] at hcutOff
  refine ⟨?_, ?_, ?_, ?_⟩
  · rw [hwhole, output_script, hlast]
    simp [echoes, echo, prompt, Function.comp_def]
  · exact fun q hq hfits => hcutOff.eq_of_flushFailed hq hfits
  · refine fun hnone => ⟨fun r hr hlt => hcutOff.eq_of_writerFull hnone hr hlt, fun hfits => ?_⟩
    rw [show full.result = verdict (lines input) by rw [hfull]]
    exact hcutOff.eq_of_complete hnone hfits
  · refine ⟨min played.flushed (lines input).length, Nat.min_le_right _ _, ?_, fun i hi => ?_⟩
    · rw [hunread, List.drop_eq_drop_min]
    · rw [lt_min_iff, and_iff_left hi, hwritten, hends]
      simpa using Sink.lt_flushed_iff { room, flushes } (verdict (lines input)) steps i

end Shell

end LetLang
