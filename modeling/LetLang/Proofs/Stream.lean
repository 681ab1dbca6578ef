import LetLang.Parser
import Mathlib

/-! What a window shows: the tokens from the current one on. A parser learns of its source only
by moving its window on, so every fact about a parse is stated over the tokens shown, and holds
of all sources at once. -/

namespace LetLang.Window

variable {σ τ : Type} [TokenSource σ] [TokenSource τ]

/-- The tokens `ts` come next, and `w'` is the window after them. -/
inductive Shows : Window σ → List Token → Window σ → Prop
  | nil (w : Window σ) : Shows w [] w
  | cons {w w' : Window σ} {ts : List Token} (rest : Shows w.advance ts w') :
      Shows w (w.current :: ts) w'

theorem advance_current (w : Window σ) : w.advance.current = w.peek := rfl

theorem shows_nil_iff {w w' : Window σ} : Shows w [] w' ↔ w' = w := by
  constructor
  · intro h
    cases h
    rfl
  · rintro rfl
    exact .nil _

theorem shows_cons_iff {w w' : Window σ} {t : Token} {ts : List Token} :
    Shows w (t :: ts) w' ↔ w.current = t ∧ Shows w.advance ts w' := by
  constructor
  · intro h
    cases h with
    | cons rest => exact ⟨rfl, rest⟩
  · rintro ⟨rfl, rest⟩
    exact .cons rest

theorem shows_singleton_iff {w w' : Window σ} {t : Token} :
    Shows w [t] w' ↔ w.current = t ∧ w' = w.advance := by
  rw [shows_cons_iff, shows_nil_iff]

theorem shows_append_iff {w w'' : Window σ} {ts us : List Token} :
    Shows w (ts ++ us) w'' ↔ ∃ w', Shows w ts w' ∧ Shows w' us w'' := by
  induction ts generalizing w with
  | nil => simp [shows_nil_iff]
  | cons t ts ih => simp [shows_cons_iff, ih, and_assoc]

theorem Shows.append {w w' w'' : Window σ} {ts us : List Token} (h : Shows w ts w')
    (h' : Shows w' us w'') : Shows w (ts ++ us) w'' :=
  shows_append_iff.2 ⟨w', h, h'⟩

theorem Shows.single (w : Window σ) : Shows w [w.current] w.advance := .cons (.nil _)

theorem Shows.current_eq {w w' : Window σ} {ts : List Token} (h : Shows w ts w') :
    w.current = ts.headD w'.current := by
  cases h with
  | nil _ => rfl
  | cons _ => rfl

theorem Shows.current_mem {w w' : Window σ} {ts : List Token} (h : Shows w ts w')
    (hne : ts ≠ []) : w.current ∈ ts := by
  cases h with
  | nil _ => exact absurd rfl hne
  | cons _ => exact List.mem_cons_self

/-- The tokens from the current one on, without an end. -/
def stream (w : Window σ) (n : Nat) : Token := (advance^[n] w).current

/-- Two windows with the same stream read the same tokens, and go on with the same stream. -/
theorem Shows.transfer {w w' : Window σ} {v : Window τ} {ts : List Token} (h : Shows w ts w')
    (heq : w.stream = v.stream) :
    Shows v ts (advance^[ts.length] v) ∧ w'.stream = (advance^[ts.length] v).stream := by
  induction h generalizing v with
  | nil w => exact ⟨.nil v, heq⟩
  | @cons w w' ts rest ih =>
    have hcur : v.current = w.current := (congrFun heq 0).symm
    have hrest : w.advance.stream = v.advance.stream :=
      funext fun n => congrFun heq (n + 1)
    obtain ⟨hshows, hstream⟩ := ih hrest
    rw [List.length_cons, Function.iterate_succ_apply, ← hcur]
    exact ⟨.cons hshows, hstream⟩

theorem Shows.eq_iterate {w w' : Window σ} {ts : List Token} (h : Shows w ts w') :
    w' = advance^[ts.length] w := by
  induction h with
  | nil w => rfl
  | cons rest ih =>
    rw [List.length_cons, Function.iterate_succ_apply]
    exact ih

theorem Shows.getElem_eq {w w' : Window σ} {ts : List Token} (h : Shows w ts w') {k : Nat}
    (hk : k < ts.length) : ts[k] = w.stream k := by
  induction h generalizing k with
  | nil w => simp at hk
  | cons rest ih =>
    cases k with
    | zero => rfl
    | succ k => exact ih (Nat.lt_of_succ_lt_succ hk)

theorem stream_eq_of_related {R : Window σ → Window τ → Prop}
    (hcur : ∀ w v, R w v → w.current = v.current)
    (hstep : ∀ w v, R w v → R w.advance v.advance) {w : Window σ} {v : Window τ} (h : R w v) :
    w.stream = v.stream := by
  funext n
  induction n generalizing w v with
  | zero => exact hcur w v h
  | succ n ih => exact ih (hstep w v h)

structure Alongside (R : σ → τ → Prop) (w : Window σ) (v : Window τ) : Prop where
  current : w.current = v.current
  peek : w.peek = v.peek
  source : R w.source v.source

section

variable {R : σ → τ → Prop}
  (hnext : ∀ s t, R s t → (TokenSource.next s).1 = (TokenSource.next t).1 ∧
    R (TokenSource.next s).2 (TokenSource.next t).2)

include hnext

theorem Alongside.advance {w : Window σ} {v : Window τ} (h : Alongside R w v) :
    Alongside R w.advance v.advance := by
  obtain ⟨htoken, hleft⟩ := hnext _ _ h.source
  exact ⟨h.peek, htoken, hleft⟩

/-- Sources that stay related, and give the same tokens, are shown alike. -/
theorem stream_ofSource_eq {s : σ} {t : τ} (h : R s t) :
    (ofSource s).stream = (ofSource t).stream := by
  have hstart : Alongside R ⟨s, Token.eof, Token.eof⟩ ⟨t, Token.eof, Token.eof⟩ := ⟨rfl, rfl, h⟩
  have hready : Alongside R (ofSource s) (ofSource t) := (hstart.advance hnext).advance hnext
  exact stream_eq_of_related (fun _ _ h => h.current) (fun _ _ h => h.advance hnext) hready

end

theorem advance_ofSource (ts : List Token) : (ofSource ts).advance = ofSource ts.tail := by
  match ts with
  | [] => rfl
  | [_] => rfl
  | _ :: _ :: _ => rfl

theorem current_ofSource (ts : List Token) : (ofSource ts).current = ts.headD Token.eof := by
  match ts with
  | [] => rfl
  | [_] => rfl
  | _ :: _ :: _ => rfl

theorem shows_ofSource (ts rest : List Token) :
    Shows (ofSource (ts ++ rest)) ts (ofSource rest) := by
  induction ts with
  | nil => exact .nil _
  | cons t ts ih =>
    rw [shows_cons_iff, current_ofSource, advance_ofSource]
    exact ⟨rfl, ih⟩

theorem shows_ofSource_end (ts : List Token) :
    Shows (ofSource ts) (ts ++ [Token.eof]) (ofSource []) := by
  have hts := shows_ofSource ts []
  rw [List.append_nil] at hts
  exact hts.append (Shows.single (ofSource []))

/-- What a window on a list shows, read back: a front part of the list, or all of it and the end
of input, provided that the end of input comes last. -/
theorem Shows.of_list {ts seg : List Token} {w : Window (List Token)}
    (h : Shows (ofSource ts) seg w) (hseg : ∀ t ∈ seg.dropLast, t.kind ≠ .eof) :
    (∃ rest, ts = seg ++ rest ∧ w = ofSource rest) ∨
      (seg = ts ++ [Token.eof] ∧ w = ofSource []) := by
  induction seg generalizing ts with
  | nil => exact .inl ⟨ts, rfl, shows_nil_iff.1 h⟩
  | cons t seg ih =>
    rw [shows_cons_iff, current_ofSource, advance_ofSource] at h
    obtain ⟨rfl, hrest⟩ := h
    cases ts with
    | nil =>
      cases seg with
      | nil => exact .inr ⟨rfl, shows_nil_iff.1 hrest⟩
      | cons u seg => exact absurd rfl (hseg Token.eof (by simp))
    | cons u us =>
      have hseg' : ∀ t ∈ seg.dropLast, t.kind ≠ .eof := by
        intro t ht
        cases seg with
        | nil => simp at ht
        | cons v seg => exact hseg t (by simp [ht])
      rcases ih hrest hseg' with ⟨rest, hus, hw⟩ | ⟨hseg, hw⟩
      · exact .inl ⟨rest, by simpa using hus, hw⟩
      · exact .inr ⟨by simpa using hseg, hw⟩

end LetLang.Window
