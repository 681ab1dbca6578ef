import LetLang.Proofs.Consumption
import LetLang.Proofs.Sources

/-! Parsers that cannot be told apart. An operation moves the window of a parser on by as many
tokens as the stream says, and nothing else about the source matters to it. So a parser may read
from a lexer, by iterating over it, or from the list of its tokens, although these three end in ways
of their own: with the end of input for ever, with nothing for ever, and with nothing once. -/

namespace LetLang

namespace Window

variable {σ : Type} [TokenSource σ]

theorem pulled_iterate_advance (n : Nat) (w : Window (Counted σ)) :
    (advance^[n] w).source.pulled = w.source.pulled + n := by
  induction n generalizing w with
  | zero => rfl
  | succ n ih =>
    have hone : w.advance.source.pulled = w.source.pulled + 1 := rfl
    rw [Function.iterate_succ_apply, ih, hone]
    omega

theorem stream_iterate_advance (n : Nat) (w : Window σ) :
    (advance^[n] w).stream = fun k => w.stream (k + n) := by
  funext k
  rw [stream, stream, Function.iterate_add_apply]

end Window

namespace Parser

variable {σ τ : Type} [TokenSource σ] [TokenSource τ]

def after (p : Parser (Counted σ)) (ops : List ParserOp) : Parser (Counted σ) :=
  ops.foldl (fun p op => (p.step op).2) p

/-- The two parsers see the same stream, have taken as many tokens and recorded the same errors. -/
structure Alike (p : Parser (Counted σ)) (q : Parser (Counted τ)) : Prop where
  stream : p.window.stream = q.window.stream
  pulled : p.pulled = q.pulled
  policies : p.policies = q.policies
  errors : p.errors = q.errors

theorem alike_ofSource {source : σ} {source' : τ}
    (h : (Window.ofSource source).stream = (Window.ofSource source').stream)
    (policies : Policies) : (ofSource (Counted.mk source 0) policies).Alike
      (ofSource (Counted.mk source' 0) policies) where
  stream := (Window.stream_ofSource_counted source 0).trans
    (h.trans (Window.stream_ofSource_counted source' 0).symm)
  pulled := rfl
  policies := rfl
  errors := rfl

namespace Alike

variable {p : Parser (Counted σ)} {q : Parser (Counted τ)}

theorem iterate_advance (h : p.Alike q) (n : Nat) (es : List ParseError) :
    (Parser.mk (Window.advance^[n] p.window) p.policies (p.errors ++ es)).Alike
      (Parser.mk (Window.advance^[n] q.window) q.policies (q.errors ++ es)) where
  stream := by
    rw [Window.stream_iterate_advance, Window.stream_iterate_advance, h.stream]
  pulled := by
    have hpulled := h.pulled
    simp only [Parser.pulled, Window.pulled_iterate_advance] at hpulled ⊢
    rw [hpulled]
  policies := h.policies
  errors := by rw [h.errors]

theorem nextToken (h : p.Alike q) : p.nextToken.Alike q.nextToken := by
  have hmoved := h.iterate_advance 1 []
  rwa [List.append_nil, List.append_nil] at hmoved

theorem parseProgram (h : p.Alike q) :
    p.parseProgram.1 = q.parseProgram.1 ∧ p.parseProgram.2.Alike q.parseProgram.2 := by
  obtain ⟨results, n, hrun⟩ := Window.exists_outcomes_eq p.policies p.window
  have hp := parseProgram_of_outcomes (hrun rfl)
  have hq := hrun h.stream
  rw [h.policies] at hq
  rw [hp, parseProgram_of_outcomes hq]
  exact ⟨rfl, h.iterate_advance n (errorsOf results)⟩

theorem step (h : p.Alike q) (op : ParserOp) :
    (p.step op).1 = (q.step op).1 ∧ (p.step op).2.Alike (q.step op).2 := by
  cases op with
  | nextToken => exact ⟨rfl, h.nextToken⟩
  | errors => exact ⟨congrArg ParserAnswer.errors h.errors, h⟩
  | parseProgram =>
    obtain ⟨hprogram, hnext⟩ := h.parseProgram
    refine ⟨?_, hnext⟩
    simp only [Parser.step, hprogram, hnext.errors]
  | parse =>
    obtain ⟨hprogram, hnext⟩ := h.parseProgram
    refine ⟨?_, hnext⟩
    simp only [Parser.step, hprogram, hnext.errors]

theorem run (h : p.Alike q) (ops : List ParserOp) :
    p.run ops = q.run ops ∧ (p.after ops).Alike (q.after ops) := by
  induction ops generalizing p q with
  | nil => exact ⟨rfl, h⟩
  | cons op ops ih =>
    obtain ⟨hanswer, hnext⟩ := h.step op
    obtain ⟨hanswers, hend⟩ := ih hnext
    refine ⟨?_, hend⟩
    rw [Parser.run, Parser.run, hanswer, hnext.pulled, hanswers]

end Alike

end Parser

/-- Three parsers: one reads from a lexer, some of whose tokens have been left out, perhaps past its
end; one reads what iterating over this lexer gives, and one the list of what the lexer has left.
Whatever is done with them, they answer the same, have taken as many tokens after each operation,
and have recorded the same errors. -/
theorem run_eq_run_of_lexer (text : String) (skipped : Nat) (policies : Policies)
    (ops : List ParserOp) :
    let lexer := (Lexer.ofString text).skip skipped
    let direct := Parser.ofSource (Counted.mk lexer 0) policies
    let iterating := Parser.ofSource (Counted.mk (Sifted.mk lexer []) 0) policies
    let listed := Parser.ofSource (Counted.mk lexer.collect.1 0) policies
    (iterating.run ops = direct.run ops ∧ listed.run ops = direct.run ops) ∧
      (iterating.after ops).errors = (direct.after ops).errors ∧
      (listed.after ops).errors = (direct.after ops).errors := by
  intro lexer direct iterating listed
  have hlexer := (Lexer.holds_ofString text).skip skipped
  have hdirect := hlexer.stream_ofSource
  have hiterating := hlexer.stream_ofSource_sifted.trans hdirect.symm
  have hlisted : (Window.ofSource lexer.collect.1).stream = (Window.ofSource lexer).stream := by
    rw [hlexer.collect.1, hdirect]
  obtain ⟨hruns, hend⟩ := (Parser.alike_ofSource hiterating policies).run ops
  obtain ⟨hruns', hend'⟩ := (Parser.alike_ofSource hlisted policies).run ops
  exact ⟨⟨hruns, hruns'⟩, hend.errors, hend'.errors⟩

end LetLang
