import LetLang.Proofs.Integers
import LetLang.Proofs.TokenEcho

/-! Echoed tokens can be read back. Between the quotes each character is written so that it shows
where it ends, whichever characters stand for themselves there, so a literal may look like an escape
or like the frame around it and still tells what it is. -/

namespace LetLang

section

variable {α : Type} {write : α → List Char}

/-- What is written can be told from whatever comes after it. -/
def PrefixFree (write : α → List Char) : Prop :=
  ∀ a b rest rest', write a ++ rest = write b ++ rest' → a = b ∧ rest = rest'

theorem PrefixFree.of_read {read : List Char → Option (α × List Char)}
    (h : ∀ a rest, read (write a ++ rest) = some (a, rest)) : PrefixFree write := by
  intro a b rest rest' heq
  have hread := congrArg read heq
  rw [h, h, Option.some.injEq, Prod.mk.injEq] at hread
  exact hread

theorem PrefixFree.flatMap (h : PrefixFree write) {l l' : List α} {rest rest' : List Char}
    (hrest : ∀ a after, write a ++ after ≠ rest) (hrest' : ∀ a after, write a ++ after ≠ rest')
    (heq : l.flatMap write ++ rest = l'.flatMap write ++ rest') : l = l' ∧ rest = rest' := by
  induction l generalizing l' with
  | nil =>
    cases l' with
    | nil => exact ⟨rfl, heq⟩
    | cons b l' =>
      rw [List.flatMap_nil, List.nil_append, List.flatMap_cons, List.append_assoc] at heq
      exact absurd heq.symm (hrest b _)
  | cons a l ih =>
    rw [List.flatMap_cons, List.append_assoc] at heq
    cases l' with
    | nil => exact absurd heq (hrest' a _)
    | cons b l' =>
      rw [List.flatMap_cons, List.append_assoc] at heq
      obtain ⟨rfl, htail⟩ := h a b _ _ heq
      obtain ⟨rfl, hend⟩ := ih htail
      exact ⟨rfl, hend⟩

end

theorem takeWhile_append_of_notMem {c : Char} {l : List Char} (h : c ∉ l) (rest : List Char) :
    (l ++ c :: rest).takeWhile (· != c) = l ∧ (l ++ c :: rest).dropWhile (· != c) = c :: rest := by
  apply takeWhile_append_of_head?
  · intro d hd
    rw [bne_iff_ne]
    rintro rfl
    exact h hd
  · simp

namespace Text

def ofLetter? : Char → Option Char
  | '0' => some '\x00'
  | 't' => some '\t'
  | 'n' => some '\n'
  | 'r' => some '\r'
  | '"' => some '"'
  | '\\' => some '\\'
  | _ => none

/-- Reads the first character between quotes, in whatever way it is written. -/
def unescape? : List Char → Option (Char × List Char)
  | '\\' :: 'u' :: '\x7b' :: rest =>
    (Number.natUpTo? 16 0x10ffff (rest.takeWhile (· != '\x7d'))).map fun n =>
      (Char.ofNat n, (rest.dropWhile (· != '\x7d')).drop 1)
  | '\\' :: c :: rest => (ofLetter? c).map (·, rest)
  | c :: rest => some (c, rest)
  | [] => none

theorem unescape?_of_ne {c : Char} (h : c ≠ '\\') (rest : List Char) :
    unescape? (c :: rest) = some (c, rest) := by
  unfold unescape?
  split <;> simp_all

theorem unescape?_numericEscape (c : Char) (rest : List Char) :
    unescape? (numericEscape c ++ rest) = some (c, rest) := by
  have hbrace : '\x7d' ∉ Nat.toDigits 16 c.toNat :=
    notMem_toDigits (by decide) (fun d => Nat.digitChar_ne (n := d) '\x7d' (by decide)) c.toNat
  have hbound : c.toNat ≤ 0x10ffff := by
    rcases c.valid with h | ⟨-, h⟩
    · exact Nat.le_trans (Nat.le_of_lt h) (by decide)
    · exact Nat.le_of_lt_succ h
  have htext : numericEscape c ++ rest =
      '\\' :: 'u' :: '\x7b' :: (Nat.toDigits 16 c.toNat ++ '\x7d' :: rest) := by
    simp [numericEscape]
  obtain ⟨htake, hdrop⟩ := takeWhile_append_of_notMem hbrace rest
  rw [htext, unescape?, htake, hdrop, Number.natUpTo?_toDigits (by decide) (by decide) hbound,
    Option.map_some, Char.ofNat_toNat, List.drop_one, List.tail_cons]

theorem unescape?_escape (shown : Char → Bool) (c : Char) (rest : List Char) :
    unescape? (escape shown c ++ rest) = some (c, rest) := by
  unfold escape
  split
  case h_7 _ _ _ _ _ _ hbackslash =>
    split
    · exact unescape?_of_ne hbackslash rest
    · exact unescape?_numericEscape c rest
  all_goals rfl

theorem escape_append_ne_quote (shown : Char → Bool) (c : Char) (after rest : List Char) :
    escape shown c ++ after ≠ '"' :: rest := by
  unfold escape
  split
  case h_7 _ _ _ _ _ hquote _ =>
    split
    · simpa using fun h => absurd h hquote
    · simp [numericEscape]
  all_goals simp

theorem quoteWith_prefixFree (shown : Char → Bool) : PrefixFree (quoteWith shown) := by
  intro text text' rest rest' heq
  simp only [quoteWith, List.cons_append, List.append_assoc, List.nil_append, List.cons.injEq,
    true_and] at heq
  have hescape : PrefixFree (escape shown) := .of_read (unescape?_escape shown)
  obtain ⟨htext, hrest⟩ := hescape.flatMap (fun c after => escape_append_ne_quote shown c after rest)
    (fun c after => escape_append_ne_quote shown c after rest') heq
  exact ⟨htext, List.cons_injective hrest⟩

end Text

namespace TokenKind

def ofName? (name : String) : Option TokenKind := all.find? (·.name == name)

theorem ofName?_name (kind : TokenKind) : ofName? kind.name = some kind := by
  cases kind <;> decide

theorem name_prefixFree : PrefixFree fun kind : TokenKind => kind.name.toList ++ [','] := by
  have hcomma (kind : TokenKind) : ',' ∉ kind.name.toList := by cases kind <;> decide
  intro kind kind' rest rest' heq
  simp only [List.append_assoc, List.singleton_append] at heq
  obtain ⟨htake, hdrop⟩ := takeWhile_append_of_notMem (hcomma kind) rest
  obtain ⟨htake', hdrop'⟩ := takeWhile_append_of_notMem (hcomma kind') rest'
  rw [heq] at htake hdrop
  have hname : kind.name = kind'.name := String.toList_injective (htake.symm.trans htake')
  have hkind := congrArg ofName? hname
  rw [ofName?_name, ofName?_name] at hkind
  exact ⟨Option.some.inj hkind, List.cons_injective (hdrop.symm.trans hdrop')⟩

end TokenKind

theorem Token.echoWith_prefixFree (shown : Char → Bool) :
    PrefixFree fun t : Token => (t.echoWith shown).toList := by
  rintro ⟨kind, literal⟩ ⟨kind', literal'⟩ rest rest' heq
  simp only [echoWith_eq, String.toList_append, String.toList_ofList, List.append_assoc] at heq
  have hcomma (kind : TokenKind) (rest : List Char) :
      kind.name.toList ++ (", literal: ".toList ++ rest) =
        kind.name.toList ++ [','] ++ (" literal: ".toList ++ rest) := by
    rw [List.append_assoc]
    rfl
  have hname := List.append_cancel_left heq
  rw [hcomma, hcomma] at hname
  obtain ⟨rfl, hframe⟩ := TokenKind.name_prefixFree kind kind' _ _ hname
  have hquoted := List.append_cancel_left hframe
  obtain ⟨hliteral, hend⟩ :=
    Text.quoteWith_prefixFree shown literal.toList literal'.toList _ _ hquoted
  obtain rfl := String.toList_injective hliteral
  exact ⟨rfl, List.append_cancel_left hend⟩

def echoLines (shown : Char → Bool) (ts : List Token) : String :=
  String.join (ts.map fun t => t.echoWith shown ++ "\n")

theorem echoLines_cons (shown : Char → Bool) (t : Token) (ts : List Token) :
    echoLines shown (t :: ts) = t.echoWith shown ++ "\n" ++ echoLines shown ts :=
  String.join_cons

theorem toList_echoLines (shown : Char → Bool) (ts : List Token) :
    (echoLines shown ts).toList = ts.flatMap fun t => (t.echoWith shown).toList ++ ['\n'] := by
  induction ts with
  | nil => rfl
  | cons t ts ih => simp [echoLines_cons, ih]

theorem count_newline_echoLines (shown : Char → Bool) (ts : List Token) :
    (echoLines shown ts).toList.count '\n' = ts.length := by
  induction ts with
  | nil => rfl
  | cons t ts ih =>
    have hline := List.count_eq_zero.2 (t.newline_notMem_echoWith shown)
    simp [echoLines_cons, hline, ih]

theorem echoLines_injective (shown : Char → Bool) {ts us : List Token}
    (h : echoLines shown ts = echoLines shown us) : ts = us := by
  have hline : PrefixFree fun t : Token => (t.echoWith shown).toList ++ ['\n'] := by
    intro t u rest rest' heq
    simp only [List.append_assoc] at heq
    obtain ⟨rfl, hrest⟩ := Token.echoWith_prefixFree shown t u _ _ heq
    exact ⟨rfl, List.append_cancel_left hrest⟩
  have hne (t : Token) (after : List Char) :
      (t.echoWith shown).toList ++ ['\n'] ++ after ≠ [] := by simp
  have heq := congrArg String.toList h
  rw [toList_echoLines, toList_echoLines] at heq
  exact (hline.flatMap hne hne (congrArg (· ++ []) heq)).1

/-- The echoes of some tokens take one line each and tell all the tokens, both their kinds and their
literals, whichever characters stand for themselves in a literal. -/
theorem echoLines_decodable (shown : Char → Bool) :
    (∀ ts, (echoLines shown ts).toList.count '\n' = ts.length) ∧
      (∀ ts us, echoLines shown ts = echoLines shown us → ts = us) ∧
      ∀ ts, echoLines Text.isShown ts = String.join (tokenLines ts) :=
  ⟨count_newline_echoLines shown, fun _ _ => echoLines_injective shown, fun _ => rfl⟩

end LetLang
