import Gatekeep.Support.Decimal

/-!
# Gatekeep.Support.SqlTokens

The words of SQL text. `lex` is a state machine over characters that knows words, quoted text,
comments, one-character symbols and placeholders. A text may be lexed piece by piece, provided that
no token runs over from one piece into the next: the second piece starts with a character that ends
every token (`lex_append`), or the first piece leaves nothing open (`lex_of_settles`).

Placeholders are `?`, counted from the left, or `$n`. `fill` puts the bound values in their place and
`label` takes them out again (`fill_label`).
-/

namespace SqlSyntax

/-- What differs between dialects in the way tokens are written. -/
structure Dialect where
  /-- Placeholders are `$1`, `$2` and so on; otherwise `?`. -/
  numbered : Bool
  /-- In quoted text a backslash takes the next character with it. -/
  backslash : Bool

/-! ## Tokens -/

inductive Keyword where
  | and
  | or
  | not
  | is
  | caseStart
  | whenBranch
  | thenBranch
  | elseBranch
  | caseEnd
deriving DecidableEq

def keywords : List (String × Keyword) :=
  [("AND", .and), ("OR", .or), ("NOT", .not), ("IS", .is), ("CASE", .caseStart),
    ("WHEN", .whenBranch), ("THEN", .thenBranch), ("ELSE", .elseBranch), ("END", .caseEnd)]

/-- Keywords are recognised in either case. -/
def keywordOf (word : List Char) : Option Keyword :=
  (keywords.find? fun entry => entry.1.toList == word.map Char.toUpper).map Prod.snd

inductive Lexeme where
  | keyword (keyword : Keyword)
  | word (text : String)
  | quoted (text : String)
  | symbol (c : Char)
deriving DecidableEq

/-- A token, with the placeholders written as `α`. -/
inductive Token (α : Type) where
  | lexeme (lexeme : Lexeme)
  | placeholder (a : α)
deriving DecidableEq

/-- A placeholder as written: its number, if it has one. -/
abbrev Mark := Option Nat

def lexemeOf (word : List Char) : Lexeme :=
  match keywordOf word with
  | some keyword => .keyword keyword
  | none => .word (String.ofList word)

/-! ## The lexer -/

/-- What the characters since the last token have begun. -/
inductive Mode where
  | between
  | word (text : List Char)
  | question
  | dollar
  | parameter (number : Nat)
  | operator (c : Char)
  | quoted (quote : Char) (text : List Char)
  | escaped (quote : Char) (text : List Char)
  | lineComment
  | blockComment (star : Bool)
  | stuck

def isSpace (c : Char) : Bool := c == ' ' || c == '\t' || c == '\n' || c == '\r'

/-- The characters of names and numbers. A qualified name is one word. -/
def isWordChar (c : Char) : Bool :=
  let n := c.toNat
  (48 ≤ n && n ≤ 57) || (65 ≤ n && n ≤ 90) || (97 ≤ n && n ≤ 122) || c == '_' || c == '.' ||
    0x80 ≤ n

/-- The token that ends here, unless something is left open. -/
def Mode.close : Mode → Option (List (Token Mark))
  | .between => some []
  | .word text => some [.lexeme (lexemeOf text)]
  | .question => some [.placeholder none]
  | .parameter number => some [.placeholder (some number)]
  | .operator c => some [.lexeme (.symbol c)]
  | .dollar | .quoted .. | .escaped .. | .lineComment | .blockComment _ | .stuck => none

/-- A character that begins a token. -/
def start (d : Dialect) (c : Char) : Mode × List (Token Mark) :=
  if isSpace c then (.between, [])
  else if isWordChar c then (.word [c], [])
  else if c == '\'' || c == '"' || c == '`' then (.quoted c [], [])
  -- may open a comment
  else if c == '-' || c == '/' then (.operator c, [])
  else if d.numbered && c == '$' then (.dollar, [])
  else if !d.numbered && c == '?' then (.question, [])
  else (.between, [.lexeme (.symbol c)])

/-- End the token and begin the next. -/
def restart (d : Dialect) (ended : List (Token Mark)) (c : Char) : Mode × List (Token Mark) :=
  ((start d c).1, ended ++ (start d c).2)

def digitValue (c : Char) : Nat := c.toNat - '0'.toNat

def advance (d : Dialect) (c : Char) : Mode → Mode × List (Token Mark)
  | .between => start d c
  | .word text =>
    if isWordChar c || c == '$' then (.word (text ++ [c]), [])
    else restart d [.lexeme (lexemeOf text)] c
  | .question => if isWordChar c then (.stuck, []) else restart d [.placeholder none] c
  | .dollar => if c.isDigit then (.parameter (digitValue c), []) else (.stuck, [])
  | .parameter number =>
    if c.isDigit then (.parameter (10 * number + digitValue c), [])
    else if isWordChar c then (.stuck, [])
    else restart d [.placeholder (some number)] c
  | .operator first =>
    if first == '-' && c == '-' then (.lineComment, [])
    else if first == '/' && c == '*' then (.blockComment false, [])
    else restart d [.lexeme (.symbol first)] c
  | .quoted quote text =>
    if c == quote then (.between, [.lexeme (.quoted (String.ofList text))])
    else if d.backslash && c == '\\' then (.escaped quote text, [])
    else (.quoted quote (text ++ [c]), [])
  | .escaped quote text => (.quoted quote (text ++ [c]), [])
  | .lineComment => if c == '\n' then (.between, []) else (.lineComment, [])
  | .blockComment star => if star && c == '/' then (.between, []) else (.blockComment (c == '*'), [])
  | .stuck => (.stuck, [])

def scan (d : Dialect) : Mode → List Char → Mode × List (Token Mark)
  | mode, [] => (mode, [])
  | mode, c :: text =>
    ((scan d (advance d c mode).1 text).1,
      (advance d c mode).2 ++ (scan d (advance d c mode).1 text).2)

/-- The tokens of a whole text, if it is complete. -/
def lex (d : Dialect) (text : List Char) : Option (List (Token Mark)) :=
  (scan d .between text).1.close.map ((scan d .between text).2 ++ ·)

variable {d : Dialect} {s t : List Char} {a b : List (Token Mark)}

theorem scan_append (mode : Mode) (s t : List Char) :
    scan d mode (s ++ t) =
      ((scan d (scan d mode s).1 t).1, (scan d mode s).2 ++ (scan d (scan d mode s).1 t).2) := by
  induction s generalizing mode with
  | nil => rfl
  | cons c s ih =>
    rw [List.cons_append, scan, ih, scan]
    simp only [List.append_assoc]

/-! ## Lexing in pieces -/

/-- Characters that end every token that may end. -/
def isBoundary (c : Char) : Bool := c == ' ' || c == '(' || c == ')' || c == ','

theorem advance_boundary {mode : Mode} (h : mode.close = some a) {c : Char}
    (hc : isBoundary c = true) : advance d c mode = restart d a c := by
  simp only [isBoundary, Bool.or_eq_true, beq_iff_eq, or_assoc] at hc
  cases mode with
  | between =>
    cases h
    rfl
  | word text =>
    cases h
    rcases hc with rfl | rfl | rfl | rfl <;> rfl
  | question =>
    cases h
    rcases hc with rfl | rfl | rfl | rfl <;> rfl
  | parameter number =>
    cases h
    rcases hc with rfl | rfl | rfl | rfl <;> rfl
  | operator first =>
    cases h
    rw [advance, if_neg, if_neg]
    · rcases hc with rfl | rfl | rfl | rfl <;> simp
    · rcases hc with rfl | rfl | rfl | rfl <;> simp
  | dollar => cases h
  | quoted quote text => cases h
  | escaped quote text => cases h
  | lineComment => cases h
  | blockComment star => cases h
  | stuck => cases h

/-- A complete text followed by one that cannot go on with its last token. -/
theorem lex_append (hs : lex d s = some a) (ht : lex d t = some b)
    (hbound : ∀ c ∈ t.head?, isBoundary c = true) : lex d (s ++ t) = some (a ++ b) := by
  obtain ⟨ended, hended, rfl⟩ := Option.map_eq_some_iff.mp hs
  cases t with
  | nil =>
    have hb : b = [] := Option.some.inj ht.symm
    rw [hb, List.append_nil, List.append_nil]
    exact hs
  | cons c t =>
    obtain ⟨last, hlast, rfl⟩ := Option.map_eq_some_iff.mp ht
    have hstep := advance_boundary (d := d) hended (hbound c rfl)
    rw [scan, advance] at hlast
    rw [lex, scan_append, scan, hstep, restart, hlast, Option.map_some, scan, advance]
    simp only [List.append_assoc]

/-- The text leaves nothing open and no token unfinished. -/
def Settles (d : Dialect) (s : List Char) (a : List (Token Mark)) : Prop :=
  scan d .between s = (.between, a)

theorem lex_of_settles (hs : Settles d s a) (ht : lex d t = some b) :
    lex d (s ++ t) = some (a ++ b) := by
  obtain ⟨last, hlast, rfl⟩ := Option.map_eq_some_iff.mp ht
  rw [lex, scan_append, show scan d .between s = _ from hs, hlast, Option.map_some,
    List.append_assoc]

/-! ## Words and placeholders -/

theorem scan_word (hs : ∀ c ∈ s, isWordChar c = true) (text : List Char) :
    scan d (.word text) s = (.word (text ++ s), []) := by
  induction s generalizing text with
  | nil => rw [scan, List.append_nil]
  | cons c s ih =>
    obtain ⟨hc, hs⟩ := List.forall_mem_cons.mp hs
    have hstep : advance d c (.word text) = (.word (text ++ [c]), []) := by
      rw [advance, hc, Bool.true_or, if_pos rfl]
    rw [scan, hstep, ih hs, List.append_assoc]
    rfl

theorem not_isSpace_of_isWordChar {c : Char} (hc : isWordChar c = true) : isSpace c = false := by
  by_contra h
  simp only [isSpace, Bool.not_eq_false, Bool.or_eq_true, beq_iff_eq, or_assoc] at h
  rcases h with rfl | rfl | rfl | rfl <;> cases hc

theorem lex_word (hne : s ≠ []) (hs : ∀ c ∈ s, isWordChar c = true) :
    lex d s = some [.lexeme (lexemeOf s)] := by
  cases s with
  | nil => exact absurd rfl hne
  | cons c s =>
    obtain ⟨hc, hs⟩ := List.forall_mem_cons.mp hs
    have hstep : advance d c .between = (.word [c], []) := by
      rw [advance, start, not_isSpace_of_isWordChar hc, if_neg Bool.false_ne_true, if_pos hc]
    rw [lex, scan, hstep, scan_word hs]
    rfl

/-- No keyword has a dot in it. -/
theorem keywordOf_dotted (h : '.' ∈ s) : keywordOf s = none := by
  have hdot : ∀ entry ∈ keywords, '.' ∉ entry.1.toList := by decide
  have hupper : '.' ∈ s.map Char.toUpper := List.mem_map.mpr ⟨'.', h, rfl⟩
  rw [keywordOf, Option.map_eq_none_iff, List.find?_eq_none]
  intro entry hentry heq
  rw [← beq_iff_eq.mp heq] at hupper
  exact hdot entry hentry hupper

theorem scan_parameter (hs : ∀ c ∈ s, c.isDigit = true) (number : Nat) :
    scan d (.parameter number) s = (.parameter (Nat.ofDigitChars 10 s number), []) := by
  induction s generalizing number with
  | nil => rw [scan, Nat.ofDigitChars_nil]
  | cons c s ih =>
    obtain ⟨hc, hs⟩ := List.forall_mem_cons.mp hs
    have hstep : advance d c (.parameter number) =
        (.parameter (10 * number + digitValue c), []) := by
      rw [advance, if_pos hc]
    rw [scan, hstep, ih hs, Nat.ofDigitChars_cons]
    rfl

theorem lex_parameter (hd : d.numbered = true) (n : Nat) :
    lex d ('$' :: Nat.toDigits 10 n) = some [.placeholder (some n)] := by
  have hdollar : advance d '$' .between = (.dollar, []) := by
    rw [advance, start, hd]
    rfl
  have hdigits : ∀ c ∈ Nat.toDigits 10 n, c.isDigit = true := fun c => Decimal.isDigit_of_mem
  have hread := Nat.ofDigitChars_ten_toDigits (n := n)
  cases hn : Nat.toDigits 10 n with
  | nil => exact absurd hn Nat.toDigits_ne_nil
  | cons c s =>
    rw [hn] at hdigits hread
    obtain ⟨hc, hs⟩ := List.forall_mem_cons.mp hdigits
    have hfirst : advance d c .dollar = (.parameter (digitValue c), []) := by
      rw [advance, if_pos hc]
    rw [Nat.ofDigitChars_cons, Nat.mul_zero, Nat.zero_add] at hread
    rw [lex, scan, hdollar, scan, hfirst, scan_parameter hs]
    show some [Token.placeholder (some (Nat.ofDigitChars 10 s (digitValue c)))] = _
    rw [digitValue, hread]

theorem lex_questionMark (hd : d.numbered = false) : lex d ['?'] = some [.placeholder none] := by
  rw [lex, scan, advance, start, hd]
  rfl

/-! ## Bound values -/

section Values

variable {α : Type}

def Token.value? : Token α → Option α
  | .lexeme _ => none
  | .placeholder a => some a

/-- The values of the placeholders, in order. -/
def values (ts : List (Token α)) : List α := ts.filterMap Token.value?

/-- How placeholder number `n` is written. -/
def Dialect.mark (d : Dialect) (n : Nat) : Mark := if d.numbered then some n else none

/-- Write the placeholders, counting from `n + 1` on. -/
def label (d : Dialect) : Nat → List (Token α) → List (Token Mark)
  | _, [] => []
  | n, .lexeme l :: ts => .lexeme l :: label d n ts
  | n, .placeholder _ :: ts => .placeholder (d.mark (n + 1)) :: label d (n + 1) ts

/-- The value that a placeholder stands for, after `n` others. -/
def boundTo (bound : List α) (n : Nat) : Mark → Option α
  | none => bound[n]?
  | some 0 => none
  | some (k + 1) => bound[k]?

/-- Put the bound values in the place of the placeholders, of which `n` went before. -/
def fill (bound : List α) : Nat → List (Token Mark) → Option (List (Token α))
  | _, [] => some []
  | n, .lexeme l :: ts => (fill bound n ts).map (.lexeme l :: ·)
  | n, .placeholder mark :: ts => do
    let a ← boundTo bound n mark
    (fill bound (n + 1) ts).map (.placeholder a :: ·)

theorem boundTo_mark (bound : List α) (n : Nat) : boundTo bound n (d.mark (n + 1)) = bound[n]? := by
  rw [Dialect.mark]
  split <;> rfl

theorem values_append (s t : List (Token α)) : values (s ++ t) = values s ++ values t :=
  List.filterMap_append

theorem label_append (n : Nat) (s t : List (Token α)) :
    label d n (s ++ t) = label d n s ++ label d (n + (values s).length) t := by
  induction s generalizing n with
  | nil => rfl
  | cons x s ih =>
    cases x with
    | lexeme l =>
      rw [List.cons_append, label, ih, label]
      rfl
    | placeholder a =>
      have hlen : (values (.placeholder a :: s)).length = (values s).length + 1 := rfl
      rw [List.cons_append, label, ih, label, hlen, Nat.add_right_comm n 1, Nat.add_assoc n]
      rfl

theorem fill_label {bound rest : List α} (n : Nat) (ts : List (Token α))
    (h : bound.drop n = values ts ++ rest) : fill bound n (label d n ts) = some ts := by
  induction ts generalizing n with
  | nil => rfl
  | cons x ts ih =>
    cases x with
    | lexeme l =>
      rw [label, fill, ih n h]
      rfl
    | placeholder a =>
      have hdrop : bound.drop n = a :: (values ts ++ rest) := h
      have hhead : bound[n]? = some a := by
        rw [← List.head?_drop, hdrop]
        rfl
      have htail : bound.drop (n + 1) = values ts ++ rest := by
        rw [← List.tail_drop, hdrop]
        rfl
      rw [label, fill, boundTo_mark, hhead, ih (n + 1) htail]
      rfl

/-- The placeholders are written one after the other. -/
theorem values_label (n : Nat) (ts : List (Token α)) :
    values (label d n ts) = (List.range' (n + 1) (values ts).length).map d.mark := by
  induction ts generalizing n with
  | nil => rfl
  | cons x ts ih =>
    cases x with
    | lexeme l => exact ih n
    | placeholder a =>
      have hlen : (values (.placeholder a :: ts)).length = (values ts).length + 1 := rfl
      rw [hlen, List.range'_succ, List.map_cons, ← ih (n + 1)]
      rfl

end Values

end SqlSyntax
