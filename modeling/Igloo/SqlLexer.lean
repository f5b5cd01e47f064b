import Mathlib.Data.List.DropRight
import Mathlib.Data.Nat.Digits.Lemmas
import Mathlib.Tactic.FinCases

/-!
# The lexical rules of PostgreSQL

A lexer that reads one character at a time.  Quoted identifiers and strings
are decoded, unquoted words are folded to lower case, an operator is the
longest run of operator characters that does not start a comment, and comments
are kept as tokens so that their absence can be stated.  Strings with a
prefix, numbers with an exponent and dollar quotes are outside the fragment
and rejected.
-/

namespace Igloo

namespace SqlLexer

inductive Token
  | word (text : List Char)
  | quotedIdent (name : List Char)
  | string (text : List Char)
  | integer (value : Nat)
  | decimal (digits decimals : List Char)
  | operator (text : List Char)
  | punctuation (mark : Char)
  | comment
  deriving DecidableEq, Repr

/-- What the lexer is in the middle of. -/
inductive State
  | start
  | word (text : List Char)
  | quoted (name : List Char)
  /-- A double quote inside a quoted identifier. -/
  | quotedEnd (name : List Char)
  | string (text : List Char)
  /-- A single quote inside a string. -/
  | stringEnd (text : List Char)
  /-- White space after a string, with or without a line break. -/
  | stringGap (text : List Char) (lineBreak : Bool)
  | integer (digits : List Char)
  | decimal (digits decimals : List Char)
  | dot
  | operator (text : List Char)
  | lineComment
  | blockComment (depth : Nat) (previous : Char)
  deriving DecidableEq, Repr

def isSpace (ch : Char) : Bool :=
  ch ∈ [' ', '\t', '\n', '\r', '\x0b', '\x0c']

def isLineBreak (ch : Char) : Bool :=
  ch = '\n' || ch = '\r'

def isIdentStart (ch : Char) : Bool :=
  ch.isAlpha || ch = '_' || 128 ≤ ch.toNat

def isIdentPart (ch : Char) : Bool :=
  isIdentStart ch || ch.isDigit || ch = '$'

def isOperatorChar (ch : Char) : Bool :=
  ch ∈ "~!@#^&|`?+-*/%<>=".toList

def isPunctuation (ch : Char) : Bool :=
  ch ∈ "(),;[]:".toList

/-- An operator that ends in a sign is cut before it, unless it contains one
of the characters that no operator of standard SQL has. -/
def operatorTokens (text : List Char) : List Token :=
  let special := text.any fun ch => ch ∈ "~!@#^&|`?%".toList
  let isSign := fun ch => ch = '+' || ch = '-'
  let kept :=
    if special then text
    else
      match text with
      | [] => []
      | first :: rest => first :: rest.rdropWhile isSign
  .operator kept :: (text.drop kept.length).map fun ch => .operator [ch]

/-- What a character starts outside of any token. -/
def startStep (ch : Char) : Option (State × List Token) :=
  if isSpace ch then some (.start, [])
  else if ch = '"' then some (.quoted [], [])
  else if ch = '\'' then some (.string [], [])
  else if isIdentStart ch then some (.word [ch.toLower], [])
  else if ch.isDigit then some (.integer [ch], [])
  else if ch = '.' then some (.dot, [])
  else if isOperatorChar ch then some (.operator [ch], [])
  else if isPunctuation ch then some (.start, [.punctuation ch])
  else none

/-- A character that ends a token and starts the next one. -/
def flush (tokens : List Token) (ch : Char) : Option (State × List Token) :=
  (startStep ch).map fun next => (next.1, tokens ++ next.2)

/-- The words that change the meaning of a quote right after them. -/
def quotePrefixes : List (List Char) :=
  ["e".toList, "b".toList, "x".toList, "n".toList]

/-- One character: the next state and the tokens it completes. -/
def step : State → Char → Option (State × List Token)
  | .start, ch => startStep ch
  | .word text, ch =>
      if isIdentPart ch then some (.word (text ++ [ch.toLower]), [])
      else if ch = '\'' && text ∈ quotePrefixes then none
      else if ch = '&' && text = "u".toList then none
      else flush [.word text] ch
  | .quoted name, ch =>
      if ch = '"' then some (.quotedEnd name, [])
      else if ch = '\x00' then none
      else some (.quoted (name ++ [ch]), [])
  | .quotedEnd name, ch =>
      if ch = '"' then some (.quoted (name ++ [ch]), [])
      else if name = [] then none
      else flush [.quotedIdent name] ch
  | .string text, ch =>
      if ch = '\'' then some (.stringEnd text, [])
      else if ch = '\x00' then none
      else some (.string (text ++ [ch]), [])
  | .stringEnd text, ch =>
      if ch = '\'' then some (.string (text ++ [ch]), [])
      else if isSpace ch then some (.stringGap text (isLineBreak ch), [])
      else flush [.string text] ch
  | .stringGap text lineBreak, ch =>
      -- strings that only a line break separates are one string
      if ch = '\'' && lineBreak then some (.string text, [])
      else if isSpace ch then
        some (.stringGap text (lineBreak || isLineBreak ch), [])
      else flush [.string text] ch
  | .integer digits, ch =>
      if ch.isDigit then some (.integer (digits ++ [ch]), [])
      else if ch = '.' then some (.decimal digits [], [])
      else if isIdentPart ch then none
      else flush [.integer (Nat.ofDigitChars 10 digits 0)] ch
  | .decimal digits decimals, ch =>
      if ch.isDigit then some (.decimal digits (decimals ++ [ch]), [])
      else if ch = '.' || isIdentPart ch then none
      else flush [.decimal digits decimals] ch
  | .dot, ch =>
      if ch.isDigit then some (.decimal [] [ch], [])
      else if ch = '.' then none
      else flush [.punctuation '.'] ch
  | .operator text, ch =>
      if ch = '-' && text.getLast? = some '-' then
        some (.lineComment,
          if text.dropLast = [] then [] else operatorTokens text.dropLast)
      else if ch = '*' && text.getLast? = some '/' then
        some (.blockComment 1 ' ',
          if text.dropLast = [] then [] else operatorTokens text.dropLast)
      else if isOperatorChar ch then some (.operator (text ++ [ch]), [])
      else flush (operatorTokens text) ch
  | .lineComment, ch =>
      if isLineBreak ch then some (.start, [.comment])
      else if ch = '\x00' then none
      else some (.lineComment, [])
  | .blockComment depth previous, ch =>
      if previous = '*' && ch = '/' then
        if depth ≤ 1 then some (.start, [.comment])
        else some (.blockComment (depth - 1) ' ', [])
      else if previous = '/' && ch = '*' then
        some (.blockComment (depth + 1) ' ', [])
      else if ch = '\x00' then none
      else some (.blockComment depth ch, [])

/-- The tokens that the end of the text completes. -/
def finish : State → Option (List Token)
  | .start => some []
  | .word text => some [.word text]
  | .quotedEnd name => if name = [] then none else some [.quotedIdent name]
  | .stringEnd text | .stringGap text _ => some [.string text]
  | .integer digits => some [.integer (Nat.ofDigitChars 10 digits 0)]
  | .decimal digits decimals => some [.decimal digits decimals]
  | .dot => some [.punctuation '.']
  | .operator text => some (operatorTokens text)
  | .lineComment => some [.comment]
  | .quoted _ | .string _ | .blockComment _ _ => none

/-- Read the rest of a text, with the tokens read before it in reverse. -/
def lexFrom : State → List Token → List Char → Option (List Token)
  | state, before, [] =>
      (finish state).map fun last => before.reverse ++ last
  | state, before, ch :: rest =>
      match step state ch with
      | none => none
      | some (next, completed) =>
          lexFrom next (completed.reverse ++ before) rest

/-- The tokens of a text. -/
def lex (text : String) : Option (List Token) :=
  lexFrom .start [] text.toList

example : lex "SELECT \"a\"\"b\" <> 'c''d'; -- e" =
    some [.word "select".toList, .quotedIdent "a\"b".toList,
      .operator "<>".toList, .string "c'd".toList, .punctuation ';',
      .comment] := by
  decide

/-- What may follow a token without changing it: the end, a comma, a closing
parenthesis, or a space before something other than space or a string. -/
def Neutral : List Char → Prop
  | [] => True
  | ',' :: _ => True
  | ')' :: _ => True
  | ' ' :: ch :: _ => isSpace ch = false ∧ ch ≠ '\''
  | _ => False

theorem Neutral.shapes {rest : List Char} (neutral : Neutral rest) :
    rest = [] ∨ (∃ after, rest = ',' :: after) ∨
      (∃ after, rest = ')' :: after) ∨
      ∃ ch after, isSpace ch = false ∧ ch ≠ '\'' ∧
        rest = ' ' :: ch :: after := by
  unfold Neutral at neutral
  split at neutral
  · exact Or.inl rfl
  · exact Or.inr (Or.inl ⟨_, rfl⟩)
  · exact Or.inr (Or.inr (Or.inl ⟨_, rfl⟩))
  · exact Or.inr (Or.inr (Or.inr ⟨_, _, neutral.1, neutral.2, rfl⟩))
  · exact neutral.elim

/-- The text reads as the tokens, whatever follows. -/
def Reads (text : List Char) (tokens : List Token) : Prop :=
  ∀ before rest, lexFrom .start before (text ++ rest) =
    lexFrom .start (tokens.reverse ++ before) rest

/-- The text reads as the tokens before neutral text. -/
def ReadsBefore (text : List Char) (tokens : List Token) : Prop :=
  ∀ before rest, Neutral rest → lexFrom .start before (text ++ rest) =
    lexFrom .start (tokens.reverse ++ before) rest

/-- Double every occurrence of a quote. -/
def doubled (quote : Char) (text : List Char) : List Char :=
  text.flatMap fun ch => if ch = quote then [quote, quote] else [ch]

theorem Reads.readsBefore {text : List Char} {tokens : List Token}
    (reads : Reads text tokens) : ReadsBefore text tokens :=
  fun before rest _ => reads before rest

theorem Reads.append {first second : List Char}
    {firstTokens secondTokens : List Token} (reads : Reads first firstTokens)
    (then_reads : Reads second secondTokens) :
    Reads (first ++ second) (firstTokens ++ secondTokens) := by
  intro before rest
  rw [List.append_assoc, reads, then_reads]
  simp

theorem Reads.append_readsBefore {first second : List Char}
    {firstTokens secondTokens : List Token} (reads : Reads first firstTokens)
    (then_reads : ReadsBefore second secondTokens) :
    ReadsBefore (first ++ second) (firstTokens ++ secondTokens) := by
  intro before rest neutral
  rw [List.append_assoc, reads, then_reads _ _ neutral]
  simp

/-- A separator is read after a token when it is neutral whatever follows. -/
theorem ReadsBefore.append_reads {first separator : List Char}
    {firstTokens tokens : List Token} (reads : ReadsBefore first firstTokens)
    (neutral : ∀ rest, Neutral (separator ++ rest))
    (then_reads : Reads separator tokens) :
    Reads (first ++ separator) (firstTokens ++ tokens) := by
  intro before rest
  rw [List.append_assoc, reads _ _ (neutral rest), then_reads]
  simp

theorem ReadsBefore.append_readsBefore {first second : List Char}
    {firstTokens secondTokens : List Token}
    (reads : ReadsBefore first firstTokens)
    (neutral : ∀ rest, Neutral (second ++ rest))
    (then_reads : ReadsBefore second secondTokens) :
    ReadsBefore (first ++ second) (firstTokens ++ secondTokens) := by
  intro before rest restNeutral
  rw [List.append_assoc, reads _ _ (neutral rest), then_reads _ _ restNeutral]
  simp

theorem ReadsBefore.lex {text : String} {tokens : List Token}
    (reads : ReadsBefore text.toList tokens) : lex text = some tokens := by
  have whole := reads [] [] trivial
  rw [List.append_nil] at whole
  rw [SqlLexer.lex, whole]
  simp [lexFrom, finish]

/-- A text that may follow a token and leaves no other trace than its own
tokens, such as a clause that can be absent. -/
def Continues (text : List Char) (tokens : List Token) : Prop :=
  ∀ first firstTokens, ReadsBefore first firstTokens →
    ReadsBefore (first ++ text) (firstTokens ++ tokens)

theorem continues_nil : Continues [] [] := by
  intro first firstTokens reads
  simpa using reads

theorem ReadsBefore.continues {text : List Char} {tokens : List Token}
    (reads : ReadsBefore text tokens)
    (neutral : ∀ rest, Neutral (text ++ rest)) : Continues text tokens :=
  fun _ _ first_reads => first_reads.append_readsBefore neutral reads

theorem readsBefore_intercalate {texts : List (List Char)}
    {pieces : List (List Token)}
    (reads : List.Forall₂ ReadsBefore texts pieces)
    {separator : List Char} {separatorTokens : List Token}
    (neutral : ∀ rest, Neutral (separator ++ rest))
    (separates : Reads separator separatorTokens) (nonempty : texts ≠ []) :
    ReadsBefore (separator.intercalate texts)
      (separatorTokens.intercalate pieces) := by
  induction reads with
  | nil => exact absurd rfl nonempty
  | cons here later induction =>
      cases later with
      | nil => simpa using here
      | cons second others =>
          have both := (here.append_reads neutral separates).append_readsBefore
            (induction (List.cons_ne_nil _ _))
          simpa [List.intercalate_cons_cons] using both

theorem lexFrom_of_flush {state : State} {tokens : List Token} {ch : Char}
    (flushed : step state ch = flush tokens ch) (before : List Token)
    (rest : List Char) :
    lexFrom state before (ch :: rest) =
      lexFrom .start (tokens.reverse ++ before) (ch :: rest) := by
  rw [lexFrom, flushed, lexFrom, step]
  cases begun : startStep ch with
  | none => simp [flush, begun]
  | some next => simp [flush, begun]

/-- A text that leaves the lexer in a state which every neutral text closes. -/
theorem readsBefore_of_state {text : List Char} {token : Token}
    (state : State)
    (consumed : ∀ before rest,
      lexFrom .start before (text ++ rest) = lexFrom state before rest)
    (finished : finish state = some [token])
    (flushed : ∀ ch ∈ [',', ')', ' '], step state ch = flush [token] ch) :
    ReadsBefore text [token] := by
  intro before rest neutral
  rw [consumed]
  rcases neutral.shapes with rfl | ⟨after, rfl⟩ | ⟨after, rfl⟩ |
    ⟨ch, after, -, -, rfl⟩
  · rw [lexFrom, finished]
    simp [lexFrom, finish]
  · exact lexFrom_of_flush (flushed ',' (by simp)) before after
  · exact lexFrom_of_flush (flushed ')' (by simp)) before after
  · exact lexFrom_of_flush (flushed ' ' (by simp)) before (ch :: after)

/-- A quoted text whose quotes are doubled is read up to its closing quote. -/
theorem lexFrom_doubled (inside closing : List Char → State) (quote : Char)
    (closes : ∀ text, step (inside text) quote = some (closing text, []))
    (reopens : ∀ text,
      step (closing text) quote = some (inside (text ++ [quote]), []))
    (collects : ∀ text ch, ch ≠ quote → ch ≠ '\x00' →
      step (inside text) ch = some (inside (text ++ [ch]), []))
    {text : List Char} (noNul : '\x00' ∉ text) (started : List Char)
    (before : List Token) (rest : List Char) :
    lexFrom (inside started) before (doubled quote text ++ quote :: rest) =
      lexFrom (closing (started ++ text)) before rest := by
  induction text generalizing started with
  | nil => simp [doubled, lexFrom, closes]
  | cons ch text induction =>
      simp only [List.mem_cons, not_or] at noNul
      have later := induction noNul.2 (started ++ [ch])
      rw [List.append_assoc, List.singleton_append] at later
      by_cases same : ch = quote
      · subst same
        simpa [doubled, lexFrom, closes, reopens] using later
      · simpa [doubled, lexFrom, same, collects _ ch same (Ne.symm noNul.1)]
          using later

/-- The text of a quoted identifier. -/
def quotedText (name : List Char) : List Char :=
  '"' :: (doubled '"' name ++ ['"'])

theorem lexFrom_quotedText {name : List Char} (noNul : '\x00' ∉ name)
    (before : List Token) (rest : List Char) :
    lexFrom .start before (quotedText name ++ rest) =
      lexFrom (.quotedEnd name) before rest := by
  have inside := lexFrom_doubled .quoted .quotedEnd '"'
    (by simp [step]) (by simp [step])
    (fun _ _ other notNul => by simp [step, other, notNul])
    noNul [] before rest
  simpa [quotedText, lexFrom, step, startStep, isSpace] using inside

theorem step_quotedEnd {name : List Char} (nonempty : name ≠ []) {ch : Char}
    (notQuote : ch ≠ '"') :
    step (.quotedEnd name) ch = flush [.quotedIdent name] ch := by
  simp [step, notQuote, nonempty]

theorem readsBefore_quotedIdent {name : List Char} (nonempty : name ≠ [])
    (noNul : '\x00' ∉ name) :
    ReadsBefore (quotedText name) [.quotedIdent name] := by
  refine readsBefore_of_state (.quotedEnd name) (lexFrom_quotedText noNul)
    (by simp [finish, nonempty]) ?_
  intro ch chMem
  refine step_quotedEnd nonempty ?_
  rintro rfl
  simp at chMem

theorem readsBefore_qualified {qualifier name : List Char}
    (qualifier_nonempty : qualifier ≠ []) (qualifier_noNul : '\x00' ∉ qualifier)
    (nonempty : name ≠ []) (noNul : '\x00' ∉ name) :
    ReadsBefore (quotedText qualifier ++ '.' :: quotedText name)
      [.quotedIdent qualifier, .punctuation '.', .quotedIdent name] := by
  intro before rest neutral
  calc lexFrom .start before
        (quotedText qualifier ++ '.' :: quotedText name ++ rest)
      = lexFrom (.quotedEnd qualifier) before
          ('.' :: (quotedText name ++ rest)) := by
        rw [List.append_assoc, lexFrom_quotedText qualifier_noNul,
          List.cons_append]
    _ = lexFrom .dot (.quotedIdent qualifier :: before)
          (quotedText name ++ rest) :=
        lexFrom_of_flush (step_quotedEnd qualifier_nonempty (by decide))
          before _
    _ = lexFrom .start (.punctuation '.' :: .quotedIdent qualifier :: before)
          (quotedText name ++ rest) :=
        lexFrom_of_flush
          (show step .dot '"' = flush [.punctuation '.'] '"' from rfl) _ _
    _ = _ := by
        rw [readsBefore_quotedIdent nonempty noNul _ rest neutral]
        simp

theorem readsBefore_string {text : List Char} (noNul : '\x00' ∉ text) :
    ReadsBefore ('\'' :: (doubled '\'' text ++ ['\''])) [.string text] := by
  intro before rest neutral
  have inside := lexFrom_doubled .string .stringEnd '\''
    (by simp [step]) (by simp [step])
    (fun _ _ other notNul => by simp [step, other, notNul])
    noNul [] before rest
  have consumed : lexFrom .start before
      ('\'' :: (doubled '\'' text ++ ['\'']) ++ rest) =
        lexFrom (.stringEnd text) before rest := by
    simpa [lexFrom, step, startStep, isSpace] using inside
  rw [consumed]
  rcases neutral.shapes with rfl | ⟨after, rfl⟩ | ⟨after, rfl⟩ |
    ⟨ch, after, notSpace, notQuote, rfl⟩
  · simp [lexFrom, finish]
  · rfl
  · rfl
  · have gap : step (.stringGap text false) ch = flush [.string text] ch := by
      simp [step, notSpace, notQuote]
    exact lexFrom_of_flush gap before after

theorem isDigit_cases {ch : Char} (digit : ch.isDigit) :
    ch ∈ ['0', '1', '2', '3', '4', '5', '6', '7', '8', '9'] := by
  simp only [Char.isDigit, Bool.and_eq_true, decide_eq_true_eq] at digit
  obtain ⟨low, high⟩ := digit
  have lowNat : 48 ≤ ch.toNat := UInt32.le_iff_toNat_le.mp low
  have highNat : ch.toNat ≤ 57 := UInt32.le_iff_toNat_le.mp high
  rw [← Char.ofNat_toNat ch]
  generalize ch.toNat = code at lowNat highNat
  interval_cases code <;> decide

theorem startStep_of_isDigit {ch : Char} (digit : ch.isDigit) :
    startStep ch = some (.integer [ch], []) := by
  have listed := isDigit_cases digit
  fin_cases listed <;> rfl

theorem lexFrom_integer {digits : List Char}
    (isDigit : ∀ ch ∈ digits, ch.isDigit) (started : List Char)
    (before : List Token) (rest : List Char) :
    lexFrom (.integer started) before (digits ++ rest) =
      lexFrom (.integer (started ++ digits)) before rest := by
  induction digits generalizing started with
  | nil => simp
  | cons ch digits induction =>
      obtain ⟨here, later⟩ := List.forall_mem_cons.mp isDigit
      simpa [lexFrom, step, here] using induction later (started ++ [ch])

theorem lexFrom_decimal {decimals : List Char}
    (isDigit : ∀ ch ∈ decimals, ch.isDigit) (digits started : List Char)
    (before : List Token) (rest : List Char) :
    lexFrom (.decimal digits started) before (decimals ++ rest) =
      lexFrom (.decimal digits (started ++ decimals)) before rest := by
  induction decimals generalizing started with
  | nil => simp
  | cons ch decimals induction =>
      obtain ⟨here, later⟩ := List.forall_mem_cons.mp isDigit
      simpa [lexFrom, step, here] using induction later (started ++ [ch])

theorem lexFrom_digits {digits : List Char} (nonempty : digits ≠ [])
    (isDigit : ∀ ch ∈ digits, ch.isDigit) (before : List Token)
    (rest : List Char) :
    lexFrom .start before (digits ++ rest) =
      lexFrom (.integer digits) before rest := by
  cases digits with
  | nil => exact absurd rfl nonempty
  | cons ch digits =>
      obtain ⟨here, later⟩ := List.forall_mem_cons.mp isDigit
      simpa [lexFrom, step, startStep_of_isDigit here] using
        lexFrom_integer later [ch] before rest

theorem readsBefore_integer {digits : List Char} (nonempty : digits ≠ [])
    (isDigit : ∀ ch ∈ digits, ch.isDigit) :
    ReadsBefore digits [.integer (Nat.ofDigitChars 10 digits 0)] :=
  readsBefore_of_state (.integer digits) (lexFrom_digits nonempty isDigit) rfl
    fun ch chMem => by
      simp only [List.mem_cons, List.not_mem_nil, or_false] at chMem
      rcases chMem with rfl | rfl | rfl <;> rfl

theorem readsBefore_decimal {digits decimals : List Char}
    (nonempty : digits ≠ []) (isDigit : ∀ ch ∈ digits, ch.isDigit)
    (decimals_isDigit : ∀ ch ∈ decimals, ch.isDigit) :
    ReadsBefore (digits ++ '.' :: decimals) [.decimal digits decimals] := by
  refine readsBefore_of_state (.decimal digits decimals) ?_ rfl ?_
  · intro before rest
    rw [List.append_assoc, lexFrom_digits nonempty isDigit]
    simpa [lexFrom, step] using
      lexFrom_decimal decimals_isDigit digits [] before rest
  · intro ch chMem
    simp only [List.mem_cons, List.not_mem_nil, or_false] at chMem
    rcases chMem with rfl | rfl | rfl <;> rfl

/-- A minus sign before a digit is an operator of its own. -/
theorem readsBefore_negative {digit : Char} {text : List Char}
    {tokens : List Token} (isDigit : digit.isDigit)
    (reads : ReadsBefore (digit :: text) tokens) :
    ReadsBefore ('-' :: digit :: text) (.operator ['-'] :: tokens) := by
  intro before rest neutral
  have minus : step (.operator ['-']) digit =
      flush [.operator ['-']] digit := by
    have listed := isDigit_cases isDigit
    fin_cases listed <;> rfl
  calc lexFrom .start before ('-' :: digit :: text ++ rest)
      = lexFrom (.operator ['-']) before (digit :: (text ++ rest)) := rfl
    _ = lexFrom .start (.operator ['-'] :: before) (digit :: text ++ rest) :=
        lexFrom_of_flush minus before _
    _ = lexFrom .start ((.operator ['-'] :: tokens).reverse ++ before)
          rest := by
        rw [reads _ rest neutral]
        simp

/-- A word that a keyword lemma needs is evaluated; what follows it is not. -/
theorem readsBefore_word {text word : List Char}
    (consumed : ∀ before rest,
      lexFrom .start before (text ++ rest) =
        lexFrom (.word word) before rest) :
    ReadsBefore text [.word word] :=
  readsBefore_of_state (.word word) consumed rfl fun ch chMem => by
    simp only [List.mem_cons, List.not_mem_nil, or_false] at chMem
    rcases chMem with rfl | rfl | rfl <;> simp [step, isIdentPart, isIdentStart]

end SqlLexer

end Igloo
