import Igloo.LexicalRuns

/-!
# SQL tokens of a query text

The reading of a text that a cache key must not change: strings and quoted
identifiers are taken verbatim, a doubled quote inside them is an escaped one,
and `--` starts a comment up to the end of the line.  Everything else is split
at blanks only; what a stretch of other characters splits into depends on the
stretch alone.
-/

namespace Igloo

namespace CacheLayer

open RustText

/-- A token: a quoted text with its delimiters, a semicolon, or a stretch of
other characters. -/
inductive SqlToken
  | quoted (text : List Char)
  | semicolon
  | plain (stretch : List Char)
  deriving DecidableEq, Repr

inductive SqlQuote
  | string
  | identifier
  deriving DecidableEq, Repr

/-- The delimiter on both sides of a quoted text. -/
def SqlQuote.char : SqlQuote → Char
  | .string => '\''
  | .identifier => '"'

/-- Where the reader is.  `closing` is just past a quote that ends the quoted
text unless the next character doubles it. -/
inductive SqlMode
  | plain (stretch : List Char)
  | quoted (quote : SqlQuote) (text : List Char)
  | closing (quote : SqlQuote) (text : List Char)
  | comment
  deriving DecidableEq, Repr

structure SqlReading where
  tokens : List SqlToken
  mode : SqlMode
  deriving DecidableEq, Repr

/-- The token of a stretch, if it has any characters. -/
def stretchToken (stretch : List Char) : List SqlToken :=
  if stretch = [] then [] else [.plain stretch]

namespace SqlReading

def start : SqlReading :=
  ⟨[], .plain []⟩

/-- Reading on outside quotes and comments. -/
def nextPlain (tokens : List SqlToken) (stretch : List Char) (ch : Char) :
    SqlReading :=
  if isWhitespace ch then ⟨tokens ++ stretchToken stretch, .plain []⟩
  else if ch = '\'' then
    ⟨tokens ++ stretchToken stretch, .quoted .string [ch]⟩
  else if ch = '"' then
    ⟨tokens ++ stretchToken stretch, .quoted .identifier [ch]⟩
  else if ch = ';' then
    ⟨tokens ++ stretchToken stretch ++ [.semicolon], .plain []⟩
  else if ch = '-' ∧ stretch.getLast? = some '-' then
    ⟨tokens ++ stretchToken stretch.dropLast, .comment⟩
  else ⟨tokens, .plain (stretch ++ [ch])⟩

def next (reading : SqlReading) (ch : Char) : SqlReading :=
  match reading.mode with
  | .plain stretch => nextPlain reading.tokens stretch ch
  | .quoted quote text =>
      if ch = quote.char then ⟨reading.tokens, .closing quote (text ++ [ch])⟩
      else ⟨reading.tokens, .quoted quote (text ++ [ch])⟩
  | .closing quote text =>
      if ch = quote.char then ⟨reading.tokens, .quoted quote (text ++ [ch])⟩
      else nextPlain (reading.tokens ++ [.quoted text]) [] ch
  | .comment =>
      if ch = '\n' then ⟨reading.tokens, .plain []⟩ else reading

/-- The tokens at the end of the text; an open quote is an error. -/
def finish (reading : SqlReading) : Option (List SqlToken) :=
  match reading.mode with
  | .plain stretch => some (reading.tokens ++ stretchToken stretch)
  | .quoted _ _ => none
  | .closing _ text => some (reading.tokens ++ [.quoted text])
  | .comment => some reading.tokens

/-- Whether a blank would separate tokens here. -/
def separates (reading : SqlReading) : Bool :=
  match reading.mode with
  | .plain _ => true
  | .quoted _ _ => false
  | .closing _ _ => true
  | .comment => false

end SqlReading

def sqlReading (text : List Char) : SqlReading :=
  text.foldl SqlReading.next .start

def sqlTokens (text : List Char) : Option (List SqlToken) :=
  (sqlReading text).finish

/-- The same tokens, or one more semicolon at the end of one side. -/
def UpToSemicolon (first second : Option (List SqlToken)) : Prop :=
  first = second ∨ first = second.map (· ++ [.semicolon]) ∨
    second = first.map (· ++ [.semicolon])

instance (first second : Option (List SqlToken)) :
    Decidable (UpToSemicolon first second) :=
  inferInstanceAs (Decidable (_ ∨ _ ∨ _))

/-- Two texts are the same sequence of tokens up to one trailing semicolon. -/
def SameStatement (first second : String) : Prop :=
  UpToSemicolon (sqlTokens first.toList) (sqlTokens second.toList)

instance (first second : String) : Decidable (SameStatement first second) :=
  inferInstanceAs (Decidable (UpToSemicolon _ _))

/-- From here on, every blank outside the quotes that `normalize_lexical`
knows separates SQL tokens. -/
def BlanksSeparate : QuoteState → SqlReading → List Char → Prop
  | _, _, [] => True
  | state, reading, ch :: rest =>
      (state = .none → isWhitespace ch = true → reading.separates = true) ∧
        BlanksSeparate (state.next ch) (reading.next ch) rest

instance BlanksSeparate.decidable :
    ∀ state reading text, Decidable (BlanksSeparate state reading text)
  | _, _, [] => isTrue trivial
  | state, reading, ch :: rest =>
      let _ := BlanksSeparate.decidable (state.next ch) (reading.next ch) rest
      inferInstanceAs (Decidable (_ ∧ _))

/-- In the text, trimmed and less one trailing semicolon, no blank outside
quotes lies in a comment or in a string of SQL. -/
def SeparatesBlanks (sql : String) : Prop :=
  BlanksSeparate .none .start (lexicalBody sql.toList)

instance (sql : String) : Decidable (SeparatesBlanks sql) :=
  inferInstanceAs (Decidable (BlanksSeparate _ _ _))

section Reading

variable {reading : SqlReading} {ch : Char}

theorem sqlReading_append (first second : List Char) :
    sqlReading (first ++ second) =
      second.foldl SqlReading.next (sqlReading first) :=
  List.foldl_append

theorem sqlReading_concat (text : List Char) (ch : Char) :
    sqlReading (text ++ [ch]) = (sqlReading text).next ch := by
  rw [sqlReading_append]
  rfl

theorem ne_char_of_isWhitespace (blank : isWhitespace ch = true)
    (quote : SqlQuote) : ch ≠ quote.char := by
  rintro rfl
  cases quote <;> cases blank

/-- A separating blank ends the token being read, whichever blank it is. -/
theorem exists_next_of_separates (separates : reading.separates = true) :
    ∃ tokens, reading.finish = some tokens ∧
      ∀ ch, isWhitespace ch = true → reading.next ch = ⟨tokens, .plain []⟩ := by
  obtain ⟨tokens, mode⟩ := reading
  cases mode with
  | plain stretch =>
      refine ⟨tokens ++ stretchToken stretch, rfl, ?_⟩
      intro ch blank
      simp only [SqlReading.next, SqlReading.nextPlain, blank, if_true]
  | quoted quote text => cases separates
  | closing quote text =>
      refine ⟨tokens ++ [.quoted text], rfl, ?_⟩
      intro ch blank
      simp only [SqlReading.next, SqlReading.nextPlain, blank, if_true,
        if_neg (ne_char_of_isWhitespace blank quote)]
      simp [stretchToken]
  | comment => cases separates

theorem next_eq_of_separates {other : Char}
    (separates : reading.separates = true) (blank : isWhitespace ch = true)
    (otherBlank : isWhitespace other = true) :
    reading.next ch = reading.next other := by
  obtain ⟨tokens, -, nextEq⟩ := exists_next_of_separates separates
  rw [nextEq ch blank, nextEq other otherBlank]

theorem separates_next (separates : reading.separates = true)
    (blank : isWhitespace ch = true) :
    (reading.next ch).separates = true := by
  obtain ⟨tokens, -, nextEq⟩ := exists_next_of_separates separates
  rw [nextEq ch blank]
  rfl

theorem next_next_of_separates {other : Char}
    (separates : reading.separates = true) (blank : isWhitespace ch = true)
    (otherBlank : isWhitespace other = true) :
    (reading.next ch).next other = reading.next ch := by
  obtain ⟨tokens, -, nextEq⟩ := exists_next_of_separates separates
  rw [nextEq ch blank]
  simp [SqlReading.next, SqlReading.nextPlain, otherBlank, stretchToken]

theorem finish_next_of_separates (separates : reading.separates = true)
    (blank : isWhitespace ch = true) :
    (reading.next ch).finish = reading.finish := by
  obtain ⟨tokens, finishEq, nextEq⟩ := exists_next_of_separates separates
  rw [nextEq ch blank, finishEq]
  simp [SqlReading.finish, stretchToken]

theorem start_next_of_isWhitespace (blank : isWhitespace ch = true) :
    SqlReading.start.next ch = .start := by
  simp [SqlReading.next, SqlReading.nextPlain, SqlReading.start, blank,
    stretchToken]

theorem foldl_start_of_blank {text : List Char} (blank : Blank text) :
    text.foldl SqlReading.next .start = .start :=
  foldl_of_blank (fun _ isBlank => start_next_of_isWhitespace isBlank) blank

theorem sqlReading_blank_append {front : List Char} (blank : Blank front)
    (text : List Char) : sqlReading (front ++ text) = sqlReading text := by
  unfold sqlReading
  rw [List.foldl_append, foldl_start_of_blank blank]

theorem blanksSeparate_append {state : QuoteState} {first second : List Char} :
    BlanksSeparate state reading (first ++ second) ↔
      BlanksSeparate state reading first ∧
        BlanksSeparate (first.foldl QuoteState.next state)
          (first.foldl SqlReading.next reading) second := by
  induction first generalizing state reading with
  | nil => simp [BlanksSeparate]
  | cons ch first induction =>
      simp only [List.cons_append, BlanksSeparate, induction,
        List.foldl_cons, and_assoc]

end Reading

section Ends

variable {reading : SqlReading}

/-- Blanks at the end of a text are no tokens, wherever it ends. -/
theorem finish_next_of_isWhitespace {ch : Char}
    (blank : isWhitespace ch = true) :
    (reading.next ch).finish = reading.finish := by
  by_cases separates : reading.separates = true
  · exact finish_next_of_separates separates blank
  · obtain ⟨tokens, mode⟩ := reading
    cases mode with
    | plain stretch => exact absurd rfl separates
    | quoted quote text =>
        simp only [SqlReading.next,
          if_neg (ne_char_of_isWhitespace blank quote)]
        rfl
    | closing quote text => exact absurd rfl separates
    | comment =>
        simp only [SqlReading.next]
        split
        · simp [SqlReading.finish, stretchToken]
        · rfl

theorem finish_foldl_of_blank {back : List Char} (blank : Blank back) :
    (back.foldl SqlReading.next reading).finish = reading.finish := by
  induction back generalizing reading with
  | nil => rfl
  | cons ch back induction =>
      obtain ⟨first, others⟩ := blank_cons_iff.mp blank
      rw [List.foldl_cons, induction others,
        finish_next_of_isWhitespace first]

/-- A semicolon at the end is one token more, or it lies in a comment or in
a text whose quotes stay open. -/
theorem finish_next_semicolon (reading : SqlReading) :
    (reading.next ';').finish = reading.finish ∨
      (reading.next ';').finish =
        reading.finish.map (· ++ [.semicolon]) := by
  obtain ⟨tokens, mode⟩ := reading
  cases mode with
  | plain stretch =>
      right
      simp [SqlReading.next, SqlReading.nextPlain, isWhitespace_semicolon,
        SqlReading.finish, stretchToken]
  | quoted quote text =>
      left
      cases quote <;> rfl
  | closing quote text =>
      right
      cases quote <;> simp [SqlReading.next, SqlReading.nextPlain,
        SqlQuote.char, isWhitespace_semicolon, SqlReading.finish,
        stretchToken]
  | comment => exact Or.inl rfl

theorem sqlTokens_append_of_blank {back : List Char} (blank : Blank back)
    (text : List Char) : sqlTokens (text ++ back) = sqlTokens text := by
  unfold sqlTokens
  rw [sqlReading_append, finish_foldl_of_blank blank]

/-- Trimming a text and stripping its last semicolon removes one token at
most. -/
theorem sqlTokens_lexicalBody (text : List Char) :
    sqlTokens text = sqlTokens (lexicalBody text) ∨
      sqlTokens text =
        (sqlTokens (lexicalBody text)).map (· ++ [.semicolon]) := by
  obtain ⟨front, back, frontBlank, backBlank,
    ⟨split, -, -⟩ | ⟨between, betweenBlank, split⟩⟩ := exists_lexicalBody text
  · left
    conv_lhs => rw [split]
    rw [sqlTokens_append_of_blank backBlank, sqlTokens, sqlTokens,
      sqlReading_blank_append frontBlank]
  · have inner : (sqlReading (front ++ lexicalBody text ++ between)).finish =
        sqlTokens (lexicalBody text) := by
      rw [← sqlTokens, sqlTokens_append_of_blank betweenBlank, sqlTokens,
        sqlTokens, sqlReading_blank_append frontBlank]
    have outer : sqlTokens text =
        ((sqlReading (front ++ lexicalBody text ++ between)).next
          ';').finish := by
      conv_lhs => rw [split]
      rw [sqlTokens_append_of_blank backBlank, sqlTokens, sqlReading_concat]
    rw [outer, ← inner]
    exact finish_next_semicolon _

end Ends

end CacheLayer

end Igloo
