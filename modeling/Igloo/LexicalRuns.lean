import Igloo.QueryNormalization
import Igloo.TextTrimming

/-!
# Spelling variants of a query

The lexical normal form, read against a cutting of the text into runs at the
blanks outside quotes.  The character loop keeps its output equal to the runs
cut so far with single spaces between them, whatever the blanks were, and it
copies quoted text character by character.
-/

namespace Igloo

namespace CacheLayer

open RustText

/-- How a character changes which quotes a position is inside. -/
def QuoteState.next : QuoteState → Char → QuoteState
  | .none, ch =>
      if ch = '\'' then .single else if ch = '"' then .double else .none
  | .single, ch => if ch = '\'' then .none else .single
  | .double, ch => if ch = '"' then .none else .double

/-- The quotes that the end of a text is inside. -/
def quotesAfter (text : List Char) : QuoteState :=
  text.foldl QuoteState.next .none

/-- All quotes of the text are closed. -/
def Balanced (text : List Char) : Prop :=
  quotesAfter text = .none

instance (text : List Char) : Decidable (Balanced text) :=
  inferInstanceAs (Decidable (quotesAfter text = .none))

/-- A text cut so far: the finished runs and the one being read. -/
structure Cutting where
  runs : List (List Char)
  current : List Char
  state : QuoteState
  deriving DecidableEq, Repr

namespace Cutting

/-- All runs, the one being read included. -/
def finished (cutting : Cutting) : List (List Char) :=
  if cutting.current = [] then cutting.runs
  else cutting.runs ++ [cutting.current]

/-- A blank outside quotes ends a run; any other character continues it. -/
def next (cutting : Cutting) (ch : Char) : Cutting :=
  if cutting.state = .none ∧ isWhitespace ch then
    ⟨cutting.finished, [], .none⟩
  else
    ⟨cutting.runs, cutting.current ++ [ch], cutting.state.next ch⟩

end Cutting

def cut (text : List Char) : Cutting :=
  text.foldl Cutting.next ⟨[], [], .none⟩

/-- The runs of a text between the blanks outside quotes. -/
def runs (text : List Char) : List (List Char) :=
  (cut text).finished

/-- The quoted segments read so far, each with its delimiters. -/
structure Quoting where
  segments : List (List Char)
  current : List Char
  state : QuoteState
  deriving DecidableEq, Repr

/-- Inside quotes every character is kept; outside none is. -/
def Quoting.next (quoting : Quoting) (ch : Char) : Quoting :=
  let state := quoting.state.next ch
  if state = .none then
    if quoting.state = .none then quoting
    else ⟨quoting.segments ++ [quoting.current ++ [ch]], [], .none⟩
  else ⟨quoting.segments, quoting.current ++ [ch], state⟩

def quoting (text : List Char) : Quoting :=
  text.foldl Quoting.next ⟨[], [], .none⟩

/-- The quoted segments of a text, in order; a doubled quote ends one segment
and starts the next. -/
def quotedSegments (text : List Char) : List (List Char) :=
  (quoting text).segments

/-- The runs of a text less one trailing semicolon. -/
def withoutSemicolon (runs : List (List Char)) : List (List Char) :=
  match runs.getLast? with
  | some run =>
      if run = [';'] then runs.dropLast
      else if run.getLast? = some ';' then runs.dropLast ++ [run.dropLast]
      else runs
  | none => runs

section QuoteTracking

variable {text : List Char} {ch : Char} {state : QuoteState}

theorem isWhitespace_semicolon : isWhitespace ';' = false := rfl

theorem isWhitespace_space : isWhitespace ' ' = true := rfl

/-- Blanks neither open nor close quotes. -/
theorem next_of_isWhitespace (blank : isWhitespace ch = true) :
    state.next ch = state := by
  have notSingle : ch ≠ '\'' := by
    rintro rfl
    cases blank
  have notDouble : ch ≠ '"' := by
    rintro rfl
    cases blank
  cases state <;> simp [QuoteState.next, notSingle, notDouble]

theorem next_semicolon (state : QuoteState) : state.next ';' = state := by
  cases state <;> rfl

theorem quotesAfter_append (first second : List Char) :
    quotesAfter (first ++ second) =
      second.foldl QuoteState.next (quotesAfter first) :=
  List.foldl_append

theorem quotesAfter_concat (text : List Char) (ch : Char) :
    quotesAfter (text ++ [ch]) = (quotesAfter text).next ch := by
  rw [quotesAfter_append]
  rfl

theorem foldl_next_of_blank (blank : Blank text) :
    text.foldl QuoteState.next state = state :=
  foldl_of_blank (fun _ isBlank => next_of_isWhitespace isBlank) blank

theorem scanStep_of_blank {scan : LexicalScan} (outside : scan.state = .none)
    (blank : isWhitespace ch = true) :
    scanStep scan ch = { scan with pendingSpace := true } := by
  simp only [scanStep, outside, blank, if_true]

/-- Outside quotes any other character is written, after the remembered blank
unless it would come first. -/
theorem scanStep_of_visible {scan : LexicalScan}
    (outside : scan.state = .none) (visible : isWhitespace ch = false) :
    scanStep scan ch =
      ⟨(if scan.pendingSpace && !scan.out.isEmpty then scan.out ++ [' ']
          else scan.out) ++ [ch],
        QuoteState.next .none ch, false⟩ := by
  simp only [scanStep, outside, visible, Bool.false_eq_true, if_false]
  rfl

theorem scanStep_of_quoted {scan : LexicalScan}
    (quoted : scan.state ≠ .none) (ch : Char) :
    scanStep scan ch =
      ⟨scan.out ++ [ch], scan.state.next ch, scan.pendingSpace⟩ := by
  obtain ⟨out, state, pendingSpace⟩ := scan
  cases state with
  | none => exact absurd rfl quoted
  | single => rfl
  | double => rfl

theorem scanStep_state (scan : LexicalScan) (ch : Char) :
    (scanStep scan ch).state = scan.state.next ch := by
  by_cases outside : scan.state = .none
  · by_cases blank : isWhitespace ch = true
    · rw [scanStep_of_blank outside blank]
      exact (next_of_isWhitespace blank).symm
    · rw [scanStep_of_visible outside (by simpa using blank), outside]
  · rw [scanStep_of_quoted outside]

theorem foldl_scanStep_state (scan : LexicalScan) (text : List Char) :
    (text.foldl scanStep scan).state =
      text.foldl QuoteState.next scan.state := by
  induction text generalizing scan with
  | nil => rfl
  | cons ch text induction =>
      rw [List.foldl_cons, List.foldl_cons, induction, scanStep_state]

end QuoteTracking

section Spacing

variable {pieces : List (List Char)} {piece : List Char}

theorem intercalate_concat (pieces : List (List Char))
    (piece : List Char) :
    [' '].intercalate (pieces ++ [piece]) =
      if pieces = [] then piece
      else [' '].intercalate pieces ++ ' ' :: piece := by
  induction pieces with
  | nil => simp
  | cons first pieces induction =>
      cases pieces with
      | nil => simp
      | cons second pieces =>
          rw [if_neg (List.cons_ne_nil _ _)] at induction ⊢
          rw [List.cons_append, List.cons_append,
            List.intercalate_cons_cons, ← List.cons_append, induction,
            List.intercalate_cons_cons]
          simp

theorem intercalate_concat_concat (pieces : List (List Char))
    (piece : List Char) (ch : Char) :
    [' '].intercalate (pieces ++ [piece ++ [ch]]) =
      [' '].intercalate (pieces ++ [piece]) ++ [ch] := by
  rw [intercalate_concat, intercalate_concat]
  split
  · rfl
  · simp

theorem intercalate_ne_nil (nonempty : pieces ≠ [])
    (visible : ∀ piece ∈ pieces, piece ≠ []) :
    [' '].intercalate pieces ≠ [] := by
  rcases List.eq_nil_or_concat pieces with rfl | ⟨front, last, rfl⟩
  · exact absurd rfl nonempty
  · rw [List.concat_eq_append] at visible ⊢
    have lastNonempty : last ≠ [] := visible last (by simp)
    rw [intercalate_concat]
    split
    · exact lastNonempty
    · simp

end Spacing

/-- The loop has written the runs cut so far, with single spaces between. -/
structure SpellsRuns (scan : LexicalScan) (cutting : Cutting) : Prop where
  state_eq : scan.state = cutting.state
  out_eq : scan.out = [' '].intercalate cutting.finished
  runs_ne_nil : ∀ run ∈ cutting.runs, run ≠ []
  quoted : cutting.state ≠ .none → cutting.current ≠ []
  pending : cutting.finished ≠ [] →
    (scan.pendingSpace = true ↔ cutting.current = [])

namespace SpellsRuns

variable {scan : LexicalScan} {cutting : Cutting}

theorem initially : SpellsRuns ⟨[], .none, false⟩ ⟨[], [], .none⟩ where
  state_eq := rfl
  out_eq := rfl
  runs_ne_nil := by simp
  quoted := by simp
  pending := by simp [Cutting.finished]

theorem finished_ne_nil (spells : SpellsRuns scan cutting) :
    ∀ run ∈ cutting.finished, run ≠ [] := by
  intro run runMem
  unfold Cutting.finished at runMem
  split at runMem
  next => exact spells.runs_ne_nil run runMem
  next reading =>
    rcases List.mem_append.mp runMem with earlier | last
    · exact spells.runs_ne_nil run earlier
    · rw [List.mem_singleton.mp last]
      exact reading

theorem out_ne_nil (spells : SpellsRuns scan cutting)
    (nonempty : cutting.finished ≠ []) : scan.out ≠ [] := by
  rw [spells.out_eq]
  exact intercalate_ne_nil nonempty spells.finished_ne_nil

/-- The shape every continued run has. -/
theorem continued (spells : SpellsRuns scan cutting) {ch : Char}
    {out : List Char} {state : QuoteState} {pendingSpace : Bool}
    (stateEq : state = cutting.state.next ch)
    (outEq : out =
      [' '].intercalate (cutting.runs ++ [cutting.current ++ [ch]]))
    (settled : pendingSpace = false) :
    SpellsRuns ⟨out, state, pendingSpace⟩
      ⟨cutting.runs, cutting.current ++ [ch], cutting.state.next ch⟩ where
  state_eq := stateEq
  out_eq := by simpa [Cutting.finished] using outEq
  runs_ne_nil := spells.runs_ne_nil
  quoted := by simp
  pending := by simp [settled]

theorem settled (spells : SpellsRuns scan cutting)
    (reading : cutting.current ≠ []) :
    scan.pendingSpace = false ∧
      scan.out = [' '].intercalate (cutting.runs ++ [cutting.current]) := by
  have finishedEq : cutting.finished = cutting.runs ++ [cutting.current] :=
    if_neg reading
  have nonempty : cutting.finished ≠ [] := by simp [finishedEq]
  constructor
  · have notPending := mt (spells.pending nonempty).mp reading
    simpa using notPending
  · rw [spells.out_eq, finishedEq]

theorem next_of_reading (spells : SpellsRuns scan cutting) {ch : Char}
    (reading : cutting.current ≠ []) :
    scan.out ++ [ch] =
      [' '].intercalate (cutting.runs ++ [cutting.current ++ [ch]]) := by
  rw [intercalate_concat_concat, (spells.settled reading).2]

theorem next_of_quoted (spells : SpellsRuns scan cutting)
    (quoted : cutting.state ≠ .none) (ch : Char) :
    SpellsRuns (scanStep scan ch) (cutting.next ch) := by
  have reading := spells.quoted quoted
  have cutEq : cutting.next ch =
      ⟨cutting.runs, cutting.current ++ [ch], cutting.state.next ch⟩ := by
    simp [Cutting.next, quoted]
  rw [cutEq, scanStep_of_quoted (by rwa [spells.state_eq]),
    spells.state_eq]
  exact spells.continued rfl (spells.next_of_reading reading)
    (spells.settled reading).1

theorem next_of_visible (spells : SpellsRuns scan cutting) {ch : Char}
    (outside : cutting.state = .none) (visible : isWhitespace ch = false) :
    SpellsRuns (scanStep scan ch) (cutting.next ch) := by
  have cutEq : cutting.next ch =
      ⟨cutting.runs, cutting.current ++ [ch], cutting.state.next ch⟩ := by
    simp [Cutting.next, visible]
  rw [cutEq, scanStep_of_visible (spells.state_eq.trans outside) visible]
  apply spells.continued
  · rw [outside]
  · by_cases reading : cutting.current = []
    · have finishedEq : cutting.finished = cutting.runs := if_pos reading
      have outEq : scan.out = [' '].intercalate cutting.runs := by
        rw [← finishedEq]
        exact spells.out_eq
      rw [reading, List.nil_append, intercalate_concat]
      by_cases first : cutting.runs = []
      · have outNil : scan.out = [] := by simpa [first] using outEq
        simp [outNil, first]
      · have nonempty : cutting.finished ≠ [] := by rwa [finishedEq]
        have pending : scan.pendingSpace = true :=
          (spells.pending nonempty).mpr reading
        have outNe : scan.out ≠ [] := spells.out_ne_nil nonempty
        simp [pending, outNe, first, ← outEq]
    · have notPending : scan.pendingSpace = false :=
        (spells.settled reading).1
      have appended : scan.out ++ [ch] =
          [' '].intercalate (cutting.runs ++ [cutting.current ++ [ch]]) :=
        spells.next_of_reading reading
      simpa [notPending] using appended
  · rfl

theorem next (spells : SpellsRuns scan cutting) (ch : Char) :
    SpellsRuns (scanStep scan ch) (cutting.next ch) := by
  by_cases outside : cutting.state = .none
  · by_cases blank : isWhitespace ch = true
    · have cutEq : cutting.next ch = ⟨cutting.finished, [], .none⟩ := by
        simp [Cutting.next, outside, blank]
      rw [cutEq, scanStep_of_blank (spells.state_eq.trans outside) blank]
      refine ⟨spells.state_eq.trans outside, ?_, spells.finished_ne_nil,
        by simp, by simp⟩
      simpa [Cutting.finished] using spells.out_eq
    · exact spells.next_of_visible outside (by simpa using blank)
  · exact spells.next_of_quoted outside ch

theorem foldl (spells : SpellsRuns scan cutting) (text : List Char) :
    SpellsRuns (text.foldl scanStep scan)
      (text.foldl Cutting.next cutting) := by
  induction text generalizing scan cutting with
  | nil => exact spells
  | cons ch text induction => exact induction (spells.next ch)

end SpellsRuns

/-- The character loop joins the runs of a text with single spaces. -/
theorem scan_out_eq (text : List Char) :
    (text.foldl scanStep ⟨[], .none, false⟩).out =
      [' '].intercalate (runs text) :=
  (SpellsRuns.initially.foldl text).out_eq

section Cutting

variable {text front back : List Char} {ch : Char}

theorem cut_concat (text : List Char) (ch : Char) :
    cut (text ++ [ch]) = (cut text).next ch := by
  simp [cut]

theorem cut_state (text : List Char) :
    (cut text).state = quotesAfter text := by
  have spells := SpellsRuns.initially.foldl text
  rw [cut, ← spells.state_eq, foldl_scanStep_state]
  rfl

theorem finished_foldl_of_blank {cutting : Cutting} (blank : Blank back)
    (outside : cutting.state = .none) :
    (back.foldl Cutting.next cutting).finished = cutting.finished := by
  induction back generalizing cutting with
  | nil => rfl
  | cons ch back induction =>
      obtain ⟨first, others⟩ := blank_cons_iff.mp blank
      have cutEq : cutting.next ch = ⟨cutting.finished, [], .none⟩ := by
        simp [Cutting.next, outside, first]
      rw [List.foldl_cons, cutEq, induction others rfl]
      rfl

theorem runs_append_of_blank (blank : Blank back) (balanced : Balanced text) :
    runs (text ++ back) = runs text := by
  unfold runs cut
  rw [List.foldl_append]
  exact finished_foldl_of_blank blank ((cut_state text).trans balanced)

theorem foldl_cutting_of_blank (blank : Blank front) :
    front.foldl Cutting.next ⟨[], [], .none⟩ = ⟨[], [], .none⟩ := by
  apply foldl_of_blank _ blank
  intro ch isBlank
  simp [Cutting.next, isBlank, Cutting.finished]

theorem runs_blank_append (blank : Blank front) (text : List Char) :
    runs (front ++ text) = runs text := by
  unfold runs cut
  rw [List.foldl_append, foldl_cutting_of_blank blank]

theorem runs_concat_of_visible (visible : isWhitespace ch = false)
    (text : List Char) :
    runs (text ++ [ch]) = (cut text).runs ++ [(cut text).current ++ [ch]] := by
  unfold runs
  rw [cut_concat]
  simp [Cutting.next, visible, Cutting.finished]

theorem withoutSemicolon_runs_concat (text : List Char) :
    withoutSemicolon (runs (text ++ [';'])) = runs text := by
  rw [runs_concat_of_visible isWhitespace_semicolon]
  by_cases reading : (cut text).current = []
  · simp [withoutSemicolon, runs, Cutting.finished, reading]
  · simp [withoutSemicolon, runs, Cutting.finished, reading]

theorem withoutSemicolon_runs_of_solid (solid : Solid text)
    (noSemicolon : text.getLast? ≠ some ';') :
    withoutSemicolon (runs text) = runs text := by
  rcases List.eq_nil_or_concat text with rfl | ⟨front, ch, rfl⟩
  · rfl
  · rw [List.concat_eq_append] at solid noSemicolon ⊢
    have visible := solid.last_visible ch (by simp)
    have different : ch ≠ ';' := by simpa using noSemicolon
    rw [runs_concat_of_visible visible]
    have notOnly : (cut front).current ++ [ch] ≠ [';'] := by
      intro same
      have lastEq := congrArg List.getLast? same
      simp [different] at lastEq
    simp [withoutSemicolon, notOnly, different]

end Cutting

section Body

variable {text : List Char}

theorem quotesAfter_append_of_blank {back : List Char} (blank : Blank back)
    (text : List Char) : quotesAfter (text ++ back) = quotesAfter text := by
  rw [quotesAfter_append, foldl_next_of_blank blank]

theorem quotesAfter_blank_append {front : List Char} (blank : Blank front)
    (text : List Char) : quotesAfter (front ++ text) = quotesAfter text := by
  unfold quotesAfter
  rw [List.foldl_append, foldl_next_of_blank blank]

theorem quotesAfter_concat_semicolon (text : List Char) :
    quotesAfter (text ++ [';']) = quotesAfter text := by
  rw [quotesAfter_concat, next_semicolon]

theorem lexicalBody_of_not_semicolon
    (noSemicolon : (trim text).getLast? ≠ some ';') :
    lexicalBody text = trim text := by
  simp [lexicalBody, stripSuffix, noSemicolon]

theorem lexicalBody_of_concat {stripped : List Char}
    (shape : trim text = stripped ++ [';']) :
    lexicalBody text = trimEnd stripped := by
  simp [lexicalBody, stripSuffix, shape]

/-- A text is its body with blanks around it, and after them one semicolon if
the trimmed text ends in one. -/
theorem exists_lexicalBody (text : List Char) :
    ∃ front back, Blank front ∧ Blank back ∧
      ((text = front ++ lexicalBody text ++ back ∧
          Solid (lexicalBody text) ∧
          (lexicalBody text).getLast? ≠ some ';') ∨
        ∃ between, Blank between ∧
          text = front ++ lexicalBody text ++ between ++ [';'] ++ back) := by
  obtain ⟨front, back, frontBlank, backBlank, split⟩ :=
    exists_blank_trim_blank text
  refine ⟨front, back, frontBlank, backBlank, ?_⟩
  by_cases semicolon : (trim text).getLast? = some ';'
  · right
    obtain ⟨stripped, shape⟩ := List.getLast?_eq_some_iff.mp semicolon
    obtain ⟨between, betweenBlank, endSplit⟩ :=
      exists_trimEnd_append_blank stripped
    refine ⟨between, betweenBlank, ?_⟩
    rw [lexicalBody_of_concat shape, List.append_assoc front, ← endSplit,
      List.append_assoc front, ← shape]
    exact split
  · left
    rw [lexicalBody_of_not_semicolon semicolon]
    exact ⟨split, solid_trim text, semicolon⟩

theorem quotesAfter_lexicalBody (text : List Char) :
    quotesAfter (lexicalBody text) = quotesAfter text := by
  obtain ⟨front, back, frontBlank, backBlank,
    ⟨split, -, -⟩ | ⟨between, betweenBlank, split⟩⟩ :=
    exists_lexicalBody text
  · conv_rhs => rw [split]
    rw [quotesAfter_append_of_blank backBlank,
      quotesAfter_blank_append frontBlank]
  · conv_rhs => rw [split]
    rw [quotesAfter_append_of_blank backBlank, quotesAfter_concat_semicolon,
      quotesAfter_append_of_blank betweenBlank,
      quotesAfter_blank_append frontBlank]

/-- The body of a balanced text has the runs of the text, less one trailing
semicolon. -/
theorem runs_lexicalBody (balanced : Balanced text) :
    runs (lexicalBody text) = withoutSemicolon (runs text) := by
  have bodyBalanced : Balanced (lexicalBody text) :=
    (quotesAfter_lexicalBody text).trans balanced
  obtain ⟨front, back, frontBlank, backBlank,
    ⟨split, solid, noSemicolon⟩ | ⟨between, betweenBlank, split⟩⟩ :=
    exists_lexicalBody text
  · have innerBalanced : Balanced (front ++ lexicalBody text) :=
      (quotesAfter_blank_append frontBlank _).trans bodyBalanced
    conv_rhs => rw [split]
    rw [runs_append_of_blank backBlank innerBalanced,
      runs_blank_append frontBlank,
      withoutSemicolon_runs_of_solid solid noSemicolon]
  · have innerBalanced : Balanced (front ++ lexicalBody text) :=
      (quotesAfter_blank_append frontBlank _).trans bodyBalanced
    have outerBalanced :
        Balanced (front ++ lexicalBody text ++ between ++ [';']) :=
      (quotesAfter_concat_semicolon _).trans
        ((quotesAfter_append_of_blank betweenBlank _).trans innerBalanced)
    conv_rhs => rw [split]
    rw [runs_append_of_blank backBlank outerBalanced,
      withoutSemicolon_runs_concat,
      runs_append_of_blank betweenBlank innerBalanced,
      runs_blank_append frontBlank]

/-- The lexical key of a balanced text, in terms of its runs. -/
theorem normalizeLexical_eq_of_balanced {sql : String}
    (balanced : Balanced sql.toList) :
    (normalizeLexical sql).toList =
      [' '].intercalate (withoutSemicolon (runs sql.toList)) := by
  rw [normalizeLexical, String.toList_ofList, scan_out_eq,
    runs_lexicalBody balanced]

theorem lexicalBody_semicolon {back : List Char} (backBlank : Blank back)
    (text : List Char) : lexicalBody (text ++ [';'] ++ back) = trim text := by
  have shape : trim (text ++ [';'] ++ back) = trimStart text ++ [';'] := by
    rw [trim_append_of_blank backBlank,
      trim_concat_of_not isWhitespace_semicolon]
  exact lexicalBody_of_concat shape

theorem solid_lexicalBody (text : List Char) : Solid (lexicalBody text) := by
  obtain ⟨front, back, frontBlank, backBlank,
    ⟨-, solid, -⟩ | ⟨between, betweenBlank, split⟩⟩ := exists_lexicalBody text
  · exact solid
  · rw [split, lexicalBody_semicolon backBlank]
    exact solid_trim _

end Body

section Quoting

variable {text : List Char} {quoting : Quoting}

theorem quoting_next_state (quoting : Quoting) (ch : Char) :
    (quoting.next ch).state = quoting.state.next ch := by
  simp only [Quoting.next]
  split
  next closed =>
    split
    next outside => rw [closed, outside]
    next => exact closed.symm
  next => rfl

/-- Characters outside quotes that open none leave no trace. -/
theorem quoting_next_of_outside {ch : Char}
    (outside : quoting.state = .none)
    (stays : QuoteState.next .none ch = .none) :
    quoting.next ch = quoting := by
  simp [Quoting.next, outside, stays]

theorem quoting_next_of_isWhitespace {ch : Char}
    (outside : quoting.state = .none) (blank : isWhitespace ch = true) :
    quoting.next ch = quoting :=
  quoting_next_of_outside outside (next_of_isWhitespace blank)

theorem quoting_state (text : List Char) :
    (CacheLayer.quoting text).state = quotesAfter text := by
  induction text using List.reverseRecOn with
  | nil => rfl
  | append_singleton text ch induction =>
      rw [quotesAfter_concat, ← induction, ← quoting_next_state]
      simp [CacheLayer.quoting]

theorem foldl_quoting_of_blank {back : List Char} (blank : Blank back)
    (outside : quoting.state = .none) :
    back.foldl Quoting.next quoting = quoting :=
  foldl_of_blank
    (fun _ isBlank => quoting_next_of_isWhitespace outside isBlank) blank

theorem quoting_append (first second : List Char) :
    CacheLayer.quoting (first ++ second) =
      second.foldl Quoting.next (CacheLayer.quoting first) :=
  List.foldl_append

theorem quotedSegments_append_of_blank {back : List Char}
    (blank : Blank back) (balanced : Balanced text) :
    quotedSegments (text ++ back) = quotedSegments text := by
  unfold quotedSegments
  rw [quoting_append,
    foldl_quoting_of_blank blank ((quoting_state text).trans balanced)]

theorem quotedSegments_blank_append {front : List Char}
    (blank : Blank front) (text : List Char) :
    quotedSegments (front ++ text) = quotedSegments text := by
  unfold quotedSegments CacheLayer.quoting
  rw [List.foldl_append, foldl_quoting_of_blank blank rfl]

theorem quotedSegments_concat_semicolon (balanced : Balanced text) :
    quotedSegments (text ++ [';']) = quotedSegments text := by
  unfold quotedSegments
  rw [quoting_append, List.foldl_cons, List.foldl_nil,
    quoting_next_of_outside ((quoting_state text).trans balanced)
      (next_semicolon _)]

theorem quotedSegments_lexicalBody (balanced : Balanced text) :
    quotedSegments (lexicalBody text) = quotedSegments text := by
  have bodyBalanced : Balanced (lexicalBody text) :=
    (quotesAfter_lexicalBody text).trans balanced
  obtain ⟨front, back, frontBlank, backBlank,
    ⟨split, -, -⟩ | ⟨between, betweenBlank, split⟩⟩ :=
    exists_lexicalBody text
  · have innerBalanced : Balanced (front ++ lexicalBody text) :=
      (quotesAfter_blank_append frontBlank _).trans bodyBalanced
    conv_rhs => rw [split]
    rw [quotedSegments_append_of_blank backBlank innerBalanced,
      quotedSegments_blank_append frontBlank]
  · have innerBalanced : Balanced (front ++ lexicalBody text) :=
      (quotesAfter_blank_append frontBlank _).trans bodyBalanced
    have beforeBalanced : Balanced (front ++ lexicalBody text ++ between) :=
      (quotesAfter_append_of_blank betweenBlank _).trans innerBalanced
    have outerBalanced :
        Balanced (front ++ lexicalBody text ++ between ++ [';']) :=
      (quotesAfter_concat_semicolon _).trans beforeBalanced
    conv_rhs => rw [split]
    rw [quotedSegments_append_of_blank backBlank outerBalanced,
      quotedSegments_concat_semicolon beforeBalanced,
      quotedSegments_append_of_blank betweenBlank innerBalanced,
      quotedSegments_blank_append frontBlank]

/-- The loop copies quoted text: its output reads as the text it has seen. -/
structure CopiesQuotes (scan : LexicalScan) (quoting : Quoting) : Prop where
  state_eq : scan.state = quoting.state
  out_eq : CacheLayer.quoting scan.out = quoting

theorem copiesQuotes_scanStep {scan : LexicalScan}
    (copies : CopiesQuotes scan quoting) (ch : Char) :
    CopiesQuotes (scanStep scan ch) (quoting.next ch) where
  state_eq := by
    rw [scanStep_state, quoting_next_state, copies.state_eq]
  out_eq := by
    have appended : CacheLayer.quoting (scan.out ++ [ch]) =
        quoting.next ch := by
      rw [quoting_append, copies.out_eq]
      rfl
    by_cases outside : scan.state = .none
    · have quotingOutside := copies.state_eq.symm.trans outside
      by_cases blank : isWhitespace ch = true
      · rw [scanStep_of_blank outside blank,
          quoting_next_of_isWhitespace quotingOutside blank]
        exact copies.out_eq
      · rw [scanStep_of_visible outside (by simpa using blank)]
        split
        next =>
          -- the remembered blank leaves no trace outside quotes
          have spaced : CacheLayer.quoting (scan.out ++ [' ']) = quoting := by
            rw [quoting_append, copies.out_eq]
            exact quoting_next_of_isWhitespace quotingOutside
              isWhitespace_space
          rw [quoting_append, spaced]
          rfl
        next => exact appended
    · rw [scanStep_of_quoted outside]
      exact appended

theorem quotedSegments_scan_out (text : List Char) :
    quotedSegments (text.foldl scanStep ⟨[], .none, false⟩).out =
      quotedSegments text := by
  have copies : CopiesQuotes (text.foldl scanStep ⟨[], .none, false⟩)
      (CacheLayer.quoting text) := by
    induction text using List.reverseRecOn with
    | nil => exact ⟨rfl, rfl⟩
    | append_singleton text ch induction =>
        rw [List.foldl_append, quoting_append]
        exact copiesQuotes_scanStep induction ch
  exact congrArg Quoting.segments copies.out_eq

end Quoting

/-- Two spellings of a text whose quotes are closed share a key if they have
the same runs; a final semicolon does not matter; and the key consists of the
runs, less one trailing semicolon, with single spaces between them, so that
its quoted segments are those of the text. -/
theorem spellings_share_key (sql : String) (balanced : Balanced sql.toList) :
    (∀ other : String, Balanced other.toList →
        runs other.toList = runs sql.toList →
        normalizeLexical other = normalizeLexical sql) ∧
      (∀ before after : String, Blank before.toList → Blank after.toList →
        (trim sql.toList).getLast? ≠ some ';' →
        normalizeLexical (sql ++ before ++ ";" ++ after) =
          normalizeLexical sql) ∧
      (normalizeLexical sql).toList =
        [' '].intercalate (withoutSemicolon (runs sql.toList)) ∧
      quotedSegments (normalizeLexical sql).toList =
        quotedSegments sql.toList := by
  refine ⟨?_, ?_, normalizeLexical_eq_of_balanced balanced, ?_⟩
  · intro other otherBalanced sameRuns
    apply String.toList_injective
    rw [normalizeLexical_eq_of_balanced otherBalanced,
      normalizeLexical_eq_of_balanced balanced, sameRuns]
  · intro before after beforeBlank afterBlank noSemicolon
    have textEq : (sql ++ before ++ ";" ++ after).toList =
        sql.toList ++ before.toList ++ [';'] ++ after.toList := by
      simp
    rw [normalizeLexical, normalizeLexical, textEq,
      lexicalBody_semicolon afterBlank,
      trim_append_of_blank beforeBlank,
      lexicalBody_of_not_semicolon noSemicolon]
  · rw [normalizeLexical, String.toList_ofList, quotedSegments_scan_out,
      quotedSegments_lexicalBody balanced]

theorem spellings_share_key_quoted :
    normalizeLexical "SELECT  'it''s\t \" ',\n\"a  b\" ;" =
      "SELECT 'it''s\t \" ', \"a  b\"" ∧
    normalizeLexical "SELECT 'it''s\t \" ', \"a  b\" \n;\t" =
      normalizeLexical "SELECT 'it''s\t \" ', \"a  b\"" := by
  have laws := spellings_share_key "SELECT 'it''s\t \" ', \"a  b\""
    (by decide)
  exact ⟨by decide, laws.2.1 " \n" "\t" (by decide) (by decide) (by decide)⟩

end CacheLayer

end Igloo
