import Igloo.LexicalIdempotence
import Igloo.SqlTokens

/-!
# Which statements share a lexical key

The character loop replaces the blanks between runs by single spaces.  Where
each of these blanks separates SQL tokens, the SQL reading of the output is
that of the text, and so texts with the same key are the same statement.
Where such a blank lies in a comment it can be the end of the line, and then
the key merges a text with one that goes on after the comment.
-/

namespace Igloo

namespace CacheLayer

open RustText

theorem quotesAfter_out {scan : LexicalScan} (rescans : Rescans scan) :
    quotesAfter scan.out = scan.state := by
  have states := foldl_scanStep_state ⟨[], .none, false⟩ scan.out
  rw [rescans.again] at states
  exact states.symm

/-- SQL reads the text seen so far as it reads the output, up to a blank that
is remembered but not written. -/
structure ReadsAlike (scan : LexicalScan) (seen : List Char) : Prop where
  rescans : Rescans scan
  state_eq : quotesAfter seen = scan.state
  settled : scan.pendingSpace = false →
    sqlReading seen = sqlReading scan.out
  leading : scan.pendingSpace = true → scan.out = [] →
    sqlReading seen = .start
  spaced : scan.pendingSpace = true → scan.out ≠ [] →
    (sqlReading scan.out).separates = true ∧
      sqlReading seen = (sqlReading scan.out).next ' '
  outside : scan.pendingSpace = true → scan.state = .none
  separates : BlanksSeparate .none .start scan.out

section ReadsAlike

variable {scan : LexicalScan} {seen : List Char} {ch : Char}

theorem readsAlike_initially : ReadsAlike ⟨[], .none, false⟩ [] where
  rescans := rescans_foldl []
  state_eq := rfl
  settled := fun _ => rfl
  leading := fun _ _ => rfl
  spaced := fun _ nonempty => absurd rfl nonempty
  outside := fun _ => rfl
  separates := trivial

theorem blanksSeparate_out_concat (rescans : Rescans scan)
    (separates : BlanksSeparate .none .start scan.out)
    (allowed : scan.state = .none → isWhitespace ch = true →
      (sqlReading scan.out).separates = true) :
    BlanksSeparate .none .start (scan.out ++ [ch]) := by
  rw [blanksSeparate_append]
  refine ⟨separates, ?_, trivial⟩
  intro outside
  rw [← quotesAfter, quotesAfter_out rescans] at outside
  exact allowed outside

/-- A blank outside quotes is remembered; SQL reads on as after a space. -/
theorem readsAlike_of_blank (alike : ReadsAlike scan seen)
    (outside : scan.state = .none) (blank : isWhitespace ch = true)
    (separates : (sqlReading seen).separates = true) :
    ReadsAlike (scanStep scan ch) (seen ++ [ch]) := by
  have rescans := rescans_scanStep alike.rescans ch
  rw [scanStep_of_blank outside blank] at rescans ⊢
  refine ⟨rescans, ?_, by simp, ?_, ?_, fun _ => outside, alike.separates⟩
  · rw [quotesAfter_concat, alike.state_eq, next_of_isWhitespace blank]
  · intro _ nothing
    have unread : sqlReading seen = .start := by
      cases pending : scan.pendingSpace with
      | true => exact alike.leading pending nothing
      | false =>
          have sameReading := alike.settled pending
          rw [nothing] at sameReading
          exact sameReading
    rw [sqlReading_concat, unread, start_next_of_isWhitespace blank]
  · intro _ nonempty
    rw [sqlReading_concat]
    cases pending : scan.pendingSpace with
    | true =>
        obtain ⟨outSeparates, seenEq⟩ := alike.spaced pending nonempty
        refine ⟨outSeparates, ?_⟩
        rw [seenEq]
        exact next_next_of_separates outSeparates isWhitespace_space blank
    | false =>
        have sameReading := alike.settled pending
        rw [sameReading] at separates ⊢
        exact ⟨separates,
          next_eq_of_separates separates blank isWhitespace_space⟩

/-- A visible character is read after the space that was remembered. -/
theorem readsAlike_of_visible (alike : ReadsAlike scan seen)
    (outside : scan.state = .none) (visible : isWhitespace ch = false) :
    ReadsAlike (scanStep scan ch) (seen ++ [ch]) := by
  have rescans := rescans_scanStep alike.rescans ch
  have stateEq : quotesAfter (seen ++ [ch]) = QuoteState.next .none ch := by
    rw [quotesAfter_concat, alike.state_eq, outside]
  have notBlank : ¬ isWhitespace ch = true := by simp [visible]
  rw [scanStep_of_visible outside visible] at rescans ⊢
  by_cases spaced : (scan.pendingSpace && !scan.out.isEmpty) = true
  · obtain ⟨pending, written⟩ := Bool.and_eq_true_iff.mp spaced
    have nonempty : scan.out ≠ [] := by simpa using written
    obtain ⟨outSeparates, seenEq⟩ := alike.spaced pending nonempty
    have spaceSeparates : BlanksSeparate .none .start (scan.out ++ [' ']) :=
      blanksSeparate_out_concat alike.rescans alike.separates
        (fun _ _ => outSeparates)
    simp only [spaced, if_true] at rescans ⊢
    refine ⟨rescans, stateEq, ?_, by simp, by simp, by simp, ?_⟩
    · intro _
      rw [sqlReading_concat, sqlReading_concat, sqlReading_concat, seenEq]
    · rw [blanksSeparate_append]
      exact ⟨spaceSeparates, fun _ blank => absurd blank notBlank, trivial⟩
  · simp only [spaced, Bool.false_eq_true, if_false] at rescans ⊢
    have sameReading : sqlReading seen = sqlReading scan.out := by
      cases pending : scan.pendingSpace with
      | false => exact alike.settled pending
      | true =>
          have nothing : scan.out = [] := by simpa [pending] using spaced
          rw [alike.leading pending nothing, nothing]
          rfl
    refine ⟨rescans, stateEq, ?_, by simp, by simp, by simp, ?_⟩
    · intro _
      rw [sqlReading_concat, sqlReading_concat, sameReading]
    · exact blanksSeparate_out_concat alike.rescans alike.separates
        (fun _ blank => absurd blank notBlank)

theorem readsAlike_of_quoted (alike : ReadsAlike scan seen)
    (quoted : scan.state ≠ .none) (ch : Char) :
    ReadsAlike (scanStep scan ch) (seen ++ [ch]) := by
  have rescans := rescans_scanStep alike.rescans ch
  have notPending : scan.pendingSpace = false := by
    cases pending : scan.pendingSpace with
    | false => rfl
    | true => exact absurd (alike.outside pending) quoted
  rw [scanStep_of_quoted quoted, notPending] at rescans ⊢
  refine ⟨rescans, ?_, ?_, by simp, by simp, by simp, ?_⟩
  · rw [quotesAfter_concat, alike.state_eq]
  · intro _
    rw [sqlReading_concat, sqlReading_concat, alike.settled notPending]
  · exact blanksSeparate_out_concat alike.rescans alike.separates
      (fun outside => absurd outside quoted)

theorem readsAlike_scanStep (alike : ReadsAlike scan seen)
    (allowed : scan.state = .none → isWhitespace ch = true →
      (sqlReading seen).separates = true) :
    ReadsAlike (scanStep scan ch) (seen ++ [ch]) := by
  by_cases outside : scan.state = .none
  · by_cases blank : isWhitespace ch = true
    · exact readsAlike_of_blank alike outside blank (allowed outside blank)
    · exact readsAlike_of_visible alike outside (by simpa using blank)
  · exact readsAlike_of_quoted alike outside ch

theorem readsAlike_foldl (alike : ReadsAlike scan seen) {text : List Char}
    (separates : BlanksSeparate scan.state (sqlReading seen) text) :
    ReadsAlike (text.foldl scanStep scan) (seen ++ text) := by
  induction text generalizing scan seen with
  | nil => rwa [List.append_nil]
  | cons ch text induction =>
      obtain ⟨allowed, others⟩ := separates
      have next := readsAlike_scanStep alike allowed
      rw [List.foldl_cons, List.append_cons]
      apply induction next
      rw [scanStep_state, sqlReading_concat]
      exact others

/-- At the end the reading is that of the output, remembered blank or not. -/
theorem sqlTokens_of_readsAlike (alike : ReadsAlike scan seen) :
    sqlTokens seen = sqlTokens scan.out := by
  unfold sqlTokens
  cases pending : scan.pendingSpace with
  | false => rw [alike.settled pending]
  | true =>
      by_cases nothing : scan.out = []
      · rw [alike.leading pending nothing, nothing]
        rfl
      · obtain ⟨outSeparates, seenEq⟩ := alike.spaced pending nothing
        rw [seenEq]
        exact finish_next_of_separates outSeparates isWhitespace_space

end ReadsAlike

section Output

variable {scan : LexicalScan}

theorem out_prefix_scanStep (scan : LexicalScan) (ch : Char) :
    scan.out <+: (scanStep scan ch).out := by
  by_cases outside : scan.state = .none
  · by_cases blank : isWhitespace ch = true
    · exact ⟨[], by rw [scanStep_of_blank outside blank, List.append_nil]⟩
    · rw [scanStep_of_visible outside (by simpa using blank)]
      split
      · rw [List.append_assoc]
        exact List.prefix_append _ _
      · exact List.prefix_append _ _
  · rw [scanStep_of_quoted outside]
    exact List.prefix_append _ _

theorem out_prefix_foldl (scan : LexicalScan) (text : List Char) :
    scan.out <+: (text.foldl scanStep scan).out := by
  induction text generalizing scan with
  | nil => exact List.prefix_refl _
  | cons ch text induction =>
      exact (out_prefix_scanStep scan ch).trans (induction _)

/-- A remembered blank is written before the next run. -/
theorem out_concat_prefix_foldl {text : List Char}
    (outside : scan.state = .none) (pending : scan.pendingSpace = true)
    (started : scan.out ≠ []) (nonempty : text ≠ [])
    (visible : ∀ ch, text.getLast? = some ch → isWhitespace ch = false) :
    scan.out ++ [' '] <+: (text.foldl scanStep scan).out := by
  induction text with
  | nil => exact absurd rfl nonempty
  | cons ch text induction =>
      rw [List.foldl_cons]
      by_cases blank : isWhitespace ch = true
      · have sameScan : scanStep scan ch = scan := by
          rw [scanStep_of_blank outside blank, ← pending]
        have more : text ≠ [] := by
          rintro rfl
          have notBlank := visible ch rfl
          rw [blank] at notBlank
          cases notBlank
        rw [sameScan]
        apply induction more
        intro last lastEq
        apply visible last
        rw [List.getLast?_cons, lastEq]
        rfl
      · refine List.IsPrefix.trans ?_ (out_prefix_foldl _ text)
        rw [scanStep_of_visible outside (by simpa using blank)]
        simp [pending, started]

end Output

theorem blanksSeparate_of_out {scan : LexicalScan} {seen text : List Char}
    (alike : ReadsAlike scan seen)
    (separates : BlanksSeparate .none .start
      (text.foldl scanStep scan).out)
    (visible : ∀ ch, text.getLast? = some ch → isWhitespace ch = false) :
    BlanksSeparate scan.state (sqlReading seen) text := by
  induction text generalizing scan seen with
  | nil => trivial
  | cons ch text induction =>
      have allowed : scan.state = .none → isWhitespace ch = true →
          (sqlReading seen).separates = true := by
        intro outside blank
        by_cases started : scan.out = []
        · have unread : sqlReading seen = .start := by
            cases pending : scan.pendingSpace with
            | true => exact alike.leading pending started
            | false =>
                rw [alike.settled pending, started]
                rfl
          rw [unread]
          rfl
        · cases pending : scan.pendingSpace with
          | true =>
              obtain ⟨outSeparates, seenEq⟩ := alike.spaced pending started
              rw [seenEq]
              exact separates_next outSeparates isWhitespace_space
          | false =>
              have more : text ≠ [] := by
                rintro rfl
                have notBlank := visible ch rfl
                rw [blank] at notBlank
                cases notBlank
              have lastVisible : ∀ last, text.getLast? = some last →
                  isWhitespace last = false := by
                intro last lastEq
                apply visible last
                rw [List.getLast?_cons, lastEq]
                rfl
              rw [List.foldl_cons, scanStep_of_blank outside blank]
                at separates
              obtain ⟨tail, outEq⟩ := @out_concat_prefix_foldl
                { scan with pendingSpace := true } text outside rfl started
                more lastVisible
              rw [← outEq, List.append_assoc, blanksSeparate_append]
                at separates
              have atSpace := separates.2.1
              rw [← quotesAfter, quotesAfter_out alike.rescans] at atSpace
              rw [alike.settled pending]
              exact atSpace outside isWhitespace_space
      refine ⟨allowed, ?_⟩
      have continued := induction (readsAlike_scanStep alike allowed)
        separates (by
          intro last lastEq
          apply visible last
          rw [List.getLast?_cons, lastEq]
          rfl)
      rwa [scanStep_state, sqlReading_concat] at continued

theorem sqlTokens_lexicalBody_of_separates {sql : String}
    (separates : SeparatesBlanks sql) :
    sqlTokens (lexicalBody sql.toList) =
      sqlTokens (normalizeLexical sql).toList := by
  have alike := readsAlike_foldl readsAlike_initially separates
  rw [List.nil_append] at alike
  rw [toList_normalizeLexical]
  exact sqlTokens_of_readsAlike alike

theorem separatesBlanks_of_same_key {sql other : String}
    (separates : SeparatesBlanks sql)
    (sameKey : normalizeLexical other = normalizeLexical sql) :
    SeparatesBlanks other := by
  have alike := readsAlike_foldl readsAlike_initially separates
  have keySeparates := alike.separates
  rw [← toList_normalizeLexical, ← sameKey, toList_normalizeLexical]
    at keySeparates
  exact blanksSeparate_of_out readsAlike_initially keySeparates
    (solid_lexicalBody other.toList).last_visible

theorem upToSemicolon_of_common {first second common :
      Option (List SqlToken)}
    (firstEq : first = common ∨ first = common.map (· ++ [.semicolon]))
    (secondEq : second = common ∨ second = common.map (· ++ [.semicolon])) :
    UpToSemicolon first second := by
  rcases firstEq with rfl | rfl
  · rcases secondEq with rfl | rfl
    · exact Or.inl rfl
    · exact Or.inr (Or.inr rfl)
  · rcases secondEq with rfl | rfl
    · exact Or.inr (Or.inl rfl)
    · exact Or.inl rfl

/-- A text in which every blank between runs separates SQL tokens is merged
with the same statement only. -/
theorem sameStatement_of_separates {sql other : String}
    (separates : SeparatesBlanks sql)
    (sameKey : normalizeLexical other = normalizeLexical sql) :
    SameStatement sql other := by
  have otherSeparates := separatesBlanks_of_same_key separates sameKey
  have bodyEq := sqlTokens_lexicalBody_of_separates separates
  have otherBodyEq := sqlTokens_lexicalBody_of_separates otherSeparates
  rw [sameKey] at otherBodyEq
  apply @upToSemicolon_of_common _ _
    (sqlTokens (normalizeLexical sql).toList)
  · rw [← bodyEq]
    exact sqlTokens_lexicalBody sql.toList
  · rw [← otherBodyEq]
    exact sqlTokens_lexicalBody other.toList

/-- No character of the text opens or closes a quote. -/
def QuoteFree (text : List Char) : Prop :=
  ∀ ch ∈ text, ch ≠ '\'' ∧ ch ≠ '"'

/-- A blank that lies in a comment is followed by text which SQL would read on
the next line, and no quotes come after it. -/
def HidesText (sql : String) : Prop :=
  ∃ front blank ch rest,
    lexicalBody sql.toList = front ++ blank :: ch :: rest ∧
      quotesAfter front = .none ∧ (sqlReading front).mode = .comment ∧
      isWhitespace blank = true ∧ isWhitespace ch = false ∧
      ch ≠ '-' ∧ ch ≠ ';' ∧ QuoteFree (ch :: rest)

section HiddenText

/-- The text with spaces for all blanks. -/
def spaced (text : List Char) : List Char :=
  text.map fun ch => if isWhitespace ch then ' ' else ch

theorem next_none_of_quoteFree {ch : Char} (single : ch ≠ '\'')
    (double : ch ≠ '"') : QuoteState.next .none ch = .none := by
  simp [QuoteState.next, single, double]

/-- Outside quotes the loop does not tell one blank from another. -/
theorem foldl_scanStep_spaced {scan : LexicalScan} {text : List Char}
    (outside : scan.state = .none) (quoteFree : QuoteFree text) :
    (spaced text).foldl scanStep scan = text.foldl scanStep scan := by
  induction text generalizing scan with
  | nil => rfl
  | cons ch text induction =>
      obtain ⟨single, double⟩ := quoteFree ch List.mem_cons_self
      have others : QuoteFree text :=
        fun other otherMem => quoteFree other (List.mem_cons_of_mem _ otherMem)
      have sameStep : scanStep scan (if isWhitespace ch then ' ' else ch) =
          scanStep scan ch := by
        split
        next blank =>
          rw [scanStep_of_blank outside isWhitespace_space,
            scanStep_of_blank outside blank]
        next => rfl
      have stillOutside : (scanStep scan ch).state = .none := by
        rw [scanStep_state, outside, next_none_of_quoteFree single double]
      rw [spaced, List.map_cons, List.foldl_cons, List.foldl_cons, sameStep]
      exact induction stillOutside others

theorem newline_notMem_spaced (text : List Char) : '\n' ∉ spaced text := by
  intro charMem
  obtain ⟨ch, -, chEq⟩ := List.mem_map.mp charMem
  split at chEq
  · cases chEq
  · subst chEq
    contradiction

theorem quoteFree_spaced {text : List Char} (quoteFree : QuoteFree text) :
    QuoteFree (spaced text) := by
  intro ch charMem
  obtain ⟨other, otherMem, rfl⟩ := List.mem_map.mp charMem
  split
  · exact ⟨by decide, by decide⟩
  · exact quoteFree other otherMem

theorem getLast?_spaced {text : List Char}
    (visible : ∀ ch, text.getLast? = some ch → isWhitespace ch = false) :
    (spaced text).getLast? = text.getLast? := by
  rw [spaced, List.getLast?_map]
  cases last : text.getLast? with
  | none => rfl
  | some ch => simp [visible ch last]

theorem foldl_next_of_comment {reading : SqlReading} {text : List Char}
    (comment : reading.mode = .comment) (sameLine : '\n' ∉ text) :
    text.foldl SqlReading.next reading = reading := by
  induction text with
  | nil => rfl
  | cons ch text induction =>
      have notNewline : ch ≠ '\n' := by
        rintro rfl
        exact sameLine List.mem_cons_self
      have step : reading.next ch = reading := by
        simp only [SqlReading.next, comment, if_neg notNewline]
      rw [List.foldl_cons, step]
      apply induction
      intro charMem
      exact sameLine (List.mem_cons_of_mem _ charMem)

theorem exists_finish_of_quoteFree {tokens : List SqlToken} {mode : SqlMode}
    {text : List Char} (quoteFree : QuoteFree text)
    (unquoted : mode = .comment ∨ ∃ stretch, mode = .plain stretch) :
    ∃ more, (text.foldl SqlReading.next ⟨tokens, mode⟩).finish =
      some (tokens ++ more) := by
  induction text generalizing tokens mode with
  | nil =>
      rcases unquoted with rfl | ⟨stretch, rfl⟩
      · exact ⟨[], by simp [SqlReading.finish]⟩
      · exact ⟨stretchToken stretch, rfl⟩
  | cons ch text induction =>
      obtain ⟨single, double⟩ := quoteFree ch List.mem_cons_self
      have others : QuoteFree text :=
        fun other otherMem => quoteFree other (List.mem_cons_of_mem _ otherMem)
      have step : ∃ added later,
          SqlReading.next ⟨tokens, mode⟩ ch = ⟨tokens ++ added, later⟩ ∧
            (later = .comment ∨ ∃ stretch, later = .plain stretch) := by
        rcases unquoted with rfl | ⟨stretch, rfl⟩
        · simp only [SqlReading.next]
          split
          · exact ⟨[], .plain [], by simp, Or.inr ⟨[], rfl⟩⟩
          · exact ⟨[], .comment, by simp, Or.inl rfl⟩
        · simp only [SqlReading.next, SqlReading.nextPlain, single, double,
            if_false]
          split
          · exact ⟨stretchToken stretch, .plain [], rfl, Or.inr ⟨[], rfl⟩⟩
          · split
            · exact ⟨stretchToken stretch ++ [.semicolon], .plain [],
                by simp, Or.inr ⟨[], rfl⟩⟩
            · split
              · exact ⟨stretchToken stretch.dropLast, .comment, rfl,
                  Or.inl rfl⟩
              · exact ⟨[], .plain (stretch ++ [ch]), by simp,
                  Or.inr ⟨_, rfl⟩⟩
      obtain ⟨added, later, nextEq, laterUnquoted⟩ := step
      obtain ⟨more, finishEq⟩ := induction others laterUnquoted
      exact ⟨added ++ more, by
        rw [List.foldl_cons, nextEq, finishEq, List.append_assoc]⟩

theorem exists_finish_of_stretch {tokens : List SqlToken} {first : Char}
    {others text : List Char} (notDash : first ≠ '-')
    (quoteFree : QuoteFree text) :
    ∃ stretch more,
      (text.foldl SqlReading.next ⟨tokens, .plain (first :: others)⟩).finish =
        some (tokens ++ .plain stretch :: more) := by
  induction text generalizing others with
  | nil => exact ⟨first :: others, [], rfl⟩
  | cons ch text induction =>
      obtain ⟨single, double⟩ := quoteFree ch List.mem_cons_self
      have later : QuoteFree text :=
        fun other otherMem => quoteFree other (List.mem_cons_of_mem _ otherMem)
      rw [List.foldl_cons]
      simp only [SqlReading.next, SqlReading.nextPlain, single, double,
        if_false]
      split
      · obtain ⟨more, finishEq⟩ := @exists_finish_of_quoteFree
          (tokens ++ [.plain (first :: others)]) _ _ later
          (Or.inr ⟨[], rfl⟩)
        exact ⟨first :: others, more, by
          simpa [stretchToken] using finishEq⟩
      · split
        · obtain ⟨more, finishEq⟩ := @exists_finish_of_quoteFree
            (tokens ++ [.plain (first :: others)] ++ [.semicolon]) _ _
            later (Or.inr ⟨[], rfl⟩)
          exact ⟨first :: others, .semicolon :: more, by
            simpa [stretchToken] using finishEq⟩
        · split
          next dashes =>
            have moreThanFirst : others ≠ [] := by
              rintro rfl
              exact notDash (by simpa using dashes.2)
            obtain ⟨more, finishEq⟩ := @exists_finish_of_quoteFree
              (tokens ++ [.plain (first :: others.dropLast)]) _ _ later
              (Or.inl rfl)
            refine ⟨first :: others.dropLast, more, ?_⟩
            rw [List.dropLast_cons_of_ne_nil moreThanFirst]
            simpa [stretchToken] using finishEq
          next => exact induction later

/-- No sequence is within one semicolon of both of two sequences that differ by
another token. -/
theorem not_upToSemicolon_both {between : Option (List SqlToken)}
    {tokens more : List SqlToken} {stretch : List Char}
    (short : UpToSemicolon between (some tokens))
    (long : UpToSemicolon between
      (some (tokens ++ .plain stretch :: more))) : False := by
  cases between with
  | none => simp [UpToSemicolon] at short
  | some between =>
      simp only [UpToSemicolon, Option.map_some, Option.some.injEq]
        at short long
      rcases short with rfl | rfl | rfl
      all_goals
        rcases long with same | same | same
        all_goals simp at same

end HiddenText

/-- The variant of a text with a given blank after `front` and with spaces for
the blanks after it, and a semicolon at the end. -/
def hiddenVariant (front : List Char) (blank : Char) (others : List Char) :
    String :=
  String.ofList (front ++ blank :: spaced others ++ [';'])

section Variants

variable {sql : String} {front rest : List Char} {blank ch : Char}

theorem normalizeLexical_hiddenVariant {other : Char}
    (body : lexicalBody sql.toList = front ++ blank :: ch :: rest)
    (outside : quotesAfter front = .none)
    (frontNonempty : front ≠ [])
    (isBlank : isWhitespace blank = true)
    (otherBlank : isWhitespace other = true)
    (quoteFree : QuoteFree (ch :: rest)) :
    normalizeLexical (hiddenVariant front other (ch :: rest)) =
      normalizeLexical sql := by
  have solid := solid_lexicalBody sql.toList
  rw [body] at solid
  have lastVisible : ∀ last, (ch :: rest).getLast? = some last →
      isWhitespace last = false := by
    intro last lastEq
    apply solid.last_visible last
    rw [List.getLast?_append_of_ne_nil _ (by simp), List.getLast?_cons,
      lastEq]
    rfl
  have spacedNonempty : spaced (ch :: rest) ≠ [] := by simp [spaced]
  have variantSolid : Solid (front ++ other :: spaced (ch :: rest)) := by
    constructor
    · intro first head
      apply solid.head_visible first
      rw [List.head?_append_of_ne_nil _ frontNonempty] at head ⊢
      exact head
    · intro last lastEq
      rw [List.getLast?_append_of_ne_nil _ (by simp), List.getLast?_cons,
        getLast?_spaced lastVisible, List.getLast?_cons] at lastEq
      apply lastVisible last
      simpa [List.getLast?_cons] using lastEq
  have variantBody : lexicalBody
      (hiddenVariant front other (ch :: rest)).toList =
        front ++ other :: spaced (ch :: rest) := by
    have stripped := lexicalBody_semicolon blank_nil
      (front ++ other :: spaced (ch :: rest))
    have trimmed := trim_of_solid blank_nil blank_nil variantSolid
    rw [List.nil_append, List.append_nil] at trimmed
    rw [List.append_nil, trimmed] at stripped
    rw [hiddenVariant, String.toList_ofList]
    exact stripped
  have frontOutside : (front.foldl scanStep ⟨[], .none, false⟩).state =
      .none := by
    rw [foldl_scanStep_state]
    exact outside
  apply String.toList_injective
  rw [toList_normalizeLexical, toList_normalizeLexical, variantBody, body,
    List.foldl_append, List.foldl_append, List.foldl_cons, List.foldl_cons,
    scanStep_of_blank frontOutside otherBlank,
    scanStep_of_blank frontOutside isBlank]
  apply congrArg LexicalScan.out
  exact foldl_scanStep_spaced frontOutside quoteFree

/-- With a space after `front` the comment takes in all that follows. -/
theorem sqlTokens_hiddenVariant_space (comment :
      (sqlReading front).mode = .comment) (others : List Char) :
    sqlTokens (hiddenVariant front ' ' others).toList =
      some (sqlReading front).tokens := by
  have sameLine : '\n' ∉ ' ' :: spaced others ++ [';'] := by
    have notSpaced := newline_notMem_spaced others
    simpa using notSpaced
  rw [hiddenVariant, String.toList_ofList, List.append_assoc, sqlTokens,
    sqlReading_append, foldl_next_of_comment comment sameLine,
    SqlReading.finish, comment]

/-- With a line end after `front` the text behind the comment is read. -/
theorem exists_sqlTokens_hiddenVariant_newline
    (comment : (sqlReading front).mode = .comment)
    (visible : isWhitespace ch = false) (notDash : ch ≠ '-')
    (notSemicolon : ch ≠ ';') (quoteFree : QuoteFree (ch :: rest)) :
    ∃ stretch more,
      sqlTokens (hiddenVariant front '\n' (ch :: rest)).toList =
        some ((sqlReading front).tokens ++ .plain stretch :: more) := by
  obtain ⟨single, double⟩ := quoteFree ch List.mem_cons_self
  have restQuoteFree : QuoteFree (spaced rest ++ [';']) := by
    intro other otherMem
    rcases List.mem_append.mp otherMem with inRest | last
    · exact quoteFree_spaced
        (fun later laterMem => quoteFree later
          (List.mem_cons_of_mem _ laterMem)) other inRest
    · rw [List.mem_singleton.mp last]
      exact ⟨by decide, by decide⟩
  have lineEnd : (sqlReading front).next '\n' =
      ⟨(sqlReading front).tokens, .plain []⟩ := by
    simp [SqlReading.next, comment]
  have opened : SqlReading.next ⟨(sqlReading front).tokens, .plain []⟩ ch =
      ⟨(sqlReading front).tokens, .plain [ch]⟩ := by
    simp [SqlReading.next, SqlReading.nextPlain, visible, single, double,
      notSemicolon, notDash]
  have shape : spaced (ch :: rest) = ch :: spaced rest := by
    simp [spaced, visible]
  obtain ⟨stretch, more, finishEq⟩ := @exists_finish_of_stretch
    (sqlReading front).tokens ch [] _ notDash restQuoteFree
  refine ⟨stretch, more, ?_⟩
  rw [hiddenVariant, String.toList_ofList, List.append_assoc, sqlTokens,
    sqlReading_append, shape, List.cons_append, List.cons_append,
    List.foldl_cons, List.foldl_cons, lineEnd, opened]
  exact finishEq

end Variants

/-- Where a comment hides text behind a blank, the key is also that of another
statement. -/
theorem exists_merged_of_hidesText {sql : String} (hides : HidesText sql) :
    ∃ other, normalizeLexical other = normalizeLexical sql ∧
      ¬ SameStatement sql other := by
  obtain ⟨front, blank, ch, rest, body, outside, comment, isBlank, visible,
    notDash, notSemicolon, quoteFree⟩ := hides
  have frontNonempty : front ≠ [] := by
    rintro rfl
    cases comment
  have sameKey := fun other (otherBlank : isWhitespace other = true) =>
    normalizeLexical_hiddenVariant body outside frontNonempty isBlank
      otherBlank quoteFree
  have short := sqlTokens_hiddenVariant_space comment (ch :: rest)
  obtain ⟨stretch, more, long⟩ := exists_sqlTokens_hiddenVariant_newline
    comment visible notDash notSemicolon quoteFree
  by_cases same : SameStatement sql (hiddenVariant front ' ' (ch :: rest))
  · refine ⟨hiddenVariant front '\n' (ch :: rest), sameKey '\n' rfl, ?_⟩
    intro sameToo
    rw [SameStatement, short] at same
    rw [SameStatement, long] at sameToo
    exact not_upToSemicolon_both same sameToo
  · exact ⟨hiddenVariant front ' ' (ch :: rest), sameKey ' ' rfl, same⟩

/-- A key stands for one statement only, up to a trailing semicolon, if every
blank that normalization collapses separates SQL tokens; and it stands for
another statement as well if such a blank lies in a comment, before text on
which the comment decides whether it is read. -/
theorem key_of_one_statement (sql : String) :
    (SeparatesBlanks sql →
        ∀ other, normalizeLexical other = normalizeLexical sql →
          SameStatement sql other) ∧
      (HidesText sql →
        ∃ other, normalizeLexical other = normalizeLexical sql ∧
          ¬ SameStatement sql other) :=
  ⟨fun separates _ sameKey => sameStatement_of_separates separates sameKey,
    exists_merged_of_hidesText⟩

/-- Dashes in a string start no comment. -/
theorem key_of_one_statement_quotedDashes :
    SameStatement "SELECT  'a -- b'\n, 2 --c\n;" "SELECT 'a -- b' , 2 --c" :=
  (key_of_one_statement "SELECT  'a -- b'\n, 2 --c\n;").1 (by decide) _
    (by decide)

/-- The line end after the comment decides whether the rows are filtered. -/
theorem not_key_of_one_statement_comment :
    normalizeLexical "SELECT * EXCLUDE (a) FROM t -- c\nWHERE b = 1" =
        normalizeLexical "SELECT * EXCLUDE (a) FROM t -- c WHERE b = 1" ∧
      ¬ SameStatement "SELECT * EXCLUDE (a) FROM t -- c\nWHERE b = 1"
        "SELECT * EXCLUDE (a) FROM t -- c WHERE b = 1" :=
  ⟨by decide +kernel, by decide +kernel⟩

end CacheLayer

end Igloo
