import Igloo.LexicalRuns

/-!
# Keys of keys

The character loop reproduces its own output, and that output is trimmed.  So
a lexical key is its own key unless it still ends in a semicolon, which is
then stripped in its turn: exactly when the text ended in two of them.
-/

namespace Igloo

namespace CacheLayer

open RustText

/-- Read again, the output of the loop leads to the same place. -/
structure Rescans (scan : LexicalScan) : Prop where
  again : scan.out.foldl scanStep ⟨[], .none, false⟩ =
    ⟨scan.out, scan.state, false⟩
  head_visible : ∀ ch, scan.out.head? = some ch → isWhitespace ch = false
  quoted : scan.state ≠ .none → scan.out ≠ []

section Rescanning

variable {scan : LexicalScan}

theorem head_visible_append {out : List Char}
    (visible : ∀ ch, out.head? = some ch → isWhitespace ch = false)
    (nonempty : out ≠ []) (others : List Char) :
    ∀ ch, (out ++ others).head? = some ch → isWhitespace ch = false := by
  intro ch head
  rw [List.head?_append_of_ne_nil out nonempty] at head
  exact visible ch head

theorem rescans_of_quoted (rescans : Rescans scan)
    (quoted : scan.state ≠ .none) (ch : Char) :
    Rescans (scanStep scan ch) := by
  rw [scanStep_of_quoted quoted]
  constructor
  · rw [List.foldl_append, rescans.again]
    exact @scanStep_of_quoted ⟨scan.out, scan.state, false⟩ quoted ch
  · exact head_visible_append rescans.head_visible (rescans.quoted quoted)
      [ch]
  · intro _
    simp

/-- A written blank is remembered by the second reading as well. -/
theorem rescans_of_visible {ch : Char} (rescans : Rescans scan)
    (outside : scan.state = .none) (visible : isWhitespace ch = false) :
    Rescans (scanStep scan ch) := by
  rw [scanStep_of_visible outside visible]
  by_cases spaced : (scan.pendingSpace && !scan.out.isEmpty) = true
  · have nonempty : scan.out ≠ [] := by
      simpa using (Bool.and_eq_true_iff.mp spaced).2
    simp only [spaced, if_true]
    constructor
    · rw [List.foldl_append, List.foldl_append, rescans.again]
      simp only [List.foldl_cons, List.foldl_nil]
      have remembered := @scanStep_of_blank _
        ⟨scan.out, scan.state, false⟩ outside isWhitespace_space
      have written := @scanStep_of_visible _
        ⟨scan.out, scan.state, true⟩ outside visible
      rw [remembered, written]
      simp [nonempty]
    · rw [List.append_assoc]
      exact head_visible_append rescans.head_visible nonempty _
    · intro _
      simp
  · simp only [spaced, Bool.false_eq_true, if_false]
    constructor
    · rw [List.foldl_append, rescans.again]
      simp only [List.foldl_cons, List.foldl_nil]
      have written := @scanStep_of_visible _
        ⟨scan.out, scan.state, false⟩ outside visible
      rw [written]
      simp
    · by_cases first : scan.out = []
      · intro other head
        simp only [first, List.nil_append, List.head?_cons,
          Option.some.injEq] at head
        exact head ▸ visible
      · exact head_visible_append rescans.head_visible first [ch]
    · intro _
      simp

theorem rescans_scanStep (rescans : Rescans scan) (ch : Char) :
    Rescans (scanStep scan ch) := by
  by_cases outside : scan.state = .none
  · by_cases blank : isWhitespace ch = true
    · rw [scanStep_of_blank outside blank]
      exact ⟨rescans.again, rescans.head_visible, rescans.quoted⟩
    · exact rescans_of_visible rescans outside (by simpa using blank)
  · exact rescans_of_quoted rescans outside ch

theorem rescans_foldl (text : List Char) :
    Rescans (text.foldl scanStep ⟨[], .none, false⟩) := by
  induction text using List.reverseRecOn with
  | nil => exact ⟨rfl, by simp, by simp⟩
  | append_singleton text ch induction =>
      rw [List.foldl_append]
      exact rescans_scanStep induction ch

theorem length_scan_out_le (text : List Char) :
    (text.foldl scanStep ⟨[], .none, false⟩).out.length ≤ text.length := by
  have bound : (text.foldl scanStep ⟨[], .none, false⟩).out.length +
      (text.foldl scanStep ⟨[], .none, false⟩).pendingSpace.toNat ≤
        text.length := by
    induction text using List.reverseRecOn with
    | nil => exact le_rfl
    | append_singleton text ch induction =>
        rw [List.foldl_append, List.foldl_cons, List.foldl_nil]
        generalize text.foldl scanStep ⟨[], .none, false⟩ = scan at induction
        rw [List.length_append, List.length_singleton]
        by_cases outside : scan.state = .none
        · by_cases blank : isWhitespace ch = true
          · rw [scanStep_of_blank outside blank]
            simp only [Bool.toNat_true]
            omega
          · rw [scanStep_of_visible outside (by simpa using blank),
              List.length_append, List.length_singleton, Bool.toNat_false]
            split
            next spaced =>
              rw [(Bool.and_eq_true_iff.mp spaced).1,
                Bool.toNat_true] at induction
              rw [List.length_append, List.length_singleton]
              omega
            next => omega
        · rw [scanStep_of_quoted outside]
          simp only [List.length_append, List.length_singleton]
          omega
  omega

theorem exists_scanStep_out {ch : Char} (visible : isWhitespace ch = false)
    (scan : LexicalScan) :
    ∃ front, (scanStep scan ch).out = front ++ [ch] := by
  by_cases outside : scan.state = .none
  · rw [scanStep_of_visible outside visible]
    exact ⟨_, rfl⟩
  · rw [scanStep_of_quoted outside]
    exact ⟨_, rfl⟩

end Rescanning

section Keys

variable {sql : String}

theorem toList_normalizeLexical (sql : String) :
    (normalizeLexical sql).toList =
      ((lexicalBody sql.toList).foldl scanStep ⟨[], .none, false⟩).out := by
  rw [normalizeLexical, String.toList_ofList]

theorem getLast?_normalizeLexical (sql : String) :
    (normalizeLexical sql).toList.getLast? =
      (lexicalBody sql.toList).getLast? := by
  rw [toList_normalizeLexical]
  have solid := solid_lexicalBody sql.toList
  rcases List.eq_nil_or_concat (lexicalBody sql.toList) with
    bodyEq | ⟨front, ch, bodyEq⟩
  · rw [bodyEq]
    rfl
  · rw [List.concat_eq_append] at bodyEq
    have visible : isWhitespace ch = false :=
      solid.last_visible ch (by simp [bodyEq])
    rw [bodyEq, List.foldl_append, List.foldl_cons, List.foldl_nil]
    obtain ⟨written, outEq⟩ := exists_scanStep_out visible
      (front.foldl scanStep ⟨[], .none, false⟩)
    rw [outEq]
    simp

theorem solid_normalizeLexical (sql : String) :
    Solid (normalizeLexical sql).toList where
  head_visible := by
    rw [toList_normalizeLexical]
    exact (rescans_foldl _).head_visible
  last_visible := by
    rw [getLast?_normalizeLexical]
    exact (solid_lexicalBody sql.toList).last_visible

theorem trim_normalizeLexical (sql : String) :
    trim (normalizeLexical sql).toList = (normalizeLexical sql).toList := by
  have trimmed := trim_of_solid blank_nil blank_nil
    (solid_normalizeLexical sql)
  rwa [List.nil_append, List.append_nil] at trimmed

theorem normalizeLexical_of_not_semicolon
    (noSemicolon : (lexicalBody sql.toList).getLast? ≠ some ';') :
    normalizeLexical (normalizeLexical sql) = normalizeLexical sql := by
  rw [← getLast?_normalizeLexical, ← trim_normalizeLexical] at noSemicolon
  apply String.toList_injective
  rw [toList_normalizeLexical (normalizeLexical sql),
    lexicalBody_of_not_semicolon noSemicolon, trim_normalizeLexical,
    toList_normalizeLexical sql, (rescans_foldl _).again]

/-- A key that ends in a semicolon has a shorter key. -/
theorem normalizeLexical_of_semicolon
    (semicolon : (lexicalBody sql.toList).getLast? = some ';') :
    normalizeLexical (normalizeLexical sql) ≠ normalizeLexical sql := by
  rw [← getLast?_normalizeLexical] at semicolon
  obtain ⟨front, shape⟩ := List.getLast?_eq_some_iff.mp semicolon
  intro same
  have sameLength : (normalizeLexical (normalizeLexical sql)).toList.length =
      (normalizeLexical sql).toList.length := by rw [same]
  have bodyEq : lexicalBody (normalizeLexical sql).toList = trimEnd front :=
    lexicalBody_of_concat ((trim_normalizeLexical sql).trans shape)
  have written := length_scan_out_le (trimEnd front)
  have shorter : (trimEnd front).length ≤ front.length :=
    (List.rdropWhile_prefix _ _).length_le
  rw [toList_normalizeLexical (normalizeLexical sql), bodyEq, shape,
    List.length_append, List.length_singleton] at sameLength
  omega

end Keys

/-- The text ends in two semicolons, with nothing but blanks between and after
them. -/
def EndsInTwoSemicolons (text : List Char) : Prop :=
  ∃ front between back, Blank between ∧ Blank back ∧
    text = front ++ [';'] ++ between ++ [';'] ++ back

/-- Stripping one semicolon leaves another. -/
theorem getLast?_lexicalBody_iff (text : List Char) :
    (lexicalBody text).getLast? = some ';' ↔ EndsInTwoSemicolons text := by
  constructor
  · intro semicolon
    obtain ⟨front, back, -, backBlank,
      ⟨-, -, noSemicolon⟩ | ⟨between, betweenBlank, split⟩⟩ :=
      exists_lexicalBody text
    · exact absurd semicolon noSemicolon
    · obtain ⟨stripped, shape⟩ := List.getLast?_eq_some_iff.mp semicolon
      refine ⟨front ++ stripped, between, back, betweenBlank, backBlank, ?_⟩
      rw [shape, ← List.append_assoc] at split
      exact split
  · rintro ⟨front, between, back, betweenBlank, backBlank, rfl⟩
    rw [lexicalBody_semicolon backBlank, trim_append_of_blank betweenBlank,
      trim_concat_of_not isWhitespace_semicolon]
    simp

/-- The lexical key of a text is its own key exactly when the text does not
end in two semicolons; the same holds of `normalize_query` where the parser
rejects the text and the key. -/
theorem normalizeLexical_idempotent_iff (sql : String) :
    (normalizeLexical (normalizeLexical sql) = normalizeLexical sql ↔
        ¬ EndsInTwoSemicolons sql.toList) ∧
      ∀ parseSql : String → Option (List String), parseSql sql = none →
        parseSql (normalizeLexical sql) = none →
        (normalizeQuery parseSql (normalizeQuery parseSql sql) =
            normalizeQuery parseSql sql ↔
          ¬ EndsInTwoSemicolons sql.toList) := by
  have idempotent :
      normalizeLexical (normalizeLexical sql) = normalizeLexical sql ↔
        ¬ EndsInTwoSemicolons sql.toList := by
    rw [← getLast?_lexicalBody_iff]
    constructor
    · intro same semicolon
      exact normalizeLexical_of_semicolon semicolon same
    · exact normalizeLexical_of_not_semicolon
  refine ⟨idempotent, ?_⟩
  intro parseSql rejectsText rejectsKey
  simp only [normalizeQuery, rejectsText, rejectsKey]
  exact idempotent

theorem not_normalizeLexical_idempotent :
    normalizeLexical "a;;" = "a;" ∧
      normalizeLexical (normalizeLexical "a;;") ≠ normalizeLexical "a;;" :=
  ⟨by decide, by decide⟩

end CacheLayer

end Igloo
