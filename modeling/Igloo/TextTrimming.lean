import Igloo.RustText

/-!
# Trimming

How the trimming functions act on a text with blanks at its ends.  `Blank`
texts consist of `White_Space` characters only.
-/

namespace Igloo

namespace RustText

/-- A text of `White_Space` characters only. -/
def Blank (text : List Char) : Prop :=
  ∀ ch ∈ text, isWhitespace ch = true

instance (text : List Char) : Decidable (Blank text) :=
  decidable_of_iff (text.all isWhitespace = true) List.all_eq_true

section Trimming

variable {text front back : List Char} {ch : Char}

theorem blank_nil : Blank [] := by
  intro ch charMem
  cases charMem

theorem blank_cons_iff :
    Blank (ch :: text) ↔ isWhitespace ch = true ∧ Blank text :=
  List.forall_mem_cons

/-- Reading blanks that each leave a state alone leaves it alone. -/
theorem foldl_of_blank {State : Type} {next : State → Char → State}
    {state : State}
    (kept : ∀ ch, isWhitespace ch = true → next state ch = state)
    (blank : Blank text) : text.foldl next state = state := by
  induction text with
  | nil => rfl
  | cons ch text induction =>
      obtain ⟨first, others⟩ := blank_cons_iff.mp blank
      rw [List.foldl_cons, kept ch first, induction others]

theorem trimStart_cons_of_not (visible : isWhitespace ch = false)
    (text : List Char) : trimStart (ch :: text) = ch :: text := by
  simp [trimStart, visible]

theorem trimStart_append_of_blank (blank : Blank front)
    (text : List Char) : trimStart (front ++ text) = trimStart text := by
  induction front with
  | nil => rfl
  | cons ch front induction =>
      obtain ⟨first, others⟩ := blank_cons_iff.mp blank
      have step : trimStart (ch :: (front ++ text)) =
          trimStart (front ++ text) := by
        simp [trimStart, first]
      rw [List.cons_append, step, induction others]

theorem trimStart_append_cons_of_not (visible : isWhitespace ch = false)
    (front back : List Char) :
    trimStart (front ++ ch :: back) = trimStart front ++ ch :: back := by
  induction front with
  | nil => exact trimStart_cons_of_not visible back
  | cons first front induction =>
      unfold trimStart at induction ⊢
      rw [List.cons_append, List.dropWhile_cons, List.dropWhile_cons]
      split
      · exact induction
      · rfl

theorem trimEnd_append_of_blank (blank : Blank back) (text : List Char) :
    trimEnd (text ++ back) = trimEnd text := by
  induction back using List.reverseRecOn with
  | nil => rw [List.append_nil]
  | append_singleton back ch induction =>
      have last : isWhitespace ch = true := blank ch (by simp)
      have others : Blank back :=
        fun other otherMem => blank other (List.mem_append_left _ otherMem)
      have step : trimEnd (text ++ back ++ [ch]) = trimEnd (text ++ back) :=
        List.rdropWhile_concat_pos _ _ _ last
      rw [← List.append_assoc, step, induction others]

theorem trimEnd_concat_of_not (visible : isWhitespace ch = false)
    (text : List Char) : trimEnd (text ++ [ch]) = text ++ [ch] :=
  List.rdropWhile_concat_neg _ _ _ (by simp [visible])

theorem exists_blank_append_trimStart (text : List Char) :
    ∃ front, Blank front ∧ text = front ++ trimStart text := by
  refine ⟨text.takeWhile isWhitespace, ?_, ?_⟩
  · intro ch charMem
    exact List.mem_takeWhile_imp charMem
  · exact List.takeWhile_append_dropWhile.symm

theorem exists_trimEnd_append_blank (text : List Char) :
    ∃ back, Blank back ∧ text = trimEnd text ++ back := by
  refine ⟨text.rtakeWhile isWhitespace, ?_, ?_⟩
  · intro ch charMem
    exact List.mem_rtakeWhile_imp charMem
  · exact List.rdropWhile_append_rtakeWhile.symm

/-- A text that neither starts nor ends with a blank. -/
structure Solid (text : List Char) : Prop where
  head_visible : ∀ ch, text.head? = some ch → isWhitespace ch = false
  last_visible : ∀ ch, text.getLast? = some ch → isWhitespace ch = false

theorem solid_trim (text : List Char) : Solid (trim text) where
  head_visible := by
    intro ch head
    obtain ⟨back, -, split⟩ := exists_trimEnd_append_blank (trimStart text)
    have startHead : (trimStart text).head? = some ch := by
      rw [split, List.head?_append_of_ne_nil, ← head]
      · rfl
      · intro nothing
        rw [trim, nothing] at head
        cases head
    have first := List.head?_dropWhile_not isWhitespace text
    unfold trimStart at startHead
    rw [startHead] at first
    simpa using first
  last_visible := by
    intro ch last
    have nonempty : trim text ≠ [] := by
      intro nothing
      rw [nothing] at last
      cases last
    have visible := List.rdropWhile_last_not isWhitespace (trimStart text)
      nonempty
    rw [List.getLast?_eq_getLast_of_ne_nil nonempty,
      Option.some.injEq] at last
    unfold trim trimEnd at last
    rw [last] at visible
    simpa using visible

/-- A trimmed text is the text less blanks at both ends. -/
theorem exists_blank_trim_blank (text : List Char) :
    ∃ front back, Blank front ∧ Blank back ∧
      text = front ++ trim text ++ back := by
  obtain ⟨front, frontBlank, startEq⟩ := exists_blank_append_trimStart text
  obtain ⟨back, backBlank, endEq⟩ :=
    exists_trimEnd_append_blank (trimStart text)
  refine ⟨front, back, frontBlank, backBlank, ?_⟩
  unfold trim
  rw [List.append_assoc, ← endEq]
  exact startEq

theorem trimEnd_of_last_visible
    (visible : ∀ ch, text.getLast? = some ch → isWhitespace ch = false) :
    trimEnd text = text := by
  rcases List.eq_nil_or_concat text with rfl | ⟨front, ch, rfl⟩
  · rfl
  · rw [List.concat_eq_append] at visible ⊢
    exact trimEnd_concat_of_not (visible ch (by simp)) front

theorem trim_of_solid (frontBlank : Blank front) (backBlank : Blank back)
    (solid : Solid text) : trim (front ++ text ++ back) = text := by
  unfold trim
  rw [List.append_assoc, trimStart_append_of_blank frontBlank]
  cases text with
  | nil =>
      have nothing : trimStart back = [] := by
        have dropped := trimStart_append_of_blank backBlank []
        rwa [List.append_nil] at dropped
      rw [List.nil_append, nothing]
      rfl
  | cons ch text =>
      have visible : isWhitespace ch = false := solid.head_visible ch rfl
      rw [List.cons_append, trimStart_cons_of_not visible,
        ← List.cons_append, trimEnd_append_of_blank backBlank]
      exact trimEnd_of_last_visible solid.last_visible

theorem trim_of_visible (visible : ∀ ch ∈ text, isWhitespace ch = false) :
    trim text = text := by
  have solid : Solid text :=
    ⟨fun ch head => visible ch (List.mem_of_head? head),
      fun ch last => visible ch (List.mem_of_getLast? last)⟩
  have trimmed := trim_of_solid blank_nil blank_nil solid
  rwa [List.nil_append, List.append_nil] at trimmed

theorem trim_append_of_blank (blank : Blank back) (text : List Char) :
    trim (text ++ back) = trim text := by
  obtain ⟨start, finish, startBlank, finishBlank, split⟩ :=
    exists_blank_trim_blank text
  have bothBlank : Blank (finish ++ back) := by
    intro ch charMem
    rcases List.mem_append.mp charMem with inFinish | inBack
    · exact finishBlank ch inFinish
    · exact blank ch inBack
  calc
    trim (text ++ back) = trim (start ++ trim text ++ (finish ++ back)) := by
      rw [← List.append_assoc, ← split]
    _ = trim text := trim_of_solid startBlank bothBlank (solid_trim text)

theorem trim_concat_of_not (visible : isWhitespace ch = false)
    (text : List Char) : trim (text ++ [ch]) = trimStart text ++ [ch] := by
  unfold trim
  rw [trimStart_append_cons_of_not visible, trimEnd_concat_of_not visible]

end Trimming

end RustText

end Igloo
