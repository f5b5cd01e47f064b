import Igloo.SqlLexer

/-!
# Scans in SQL

The statements that read one table: a select list or a row count, a
conjunction of conditions on single columns, and a limit.  A grammar relates
tokens to syntax trees, and the recursive-descent reader finds the tree of
every spelling, so that a spelling has one reading only.
-/

namespace Igloo

namespace SqlSyntax

open SqlLexer

inductive Comparison
  | eq
  | ne
  | lt
  | le
  | gt
  | ge
  deriving DecidableEq, Repr

inductive Literal
  | boolean (value : Bool)
  | integer (value : Int)
  | decimal (negative : Bool) (digits decimals : List Char)
  | string (text : String)
  deriving DecidableEq, Repr

inductive Predicate
  | compare (column : String) (comparison : Comparison) (value : Literal)
  | isNull (column : String) (negated : Bool)
  | inList (column : String) (negated : Bool) (values : List Literal)
  deriving DecidableEq, Repr

inductive Condition
  | predicate (predicate : Predicate)
  | and (left right : Condition)
  deriving DecidableEq, Repr

/-- A table with the conditions of its `WHERE` and its `LIMIT`. -/
structure Scan where
  schema : String
  table : String
  conditions : List Condition
  limit : Option Nat
  deriving DecidableEq, Repr

/-- `SELECT columns FROM …`, or the number of rows of `SELECT 1 FROM …`. -/
inductive Statement
  | select (columns : List String) (scan : Scan)
  | count (scan : Scan)
  deriving DecidableEq, Repr

/-- The tokens of unquoted words are folded to lower case. -/
abbrev keyword (text : String) : Token :=
  .word text.toList

def ident (name : String) : Token :=
  .quotedIdent name.toList

def Comparison.text : Comparison → String
  | eq => "="
  | ne => "<>"
  | lt => "<"
  | le => "<="
  | gt => ">"
  | ge => ">="

def Comparison.token (comparison : Comparison) : Token :=
  .operator comparison.text.toList

/-- The comparison with the operands the other way round. -/
def Comparison.flip : Comparison → Comparison
  | eq => eq
  | ne => ne
  | lt => gt
  | le => ge
  | gt => lt
  | ge => le

/-! ## Grammar -/

inductive SpellsLiteral : List Token → Literal → Prop
  | boolean (value : Bool) :
      SpellsLiteral [keyword (if value then "true" else "false")]
        (.boolean value)
  | integer (value : Nat) : SpellsLiteral [.integer value] (.integer value)
  | negative (value : Nat) :
      SpellsLiteral [.operator ['-'], .integer value] (.integer (-value))
  | decimal (digits decimals : List Char) :
      SpellsLiteral [.decimal digits decimals] (.decimal false digits decimals)
  | negativeDecimal (digits decimals : List Char) :
      SpellsLiteral [.operator ['-'], .decimal digits decimals]
        (.decimal true digits decimals)
  | string (text : String) : SpellsLiteral [.string text.toList] (.string text)

/-- An optional `NOT`. -/
def notTokens (negated : Bool) : List Token :=
  if negated then [keyword "not"] else []

inductive SpellsPredicate : List Token → Predicate → Prop
  | compare (column : String) (comparison : Comparison)
      {tokens : List Token} {value : Literal}
      (spells : SpellsLiteral tokens value) :
      SpellsPredicate (ident column :: comparison.token :: tokens)
        (.compare column comparison value)
  | isNull (column : String) (negated : Bool) :
      SpellsPredicate
        (ident column :: keyword "is" ::
          (notTokens negated ++ [keyword "null"]))
        (.isNull column negated)
  | inList (column : String) (negated : Bool) {items : List (List Token)}
      {values : List Literal} (nonempty : values ≠ [])
      (spells : List.Forall₂ SpellsLiteral items values) :
      SpellsPredicate
        (ident column :: (notTokens negated ++
          keyword "in" :: .punctuation '(' ::
            ([Token.punctuation ','].intercalate items ++ [.punctuation ')'])))
        (.inList column negated values)

inductive SpellsCondition : List Token → Condition → Prop
  | predicate {tokens : List Token} {predicate : Predicate}
      (spells : SpellsPredicate tokens predicate) :
      SpellsCondition tokens (.predicate predicate)
  | and {leftTokens rightTokens : List Token} {left right : Condition}
      (spells_left : SpellsCondition leftTokens left)
      (spells_right : SpellsCondition rightTokens right) :
      SpellsCondition
        (.punctuation '(' :: ([keyword "and"].intercalate
          [leftTokens, rightTokens] ++ [.punctuation ')']))
        (.and left right)

/-- The tokens of a `WHERE` clause, given those of its conditions. -/
def whereTokens : List (List Token) → List Token
  | [] => []
  | conditions => keyword "where" :: [keyword "and"].intercalate conditions

def limitTokens : Option Nat → List Token
  | none => []
  | some limit => [keyword "limit", .integer limit]

inductive SpellsScan : List Token → Scan → Prop
  | scan (schema table : String) {clauses : List (List Token)}
      {conditions : List Condition}
      (spells : List.Forall₂ SpellsCondition clauses conditions)
      (limit : Option Nat) :
      SpellsScan
        (ident schema :: .punctuation '.' :: ident table ::
          (whereTokens clauses ++ limitTokens limit))
        ⟨schema, table, conditions, limit⟩

/-- What stands before and after the scan whose rows are counted. -/
def countTokens : List Token :=
  [keyword "count", .punctuation '(', .operator ['*'], .punctuation ')',
    keyword "from", .punctuation '(', keyword "select", .integer 1,
    keyword "from"]

def subqueryEndTokens : List Token :=
  [.punctuation ')', keyword "as", keyword "t"]

inductive SpellsStatement : List Token → Statement → Prop
  | select {columns : List String} (nonempty : columns ≠ [])
      {tokens : List Token} {scan : Scan} (spells : SpellsScan tokens scan) :
      SpellsStatement
        (keyword "select" :: ([Token.punctuation ','].intercalate
          (columns.map fun column => [ident column]) ++
            keyword "from" :: tokens))
        (.select columns scan)
  | count {tokens : List Token} {scan : Scan}
      (spells : SpellsScan tokens scan) :
      SpellsStatement
        (keyword "select" :: (countTokens ++ (tokens ++ subqueryEndTokens)))
        (.count scan)

/-! ## Reader -/

/-- What follows a token. -/
def strip (token : Token) : List Token → Option (List Token)
  | [] => none
  | next :: rest => if next = token then some rest else none

/-- What follows a list of tokens. -/
def stripAll (expected tokens : List Token) : Option (List Token) :=
  expected.foldlM (fun rest token => strip token rest) tokens

/-- Items with a separator between them. -/
def readSeparated {α : Type} (item : List Token → Option (α × List Token))
    (separator : Token) : Nat → List Token → Option (List α × List Token)
  | 0, _ => none
  | fuel + 1, tokens => do
      let (first, rest) ← item tokens
      match strip separator rest with
      | some after => do
          let (others, after) ← readSeparated item separator fuel after
          return (first :: others, after)
      | none => return ([first], rest)

def readIdent : List Token → Option (String × List Token)
  | .quotedIdent name :: rest => some (String.ofList name, rest)
  | _ => none

def readNumber : List Token → Option (Literal × List Token)
  | .integer value :: rest => some (.integer value, rest)
  | .decimal digits decimals :: rest =>
      some (.decimal false digits decimals, rest)
  | _ => none

def negate : Literal → Literal
  | .integer value => .integer (-value)
  | .decimal negative digits decimals =>
      .decimal (!negative) digits decimals
  | other => other

def readLiteral : List Token → Option (Literal × List Token)
  | .string text :: rest => some (.string (String.ofList text), rest)
  | .word text :: rest =>
      if text = "true".toList then some (.boolean true, rest)
      else if text = "false".toList then some (.boolean false, rest)
      else none
  | .operator text :: rest =>
      if text = ['-'] then
        (readNumber rest).map fun (value, after) => (negate value, after)
      else none
  | tokens => readNumber tokens

def comparisonOf (text : List Char) : Option Comparison :=
  [Comparison.eq, .ne, .lt, .le, .gt, .ge].find? fun comparison =>
    comparison.text.toList = text

/-- Whether there is a `NOT`, and what follows it. -/
def readNot (tokens : List Token) : Bool × List Token :=
  match strip (keyword "not") tokens with
  | some rest => (true, rest)
  | none => (false, tokens)

def readComparison (column : String) (operator : List Char)
    (tokens : List Token) : Option (Predicate × List Token) := do
  let comparison ← comparisonOf operator
  let (value, after) ← readLiteral tokens
  return (.compare column comparison value, after)

def readNullTest (column : String) (tokens : List Token) :
    Option (Predicate × List Token) := do
  let (negated, rest) := readNot tokens
  let after ← strip (keyword "null") rest
  return (.isNull column negated, after)

def readInList (column : String) (tokens : List Token) :
    Option (Predicate × List Token) := do
  let (negated, rest) := readNot tokens
  let rest ← stripAll [keyword "in", .punctuation '('] rest
  let (values, rest) ←
    readSeparated readLiteral (.punctuation ',') rest.length rest
  let after ← strip (.punctuation ')') rest
  return (.inList column negated values, after)

def readPredicate (tokens : List Token) :
    Option (Predicate × List Token) := do
  let (column, rest) ← readIdent tokens
  match rest with
  | .operator text :: rest => readComparison column text rest
  | _ =>
      match strip (keyword "is") rest with
      | some rest => readNullTest column rest
      | none => readInList column rest

/-- `AND` associates to the left. -/
def conjoin : List Condition → Option Condition
  | [] => none
  | first :: rest => some (rest.foldl .and first)

/-- A predicate, or a conjunction in parentheses. -/
def readCondition : Nat → List Token → Option (Condition × List Token)
  | 0, _ => none
  | fuel + 1, tokens =>
      match strip (.punctuation '(') tokens with
      | some inner => do
          let (conditions, rest) ←
            readSeparated (readCondition fuel) (keyword "and") fuel inner
          let after ← strip (.punctuation ')') rest
          let condition ← conjoin conditions
          return (condition, after)
      | none => do
          let (predicate, after) ← readPredicate tokens
          return (.predicate predicate, after)

def readWhere (tokens : List Token) : Option (List Condition × List Token) :=
  match strip (keyword "where") tokens with
  | some rest =>
      readSeparated (readCondition rest.length) (keyword "and") rest.length
        rest
  | none => some ([], tokens)

def readLimit (tokens : List Token) : Option (Option Nat × List Token) :=
  match strip (keyword "limit") tokens with
  | some (.integer limit :: rest) => some (some limit, rest)
  | some _ => none
  | none => some (none, tokens)

def readScan (tokens : List Token) : Option (Scan × List Token) := do
  let (schema, rest) ← readIdent tokens
  let rest ← strip (.punctuation '.') rest
  let (table, rest) ← readIdent rest
  let (conditions, rest) ← readWhere rest
  let (limit, after) ← readLimit rest
  return (⟨schema, table, conditions, limit⟩, after)

/-- A statement, which must use up all tokens. -/
def readStatement (tokens : List Token) : Option Statement := do
  let rest ← strip (keyword "select") tokens
  match stripAll countTokens rest with
  | some rest => do
      let (scan, after) ← readScan rest
      if after = subqueryEndTokens then some (.count scan) else none
  | none => do
      let (columns, rest) ←
        readSeparated readIdent (.punctuation ',') rest.length rest
      let rest ← strip (keyword "from") rest
      let (scan, after) ← readScan rest
      if after = [] then some (.select columns scan) else none

/-- The statement that a text is. -/
def parse (text : String) : Option Statement :=
  (lex text).bind readStatement

/-- The condition that a text is. -/
def parseCondition (text : String) : Option Condition := do
  let tokens ← lex text
  let (condition, after) ← readCondition tokens.length tokens
  if after = [] then some condition else none

/-! ## Every spelling is read -/

@[simp]
theorem strip_cons_self (token : Token) (rest : List Token) :
    strip token (token :: rest) = some rest := by
  simp [strip]

theorem strip_cons_of_ne {token next : Token} (other : next ≠ token)
    (rest : List Token) : strip token (next :: rest) = none := by
  simp [strip, other]

@[simp]
theorem stripAll_append (expected rest : List Token) :
    stripAll expected (expected ++ rest) = some rest := by
  induction expected with
  | nil => rfl
  | cons token expected induction =>
      simpa [stripAll, List.foldlM_cons] using induction

@[simp]
theorem readIdent_ident (name : String) (rest : List Token) :
    readIdent (ident name :: rest) = some (name, rest) := by
  simp [readIdent, ident]

/-- Items that are read whatever follows are read with separators. -/
theorem readSeparated_intercalate {α : Type}
    {item : List Token → Option (α × List Token)} {separator : Token}
    {pieces : List (List Token)} {values : List α}
    (reads : List.Forall₂
      (fun tokens value => ∀ rest, item (tokens ++ rest) = some (value, rest))
      pieces values)
    (nonempty : values ≠ []) {fuel : Nat} (enough : values.length ≤ fuel)
    {rest : List Token} (ends : strip separator rest = none) :
    readSeparated item separator fuel
        ([separator].intercalate pieces ++ rest) = some (values, rest) := by
  induction reads generalizing fuel with
  | nil => exact absurd rfl nonempty
  | @cons tokens value pieces values here later induction =>
      obtain ⟨fuel, rfl⟩ : ∃ more, fuel = more + 1 :=
        ⟨fuel - 1, by simp only [List.length_cons] at enough; omega⟩
      cases later with
      | nil => simp [readSeparated, here, ends]
      | cons second others =>
          have more := induction (List.cons_ne_nil _ _)
            (Nat.le_of_succ_le_succ enough)
          simp only [List.intercalate_cons_cons, List.append_assoc,
            List.cons_append, List.nil_append, readSeparated, here,
            strip_cons_self, Option.bind_eq_bind, Option.bind_some, more]
          rfl

theorem readLiteral_of_spells {tokens : List Token} {value : Literal}
    (spells : SpellsLiteral tokens value) (rest : List Token) :
    readLiteral (tokens ++ rest) = some (value, rest) := by
  cases spells with
  | boolean value => cases value <;> rfl
  | string text => simp [readLiteral]
  | _ => rfl

@[simp]
theorem comparisonOf_text (comparison : Comparison) :
    comparisonOf comparison.text.toList = some comparison := by
  cases comparison <;> decide

theorem readNot_notTokens (negated : Bool) {next : Token}
    (other : next ≠ keyword "not") (rest : List Token) :
    readNot (notTokens negated ++ next :: rest) = (negated, next :: rest) := by
  cases negated with
  | true => simp [readNot, notTokens]
  | false => simp [readNot, notTokens, strip_cons_of_ne other]

theorem length_le_length_intercalate {α : Type} {pieces : List (List Token)}
    {values : List α} {spells : List Token → α → Prop}
    (spelled : List.Forall₂ spells pieces values) (separator : Token)
    (nonempty : ∀ tokens value, spells tokens value → tokens ≠ []) :
    values.length ≤ ([separator].intercalate pieces).length := by
  induction spelled with
  | nil => simp
  | @cons tokens value pieces values here later induction =>
      have positive := List.length_pos_iff.mpr (nonempty tokens value here)
      cases later with
      | nil =>
          simp only [List.intercalate_singleton, List.length_cons,
            List.length_nil]
          omega
      | cons second others =>
          simp only [List.intercalate_cons_cons, List.length_append,
            List.length_cons] at induction ⊢
          omega

theorem readInList_of_spells (column : String) (negated : Bool)
    {items : List (List Token)} {values : List Literal}
    (nonempty : values ≠ [])
    (spells : List.Forall₂ SpellsLiteral items values) (rest : List Token) :
    readInList column (notTokens negated ++ keyword "in" ::
        .punctuation '(' :: ([Token.punctuation ','].intercalate items ++
          .punctuation ')' :: rest)) =
      some (.inList column negated values, rest) := by
  have opened (after : List Token) :
      stripAll [keyword "in", .punctuation '(']
        (keyword "in" :: .punctuation '(' :: after) = some after :=
    stripAll_append [_, _] after
  have enough : values.length ≤ ([Token.punctuation ','].intercalate items ++
      .punctuation ')' :: rest).length := by
    have fewer := length_le_length_intercalate spells (.punctuation ',')
      (fun _ _ spelled => by cases spelled <;> simp)
    rw [List.length_append]
    omega
  have listed := readSeparated_intercalate
    (spells.imp fun _ _ spelled => readLiteral_of_spells spelled) nonempty
    enough (strip_cons_of_ne
      (show Token.punctuation ')' ≠ .punctuation ',' by decide) rest)
  simp only [readInList, readNot_notTokens negated
    (show keyword "in" ≠ keyword "not" by decide), opened, listed,
    strip_cons_self, Option.bind_eq_bind, Option.bind_some]
  rfl

theorem readPredicate_of_spells {tokens : List Token} {predicate : Predicate}
    (spells : SpellsPredicate tokens predicate) (rest : List Token) :
    readPredicate (tokens ++ rest) = some (predicate, rest) := by
  cases spells with
  | compare column comparison spells =>
      simp only [List.cons_append, readPredicate, readIdent_ident,
        Option.bind_eq_bind, Option.bind_some, Comparison.token,
        readComparison, comparisonOf_text, readLiteral_of_spells spells]
      rfl
  | isNull column negated =>
      simp only [List.cons_append, List.append_assoc, List.nil_append,
        readPredicate, readIdent_ident, Option.bind_eq_bind, Option.bind_some,
        strip_cons_self, readNullTest, readNot_notTokens negated
          (show keyword "null" ≠ keyword "not" by decide)]
      rfl
  | inList column negated nonempty spells =>
      have inside := readInList_of_spells column negated nonempty spells rest
      cases negated with
      | true =>
          simpa [readPredicate, notTokens, strip] using inside
      | false =>
          simpa [readPredicate, notTokens, strip] using inside

theorem SpellsPredicate.starts {tokens : List Token} {predicate : Predicate}
    (spells : SpellsPredicate tokens predicate) :
    ∃ column more, tokens = ident column :: more := by
  cases spells <;> exact ⟨_, _, rfl⟩

theorem SpellsCondition.nonempty {tokens : List Token} {condition : Condition}
    (spells : SpellsCondition tokens condition) : tokens ≠ [] := by
  cases spells with
  | predicate spells =>
      obtain ⟨column, more, rfl⟩ := spells.starts
      exact List.cons_ne_nil _ _
  | and => exact List.cons_ne_nil _ _

theorem readCondition_of_spells {tokens : List Token} {condition : Condition}
    (spells : SpellsCondition tokens condition) {fuel : Nat}
    (enough : tokens.length ≤ fuel) (rest : List Token) :
    readCondition fuel (tokens ++ rest) = some (condition, rest) := by
  induction spells generalizing fuel rest with
  | @predicate tokens predicate spells =>
      obtain ⟨column, more, rfl⟩ := spells.starts
      obtain ⟨fuel, rfl⟩ : ∃ less, fuel = less + 1 :=
        ⟨fuel - 1, by simp only [List.length_cons] at enough; omega⟩
      have read := readPredicate_of_spells spells rest
      have noParen : strip (.punctuation '(') (ident column :: more ++ rest) =
          none :=
        strip_cons_of_ne
          (show ident column ≠ .punctuation '(' by simp [ident]) _
      simp only [readCondition, noParen, read, Option.bind_eq_bind,
        Option.bind_some]
      rfl
  | @and leftTokens rightTokens left right spells_left spells_right
      induction_left induction_right =>
      obtain ⟨fuel, rfl⟩ : ∃ less, fuel = less + 1 :=
        ⟨fuel - 1, by simp only [List.length_cons] at enough; omega⟩
      have left_pos := List.length_pos_iff.mpr spells_left.nonempty
      simp only [List.length_cons, List.intercalate_cons_cons,
        List.intercalate_singleton, List.length_append, List.length_nil]
        at enough
      have both : List.Forall₂
          (fun tokens condition => ∀ rest,
            readCondition fuel (tokens ++ rest) = some (condition, rest))
          [leftTokens, rightTokens] [left, right] :=
        .cons (induction_left (by omega))
          (.cons (induction_right (by omega)) .nil)
      have chain := readSeparated_intercalate both (List.cons_ne_nil _ _)
        (show [left, right].length ≤ fuel by
          simp only [List.length_cons, List.length_nil]; omega)
        (strip_cons_of_ne
          (show Token.punctuation ')' ≠ keyword "and" by decide) rest)
      simp only [List.cons_append, List.append_assoc, List.nil_append,
        readCondition, strip_cons_self, chain, Option.bind_eq_bind,
        Option.bind_some]
      rfl

theorem forall₂_readCondition {clauses : List (List Token)}
    {conditions : List Condition}
    (spells : List.Forall₂ SpellsCondition clauses conditions) {fuel : Nat}
    (enough : ∀ tokens ∈ clauses, tokens.length ≤ fuel) :
    List.Forall₂ (fun tokens condition => ∀ rest,
        readCondition fuel (tokens ++ rest) = some (condition, rest))
      clauses conditions := by
  induction spells with
  | nil => exact .nil
  | cons here later induction =>
      obtain ⟨enoughHere, enoughLater⟩ := List.forall_mem_cons.mp enough
      exact .cons (readCondition_of_spells here enoughHere)
        (induction enoughLater)

theorem length_le_of_mem_intercalate {pieces : List (List Token)}
    {tokens : List Token} (tokensMem : tokens ∈ pieces) (separator : Token) :
    tokens.length ≤ ([separator].intercalate pieces).length := by
  induction pieces with
  | nil => cases tokensMem
  | cons first pieces induction =>
      cases pieces with
      | nil =>
          obtain rfl := List.mem_singleton.mp tokensMem
          simp
      | cons second rest =>
          rw [List.intercalate_cons_cons, List.length_append,
            List.length_append]
          rcases List.mem_cons.mp tokensMem with rfl | later
          · omega
          · have := induction later
            omega

/-- Text after a scan that cannot be taken for a part of it. -/
def EndsScan (rest : List Token) : Prop :=
  ∀ word ∈ ["where", "and", "limit"], strip (keyword word) rest = none

theorem readWhere_of_spells {clauses : List (List Token)}
    {conditions : List Condition}
    (spells : List.Forall₂ SpellsCondition clauses conditions)
    {rest : List Token} (noWhere : strip (keyword "where") rest = none)
    (noAnd : strip (keyword "and") rest = none) :
    readWhere (whereTokens clauses ++ rest) = some (conditions, rest) := by
  cases spells with
  | nil => simp [readWhere, whereTokens, noWhere]
  | @cons tokens condition clauses conditions here later =>
      have all := List.Forall₂.cons here later
      have fewer := length_le_length_intercalate all (keyword "and")
        fun _ _ spelled => spelled.nonempty
      have chain := readSeparated_intercalate
        (forall₂_readCondition all (fun tokens tokensMem =>
          (length_le_of_mem_intercalate tokensMem (keyword "and")).trans
            (Nat.le_add_right _ rest.length)))
        (List.cons_ne_nil _ _) (fewer.trans (Nat.le_add_right _ rest.length))
        noAnd
      rw [← List.length_append] at chain
      simpa [readWhere, whereTokens, strip] using chain

theorem readLimit_limitTokens (limit : Option Nat) {rest : List Token}
    (noLimit : strip (keyword "limit") rest = none) :
    readLimit (limitTokens limit ++ rest) = some (limit, rest) := by
  cases limit with
  | none => simp [readLimit, limitTokens, noLimit]
  | some limit => simp [readLimit, limitTokens, strip]

theorem strip_limitTokens {word : String} (other : word ≠ "limit")
    (limit : Option Nat) {rest : List Token}
    (ends : strip (keyword word) rest = none) :
    strip (keyword word) (limitTokens limit ++ rest) = none := by
  have different : keyword "limit" ≠ keyword word := by
    intro same
    exact other (String.toList_inj.mp (Token.word.inj same)).symm
  cases limit with
  | none => exact ends
  | some limit => exact strip_cons_of_ne different _

theorem readScan_of_spells {tokens : List Token} {scan : Scan}
    (spells : SpellsScan tokens scan) {rest : List Token}
    (ends : EndsScan rest) : readScan (tokens ++ rest) = some (scan, rest) := by
  cases spells with
  | scan schema table spells limit =>
      have conditions := readWhere_of_spells spells
        (strip_limitTokens (by decide) limit (ends "where" (by simp)))
        (strip_limitTokens (by decide) limit (ends "and" (by simp)))
      have limited := readLimit_limitTokens limit (ends "limit" (by simp))
      simp only [List.cons_append, List.append_assoc, readScan,
        readIdent_ident, strip_cons_self, conditions, limited,
        Option.bind_eq_bind, Option.bind_some]
      rfl

/-- Every spelling of a statement is read as that statement. -/
theorem readStatement_of_spells {tokens : List Token} {statement : Statement}
    (spells : SpellsStatement tokens statement) :
    readStatement tokens = some statement := by
  cases spells with
  | @select columns nonempty tokens scan spells =>
      have notCount : stripAll countTokens
          ([Token.punctuation ','].intercalate
            (columns.map fun column => [ident column]) ++
              keyword "from" :: tokens) = none := by
        cases columns with
        | nil => exact absurd rfl nonempty
        | cons column columns =>
            cases columns <;>
              simp [stripAll, countTokens, ident, strip,
                List.intercalate_cons_cons]
      have spelled : List.Forall₂ (fun tokens column => tokens = [ident column])
          (columns.map fun column => [ident column]) columns := by
        rw [List.forall₂_map_left_iff]
        exact List.forall₂_same.mpr fun _ _ => rfl
      have fewer := length_le_length_intercalate spelled (.punctuation ',')
        (fun _ _ same => same ▸ List.cons_ne_nil _ _)
      have read : List.Forall₂ (fun tokens column => ∀ rest,
            readIdent (tokens ++ rest) = some (column, rest))
          (columns.map fun column => [ident column]) columns :=
        spelled.imp fun _ _ same rest => same ▸ readIdent_ident _ rest
      have names := readSeparated_intercalate read nonempty
        (fewer.trans (Nat.le_add_right _ (tokens.length + 1)))
        (strip_cons_of_ne
          (show keyword "from" ≠ .punctuation ',' by decide) tokens)
      have scanned := readScan_of_spells spells
        (show EndsScan [] from fun _ _ => rfl)
      rw [List.append_nil] at scanned
      simp only [readStatement, strip_cons_self, notCount, List.length_append,
        List.length_cons, names, scanned, Option.bind_eq_bind,
        Option.bind_some]
      rfl
  | count spells =>
      have scanned := readScan_of_spells spells
        (show EndsScan subqueryEndTokens by unfold EndsScan; decide)
      simp only [readStatement, strip_cons_self, stripAll_append, scanned,
        Option.bind_eq_bind, Option.bind_some]
      rfl

theorem parse_of_lex {text : String} {tokens : List Token}
    {statement : Statement} (lexed : lex text = some tokens)
    (spells : SpellsStatement tokens statement) :
    parse text = some statement := by
  rw [parse, lexed, Option.bind_some, readStatement_of_spells spells]

theorem parseCondition_of_lex {text : String} {tokens : List Token}
    {condition : Condition} (lexed : lex text = some tokens)
    (spells : SpellsCondition tokens condition) :
    parseCondition text = some condition := by
  have read := readCondition_of_spells spells le_rfl []
  rw [List.append_nil] at read
  simp only [parseCondition, lexed, read, Option.bind_eq_bind,
    Option.bind_some]
  rfl

/-! ## No comment and no separator -/

/-- A token that is neither a comment nor a statement separator. -/
def Harmless (token : Token) : Prop :=
  token ≠ .comment ∧ token ≠ .punctuation ';'

theorem harmless_ident (name : String) : Harmless (ident name) := by
  simp [Harmless, ident]

theorem forall_mem_intercalate {pieces : List (List Token)}
    {separator : Token} (harmless_separator : Harmless separator)
    (harmless : ∀ tokens ∈ pieces, ∀ token ∈ tokens, Harmless token) :
    ∀ token ∈ [separator].intercalate pieces, Harmless token := by
  induction pieces with
  | nil => simp
  | cons first pieces induction =>
      obtain ⟨harmless_first, harmless_later⟩ := List.forall_mem_cons.mp harmless
      cases pieces with
      | nil => simpa using harmless_first
      | cons second rest =>
          have later := induction harmless_later
          simp only [List.intercalate_cons_cons, List.mem_append,
            List.mem_singleton]
          rintro token ((here | rfl) | after)
          · exact harmless_first token here
          · exact harmless_separator
          · exact later token after

theorem forall₂_harmless {α : Type} {spells : List Token → α → Prop}
    (harmless : ∀ {tokens value}, spells tokens value →
      ∀ token ∈ tokens, Harmless token)
    {pieces : List (List Token)} {values : List α}
    (spelled : List.Forall₂ spells pieces values) :
    ∀ tokens ∈ pieces, ∀ token ∈ tokens, Harmless token := by
  induction spelled with
  | nil => simp
  | cons here later induction =>
      exact List.forall_mem_cons.mpr ⟨harmless here, induction⟩

theorem SpellsLiteral.harmless {tokens : List Token} {value : Literal}
    (spells : SpellsLiteral tokens value) :
    ∀ token ∈ tokens, Harmless token := by
  cases spells <;> simp [Harmless]

theorem SpellsPredicate.harmless {tokens : List Token}
    {predicate : Predicate} (spells : SpellsPredicate tokens predicate) :
    ∀ token ∈ tokens, Harmless token := by
  cases spells with
  | compare column comparison spells =>
      simpa [Harmless, ident, Comparison.token] using spells.harmless
  | isNull column negated =>
      cases negated <;> simp [Harmless, ident, notTokens]
  | inList column negated nonempty spells =>
      have items := forall_mem_intercalate
        (show Harmless (.punctuation ',') by simp [Harmless])
        (forall₂_harmless SpellsLiteral.harmless spells)
      cases negated <;>
        simp only [notTokens, List.forall_mem_cons, List.forall_mem_append,
          if_true, if_false, Bool.false_eq_true] <;>
        simpa [Harmless, ident] using items

theorem SpellsCondition.harmless {tokens : List Token}
    {condition : Condition} (spells : SpellsCondition tokens condition) :
    ∀ token ∈ tokens, Harmless token := by
  induction spells with
  | predicate spells => exact spells.harmless
  | @and leftTokens rightTokens left right spells_left spells_right
      induction_left induction_right =>
      have both := forall_mem_intercalate
        (show Harmless (keyword "and") by simp [Harmless])
        (List.forall_mem_cons.mpr ⟨induction_left,
          List.forall_mem_singleton.mpr induction_right⟩)
      simp only [List.forall_mem_cons, List.forall_mem_append]
      exact ⟨by simp [Harmless], both, by simp [Harmless], by simp⟩

theorem SpellsScan.harmless {tokens : List Token} {scan : Scan}
    (spells : SpellsScan tokens scan) : ∀ token ∈ tokens, Harmless token := by
  cases spells with
  | @scan schema table clauses conditions spells limit =>
      have filtered : ∀ token ∈ whereTokens clauses, Harmless token := by
        have each := forall₂_harmless SpellsCondition.harmless spells
        cases clauses with
        | nil => simp [whereTokens]
        | cons first clauses =>
            exact List.forall_mem_cons.mpr ⟨by simp [Harmless],
              forall_mem_intercalate (by simp [Harmless]) each⟩
      have limited : ∀ token ∈ limitTokens limit, Harmless token := by
        cases limit <;> simp [limitTokens, Harmless]
      simp only [List.forall_mem_cons, List.forall_mem_append]
      exact ⟨harmless_ident schema, by simp [Harmless], harmless_ident table,
        filtered, limited⟩

/-- A spelled statement has no comment and no separator in it. -/
theorem SpellsStatement.harmless {tokens : List Token}
    {statement : Statement} (spells : SpellsStatement tokens statement) :
    ∀ token ∈ tokens, Harmless token := by
  cases spells with
  | @select columns nonempty tokens scan spells =>
      have names := forall_mem_intercalate
        (show Harmless (.punctuation ',') by simp [Harmless])
        (show ∀ tokens ∈ columns.map fun column => [ident column],
            ∀ token ∈ tokens, Harmless token by simp [harmless_ident])
      simp only [List.forall_mem_cons, List.forall_mem_append]
      exact ⟨by simp [Harmless], names, by simp [Harmless], spells.harmless⟩
  | count spells =>
      simp only [List.forall_mem_cons, List.forall_mem_append]
      exact ⟨by simp [Harmless], by simp [countTokens, Harmless],
        spells.harmless, by simp [subqueryEndTokens, Harmless]⟩

end SqlSyntax

end Igloo
