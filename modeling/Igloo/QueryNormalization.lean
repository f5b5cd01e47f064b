import Igloo.RustText

/-!
# Cache keys

`normalize_query` keys a query by the canonical `Display` form of its parsed
statements, and by a lexical normal form when the text does not parse.  The
SQL parser itself is a parameter: `parseSql text` lists the `Display` forms of
the parsed statements, or is `none` where `Parser::parse_sql` fails.
-/

namespace Igloo

namespace CacheLayer

open RustText

/-- Which kind of quotes the scan of `normalize_lexical` is inside. -/
inductive QuoteState
  | none
  | single
  | double
  deriving DecidableEq, Repr

/-- The mutable variables of the character loop in `normalize_lexical`. -/
structure LexicalScan where
  out : List Char
  state : QuoteState
  pendingSpace : Bool
  deriving DecidableEq, Repr

/-- One iteration of the character loop. -/
def scanStep (scan : LexicalScan) (ch : Char) : LexicalScan :=
  match scan.state with
  | .none =>
      if isWhitespace ch then
        { scan with pendingSpace := true }
      else
        let out :=
          if scan.pendingSpace && !scan.out.isEmpty then scan.out ++ [' ']
          else scan.out
        let state : QuoteState :=
          if ch = '\'' then .single
          else if ch = '"' then .double
          else .none
        { out := out ++ [ch], state := state, pendingSpace := false }
  | .single =>
      -- a doubled quote flips the state twice
      { scan with
        state := if ch = '\'' then .none else .single
        out := scan.out ++ [ch] }
  | .double =>
      { scan with
        state := if ch = '"' then .none else .double
        out := scan.out ++ [ch] }

/-- The text the character loop runs over: trimmed, less one trailing `;` and
the whitespace before it. -/
def lexicalBody (sql : List Char) : List Char :=
  let trimmed := trim sql
  match stripSuffix trimmed ';' with
  | some stripped => trimEnd stripped
  | none => trimmed

/-- Lexical fallback normalization. -/
def normalizeLexical (sql : String) : String :=
  String.ofList
    ((lexicalBody sql.toList).foldl scanStep ⟨[], .none, false⟩).out

/-- Canonicalizes SQL text for cache keying. -/
def normalizeQuery (parseSql : String → Option (List String))
    (sql : String) : String :=
  match parseSql sql with
  | some (statement :: statements) =>
      "; ".intercalate (statement :: statements)
  | _ => normalizeLexical sql

example : normalizeLexical "  SELECT 'a  b' ,\n 1 ; " = "SELECT 'a  b' , 1" := by
  decide

end CacheLayer

end Igloo
