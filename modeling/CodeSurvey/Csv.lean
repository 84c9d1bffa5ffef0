/-
Delimited rows.

Fields are separated by one character and rows end in a newline.  A field that holds the separator,
a quotation mark or a line break stands between quotation marks, with each mark in it doubled.

A row has at least two fields here, so no row is an empty line, which readers would pass over.
-/

namespace CodeSurvey.Csv

/-- How rows are written. -/
structure Dialect where
  separator : Char
deriving DecidableEq, Repr

/-- Whether a character forces its field between quotation marks. -/
def Dialect.forcesQuotes (d : Dialect) (c : Char) : Bool :=
  c == d.separator || c == '"' || c == '\r' || c == '\n'

/-- A quotation mark is doubled within quotes. -/
def doubled (c : Char) : List Char := if c = '"' then ['"', '"'] else [c]

def Dialect.field (d : Dialect) (text : List Char) : List Char :=
  if text.any d.forcesQuotes then '"' :: text.flatMap doubled ++ ['"'] else text

def Dialect.joined (d : Dialect) : List (List Char) → List Char
  | [] => []
  | [last] => d.field last
  | first :: rest => d.field first ++ d.separator :: d.joined rest

def Dialect.row (d : Dialect) (fields : List String) : List Char :=
  d.joined (fields.map String.toList) ++ ['\n']

def Dialect.rows (d : Dialect) (rows : List (List String)) : String :=
  String.ofList (rows.flatMap d.row)

end CodeSurvey.Csv
