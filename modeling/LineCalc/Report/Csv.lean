import LineCalc.Report.Table

/-!
The table as comma-separated text. Text is always quoted, so an empty text differs from a null
cell, which is empty and unquoted.
-/
namespace LineCalc

/-- The text between double quotes; a double quote inside is written twice. -/
def doubleQuoted (text : String) : String :=
  String.ofList ('"' :: text.toList.flatMap (fun c => if c = '"' then ['"', '"'] else [c]) ++ ['"'])

def Cell.csv : Cell → String
  | null => ""
  | integer n => integerText n
  | text s => doubleQuoted s
  | number x => x.cell

def csvLine (cells : List String) : String := ",".intercalate cells ++ "\n"

def Row.csv (r : Row) : String := csvLine (r.cells.map Cell.csv)

/-- The line of column names and the lines of the rows. -/
def Row.csvTable (rows : List Row) : String :=
  csvLine (columns.map fun column => doubleQuoted column.1) ++ String.join (rows.map Row.csv)

end LineCalc
