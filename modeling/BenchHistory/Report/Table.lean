/-!
# Lines and tables

Reports are lines of text, each with a line end, and some lines are rows of a table.
-/

namespace BenchHistory.Report

def lines (ls : List String) : String :=
  String.join (ls.map (· ++ "\n"))

def row (cells : List String) : String :=
  "| " ++ " | ".intercalate cells ++ " |"

end BenchHistory.Report
