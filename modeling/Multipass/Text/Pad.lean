/-!
# Columns

Text filled with spaces to a width, which counts characters. Text that is wider stays whole.
-/

namespace Multipass.Text

/-- The spaces that a text lacks of a width. -/
def filling (width : Nat) (s : String) : String :=
  String.ofList (List.replicate (width - s.length) ' ')

/-- Text at the left of a column. -/
def padRight (width : Nat) (s : String) : String :=
  s ++ filling width s

/-- Text at the right of a column. -/
def padLeft (width : Nat) (s : String) : String :=
  filling width s ++ s

/-- Lines, each with its line break. -/
def lines (items : List String) : String :=
  String.join (items.map fun s => s ++ "\n")

end Multipass.Text
