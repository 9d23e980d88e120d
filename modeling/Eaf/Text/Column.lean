/-!
# Columns

## Main definitions

* `Eaf.Text.column` — a text at the left of a column.
-/

namespace Eaf.Text

/-- A text followed by as many spaces as it takes to fill a column of a given width, counted in
characters. A text that is wider than the column stays as it is. -/
def column (width : Nat) (s : String) : String :=
  s ++ String.ofList (List.replicate (width - s.length) ' ')

end Eaf.Text
