namespace Schematic.Text

/-!
# Columns of text

* `padRight` — a text brought to the width of its column.
-/

/-- The text with spaces appended up to `width` characters. A longer text stays as it is. -/
def padRight (width : Nat) (text : String) : String :=
  String.ofList (text.toList.rightpad width ' ')

/-- The padded text has the width of the column, unless the text alone is wider. -/
theorem length_padRight (width : Nat) (text : String) :
    (padRight width text).length = max width text.length := by
  simp [padRight, ← String.length_toList, List.rightpad]
  omega

end Schematic.Text
