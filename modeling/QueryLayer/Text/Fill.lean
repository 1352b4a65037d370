/-! # Columns of text -/
namespace QueryLayer.Text

/-- Fills up with blanks on the right to a width. -/
def fill (width : Nat) (s : String) : String :=
  s ++ String.ofList (List.replicate (width - s.length) ' ')

end QueryLayer.Text
