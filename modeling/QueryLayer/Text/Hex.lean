/-! # Hexadecimal digits -/
namespace QueryLayer.Text

/-- The digit of a number below 16. -/
def hexDigit (n : Nat) : Char := "0123456789abcdef".toList.getD n '0'

end QueryLayer.Text
