/-! # UUID texts

Thirty-two hexadecimal digits, or groups of 8, 4, 4, 4 and 12 of them separated by hyphens; the
grouped form may stand in braces or after `urn:uuid:`, whose letters may be in either case.
-/
namespace QueryLayer.Text

def isHex (c : Char) : Bool :=
  c.isDigit || ('a' ≤ c && c ≤ 'f') || ('A' ≤ c && c ≤ 'F')

/-- Groups of hexadecimal digits of the given lengths, separated by hyphens. -/
def isHexGroups : List Nat → List Char → Bool
  | [], cs => cs.isEmpty
  | [n], cs => cs.length = n && cs.all isHex
  | n :: lengths, cs =>
    (cs.take n).length = n && (cs.take n).all isHex &&
      match cs.drop n with
      | '-' :: rest => isHexGroups lengths rest
      | _ => false

def isHyphenatedUuid (cs : List Char) : Bool := isHexGroups [8, 4, 4, 4, 12] cs

def isBracedUuid : List Char → Bool
  | '\x7b' :: rest =>
    match rest.reverse with
    | '\x7d' :: inner => isHyphenatedUuid inner.reverse
    | _ => false
  | _ => false

/-- The name space that may stand before a grouped identifier. -/
def uuidNamespace : List Char := "urn:uuid:".toList

def isNamespacedUuid (cs : List Char) : Bool :=
  (cs.take uuidNamespace.length).map Char.toLower = uuidNamespace &&
    isHyphenatedUuid (cs.drop uuidNamespace.length)

def isUuid (s : String) : Bool :=
  let cs := s.toList
  isHexGroups [32] cs || isHyphenatedUuid cs || isBracedUuid cs || isNamespacedUuid cs

end QueryLayer.Text
