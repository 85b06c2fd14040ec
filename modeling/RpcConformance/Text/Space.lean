/-!
Blank characters as Unicode has them, and text without them at its ends.
-/
namespace RpcConformance.Text

/-- The characters with the Unicode property `White_Space`. -/
def isSpace (c : Char) : Bool :=
  let n := c.toNat
  (0x09 ≤ n && n ≤ 0x0d) || n == 0x20 || n == 0x85 || n == 0xa0 || n == 0x1680 ||
  (0x2000 ≤ n && n ≤ 0x200a) || n == 0x2028 || n == 0x2029 || n == 0x202f || n == 0x205f || n == 0x3000

/-- A list without the elements of a class at either end. -/
def trimWhere {α : Type} (p : α → Bool) (xs : List α) : List α :=
  ((xs.dropWhile p).reverse.dropWhile p).reverse

def trim (s : String) : String := String.ofList (trimWhere isSpace s.toList)

/-- The blanks of ASCII: tab, line feed, form feed, carriage return and space. -/
def isAsciiSpace (b : UInt8) : Bool := b == 0x20 || b == 0x09 || b == 0x0a || b == 0x0c || b == 0x0d

end RpcConformance.Text
