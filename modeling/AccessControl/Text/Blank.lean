/-!
# Blank text

Two notions of blank are in use, and they differ in exactly four characters.

* `isBlank` is what a *name* is tested against: the white space of the Unicode character
  database together with the four information separators `U+001C` to `U+001F`, which that
  database classes as separators of paragraphs and segments.
* `isWhite` is what is stripped from the *text fields of a request body* and from a *number*:
  white space only.

The zero-width characters (`U+200B`, `U+FEFF`) are in neither.
-/

namespace AccessControl.Text

/-- White space of the Unicode character database. -/
def isWhite (c : Char) : Bool :=
  let n := c.toNat
  (0x09 ≤ n && n ≤ 0x0D) || n == 0x20 || n == 0x85 || n == 0xA0 || n == 0x1680 ||
    (0x2000 ≤ n && n ≤ 0x200A) || n == 0x2028 || n == 0x2029 || n == 0x202F || n == 0x205F ||
    n == 0x3000

/-- White space, or one of the four information separators. -/
def isBlank (c : Char) : Bool :=
  (0x1C ≤ c.toNat && c.toNat ≤ 0x1F) || isWhite c

/-- Every character of the text is blank; the empty text is blank. -/
def blank (s : String) : Bool :=
  s.toList.all isBlank

/-- The characters left when those satisfying `p` are dropped at both ends. -/
def trimList (p : Char → Bool) (cs : List Char) : List Char :=
  ((cs.dropWhile p).reverse.dropWhile p).reverse

/-- The text without the characters satisfying `p` at its two ends. -/
def trimBy (p : Char → Bool) (s : String) : String :=
  String.ofList (trimList p s.toList)

end AccessControl.Text
