/-!
# Letter case

Names of levels and of settings are compared without regard to case.  Only the twenty-six
letters occur in such names, so it is enough to know which characters turn into them:
beside their small forms these are the dotless `ı`, the long `ſ`, the sharp `ß` and the
ligatures of `f` and of `st`, whose capital forms are written with several letters.  Every
other character has a capital form outside ASCII, so that leaving it alone never makes two
different names equal.
-/

namespace AccessControl.Text

/-- The capital form of a character, as far as it consists of the letters `A` to `Z`. -/
def capital (c : Char) : List Char :=
  match c with
  | 'ß' => ['S', 'S']
  | 'ı' => ['I']
  | 'ſ' => ['S']
  | 'ﬀ' => ['F', 'F']
  | 'ﬁ' => ['F', 'I']
  | 'ﬂ' => ['F', 'L']
  | 'ﬃ' => ['F', 'F', 'I']
  | 'ﬄ' => ['F', 'F', 'L']
  | 'ﬅ' => ['S', 'T']
  | 'ﬆ' => ['S', 'T']
  | c => [c.toUpper]

/-- The text in capitals, as far as they are the letters `A` to `Z`. -/
def capitals (s : String) : String :=
  String.ofList (s.toList.flatMap capital)

/-- The text with the letters `A` to `Z` made small. -/
def small (s : String) : String :=
  String.ofList (s.toList.map Char.toLower)

end AccessControl.Text
