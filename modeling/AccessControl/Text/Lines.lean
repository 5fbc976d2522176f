/-!
# Line ends

A file may end its lines with a carriage return, a line feed, or both in this order.  Once it is
read every line ends with one line feed.
-/

namespace AccessControl.Text

/-- Line ends of every kind become a line feed. -/
def plainLines : List Char → List Char
  | [] => []
  | '\r' :: '\n' :: rest => '\n' :: plainLines rest
  | '\r' :: rest => '\n' :: plainLines rest
  | c :: rest => c :: plainLines rest

end AccessControl.Text
