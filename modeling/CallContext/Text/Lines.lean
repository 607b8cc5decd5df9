/-!
The lines of a text. A line ends with a line feed, which may have one carriage return before it;
neither belongs to the line. A last line without a line feed counts unless it is empty.
-/

namespace CallContext.Text

def splitAt (separator : Char) : List Char → List (List Char)
  | [] => [[]]
  | c :: rest =>
    if c = separator then [] :: splitAt separator rest
    else match splitAt separator rest with
      | [] => [[c]]
      | piece :: pieces => (c :: piece) :: pieces

def dropReturn (line : List Char) : List Char :=
  match line.reverse with
  | '\r' :: before => before.reverse
  | _ => line

def linesOf : List (List Char) → List (List Char)
  | [] => []
  | [last] => if last.isEmpty then [] else [last]
  | piece :: pieces => dropReturn piece :: linesOf pieces

def lines (text : List Char) : List (List Char) :=
  linesOf (splitAt '\n' text)

end CallContext.Text
