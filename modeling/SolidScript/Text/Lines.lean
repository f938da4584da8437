/-!
# Lines of a text

A line ends at a line feed, or at a carriage return and a line feed, or at the end of the text.
The end of the text starts no further line after a line feed.
-/

namespace SolidScript
namespace Text

/-- A line that a line feed ended, without the carriage return before it. -/
def dropReturn (line : List Char) : List Char :=
  match line.reverse with
  | '\r' :: rest => rest.reverse
  | _ => line

/-- The lines of a text, given the characters already read of its first line, last one first. -/
def linesFrom (seen : List Char) : List Char → List (List Char)
  | [] => if seen.isEmpty then [] else [seen.reverse]
  | c :: rest =>
    if c = '\n' then dropReturn seen.reverse :: linesFrom [] rest
    else linesFrom (c :: seen) rest

/-- The lines of a text.  The empty text has none. -/
def lines (cs : List Char) : List (List Char) := linesFrom [] cs

end Text
end SolidScript
