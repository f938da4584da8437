/-!
# Identifiers

The names that may stand in a script: an ASCII letter or an underscore followed by ASCII letters,
digits and underscores, with a dollar sign allowed in front, except the reserved words.
-/

namespace SolidScript
namespace Identifier

/-- The words that a script gives a meaning of their own. -/
def reserved : List String :=
  ["module", "function", "if", "else", "for", "let", "each", "true", "false", "undef", "include",
    "use", "assert", "echo"]

def isHead (c : Char) : Bool := c.isAlpha || c == '_'

def isTail (c : Char) : Bool := c.isAlphanum || c == '_'

/-- The characters of a name without the dollar sign in front. -/
def bare : List Char → List Char
  | '$' :: rest => rest
  | cs => cs

/-- Are the characters, after a dollar sign in front, a head and a tail? -/
def wellFormed (cs : List Char) : Bool :=
  match bare cs with
  | [] => false
  | c :: rest => isHead c && rest.all isTail

/-- May the name stand in a script? -/
def isValid (name : String) : Bool := wellFormed name.toList && !reserved.contains name

end Identifier
end SolidScript
