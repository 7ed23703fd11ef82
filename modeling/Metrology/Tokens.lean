import Metrology.Registry
import Metrology.Text.Blank

/-!
Unit strings as runs of names. A text is covered by tokens, each a unit or a prefix with its unit,
with separators between them where two names would run together. At each place the first token is
taken, in the order of preference, that still lets the rest of the text be covered. The covers of
the ends of a text are found from right to left and kept, so that no end is covered twice.
-/

namespace Metrology

namespace Tokens

open Text

/-- The atoms that cover each end of a text, from the longest end to the empty one. -/
abbrev Covers := List (Option (List Atom))

/-- Whether a token whose last character is `last` may end before `rest`: at the end of the text,
before a separator, or where words and other characters meet. -/
def mayEnd (last : Char) : List Char → Bool
  | [] => true
  | c :: _ => isSeparator c || isWord last != isWord c

/-- The cover of the text after a run of separators. -/
def afterSeparators : List Char → Covers → Option (List Atom)
  | [], covers => covers.head?.join
  | c :: rest, covers =>
    if isSeparator c then afterSeparators rest covers.tail else covers.head?.join

/-- The cover of what follows a name that begins the text; the covers belong to the text. -/
def afterName (name text : List Char) (covers : Covers) : Option (List Atom) :=
  let rest := text.drop name.length
  if mayEnd (name.getLastD ' ') rest then afterSeparators rest (covers.drop name.length) else none

/-- The cover of a text by a unit and what follows it. -/
def coverByUnit (units : Names) (text : List Char) (covers : Covers) : Option (List Atom) :=
  (units.beginning text).findSome? fun e => (afterName e.1 text covers).map (e.2 :: ·)

/-- The cover of a text by a prefix, a unit, and what follows them. -/
def coverByPrefix (units prefixes : Names) (text : List Char) (covers : Covers) :
    Option (List Atom) :=
  (prefixes.beginning text).findSome? fun p =>
    (coverByUnit units (text.drop p.1.length) (covers.drop p.1.length)).map (p.2 :: ·)

/-- The covers of all ends of a text. A unit without a prefix is preferred to one with a prefix. -/
def covers (units prefixes : Names) : List Char → Covers
  | [] => [some []]
  | c :: rest =>
    let later := covers units prefixes rest
    let here := none :: later
    (coverByUnit units (c :: rest) here <|> coverByPrefix units prefixes (c :: rest) here) :: later

/-- The atoms that cover a text after the blanks at its beginning; a blank text has no cover. -/
def cover (units prefixes : Names) (text : List Char) : Option (List Atom) :=
  match text.dropWhile isBlank with
  | [] => none
  | s => (covers units prefixes s).head?.join

end Tokens

/-- The atoms of a unit string, if known units cover it. -/
def Registry.cover {K : Type} (r : Registry K) (text : List Char) : Option (List Atom) :=
  Tokens.cover r.units.names r.prefixes.names text

/-- The atoms of a unit string. -/
def Registry.atomsOf {K : Type} (r : Registry K) (text : List Char) : Except Fault (List Atom) :=
  match r.cover text with
  | some atoms => .ok atoms
  | none => .error (.parse (.unknownUnit (String.ofList text)))

end Metrology
