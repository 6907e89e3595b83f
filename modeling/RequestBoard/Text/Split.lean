/-!
# Parts of a text

A text is cut at the characters of one kind, and what stands between them are its parts.
-/

namespace RequestBoard

/-- The parts of a text between the characters that separate them, the first one and the others; there is
always at least one. -/
def parted (separates : Char → Bool) : List Char → List Char × List (List Char)
  | [] => ([], [])
  | c :: cs =>
    let (first, rest) := parted separates cs
    if separates c then ([], first :: rest) else (c :: first, rest)

/-- The parts of a text as one list. -/
def parts (separates : Char → Bool) (text : List Char) : List (List Char) :=
  (parted separates text).1 :: (parted separates text).2

end RequestBoard
