/-!
Cutting a text at a character.
-/

namespace FormatServer.Text

/-- The pieces of a text between the places of a separator, at least one. -/
def splitOn (sep : Char) : List Char → List (List Char)
  | [] => [[]]
  | c :: rest =>
    if c = sep then [] :: splitOn sep rest
    else match splitOn sep rest with
      | [] => [[c]]
      | piece :: pieces => (c :: piece) :: pieces

/-- What stands before the first separator, and what stands after it if there is one. -/
def cutAt (sep : Char) : List Char → List Char × Option (List Char)
  | [] => ([], none)
  | c :: rest =>
    if c = sep then ([], some rest)
    else
      let (before, after) := cutAt sep rest
      (c :: before, after)

end FormatServer.Text
