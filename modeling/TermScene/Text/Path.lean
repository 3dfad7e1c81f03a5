import TermScene.Text.Lines

/-!
# File paths

A path is shown in its plain form: no empty parts and no parts that stand for the folder itself.
-/

namespace TermScene

/-- What a path starts with: nothing, one slash, or two when there are exactly two. -/
def pathRoot : List Char → List Char
  | '/' :: '/' :: '/' :: _ => ['/']
  | '/' :: '/' :: _ => ['/', '/']
  | '/' :: _ => ['/']
  | _ => []

def plainPath (path : String) : String :=
  let root := pathRoot path.toList
  let parts := (partsAt '/' path.toList).filter fun part => part ≠ [] ∧ part ≠ ['.']
  let joined := root ++ List.intercalate ['/'] parts
  if joined = [] then "." else String.ofList joined

end TermScene
