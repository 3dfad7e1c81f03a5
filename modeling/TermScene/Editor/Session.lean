import TermScene.Editor.Request

/-!
# A session with an editor

A session keeps the texts of open documents, and nothing else. A document that is not open has no text to
be asked about.

Addresses that differ only in what they write with percent signs are addresses of one document. A text
that is no address opens no document.
-/

namespace TermScene

namespace Editor

/-- The name by which a session knows the document at an address. -/
def documentName (uri : String) : String := percentDecoded uri

/-- The open documents: their names and texts. -/
structure Workspace where
  documents : List (String × String) := []

namespace Workspace

def text? (workspace : Workspace) (uri : String) : Option String :=
  workspace.documents.lookup (documentName uri)

def erase (workspace : Workspace) (uri : String) : Workspace :=
  ⟨workspace.documents.filter fun entry => entry.1 ≠ documentName uri⟩

/-- Gives a document a text, opening it if it is not open. -/
def insert (workspace : Workspace) (uri text : String) : Workspace :=
  ⟨(documentName uri, text) :: (workspace.erase uri).documents⟩

@[simp]
theorem text?_insert_self (workspace : Workspace) (uri text : String) :
    (workspace.insert uri text).text? uri = some text := by
  simp [text?, insert]

theorem text?_erase (workspace : Workspace) (uri other : String) :
    (workspace.erase uri).text? other =
      if documentName other = documentName uri then none else workspace.text? other := by
  simp only [text?, erase]
  generalize documentName uri = name
  generalize documentName other = otherName
  induction workspace.documents with
  | nil => simp
  | cons entry later ih =>
      obtain ⟨key, value⟩ := entry
      simp only [ne_eq, decide_not] at ih
      by_cases erased : key = name
      · by_cases same : otherName = name
        · simpa [List.filter_cons, erased, same] using ih
        · have passed : (otherName == name) = false := by simpa using same
          simpa [List.filter_cons, List.lookup_cons, erased, same, passed] using ih
      · by_cases found : otherName = key
        · simp [found, erased]
        · have passed : (otherName == key) = false := by simpa using found
          simpa [List.filter_cons, List.lookup_cons, erased, passed] using ih

theorem text?_insert_of_ne (workspace : Workspace) {uri other : String} (text : String)
    (different : documentName other ≠ documentName uri) :
    (workspace.insert uri text).text? other = workspace.text? other := by
  have passed : (documentName other == documentName uri) = false := by simpa using different
  have kept := workspace.text?_erase uri other
  rw [if_neg different] at kept
  rw [← kept]
  simp [text?, insert, List.lookup_cons, passed]

/-- What an address says, if it is one. -/
def addressed (uri : String) : Except RequestFailure Address :=
  (Address.ofText uri).mapError .noAddress

def keeper : Keeper Workspace where
  opened workspace uri text := (addressed uri).map fun _ => workspace.insert uri text
  changed workspace uri text :=
    match text with
    | some text => if (workspace.text? uri).isSome then workspace.insert uri text else workspace
    | none => workspace
  closed := erase
  text workspace uri :=
    match workspace.text? uri with
    | some text => .ok (some text)
    | none => (addressed uri).bind fun address => .error (.notOpen address.file)

def replies (workspace : Workspace) (requests : List Request) : List Reply :=
  keeper.replies workspace requests

end Workspace

end Editor

end TermScene
