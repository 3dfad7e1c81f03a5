import TermScene.Editor.Address
import TermScene.Editor.Completion
import TermScene.Editor.Outline

/-!
# Requests of an editor

An editor tells about the documents that it opens, changes, saves and closes, and asks about places in
them. Whenever a text is opened, changed or saved its problems are published, and when a document is
closed an empty list is. What is published carries the address as the editor wrote it.

The texts of open documents are kept by somebody else. All that is relied on is a `Keeper`: it is told
about every document that is opened, changed or closed, may refuse to open one, and is asked for the text
at an address.
-/

namespace TermScene

namespace Editor

/-- What an editor tells or asks. Only an opened document always comes with its text. -/
inductive Request where
  | opened (uri text : String)
  | changed (uri : String) (text : Option String)
  | saved (uri : String) (text : Option String)
  | closed (uri : String)
  | complete (uri : String) (position : Position)
  | hover (uri : String) (position : Position)
  | outline (uri : String)
  | initialized
  | shutdown
  deriving DecidableEq, Repr

/-- What is answered to a request. -/
inductive Answer where
  | nothing
  | completions (offered : List Completion)
  | hover (shown : Option Hover)
  | outline (entries : List OutlineEntry)

/-- Why a request fails: it asks about a place that cannot be, its address is none, no document is open
for the file at its address, or the document cannot be checked. -/
inductive RequestFailure where
  | noPosition (fault : PositionFault)
  | noAddress (fault : AddressFault)
  | notOpen (file : String)
  | unreadable (failure : ReadFailure)
  deriving DecidableEq, Repr

/-- Problems that are published for a document, in place of those before. -/
structure Publication where
  uri : String
  problems : List Problem
  deriving DecidableEq, Repr

/-- All that follows from a request: the answer, what is published, and the notices. -/
structure Reply where
  answer : Except RequestFailure Answer
  published : List Publication := []
  notices : List Notice := []

namespace Reply

def failed (failure : RequestFailure) : Reply := { answer := .error failure }

def checked (uri text : String) : Reply :=
  match problems text uri with
  | .ok (found, notices) => { answer := .ok .nothing, published := [⟨uri, found⟩], notices }
  | .error failure => failed (.unreadable failure)

def outlined (uri text : String) : Reply :=
  match Editor.outline text uri with
  | .ok (entries, notices) => { answer := .ok (.outline entries), notices }
  | .error failure => failed (.unreadable failure)

end Reply

/-- Somebody who keeps open documents: what becomes of them when one is opened, changed or closed, and the
text at an address, if there is any. An opening can be refused, and so can a text. -/
structure Keeper (State : Type) where
  opened : State → (uri text : String) → Except RequestFailure State
  changed : State → (uri : String) → (text : Option String) → State
  closed : State → (uri : String) → State
  text : State → (uri : String) → Except RequestFailure (Option String)

namespace Keeper

variable {State : Type} (keeper : Keeper State) (state : State)

/-- A reply that needs the text of a document. Where there is none, nothing is done. -/
def replyWith (uri : String) (reply : String → Reply) : Reply :=
  match keeper.text state uri with
  | .ok (some text) => reply text
  | .ok none => { answer := .ok .nothing }
  | .error failure => .failed failure

/-- A reply that needs a place in the text of a document. -/
def replyFrom (uri : String) (position : Position) (reply : String → Reply) : Reply :=
  match position.fault? with
  | some fault => .failed (.noPosition fault)
  | none => keeper.replyWith state uri reply

/-- The reply to a request, and the documents after it. Saving a document does not change its text. -/
def handle (request : Request) : Reply × State :=
  match request with
  | .opened uri text =>
      match keeper.opened state uri text with
      | .ok next => (.checked uri text, next)
      | .error failure => (.failed failure, state)
  | .changed uri text =>
      let next := keeper.changed state uri text
      (keeper.replyWith next uri fun current => .checked uri current, next)
  | .saved uri (some text) => (.checked uri text, state)
  | .saved uri none => (keeper.replyWith state uri fun current => .checked uri current, state)
  | .closed uri => ({ answer := .ok .nothing, published := [⟨uri, []⟩] }, keeper.closed state uri)
  | .complete uri position =>
      let offer (text : String) : Reply :=
        { answer := .ok (.completions (completions text position)) }
      (keeper.replyFrom state uri position offer, state)
  | .hover uri position =>
      let explain (text : String) : Reply := { answer := .ok (.hover (hover? text position)) }
      (keeper.replyFrom state uri position explain, state)
  | .outline uri => (keeper.replyWith state uri fun text => .outlined uri text, state)
  | .initialized => ({ answer := .ok .nothing }, state)
  | .shutdown => ({ answer := .ok .nothing }, state)

def replies (state : State) : List Request → List Reply
  | [] => []
  | request :: later =>
      let (reply, next) := keeper.handle state request
      reply :: replies next later

end Keeper

end Editor

end TermScene
