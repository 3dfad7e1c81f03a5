import TermScene.Binary64

/-!
# Scenes

A scene is what a program comes to: the steps to show live in their order, the frames to loop over
afterwards, the output to show if there are none, the background in the end and the variables that
were defined.
-/

namespace TermScene

/-- One step of a timeline: a picture that is shown and held, or a pause. A step that is neither can
be described but not played. Times are in milliseconds. -/
inductive Step where
  | picture (content background : String) (hold : Int) (overlay : String)
  | pause (duration : Int)
  | unknown (description : String)
  deriving DecidableEq, Repr

namespace Step

def duration : Step → Int
  | .picture _ _ hold _ => hold
  | .pause duration => duration
  | .unknown _ => 0

end Step

/-- The values of variables, in the order in which the names were first defined. -/
abbrev Variables := List (String × Binary64)

namespace Variables

/-- Gives a variable a value: in its place if it has one, else in the last place. -/
def define (bindings : Variables) (name : String) (value : Binary64) : Variables :=
  match bindings with
  | [] => [(name, value)]
  | (other, old) :: later =>
      if other = name then (other, value) :: later
      else (other, old) :: define later name value

theorem lookup_define (bindings : Variables) (name : String) (value : Binary64) :
    (bindings.define name value).lookup name = some value := by
  induction bindings with
  | nil => simp [define]
  | cons entry later ih =>
      obtain ⟨other, old⟩ := entry
      by_cases same : other = name
      · simp [define, same]
      · have : (name == other) = false := by simpa using fun equal => same equal.symm
        simpa [define, same, List.lookup_cons, this] using ih

theorem lookup_define_of_ne (bindings : Variables) {name other : String} (value : Binary64)
    (differs : other ≠ name) :
    (bindings.define name value).lookup other = bindings.lookup other := by
  induction bindings with
  | nil =>
      have : (other == name) = false := by simpa using differs
      simp [define, List.lookup_cons, this]
  | cons entry later ih =>
      obtain ⟨first, old⟩ := entry
      by_cases same : first = name
      · subst same
        have : (other == first) = false := by simpa using differs
        simp [define, List.lookup_cons, this]
      · simp only [define, same, if_false, List.lookup_cons]
        split
        · rfl
        · exact ih

end Variables

/-- What a program comes to. -/
structure Scene where
  timeline : Array Step := #[]
  frames : Array String := #[]
  output : String := ""
  background : String := "black"
  bindings : Variables := []
  deriving DecidableEq

namespace Scene

/-- Whether playing ends in an endless loop over frames. -/
def loopsForever (scene : Scene) : Bool := !scene.frames.isEmpty

def totalDuration (scene : Scene) : Int :=
  scene.timeline.foldl (fun total step => total + step.duration) 0

end Scene

end TermScene
