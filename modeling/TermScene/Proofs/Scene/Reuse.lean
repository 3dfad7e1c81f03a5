import Mathlib.Data.List.Forall2
import TermScene.Proofs.Scene.Rainbow

/-!
# Evaluating one program after another

An evaluator clears its stage before a program and leaves the buffer as it is. Nothing of that is seen:
wherever a command reads the buffer, it holds the output of the commands before it in the same block.
So an evaluation with a buffer ends as one that hands the output on, whatever the buffer held at first.
-/

namespace TermScene

namespace Buffering

variable {α β : Type}

/-- The end of an evaluation with a buffer, the buffer left out. -/
def withoutBuffer :
    EStateM.Result DrawFailure Kept α → EStateM.Result DrawFailure Stage α
  | .ok value kept => .ok value kept.stage
  | .error failure kept => .error failure kept.stage

/-- A part of an evaluation that ends as another one without a buffer, whatever the buffer holds. -/
def Mirrors (buffered : Buffering α) (plain : Evaluating α) : Prop :=
  ∀ kept, withoutBuffer (buffered kept) = plain kept.stage

namespace Mirrors

theorem pure (value : α) : Mirrors (pure value) (pure value) := fun _ => rfl

theorem onStage (part : Evaluating α) : Mirrors (onStage part) part := by
  intro kept
  unfold Buffering.onStage
  cases part kept.stage <;> rfl

theorem bind {buffered : Buffering α} {plain : Evaluating α} {next : α → Buffering β}
    {plainNext : α → Evaluating β} (first : Mirrors buffered plain)
    (later : ∀ value, Mirrors (next value) (plainNext value)) :
    Mirrors (buffered >>= next) (plain >>= plainNext) := by
  intro kept
  change withoutBuffer (EStateM.bind buffered next kept) = EStateM.bind plain plainNext kept.stage
  have ends := first kept
  unfold EStateM.bind
  cases made : buffered kept with
  | ok value between =>
      rw [made] at ends
      rw [← ends]
      exact later value between
  | error failure between =>
      rw [made] at ends
      rw [← ends]
      rfl

end Mirrors

variable (settings : Settings) (lettering : Lettering)

mutual

theorem visit_withoutBuffer : (subject : Command) → (kept : Kept) →
    withoutBuffer (visit settings lettering subject kept) =
      Evaluating.command settings lettering subject kept.buffer kept.stage
  | .frame body place, kept => by
      -- What the commands inside leave in the buffer is not read: the output was taken before.
      have inside := (block_mirrors body "").bind fun frame =>
        (Mirrors.onStage (modify fun stage : Stage =>
          { stage with frames := stage.frames.push frame })).bind fun _ => .pure kept.buffer
      rw [Evaluating.command]
      exact inside kept
  | .animate children duration place, kept => by
      have inside := (frames_mirrors children).bind fun pictures =>
        (Mirrors.onStage (Evaluating.animate settings pictures duration)).bind fun _ =>
          .pure kept.buffer
      rw [Evaluating.command]
      exact inside kept
  | .background color place, kept =>
      Mirrors.onStage (Evaluating.command settings lettering (.background color place) kept.buffer) kept
  | .draw drawing place, kept =>
      Mirrors.onStage (Evaluating.command settings lettering (.draw drawing place) kept.buffer) kept
  | .define name value place, kept =>
      Mirrors.onStage (Evaluating.command settings lettering (.define name value place) kept.buffer) kept
  | .rainbow text x y duration place, kept =>
      Mirrors.onStage
        (Evaluating.command settings lettering (.rainbow text x y duration place) kept.buffer) kept
  | .wait duration place, kept =>
      Mirrors.onStage (Evaluating.command settings lettering (.wait duration place) kept.buffer) kept

theorem block_mirrors : (commands : List Command) → (output : String) →
    Mirrors (block settings lettering commands output)
      (Evaluating.commands settings lettering commands output)
  | [], output => .pure output
  | first :: later, output => by
      intro kept
      rw [Evaluating.commands, block]
      have ends : Mirrors
          (fun kept => visit settings lettering first { kept with buffer := output })
          (Evaluating.command settings lettering first output) :=
        fun kept => visit_withoutBuffer first { kept with buffer := output }
      exact (ends.bind fun next => block_mirrors later next) kept

theorem frames_mirrors : (children : List Command) →
    Mirrors (frames settings lettering children) (Evaluating.frames settings lettering children)
  | [] => .pure []
  | .frame body place :: later => by
      rw [Evaluating.frames, frames]
      exact (block_mirrors body "").bind fun frame =>
        (frames_mirrors later).bind fun others => .pure (frame :: others)
  | .background .. :: later | .draw .. :: later | .define .. :: later | .rainbow .. :: later
  | .wait .. :: later | .animate .. :: later => frames_mirrors later

end

/-- The first command of a block is come to with a new buffer. -/
theorem block_buffer {commands : List Command} (nonempty : commands ≠ []) (output : String)
    (kept : Kept) (buffer : String) :
    block settings lettering commands output { kept with buffer } =
      block settings lettering commands output kept := by
  cases commands with
  | nil => contradiction
  | cons first later => rfl

end Buffering

namespace Evaluating

variable {α β : Type}

/-- The stage that an evaluation ends at. -/
def endStage : EStateM.Result DrawFailure Stage α → Stage
  | .ok _ stage => stage
  | .error _ stage => stage

/-- A part of an evaluation that leaves the output of the stage as it is, also where it fails. -/
def KeepsOutput (part : Evaluating α) : Prop := ∀ stage, (endStage (part stage)).output = stage.output

namespace KeepsOutput

theorem pure (value : α) : KeepsOutput (pure value) := fun _ => rfl

theorem throw (failure : DrawFailure) : KeepsOutput (throw failure : Evaluating α) := fun _ => rfl

theorem get : KeepsOutput get := fun _ => rfl

theorem modify {change : Stage → Stage} (keeps : ∀ stage, (change stage).output = stage.output) :
    KeepsOutput (modify change) := keeps

theorem bind {first : Evaluating α} {next : α → Evaluating β} (isKept : KeepsOutput first)
    (later : ∀ value, KeepsOutput (next value)) : KeepsOutput (first >>= next) := by
  intro stage
  change (endStage (EStateM.bind first next stage)).output = stage.output
  rw [← isKept stage]
  unfold EStateM.bind
  cases first stage with
  | ok value between => exact later value between
  | error failure between => rfl

theorem drawn (result : Except DrawFailure (String × List Notice)) : KeepsOutput (drawn result) := by
  cases result with
  | error failure => exact .throw failure
  | ok made => exact (modify fun _ => rfl).bind fun _ => .pure made.1

theorem record (steps : List Step) : KeepsOutput (record steps) := .modify fun _ => rfl

theorem animate (settings : Settings) (frames : List String) (duration : Int) :
    KeepsOutput (animate settings frames duration) := by
  unfold Evaluating.animate
  split
  · exact .modify fun _ => rfl
  · split
    · exact .throw _
    · exact get.bind fun _ => record _

end KeepsOutput

variable (settings : Settings) (lettering : Lettering)

mutual

theorem command_keepsOutput : (subject : Command) → (output : String) →
    KeepsOutput (command settings lettering subject output)
  | .background color place, output => (KeepsOutput.modify fun _ => rfl).bind fun _ => .pure output
  | .draw drawing place, output => (KeepsOutput.drawn _).bind fun _ => .pure _
  | .define name value place, output => (KeepsOutput.modify fun _ => rfl).bind fun _ => .pure output
  | .rainbow text x y duration place, output => by
      intro stage
      rcases Hue.exists_paint text settings.color with ⟨paint, isPaint⟩
      rw [command_rainbow isPaint]
      rfl
  | .wait duration place, output => (KeepsOutput.record _).bind fun _ => .pure output
  | .frame body place, output => by
      rw [command]
      exact (commands_keepsOutput body "").bind fun _ =>
        (KeepsOutput.modify fun _ => rfl).bind fun _ => .pure output
  | .animate children duration place, output => by
      rw [command]
      exact (frames_keepsOutput children).bind fun _ =>
        (KeepsOutput.animate settings _ duration).bind fun _ => .pure output

theorem commands_keepsOutput : (block : List Command) → (output : String) →
    KeepsOutput (commands settings lettering block output)
  | [], output => .pure output
  | first :: later, output => by
      rw [commands]
      exact (command_keepsOutput first output).bind fun next => commands_keepsOutput later next

theorem frames_keepsOutput : (children : List Command) →
    KeepsOutput (frames settings lettering children)
  | [] => .pure []
  | .frame body place :: later => by
      rw [frames]
      exact (commands_keepsOutput body "").bind fun _ =>
        (frames_keepsOutput later).bind fun _ => .pure _
  | .background .. :: later | .draw .. :: later | .define .. :: later | .rainbow .. :: later
  | .wait .. :: later | .animate .. :: later => frames_keepsOutput later

end

end Evaluating

/-- A failed evaluation has set no output, however much was drawn before. -/
theorem Program.output_of_failure {program : Program} {settings : Settings} {lettering : Lettering}
    {failure : DrawFailure} (failed : (program.evaluate settings lettering).outcome = .error failure) :
    (program.evaluate settings lettering).stage.output = "" := by
  have keeps := Evaluating.commands_keepsOutput settings lettering program.commands "" {}
  unfold evaluate at failed ⊢
  unfold EStateM.run at failed ⊢
  cases ended : Evaluating.commands settings lettering program.commands "" {} with
  | ok output after => simp [ended] at failed
  | error cause after =>
      rw [ended] at keeps
      exact keeps

namespace Evaluator

/-- An evaluator that has evaluated nothing yet. -/
def fresh (settings : Settings) (lettering : Lettering) : Evaluator := { settings, lettering }

/-- What an evaluator gives is the evaluation of the program. -/
theorem evaluate_eq (evaluator : Evaluator) (program : Program) :
    let evaluation := program.evaluate evaluator.settings evaluator.lettering
    let evaluated := evaluator.evaluate program
    evaluated.1 = evaluation.outcome ∧ evaluated.2.stage = evaluation.stage := by
  have ends := Buffering.block_mirrors evaluator.settings evaluator.lettering program.commands ""
    { evaluator.toKept with stage := {} }
  unfold evaluate Program.evaluate EStateM.run
  rw [← ends]
  cases Buffering.block evaluator.settings evaluator.lettering program.commands ""
    { evaluator.toKept with stage := {} } <;> exact ⟨rfl, rfl⟩

theorem evaluate_given (evaluator : Evaluator) (program : Program) :
    let next := (evaluator.evaluate program).2
    next.settings = evaluator.settings ∧ next.lettering = evaluator.lettering := by
  unfold evaluate
  cases Buffering.block evaluator.settings evaluator.lettering program.commands ""
    { evaluator.toKept with stage := {} } <;> exact ⟨rfl, rfl⟩

/-- The evaluations of programs one after another, each with the evaluator after it. -/
def evaluateAll : Evaluator → List Program → List (Except DrawFailure Scene × Evaluator)
  | _, [] => []
  | evaluator, first :: later =>
      let evaluated := evaluator.evaluate first
      evaluated :: evaluated.2.evaluateAll later

/-- An evaluation that gives the outcome and the stage which a fresh evaluator gives for the program
alone. The buffer, too, is the same unless there was nothing to evaluate. -/
structure IsFresh (settings : Settings) (lettering : Lettering) (program : Program)
    (evaluated : Except DrawFailure Scene × Evaluator) : Prop where
  outcome : evaluated.1 = ((fresh settings lettering).evaluate program).1
  stage : evaluated.2.stage = ((fresh settings lettering).evaluate program).2.stage
  evaluator : program.commands ≠ [] →
    evaluated.2 = ((fresh settings lettering).evaluate program).2
  output : ∀ failure, evaluated.1 = .error failure → evaluated.2.stage.output = ""

theorem isFresh_evaluate (evaluator : Evaluator) (program : Program) :
    IsFresh evaluator.settings evaluator.lettering program (evaluator.evaluate program) := by
  rcases evaluator.evaluate_eq program with ⟨outcome, stage⟩
  rcases (fresh evaluator.settings evaluator.lettering).evaluate_eq program with
    ⟨freshOutcome, freshStage⟩
  constructor
  case outcome => exact outcome.trans freshOutcome.symm
  case stage => exact stage.trans freshStage.symm
  case evaluator =>
    intro nonempty
    have same := Buffering.block_buffer evaluator.settings evaluator.lettering nonempty "" {}
      evaluator.buffer
    exact congrArg (fun ends => (ended evaluator.settings evaluator.lettering ends).2) same
  case output =>
    intro failure failed
    rw [outcome] at failed
    rw [stage]
    exact Program.output_of_failure failed

/-- Evaluations do not depend on those before: whatever programs an evaluator takes one after another,
failing ones among them, each is evaluated as by a fresh one. -/
theorem evaluateAll_isFresh (evaluator : Evaluator) (programs : List Program) :
    List.Forall₂ (IsFresh evaluator.settings evaluator.lettering) programs
      (evaluator.evaluateAll programs) := by
  induction programs generalizing evaluator with
  | nil => exact .nil
  | cons first later ih =>
      rcases evaluator.evaluate_given first with ⟨settings, lettering⟩
      have others := ih (evaluator.evaluate first).2
      rw [settings, lettering] at others
      exact .cons (evaluator.isFresh_evaluate first) others

end Evaluator

end TermScene
