import Mathlib.Data.List.Basic
import TermScene.Editor.Outline
import TermScene.Proofs.Program.Reading

/-!
# The token that ends a construct

The token that ends a construct is found by counting braces. It is the last token that reading the
construct takes: commands in a block are passed over whole, since what they open they close, and
their semicolons stand inside a brace.
-/

namespace TermScene

open Editor

def TokenKind.IsInner (kind : TokenKind) : Prop :=
  kind ≠ .leftBrace ∧ kind ≠ .rightBrace ∧ kind ≠ .semicolon

instance (kind : TokenKind) : Decidable kind.IsInner :=
  inferInstanceAs (Decidable (_ ∧ _ ∧ _))

section Scan

variable {isBlock : Bool} {depth : Int} {token : Token} {rest : List Token}

theorem closing?_leftBrace (opens : token.kind = .leftBrace) :
    closing? isBlock depth (token :: rest) = closing? isBlock (depth + 1) rest := by
  simp [closing?, opens]

theorem closing?_rightBrace (closes : token.kind = .rightBrace) (inside : ¬(isBlock ∧ depth = 1)) :
    closing? isBlock depth (token :: rest) = closing? isBlock (depth - 1) rest := by
  simp [closing?, closes, inside]

theorem closing?_semicolon (stops : token.kind = .semicolon) (inside : 0 < depth) :
    closing? isBlock depth (token :: rest) = closing? isBlock depth rest := by
  simp only [closing?, stops]
  rw [if_neg]
  omega

theorem closing?_inner (inner : token.kind.IsInner) :
    closing? isBlock depth (token :: rest) = closing? isBlock depth rest := by
  rcases inner with ⟨notLeft, notRight, notStop⟩
  rw [closing?]
  split <;> simp_all

theorem closing?_inner_append {front : List Token} (inner : ∀ token ∈ front, token.kind.IsInner) :
    closing? isBlock depth (front ++ rest) = closing? isBlock depth rest := by
  induction front with
  | nil => rfl
  | cons token later ih =>
      rcases List.forall_mem_cons.mp inner with ⟨isInner, laterInner⟩
      rw [List.cons_append, closing?_inner isInner, ih laterInner]

end Scan

theorem Fills.kinds {slots : List Slot} {tokens : List Token} {operands : Operands slots}
    (fills : Fills slots tokens operands) : tokens.map Token.kind = slots.map Slot.kind := by
  induction slots generalizing tokens with
  | nil =>
      rw [fills_nil] at fills
      simp [fills]
  | cons slot later ih =>
      cases slot with
      | mark kind =>
          rcases fills with ⟨token, rest, rfl, isKind, fills⟩
          simp [isKind, Slot.kind, ih fills]
      | number | string | name =>
          rcases fills with ⟨token, rest, rfl, isKind, fills⟩
          simp [isKind.1, Slot.kind, ih fills]
      | count =>
          rcases fills with ⟨token, rest, rfl, ⟨number, isNumber, _⟩, fills⟩
          simp [isNumber.1, Slot.kind, ih fills]

theorem Keyword.kinds_of_simple {keyword : Keyword} {slots : List Slot}
    {build : Operands slots → Option Location → Command} (form : keyword.form = .simple slots build) :
    ∃ front, slots.map Slot.kind = front ++ [.semicolon] ∧ ∀ kind ∈ front, kind.IsInner := by
  cases keyword with
  | animate => simp [Keyword.form] at form
  | frame => simp [Keyword.form] at form
  | _ =>
      simp only [Keyword.form, Form.simple.injEq] at form
      rcases form with ⟨rfl, -⟩
      refine ⟨_, (List.dropLast_append_getLast? TokenKind.semicolon ?_).symm, ?_⟩ <;> decide

/-- A command without a block ends at its only semicolon, and no brace stands in it. -/
theorem DerivesPlain.stops {tokens : List Token} {command : Command}
    (derives : DerivesPlain tokens command) :
    ∃ front stop, tokens = front ++ [stop] ∧ stop.kind = .semicolon ∧
      ∀ token ∈ front, token.kind.IsInner := by
  rcases derives.fillsForm with ⟨word, rest, keyword, rfl, known, fills⟩
  have isWord := (Token.keyword?_eq_some_iff.mp known).1
  cases form : keyword.form with
  | block tail build => simp [form, FillsForm] at fills
  | simple slots build =>
      simp only [form, FillsForm] at fills
      rcases fills with ⟨operands, fills, -⟩
      rcases Keyword.kinds_of_simple form with ⟨kinds, areKinds, inner⟩
      rw [← fills.kinds, List.map_eq_append_iff] at areKinds
      rcases areKinds with ⟨front, last, rfl, rfl, isLast⟩
      rcases List.map_eq_singleton_iff.mp isLast with ⟨stop, rfl, stops⟩
      refine ⟨word :: front, stop, rfl, stops, ?_⟩
      intro token inside
      rcases List.mem_cons.mp inside with rfl | inFront
      · rw [isWord]
        decide
      · exact inner _ (List.mem_map_of_mem inFront)

section Blocks

variable {isBlock : Bool} {word left right : Token} {body : List Token}

/-- A block is passed over if what stands in it is, unless it is itself what is to be closed. -/
theorem closing?_block {depth : Int} (isWord : word.kind = .identifier)
    (opens : left.kind = .leftBrace) (closes : right.kind = .rightBrace)
    (passes : ∀ rest, closing? isBlock (depth + 1) (body ++ rest) = closing? isBlock (depth + 1) rest)
    (other : ¬(isBlock ∧ depth = 0)) (rest : List Token) :
    closing? isBlock depth (word :: left :: (body ++ right :: rest)) =
      closing? isBlock depth rest := by
  have inner : word.kind.IsInner := by rw [isWord]; decide
  have still : ¬(isBlock ∧ depth + 1 = 1) := by
    rintro ⟨isBlock, same⟩
    exact other ⟨isBlock, by omega⟩
  rw [closing?_inner inner, closing?_leftBrace opens, passes, closing?_rightBrace closes still,
    Int.add_sub_cancel]

/-- What follows the braces of an animation is passed over up to its semicolon. -/
theorem closing?_animation_tail {depth : Int} {for' time : Token} {duration : Int}
    (isFor : for'.kind = .identifier) (isTime : time.HasCount duration) (rest : List Token) :
    closing? isBlock depth (for' :: time :: rest) = closing? isBlock depth rest := by
  rcases isTime with ⟨number, isNumber, -⟩
  have innerFor : for'.kind.IsInner := by rw [isFor]; decide
  have innerTime : time.kind.IsInner := by rw [isNumber.1]; decide
  rw [closing?_inner innerFor, closing?_inner innerTime]

mutual

/-- Where a brace is open, a command is passed over. -/
theorem closing?_command : {tokens : List Token} → {command : Command} →
    DerivesCommand tokens command → ∀ {depth : Int}, 0 < depth → ∀ rest,
      closing? isBlock depth (tokens ++ rest) = closing? isBlock depth rest
  | _, _, .plain isPlain, depth, inside, rest => by
      rcases isPlain.stops with ⟨front, stop, rfl, stops, inner⟩
      rw [List.append_assoc, closing?_inner_append inner, List.singleton_append,
        closing?_semicolon stops inside]
  | _, _, .frame starts opens isBody closes, depth, inside, rest => by
      have passes := closing?_commands isBody (show 0 < depth + 1 by omega)
      have other : ¬(isBlock ∧ depth = 0) := by
        rintro ⟨-, rfl⟩
        omega
      simpa using closing?_block starts.1 opens closes passes other rest
  | _, _, .animate starts opens isBody closes isFor isTime stops, depth, inside, rest => by
      have passes := closing?_commands isBody (show 0 < depth + 1 by omega)
      have other : ¬(isBlock ∧ depth = 0) := by
        rintro ⟨-, rfl⟩
        omega
      simp only [List.cons_append, List.append_assoc, List.nil_append]
      rw [closing?_block starts.1 opens closes passes other,
        closing?_animation_tail isFor isTime, closing?_semicolon stops inside]

theorem closing?_commands : {tokens : List Token} → {commands : List Command} →
    DerivesCommands tokens commands → ∀ {depth : Int}, 0 < depth → ∀ rest,
      closing? isBlock depth (tokens ++ rest) = closing? isBlock depth rest
  | _, _, .none, depth, inside, rest => rfl
  | _, _, .some isFirst isLater, depth, inside, rest => by
      rw [List.append_assoc, closing?_command isFirst inside, closing?_commands isLater inside]

end

/-- A word and a block in braces end at the brace that closes them. -/
theorem closing?_braces {commands : List Command} (isWord : word.kind = .identifier)
    (opens : left.kind = .leftBrace) (isBody : DerivesCommands body commands)
    (closes : right.kind = .rightBrace) (rest : List Token) :
    closing? true 0 (word :: left :: body ++ [right] ++ rest) = some right := by
  have inner : word.kind.IsInner := by rw [isWord]; decide
  simp only [List.cons_append, List.append_assoc, List.nil_append]
  rw [closing?_inner inner, closing?_leftBrace opens, closing?_commands isBody (by decide)]
  simp [closing?, closes]

theorem closing?_stop {stop : Token} (stops : stop.kind = .semicolon) (rest : List Token) :
    closing? false 0 (stop :: rest) = some stop := by
  simp [closing?, stops]

/-- A command ends at the last token that reading it takes. -/
theorem closing?_of_derives {tokens : List Token} {command : Command}
    (derives : DerivesCommand tokens command) (rest : List Token) :
    closing? command.isFrame 0 (tokens ++ rest) = tokens.getLast? := by
  cases derives with
  | plain isPlain =>
      have plain : command.isFrame = false := by cases isPlain <;> rfl
      rcases isPlain.stops with ⟨front, stop, rfl, stops, inner⟩
      rw [plain, List.append_assoc, closing?_inner_append inner, List.singleton_append,
        closing?_stop stops, List.getLast?_concat]
  | frame starts opens isBody closes =>
      rw [List.getLast?_concat]
      exact closing?_braces starts.1 opens isBody closes rest
  | animate starts opens isBody closes isFor isTime stops =>
      simp only [Command.isFrame, List.cons_append, List.append_assoc, List.nil_append]
      rw [closing?_block starts.1 opens closes (closing?_commands isBody (by decide)) (by simp),
        closing?_animation_tail isFor isTime, closing?_stop stops]
      simp [List.getLast?_cons]

end Blocks

end TermScene
