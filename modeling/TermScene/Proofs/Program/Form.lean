import TermScene.Proofs.Program.Slots

/-!
# The forms of commands against the grammar

The forms by which commands are read and the productions of the grammar say the same: the tokens
behind the first word of a command without a block fill the slots of its form, and the command is what
the form makes of the operands. A block is followed by the slots that close it. Nothing but this module
looks into the table of forms.
-/

namespace TermScene

namespace Token

/-- The keyword that a token is, if it is one. -/
def keyword? (token : Token) : Option Keyword :=
  if token.kind = .identifier then Keyword.ofWord? token.text else none

theorem keyword?_eq_some_iff {token : Token} {keyword : Keyword} :
    token.keyword? = some keyword ↔ token.IsWord keyword.word := by
  unfold keyword? IsWord
  constructor
  · intro found
    split at found
    · rename_i isIdentifier
      exact ⟨isIdentifier, (Keyword.word_of_ofWord? found).symm⟩
    · simp at found
  · rintro ⟨isIdentifier, isText⟩
    rw [if_pos isIdentifier, isText, Keyword.ofWord?_word]

end Token

/-- Without its quotation marks a text is the characters of it that are none. -/
theorem unquotes_iff {text content : List Char} :
    Unquotes text content ↔ content = text.filter (· ≠ '"') := by
  constructor
  · intro unquotes
    induction unquotes with
    | nil => rfl
    | quote isRest ih => simpa using ih
    | other noQuote isRest ih => simp [noQuote, ih]
  · rintro rfl
    induction text with
    | nil => exact .nil
    | cons char rest ih =>
        by_cases isQuote : char = '"'
        · rw [isQuote, List.filter_cons_of_neg (by simp)]
          exact .quote ih
        · rw [List.filter_cons_of_pos (by simpa using isQuote)]
          exact .other isQuote ih

theorem Token.hasContent_iff {token : Token} {content : String} :
    token.HasContent content ↔ token.kind = .string ∧ content = withoutQuotes token.text := by
  rw [HasContent, unquotes_iff, withoutQuotes, String.ext_iff, String.toList_ofList]

/-- The tokens behind the first word of a command without a block, and the command. -/
def FillsForm (word : Token) (form : Form) (tokens : List Token) (command : Command) : Prop :=
  match form with
  | .simple slots build =>
      ∃ operands, Fills slots tokens operands ∧ command = build operands word.location
  | .block _ _ => False

theorem DerivesPlain.fillsForm {tokens : List Token} {command : Command}
    (derives : DerivesPlain tokens command) :
    ∃ word rest keyword, tokens = word :: rest ∧ word.keyword? = some keyword ∧
      FillsForm word keyword.form rest command := by
  cases derives with
  | background starts isColor stops =>
      exact ⟨_, _, .background, rfl, Token.keyword?_eq_some_iff.mpr starts, (_, ()),
        by simp [*], rfl⟩
  | circle starts isAt isPoint =>
      cases isPoint
      exact ⟨_, _, .circle, rfl, Token.keyword?_eq_some_iff.mpr starts, (_, _, _, _, ()),
        by simp [*], rfl⟩
  | rect starts isAt isPoint =>
      cases isPoint
      exact ⟨_, _, .rect, rfl, Token.keyword?_eq_some_iff.mpr starts, (_, _, _, _, _, ()),
        by simp [*], rfl⟩
  | text starts isContent isAt isPoint =>
      rcases Token.hasContent_iff.mp isContent with ⟨isString, rfl⟩
      cases isPoint
      exact ⟨_, _, .text, rfl, Token.keyword?_eq_some_iff.mpr starts, (_, _, _, _, _, ()),
        by simp [*], rfl⟩
  | line starts isFrom isStart isTo isFinish =>
      cases isStart
      cases isFinish
      exact ⟨_, _, .line, rfl, Token.keyword?_eq_some_iff.mpr starts, (_, _, _, _, _, ()),
        by simp [*], rfl⟩
  | var starts isName assigns isNumber stops =>
      exact ⟨_, _, .var, rfl, Token.keyword?_eq_some_iff.mpr starts, (_, _, ()),
        by simp [*], rfl⟩
  | rainbow starts isContent isAt isPoint =>
      rcases Token.hasContent_iff.mp isContent with ⟨isString, rfl⟩
      cases isPoint
      exact ⟨_, _, .rainbow, rfl, Token.keyword?_eq_some_iff.mpr starts, (_, _, _, _, ()),
        by simp [*], rfl⟩
  | wait starts isTime stops =>
      exact ⟨_, _, .wait, rfl, Token.keyword?_eq_some_iff.mpr starts, (_, ()),
        by simp [*], rfl⟩

theorem fills_point_iff {later : List Slot} {tokens : List Token}
    {operands : Operands (.mark .leftParen :: .number :: .mark .comma :: .number ::
      .mark .rightParen :: later)} :
    Fills (.mark .leftParen :: .number :: .mark .comma :: .number :: .mark .rightParen :: later)
        tokens operands ↔
      ∃ point rest, tokens = point ++ rest ∧ DerivesPoint point operands.1 operands.2.1 ∧
        Fills later rest operands.2.2 := by
  constructor
  · simp only [Fills]
    rintro ⟨_, _, rfl, opens, _, _, rfl, isX, _, _, rfl, parts, _, _, rfl, isY, _, rest, rfl, closes,
      fills⟩
    exact ⟨_, rest, rfl, .point opens isX parts isY closes, fills⟩
  · rintro ⟨point, rest, rfl, isPoint, fills⟩
    cases isPoint
    simp [*]

theorem derivesPlain_of_fillsForm {word : Token} {rest : List Token} {keyword : Keyword}
    {command : Command} (known : word.keyword? = some keyword)
    (fills : FillsForm word keyword.form rest command) : DerivesPlain (word :: rest) command := by
  have starts := Token.keyword?_eq_some_iff.mp known
  cases keyword with
  | background =>
      rcases fills with ⟨⟨color, ⟨⟩⟩, fills, rfl⟩
      rcases fills with ⟨_, _, rfl, ⟨isColor, rfl⟩, _, _, rfl, stops, rfl⟩
      exact .background starts isColor stops
  | circle =>
      rcases fills with ⟨⟨x, y, radius, fill, ⟨⟩⟩, fills, rfl⟩
      rcases fills with ⟨_, _, rfl, isAt, fills⟩
      rcases fills_point_iff.mp fills with ⟨point, _, rfl, isPoint, fills⟩
      rcases fills with ⟨_, _, rfl, marksSize, _, _, rfl, isSize, _, _, rfl, marksFill, _, _, rfl,
        ⟨isFill, rfl⟩, _, _, rfl, stops, rfl⟩
      exact .circle starts isAt isPoint marksSize isSize marksFill isFill stops
  | rect =>
      rcases fills with ⟨⟨x, y, width, height, fill, ⟨⟩⟩, fills, rfl⟩
      rcases fills with ⟨_, _, rfl, isAt, fills⟩
      rcases fills_point_iff.mp fills with ⟨point, _, rfl, isPoint, fills⟩
      rcases fills with ⟨_, _, rfl, marksWide, _, _, rfl, isWide, _, _, rfl, marksHigh, _, _, rfl,
        isHigh, _, _, rfl, marksFill, _, _, rfl, ⟨isFill, rfl⟩, _, _, rfl, stops, rfl⟩
      exact .rect starts isAt isPoint marksWide isWide marksHigh isHigh marksFill isFill stops
  | text =>
      rcases fills with ⟨⟨content, x, y, size, color, ⟨⟩⟩, fills, rfl⟩
      rcases fills with ⟨_, _, rfl, ⟨isString, rfl⟩, _, _, rfl, isAt, fills⟩
      rcases fills_point_iff.mp fills with ⟨point, _, rfl, isPoint, fills⟩
      rcases fills with ⟨_, _, rfl, marksSize, _, _, rfl, isSize, _, _, rfl, marksColor, _, _, rfl,
        ⟨isColor, rfl⟩, _, _, rfl, stops, rfl⟩
      have isContent := Token.hasContent_iff.mpr ⟨isString, rfl⟩
      exact .text starts isContent isAt isPoint marksSize isSize marksColor isColor stops
  | line =>
      rcases fills with ⟨⟨x1, y1, x2, y2, color, ⟨⟩⟩, fills, rfl⟩
      rcases fills with ⟨_, _, rfl, isFrom, fills⟩
      rcases fills_point_iff.mp fills with ⟨start, _, rfl, isStart, fills⟩
      rcases fills with ⟨_, _, rfl, isTo, fills⟩
      rcases fills_point_iff.mp fills with ⟨finish, _, rfl, isFinish, fills⟩
      rcases fills with ⟨_, _, rfl, marksColor, _, _, rfl, ⟨isColor, rfl⟩, _, _, rfl, stops, rfl⟩
      have derives := DerivesPlain.line starts isFrom isStart isTo isFinish marksColor isColor stops
      simpa using derives
  | animate => exact absurd fills id
  | var =>
      rcases fills with ⟨⟨name, value, ⟨⟩⟩, fills, rfl⟩
      rcases fills with ⟨_, _, rfl, ⟨isName, rfl⟩, _, _, rfl, assigns, _, _, rfl, isNumber, _, _,
        rfl, stops, rfl⟩
      exact .var starts isName assigns isNumber stops
  | rainbow =>
      rcases fills with ⟨⟨content, x, y, duration, ⟨⟩⟩, fills, rfl⟩
      rcases fills with ⟨_, _, rfl, ⟨isString, rfl⟩, _, _, rfl, isAt, fills⟩
      rcases fills_point_iff.mp fills with ⟨point, _, rfl, isPoint, fills⟩
      rcases fills with ⟨_, _, rfl, marksSteps, _, _, rfl, isSteps, _, _, rfl, stops, rfl⟩
      have isContent := Token.hasContent_iff.mpr ⟨isString, rfl⟩
      exact .rainbow starts isContent isAt isPoint marksSteps isSteps stops
  | wait =>
      rcases fills with ⟨⟨duration, ⟨⟩⟩, fills, rfl⟩
      rcases fills with ⟨_, _, rfl, isTime, _, _, rfl, stops, rfl⟩
      exact .wait starts isTime stops
  | frame => exact absurd fills id

/-- A command with a block is the block in braces and what the form asks for from the closing brace
on. -/
theorem derivesCommand_of_block {word left : Token} {keyword : Keyword} {tail : List Slot}
    {build : List Command → Operands tail → Option Location → Command} {body closing : List Token}
    {commands : List Command} {operands : Operands tail} (known : word.keyword? = some keyword)
    (form : keyword.form = .block tail build) (opens : left.kind = .leftBrace)
    (isBody : DerivesCommands body commands) (closes : Fills tail closing operands) :
    DerivesCommand (word :: left :: body ++ closing) (build commands operands word.location) := by
  have starts := Token.keyword?_eq_some_iff.mp known
  cases keyword <;> cases form
  case animate =>
    rcases operands with ⟨duration, ⟨⟩⟩
    rcases closes with ⟨_, _, rfl, isClosed, _, _, rfl, isFor, _, _, rfl, isTime, _, _, rfl, stops,
      rfl⟩
    exact .animate starts opens isBody isClosed isFor isTime stops
  case frame =>
    rcases operands with ⟨⟩
    rcases closes with ⟨_, _, rfl, isClosed, rfl⟩
    exact .frame starts opens isBody isClosed

end TermScene
