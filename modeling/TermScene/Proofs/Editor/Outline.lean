import TermScene.Proofs.Editor.Entries

/-!
# Outlines

A document that can be read has one outline. Each entry has the range of the tokens that reading its
command took, and since the tokens are in order, the ranges of an outline are nested as its entries are.
-/

namespace TermScene

namespace TextRange

structure Within (inner outer : TextRange) : Prop where
  start : outer.start ≤ inner.start
  stop : inner.stop ≤ outer.stop

structure StrictlyWithin (inner outer : TextRange) : Prop where
  start : outer.start < inner.start
  stop : inner.stop < outer.stop

end TextRange

open Editor

namespace Editor

/-- An entry whose selection lies within its range, and whose children lie strictly within it, one after
the other, and are nested so themselves. -/
inductive OutlineEntry.WellNested : OutlineEntry → Prop where
  | entry {entry : OutlineEntry} (nonempty : entry.selection.start < entry.selection.stop)
      (selected : entry.selection.Within entry.range)
      (inside : ∀ child ∈ entry.children.getD [], child.range.StrictlyWithin entry.range)
      (apart : (entry.children.getD []).Pairwise fun earlier later =>
        earlier.range.stop ≤ later.range.start)
      (nested : ∀ child ∈ entry.children.getD [], child.WellNested) : entry.WellNested

/-- What the outline of a document is: the entry of the program at the front of its tokens, with the
notices of reading it. Every document with these tokens at its front has the same entry. -/
structure IsOutlined (source uri : String) (document : ReadDocument) (front : List Token)
    (entry : OutlineEntry) : Prop where
  outlined : outline source uri = .ok ([entry], document.read.notices)
  begins : front <+: document.tokens
  program : ProgramOutline document.tokens front document.read.program entry
  nested : entry.WellNested
  elsewhere : ∀ source' uri' tokens, tokensOf source' (some uri') = .ok tokens → front <+: tokens →
    ∃ notices, outline source' uri' = .ok ([entry], notices)

end Editor

namespace InOrder

variable {front back : List Token} {token left right : Token} {start stop : Position}

theorem start_lt_stop (inOrder : InOrder front) (isToken : token ∈ front)
    (isStart : token.startPosition = some start) (isStop : token.stopPosition = some stop) :
    start < stop := by
  rcases inOrder.covers token isToken with ⟨range, covers⟩
  have sameStart : range.start = start := by simpa [covers.start] using isStart
  have sameStop : range.stop = stop := by simpa [covers.stop] using isStop
  rw [← sameStart, ← sameStop]
  exact covers.nonempty

theorem stop_le_start (inOrder : InOrder (front ++ back)) (inFront : left ∈ front)
    (inBack : right ∈ back) (isStop : left.stopPosition = some stop)
    (isStart : right.startPosition = some start) : stop ≤ start := by
  rcases inOrder.covers left (List.mem_append_left back inFront) with ⟨leftRange, isLeft⟩
  rcases inOrder.covers right (List.mem_append_right front inBack) with ⟨rightRange, isRight⟩
  have sameStop : leftRange.stop = stop := by simpa [isLeft.stop] using isStop
  have sameStart : rightRange.start = start := by simpa [isRight.start] using isStart
  rw [← sameStop, ← sameStart]
  exact (List.pairwise_append.mp inOrder.apart).2.2 left inFront right inBack _ _ isLeft isRight

theorem start_lt_start (inOrder : InOrder (front ++ back)) (inFront : left ∈ front)
    (inBack : right ∈ back) (isStart : left.startPosition = some start)
    (isStart' : right.startPosition = some stop) : start < stop := by
  rcases inOrder.covers left (List.mem_append_left back inFront) with ⟨range, isLeft⟩
  have ends := inOrder.stop_le_start inFront inBack isLeft.stop isStart'
  have runs := inOrder.start_lt_stop (List.mem_append_left back inFront) isStart isLeft.stop
  exact Position.lt_of_lt_of_le runs ends

theorem stop_lt_stop (inOrder : InOrder (front ++ back)) (inFront : left ∈ front)
    (inBack : right ∈ back) (isStop : left.stopPosition = some start)
    (isStop' : right.stopPosition = some stop) : start < stop := by
  rcases inOrder.covers right (List.mem_append_right front inBack) with ⟨range, isRight⟩
  have ends := inOrder.stop_le_start inFront inBack isStop isRight.start
  have runs := inOrder.start_lt_stop (List.mem_append_right front inBack) isRight.start isStop'
  exact Position.lt_of_le_of_lt ends runs

end InOrder

namespace Editor

namespace OutlineEntry.Spans

variable {entry other : OutlineEntry} {construct part front back : List Token}
  {ending ending' : TokenKind}

theorem nonempty (spans : entry.Spans construct ending) :
    entry.selection.start < entry.selection.stop := by
  rcases spans.first with ⟨first, _, covers, _⟩
  exact covers.nonempty

theorem selected (spans : entry.Spans construct ending) (inOrder : InOrder construct) :
    entry.selection.Within entry.range := by
  rcases spans.first with ⟨first, isFirst, covers, isStart⟩
  rcases spans.last with ⟨last, isLast, -, isStop⟩
  have sameStart : entry.selection.start = entry.range.start := by simpa [covers.start] using isStart
  refine ⟨.inr sameStart.symm, ?_⟩
  -- The last token is the first one itself or comes after it.
  rcases construct with _ | ⟨word, _ | ⟨next, later⟩⟩
  · simp at isFirst
  · simp only [List.head?_cons, Option.mem_some_iff, List.getLast?_singleton] at isFirst isLast
    subst isFirst isLast
    have sameStop : entry.selection.stop = entry.range.stop := by simpa [covers.stop] using isStop
    exact .inr sameStop
  · simp only [List.head?_cons, Option.mem_some_iff, List.getLast?_cons_cons] at isFirst isLast
    subst isFirst
    have ordered : InOrder ([word] ++ next :: later) := inOrder
    have isLater := List.mem_of_mem_getLast? isLast
    exact Position.le_of_lt (ordered.stop_lt_stop (by simp) isLater covers.stop isStop)

theorem stop_le_start (spans : entry.Spans construct ending) (spans' : other.Spans part ending')
    (inOrder : InOrder (front ++ back)) (inFront : construct ⊆ front) (inBack : part ⊆ back) :
    entry.range.stop ≤ other.range.start := by
  rcases spans.last with ⟨last, isLast, -, isStop⟩
  rcases spans'.first with ⟨first, isFirst, -, isStart⟩
  exact inOrder.stop_le_start (inFront (List.mem_of_mem_getLast? isLast))
    (inBack (List.mem_of_mem_head? isFirst)) isStop isStart

/-- What stands between the first and the last tokens of a construct lies strictly within it. -/
theorem strictlyWithin {opening body closing : List Token}
    (spans : entry.Spans (opening ++ body ++ closing) ending) (spans' : other.Spans part ending')
    (inOrder : InOrder (opening ++ body ++ closing)) (opens : opening ≠ []) (closes : closing ≠ [])
    (inBody : part ⊆ body) : other.range.StrictlyWithin entry.range := by
  rcases spans.first with ⟨first, isFirst, -, isStart⟩
  rcases spans.last with ⟨last, isLast, -, isStop⟩
  rcases spans'.first with ⟨partFirst, isPartFirst, -, isPartStart⟩
  rcases spans'.last with ⟨partLast, isPartLast, -, isPartStop⟩
  have inOpening : first ∈ opening := by
    rw [List.append_assoc, List.head?_append_of_ne_nil _ opens] at isFirst
    exact List.mem_of_mem_head? isFirst
  have inClosing : last ∈ closing := by
    rw [List.getLast?_append_of_ne_nil _ closes] at isLast
    exact List.mem_of_mem_getLast? isLast
  have isPart := inBody (List.mem_of_mem_head? isPartFirst)
  have isPart' := inBody (List.mem_of_mem_getLast? isPartLast)
  have front := inOrder.of_sublist (List.sublist_append_left (opening ++ body) closing)
  refine ⟨front.start_lt_start inOpening isPart isStart isPartStart, ?_⟩
  exact inOrder.stop_lt_stop (List.mem_append_right opening isPart') inClosing isPartStop isStop

end OutlineEntry.Spans

theorem CommandOutline.spans {tokens construct : List Token} {command : Command}
    {entry : OutlineEntry} (outlined : CommandOutline tokens construct command entry) :
    entry.Spans construct (endingKind command) := by
  cases outlined with
  | plain isPlain entered => exact entered.spans
  | frame entered => exact entered.spans
  | animate entered => exact entered.spans

section Nesting

variable {tokens : List Token}

theorem BlockOutline.exists_spans : {body : List Token} → {commands : List Command} →
    {entries : List OutlineEntry} → BlockOutline tokens body commands entries →
      ∀ entry ∈ entries, ∃ construct ending, construct ⊆ body ∧ entry.Spans construct ending
  | _, _, _, .none, entry, isEntry => by simp at isEntry
  | _, _, _, @BlockOutline.some _ first later _ _ _ _ isFirst isLater, entry, isEntry => by
      rcases List.mem_cons.mp isEntry with rfl | isLaterEntry
      · exact ⟨first, _, List.subset_append_left first later, isFirst.spans⟩
      · rcases isLater.exists_spans entry isLaterEntry with ⟨construct, ending, inside, spans⟩
        exact ⟨construct, ending, List.subset_append_of_subset_right first inside, spans⟩

theorem BlockOutline.apart : {body : List Token} → {commands : List Command} →
    {entries : List OutlineEntry} → BlockOutline tokens body commands entries → InOrder body →
      entries.Pairwise fun earlier later => earlier.range.stop ≤ later.range.start
  | _, _, _, .none, _ => .nil
  | _, _, _, @BlockOutline.some _ first later _ _ _ _ isFirst isLater, inOrder => by
      refine .cons ?_ (isLater.apart (inOrder.of_sublist (List.sublist_append_right first later)))
      intro entry isEntry
      rcases isLater.exists_spans entry isEntry with ⟨construct, ending, inside, spans⟩
      exact isFirst.spans.stop_le_start spans inOrder (List.Subset.refl first) inside

/-- An entry is nested well if the entries inside it are and stand between its first and last tokens. -/
theorem OutlineEntry.Spans.wellNested {opening body closing : List Token} {ending : TokenKind}
    {commands : List Command} {entry : OutlineEntry} {entries : List OutlineEntry}
    (spans : entry.Spans (opening ++ body ++ closing) ending)
    (inOrder : InOrder (opening ++ body ++ closing)) (opens : opening ≠ []) (closes : closing ≠ [])
    (outlined : BlockOutline tokens body commands entries) (children : entry.children = some entries)
    (nested : InOrder body → ∀ child ∈ entries, child.WellNested) : entry.WellNested := by
  have inBody := inOrder.of_sublist
    ((List.sublist_append_right opening body).trans (List.sublist_append_left _ closing))
  refine .entry spans.nonempty (spans.selected inOrder) ?_ ?_ ?_
  · rw [children, Option.getD_some]
    intro child isChild
    rcases outlined.exists_spans child isChild with ⟨construct, ending, inside, childSpans⟩
    exact spans.strictlyWithin childSpans inOrder opens closes inside
  · rw [children, Option.getD_some]
    exact outlined.apart inBody
  · rw [children, Option.getD_some]
    exact nested inBody

mutual

theorem CommandOutline.wellNested : {construct : List Token} → {command : Command} →
    {entry : OutlineEntry} → CommandOutline tokens construct command entry → InOrder construct →
      entry.WellNested
  | _, _, _, .plain isPlain entered childless, inOrder => by
      refine .entry entered.spans.nonempty (entered.spans.selected inOrder) ?_ ?_ ?_ <;>
        simp [childless]
  | _, _, _, @CommandOutline.frame _ word left right body _ _ _ entered inside children, inOrder => by
      have spans : OutlineEntry.Spans _ ([word, left] ++ body ++ [right]) _ := entered.spans
      exact spans.wellNested inOrder (by simp) (by simp) inside children inside.wellNested
  | _, _, _, @CommandOutline.animate _ word left right for' time stop body _ _ _ _ entered inside
      children, inOrder => by
      have spans : OutlineEntry.Spans _ ([word, left] ++ body ++ [right, for', time, stop]) _ :=
        entered.spans
      exact spans.wellNested inOrder (by simp) (by simp) inside children inside.wellNested

theorem BlockOutline.wellNested : {body : List Token} → {commands : List Command} →
    {entries : List OutlineEntry} → BlockOutline tokens body commands entries → InOrder body →
      ∀ entry ∈ entries, entry.WellNested
  | _, _, _, .none, _, entry, isEntry => by simp at isEntry
  | _, _, _, @BlockOutline.some _ first later _ _ _ _ isFirst isLater, inOrder, entry, isEntry => by
      rcases List.mem_cons.mp isEntry with rfl | isLaterEntry
      · exact isFirst.wellNested (inOrder.of_sublist (List.sublist_append_left first later))
      · exact isLater.wellNested (inOrder.of_sublist (List.sublist_append_right first later)) entry
          isLaterEntry

end

theorem ProgramOutline.wellNested {construct : List Token} {program : Program}
    {entry : OutlineEntry} (outlined : ProgramOutline tokens construct program entry)
    (inOrder : InOrder construct) : entry.WellNested := by
  rcases outlined.inside with ⟨word, left, right, body, entries, rfl, inside, children⟩
  have spans : entry.Spans ([word, left] ++ body ++ [right]) _ := outlined.spans
  exact spans.wellNested inOrder (by simp) (by simp) inside children inside.wellNested

end Nesting

theorem readDocument_of_derives {source uri : String} {tokens front : List Token} {program : Program}
    (read : tokensOf source (some uri) = .ok tokens) (derives : DerivesProgram front program)
    (begins : front <+: tokens) :
    ∃ document, readDocument source uri = .ok document ∧ document.tokens = tokens ∧
      document.read.program = program := by
  rcases Parser.programOfTokens_of_derives source uri derives begins with ⟨program, reads, same⟩
  exact ⟨⟨tokens, program⟩, by simp only [readDocument, read, reads], rfl, same⟩

theorem derives_of_readDocument {source uri : String} {document : ReadDocument}
    (read : readDocument source uri = .ok document) :
    tokensOf source (some uri) = .ok document.tokens ∧
      ∃ front, front <+: document.tokens ∧ DerivesProgram front document.read.program := by
  unfold readDocument at read
  split at read
  · simp at read
  · rename_i tokens tokensRead
    split at read
    · rename_i program reads
      simp only [Except.ok.injEq] at read
      subst read
      exact ⟨tokensRead, Parser.derives_of_programOfTokens source uri reads⟩
    · simp at read

/-- A document that can be read has one entry, which is made of the tokens that reading it takes: each
range ends at the token that ends its command, the ranges are nested, and tokens behind the program do
not count. -/
theorem outline_of_readDocument {source uri : String} {document : ReadDocument}
    (read : readDocument source uri = .ok document) :
    ∃ front entry, IsOutlined source uri document front entry := by
  rcases derives_of_readDocument read with ⟨tokensRead, front, begins, derives⟩
  have inOrder := inOrder_of_tokensOf tokensRead
  have frontInOrder := inOrder.of_sublist begins.sublist
  rcases exists_programOutline derives frontInOrder with ⟨entry, outlined⟩
  rcases outlined document inOrder begins rfl with ⟨isEntry, program⟩
  -- The entry was found for the tokens at the front alone, so any document that begins so has it.
  refine ⟨front, entry, ?_, begins, program, program.wellNested frontInOrder, ?_⟩
  · simp only [outline, read, isEntry, Option.toList_some]
  · intro source' uri' tokens tokensRead' begins'
    rcases readDocument_of_derives tokensRead' derives begins' with
      ⟨document', read', rfl, sameProgram⟩
    have isEntry' := (outlined document' (inOrder_of_tokensOf tokensRead') begins' sameProgram).1
    refine ⟨document'.read.notices, ?_⟩
    simp only [outline, read', isEntry', Option.toList_some]

/-- A frame over two lines, and a token behind the program. The last command ends before the brace of the
frame, and the frame before that of the program. -/
theorem outline_of_readDocument_frame :
    ∃ document front entry,
      readDocument "scene \x7b\nframe \x7b background \"red\"; \x7d\n\x7d ;" "a" = .ok document ∧
        document.read.ignored = 1 ∧
          IsOutlined "scene \x7b\nframe \x7b background \"red\"; \x7d\n\x7d ;" "a" document front
            entry ∧
          entry =
            { name := "scene", detail := none, kind := .module
              range := ⟨⟨0, 0⟩, ⟨2, 1⟩⟩, selection := ⟨⟨0, 0⟩, ⟨0, 5⟩⟩
              children := some
                [{ name := "frame", detail := some "1 command(s)", kind := .block
                   range := ⟨⟨1, 0⟩, ⟨1, 27⟩⟩, selection := ⟨⟨1, 0⟩, ⟨1, 5⟩⟩
                   children := some
                     [{ name := "background", detail := some "red", kind := .property
                        range := ⟨⟨1, 8⟩, ⟨1, 25⟩⟩, selection := ⟨⟨1, 8⟩, ⟨1, 18⟩⟩
                        children := none }] }] } := by
  have read : ∃ document,
      readDocument "scene \x7b\nframe \x7b background \"red\"; \x7d\n\x7d ;" "a" = .ok document ∧
        document.read.ignored = 1 :=
    ⟨_, by cbv, rfl⟩
  rcases read with ⟨document, read, ignored⟩
  rcases outline_of_readDocument read with ⟨front, entry, outlined⟩
  have shown := congrArg (fun listed => listed.toOption.map Prod.fst) outlined.outlined
  refine ⟨document, front, entry, read, ignored, outlined, ?_⟩
  rw [← List.singleton_inj, ← Option.some_inj]
  exact shown.symm.trans (by cbv)

end Editor

end TermScene
