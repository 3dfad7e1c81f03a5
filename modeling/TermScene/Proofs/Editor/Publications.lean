import Mathlib.Data.List.Induction
import TermScene.Editor.Session

/-!
# Published problems are up to date

A document is open from its opening to its closing, with the text of its opening or of its latest change.
If every document is told about in turn, and whoever keeps the open documents knows these texts, then after
every request the problems that were published last for a document are those of the text that it has, and
none once it is closed. A request publishes problems for the document that it tells about and for no other.

Nothing else is assumed of the keeper. The workspace of a session is one, if every document has an address
and no two have the same name.
-/

namespace TermScene

namespace Editor

namespace Request

/-- The address of the document that a request tells about. Who asks tells nothing. -/
def document? : Request → Option String
  | .opened uri _ | .changed uri _ | .saved uri _ | .closed uri => some uri
  | _ => none

/-- The text of a document after a request, given the text before if it was open. -/
def textOf? (uri : String) (before : Option String) : Request → Option String
  | .opened other text => if other = uri then some text else before
  | .changed other (some text) => if other = uri then before.map fun _ => text else before
  | .closed other => if other = uri then none else before
  | _ => before

theorem textOf?_of_other {request : Request} {uri : String} (other : request.document? ≠ some uri)
    (before : Option String) : request.textOf? uri before = before := by
  cases request with
  | changed told text => cases text <;> simp_all [document?, textOf?]
  | _ => simp_all [document?, textOf?]

end Request

/-- The text that an editor last gave a document, if it did not close it since. -/
def currentText? (uri : String) (requests : List Request) : Option String :=
  requests.foldl (fun before request => request.textOf? uri before) none

@[simp]
theorem currentText?_concat (uri : String) (past : List Request) (request : Request) :
    currentText? uri (past ++ [request]) = request.textOf? uri (currentText? uri past) := by
  simp [currentText?]

/-- Whether some request tells about a document. -/
def IsToldOf (uri : String) (requests : List Request) : Prop :=
  ∃ request ∈ requests, request.document? = some uri

/-- A request comes in its turn: only a closed document is opened, only an open one is changed, saved or
closed, and one that is saved with its text has that text. -/
def InTurn (past : List Request) : Request → Prop
  | .opened uri _ => currentText? uri past = none
  | .changed uri _ => (currentText? uri past).isSome
  | .saved uri text =>
      (currentText? uri past).isSome ∧ ∀ saved ∈ text, currentText? uri past = some saved
  | .closed uri => (currentText? uri past).isSome
  | _ => True

instance (past : List Request) : DecidablePred (InTurn past)
  | .opened uri _ => inferInstanceAs (Decidable (currentText? uri past = none))
  | .changed uri _ => inferInstanceAs (Decidable ((currentText? uri past).isSome = true))
  | .saved uri text =>
      inferInstanceAs (Decidable
        ((currentText? uri past).isSome = true ∧ ∀ saved ∈ text, currentText? uri past = some saved))
  | .closed uri => inferInstanceAs (Decidable ((currentText? uri past).isSome = true))
  | .complete _ _ | .hover _ _ | .outline _ | .initialized | .shutdown => .isTrue trivial

/-- A text that is read or fails with an error of its own. -/
def IsCheckable (text uri : String) : Prop :=
  ∀ failure, readDocument text uri = .error failure → ∃ error, failure = .source error

theorem isCheckable_of_tokensOf {text uri : String} {error : SourceError}
    (fails : tokensOf text (some uri) = .error error) : IsCheckable text uri := by
  intro failure read
  rw [readDocument, fails] at read
  cases read
  exact ⟨error, rfl⟩

theorem problems_of_tokensOf {text uri : String} {error : SourceError}
    (fails : tokensOf text (some uri) = .error error) :
    problems text uri = .ok ([problemOfError error uri], []) := by
  rw [problems, readDocument, fails]

section Keeping

variable {State : Type} (keeper : Keeper State) (start : State)

/-- The documents after requests. -/
def Keeper.afterAll (requests : List Request) : State :=
  requests.foldl (fun state request => (keeper.handle state request).2) start

/-- The requests of a well-behaved editor: they come in turn, the texts that it gives can be checked, and
the text that is kept for an address is the one that the editor gave it, while the document is open. -/
structure IsRegular (requests : List Request) : Prop where
  inTurn : ∀ past request, past ++ [request] <+: requests → InTurn past request
  checkable : ∀ uri text, .opened uri text ∈ requests ∨ .changed uri (some text) ∈ requests →
    IsCheckable text uri
  known : ∀ past, past <+: requests → ∀ uri text, IsToldOf uri requests →
    (keeper.text (keeper.afterAll start past) uri = .ok (some text) ↔
      currentText? uri past = some text)

/-- All that is published in reply to requests. -/
def published (requests : List Request) : List Publication :=
  (keeper.replies start requests).flatMap Reply.published

/-- The problems that were published last for a document. -/
def lastPublished? (uri : String) (requests : List Request) : Option (List Problem) :=
  (((published keeper start requests).filter (·.uri = uri)).getLast?).map Publication.problems

end Keeping

/-- The problems that a document should be shown to have, given its text if it is open. -/
def AreDue (uri : String) (found : List Problem) : Option String → Prop
  | none => found = []
  | some text => ∃ notices, problems text uri = .ok (found, notices)

section Texts

variable {uri text : String} {past : List Request} {request : Request}

theorem isToldOf_iff_mem : IsToldOf uri past ↔ uri ∈ past.filterMap Request.document? := by
  simp [IsToldOf]

theorem IsToldOf.mono {requests : List Request} (told : IsToldOf uri past) (within : past ⊆ requests) :
    IsToldOf uri requests := by
  rcases told with ⟨request, inside, tells⟩
  exact ⟨request, within inside, tells⟩

theorem isToldOf_concat :
    IsToldOf uri (past ++ [request]) ↔ IsToldOf uri past ∨ request.document? = some uri := by
  simp [IsToldOf, or_and_right, exists_or]

/-- Only a document that is told about has a text. -/
theorem isToldOf_of_currentText? (isCurrent : currentText? uri past = some text) :
    IsToldOf uri past := by
  induction past using List.reverseRecOn with
  | nil => simp [currentText?] at isCurrent
  | append_singleton past request ih =>
      rw [isToldOf_concat, or_iff_not_imp_right]
      intro other
      rw [currentText?_concat, Request.textOf?_of_other other] at isCurrent
      exact ih isCurrent

/-- The text of a document is that of its opening or of a change. -/
theorem mem_of_currentText? (isCurrent : currentText? uri past = some text) :
    .opened uri text ∈ past ∨ .changed uri (some text) ∈ past := by
  induction past using List.reverseRecOn with
  | nil => simp [currentText?] at isCurrent
  | append_singleton past request ih =>
      have later (isCurrent : currentText? uri past = some text) :
          .opened uri text ∈ past ++ [request] ∨ .changed uri (some text) ∈ past ++ [request] :=
        (ih isCurrent).imp (List.mem_append_left _) (List.mem_append_left _)
      rw [currentText?_concat] at isCurrent
      by_cases tells : request.document? = some uri
      · cases request with
        | opened told new =>
            cases tells
            rw [Request.textOf?, if_pos rfl, Option.some.injEq] at isCurrent
            simp [isCurrent]
        | changed told new =>
            cases tells
            cases new with
            | none => exact later isCurrent
            | some new =>
                simp only [Request.textOf?, ↓reduceIte, Option.map_eq_some_iff, exists_and_right] at isCurrent
                simp [isCurrent.2]
        | saved told new => exact later isCurrent
        | closed told =>
            cases tells
            simp [Request.textOf?] at isCurrent
        | _ => cases tells
      · rw [Request.textOf?_of_other tells] at isCurrent
        exact later isCurrent

theorem inTurn_of_take {requests : List Request}
    (each : ∀ index (inside : index < requests.length), InTurn (requests.take index) requests[index])
    (front : past ++ [request] <+: requests) : InTurn past request := by
  rcases front with ⟨later, rfl⟩
  simpa using each past.length (by simp)

end Texts

section Replies

variable {State : Type} {keeper : Keeper State} {start state : State} {uri text : String}
  {past requests : List Request} {request : Request}

theorem Keeper.replies_append (past later : List Request) :
    keeper.replies start (past ++ later) =
      keeper.replies start past ++ keeper.replies (keeper.afterAll start past) later := by
  induction past generalizing start with
  | nil => rfl
  | cons request past ih =>
      simp only [List.cons_append, replies, afterAll, List.foldl_cons] at ih ⊢
      rw [ih]

@[simp]
theorem Keeper.afterAll_concat (past : List Request) (request : Request) :
    keeper.afterAll start (past ++ [request]) =
      (keeper.handle (keeper.afterAll start past) request).2 := by
  simp [afterAll]

/-- What is published in reply to one request after others. -/
theorem published_concat (past : List Request) (request : Request) :
    published keeper start (past ++ [request]) =
      published keeper start past ++
        (keeper.handle (keeper.afterAll start past) request).1.published := by
  simp [published, Keeper.replies_append, Keeper.replies]

theorem checked_published (checkable : IsCheckable text uri) :
    ∃ found notices, problems text uri = .ok (found, notices) ∧
      (Reply.checked uri text).published = [⟨uri, found⟩] := by
  have isChecked : ∃ result, problems text uri = .ok result := by
    rw [problems]
    cases read : readDocument text uri with
    | ok document => exact ⟨_, rfl⟩
    | error failure =>
        rcases checkable failure read with ⟨error, rfl⟩
        exact ⟨_, rfl⟩
  rcases isChecked with ⟨⟨found, notices⟩, isFound⟩
  exact ⟨found, notices, isFound, by rw [Reply.checked, isFound]⟩

theorem AreDue.of_checked (checkable : IsCheckable text uri) :
    ∃ found, (Reply.checked uri text).published = [⟨uri, found⟩] ∧ AreDue uri found (some text) := by
  rcases checked_published checkable with ⟨found, notices, isFound, isPublished⟩
  exact ⟨found, isPublished, notices, isFound⟩

theorem Keeper.replyWith_of_text (known : keeper.text state uri = .ok (some text))
    (reply : String → Reply) : keeper.replyWith state uri reply = reply text := by
  rw [replyWith, known]

/-- A document that was not open and is kept after its opening was not refused. -/
theorem Keeper.handle_of_opened (before : ∀ text, keeper.text state uri ≠ .ok (some text))
    (known : keeper.text (keeper.handle state (.opened uri text)).2 uri = .ok (some text)) :
    (keeper.handle state (.opened uri text)).1 = .checked uri text := by
  rw [handle] at known ⊢
  cases isOpened : keeper.opened state uri text with
  | ok next => rfl
  | error failure =>
      rw [isOpened] at known
      exact absurd known (before text)

theorem replyWith_published {reply : String → Reply} (silent : ∀ text, (reply text).published = []) :
    (keeper.replyWith state uri reply).published = [] := by
  rw [Keeper.replyWith]
  split
  · exact silent _
  · rfl
  · rfl

theorem replyFrom_published {position : Position} {reply : String → Reply}
    (silent : ∀ text, (reply text).published = []) :
    (keeper.replyFrom state uri position reply).published = [] := by
  rw [Keeper.replyFrom]
  split
  · rfl
  · exact replyWith_published silent

/-- Whoever only asks gets nothing published. -/
theorem reply_published_of_asks (asks : request.document? = none) :
    (keeper.handle state request).1.published = [] := by
  cases request with
  | opened uri text => cases asks
  | changed uri text => cases asks
  | saved uri text => cases asks
  | closed uri => cases asks
  | complete uri position => exact replyFrom_published fun _ => rfl
  | hover uri position => exact replyFrom_published fun _ => rfl
  | outline uri =>
      refine replyWith_published fun text => ?_
      rw [Reply.outlined]
      split <;> rfl
  | initialized => rfl
  | shutdown => rfl

/-- In reply to a request the problems of the document that it tells about are published, once. -/
theorem reply_published (regular : IsRegular keeper start requests)
    (front : past ++ [request] <+: requests) (tells : request.document? = some uri) :
    ∃ found, (keeper.handle (keeper.afterAll start past) request).1.published = [⟨uri, found⟩] ∧
      AreDue uri found (currentText? uri (past ++ [request])) := by
  have told : IsToldOf uri requests := ⟨request, front.subset (by simp), tells⟩
  have inTurn := regular.inTurn past request front
  have knownBefore (text : String) :=
    regular.known past ((List.prefix_append _ _).trans front) uri text told
  have known (text : String) := regular.known _ front uri text told
  have checkable (text : String) (isCurrent : currentText? uri (past ++ [request]) = some text) :
      IsCheckable text uri :=
    regular.checkable uri text
      ((mem_of_currentText? isCurrent).imp (front.subset ·) (front.subset ·))
  simp only [currentText?_concat, Keeper.afterAll_concat] at known checkable ⊢
  generalize keeper.afterAll start past = state at known knownBefore ⊢
  cases request with
  | opened told text =>
      cases tells
      rw [Request.textOf?, if_pos rfl] at known checkable ⊢
      have notOpen (text : String) : keeper.text state uri ≠ .ok (some text) := by
        intro isOpen
        rw [knownBefore, inTurn] at isOpen
        cases isOpen
      rw [Keeper.handle_of_opened notOpen ((known text).mpr rfl)]
      exact AreDue.of_checked (checkable text rfl)
  | changed told text =>
      cases tells
      have stays : ∃ current,
          Request.textOf? uri (currentText? uri past) (.changed uri text) = some current := by
        rcases Option.isSome_iff_exists.mp inTurn with ⟨before, isBefore⟩
        cases text <;> simp [Request.textOf?, isBefore]
      rcases stays with ⟨current, isCurrent⟩
      rw [isCurrent] at known checkable ⊢
      have isKept : keeper.text (keeper.changed state uri text) uri = .ok (some current) :=
        (known current).mpr rfl
      rw [Keeper.handle, Keeper.replyWith_of_text isKept]
      exact AreDue.of_checked (checkable current rfl)
  | saved told text =>
      cases tells
      rcases inTurn with ⟨isOpen, same⟩
      rcases Option.isSome_iff_exists.mp isOpen with ⟨current, isCurrent⟩
      have unchanged : Request.textOf? uri (currentText? uri past) (.saved uri text) = some current :=
        isCurrent
      rw [unchanged] at known checkable ⊢
      cases text with
      | none =>
          have isKept : keeper.text state uri = .ok (some current) := (known current).mpr rfl
          rw [Keeper.handle, Keeper.replyWith_of_text isKept]
          exact AreDue.of_checked (checkable current rfl)
      | some saved =>
          cases (same saved rfl).symm.trans isCurrent
          exact AreDue.of_checked (checkable current rfl)
  | closed told =>
      cases tells
      rw [Request.textOf?, if_pos rfl]
      exact ⟨[], rfl, rfl⟩
  | _ => cases tells

end Replies

section Known

variable {uri : String} {workspace : Workspace} {past : List Request} {request : Request}

namespace Workspace

theorem keeper_text_iff {text : String} :
    keeper.text workspace uri = .ok (some text) ↔ workspace.text? uri = some text := by
  simp only [keeper]
  cases workspace.text? uri with
  | some text => simp
  | none => cases addressed uri <;> simp [Except.bind]

theorem handle_opened (isAddress : (Address.ofText uri).isOk) (text : String) :
    (keeper.handle workspace (.opened uri text)).2 = workspace.insert uri text := by
  simp only [Keeper.handle, keeper, addressed]
  cases found : Address.ofText uri with
  | ok address => rfl
  | error fault =>
      rw [found] at isAddress
      cases isAddress

theorem handle_changed (text : String) :
    (keeper.handle workspace (.changed uri (some text))).2 =
      if (workspace.text? uri).isSome then workspace.insert uri text else workspace :=
  rfl

/-- The open documents follow what is told about a document, if it has an address and other documents
have other names. -/
theorem text?_handle (address : ∀ told, request.document? = some told → (Address.ofText told).isOk)
    (distinct : ∀ other, request.document? = some other → documentName uri = documentName other →
      uri = other) :
    (keeper.handle workspace request).2.text? uri = request.textOf? uri (workspace.text? uri) := by
  cases request with
  | opened told new =>
      rw [handle_opened (address told rfl), Request.textOf?]
      split
      · rename_i same
        rw [same, text?_insert_self]
      · rename_i other
        exact workspace.text?_insert_of_ne new fun same => other (distinct told rfl same).symm
  | changed told new =>
      cases new with
      | none => rfl
      | some new =>
          rw [handle_changed, Request.textOf?]
          split <;> rename_i isOpen <;> split <;> rename_i isOwn
          · rcases Option.isSome_iff_exists.mp isOpen with ⟨before, isBefore⟩
            rw [isOwn] at isBefore ⊢
            simp [isBefore]
          · exact workspace.text?_insert_of_ne new fun same => isOwn (distinct told rfl same).symm
          · rw [isOwn] at isOpen
            simp [Option.not_isSome_iff_eq_none.mp isOpen]
          · rfl
  | saved told new => cases new <;> rfl
  | closed told =>
      change (workspace.erase told).text? uri = _
      rw [text?_erase, Request.textOf?]
      split <;> rename_i sameName <;> split <;> rename_i isOwn
      · rfl
      · exact absurd (distinct told rfl sameName).symm isOwn
      · exact absurd (congrArg documentName isOwn.symm) sameName
      · rfl
  | _ => rfl

theorem text?_afterAll (addresses : ∀ told, IsToldOf told past → (Address.ofText told).isOk)
    (distinct : ∀ other, IsToldOf other past → documentName uri = documentName other → uri = other) :
    (keeper.afterAll {} past).text? uri = currentText? uri past := by
  induction past using List.reverseRecOn with
  | nil => rfl
  | append_singleton past request ih =>
      have addressesBefore (told : String) (inPast : IsToldOf told past) :=
        addresses told (isToldOf_concat.mpr (.inl inPast))
      have distinctBefore (other : String) (inPast : IsToldOf other past) :=
        distinct other (isToldOf_concat.mpr (.inl inPast))
      rw [Keeper.afterAll_concat, currentText?_concat, text?_handle, ih addressesBefore distinctBefore]
      · exact fun told tells => addresses told (isToldOf_concat.mpr (.inr tells))
      · exact fun other tells => distinct other (isToldOf_concat.mpr (.inr tells))

end Workspace

/-- A workspace knows the texts of documents if all have addresses and no two have the same name. -/
theorem IsRegular.of_distinct {requests : List Request}
    (inTurn : ∀ past request, past ++ [request] <+: requests → InTurn past request)
    (checkable : ∀ uri text, .opened uri text ∈ requests ∨ .changed uri (some text) ∈ requests →
      IsCheckable text uri)
    (addresses : ∀ uri, IsToldOf uri requests → (Address.ofText uri).isOk)
    (distinct : ∀ uri, IsToldOf uri requests → ∀ other, IsToldOf other requests →
      documentName uri = documentName other → uri = other) :
    IsRegular Workspace.keeper {} requests where
  inTurn := inTurn
  checkable := checkable
  known past front uri text told := by
    have isCurrent : (Workspace.keeper.afterAll {} past).text? uri = currentText? uri past :=
      Workspace.text?_afterAll
        (fun other toldBefore => addresses other (toldBefore.mono front.subset))
        (fun other toldBefore => distinct uri told other (toldBefore.mono front.subset))
    rw [Workspace.keeper_text_iff, isCurrent]

end Known

section Sessions

variable {State : Type} {keeper : Keeper State} {start : State} {uri : String}
  {past requests : List Request} {request : Request}

/-- A request publishes once for the document that it tells about, and not at all if it only asks. -/
theorem published_concat_document? (regular : IsRegular keeper start requests)
    (front : past ++ [request] <+: requests) :
    ∃ new, published keeper start (past ++ [request]) = published keeper start past ++ new ∧
      new.map Publication.uri = request.document?.toList := by
  refine ⟨_, published_concat past request, ?_⟩
  cases tells : request.document? with
  | none =>
      rw [reply_published_of_asks tells]
      rfl
  | some uri =>
      rcases reply_published regular front tells with ⟨found, isPublished, -⟩
      rw [isPublished]
      rfl

theorem lastPublished?_concat_of_other (regular : IsRegular keeper start requests)
    (front : past ++ [request] <+: requests) (other : request.document? ≠ some uri) :
    lastPublished? keeper start uri (past ++ [request]) = lastPublished? keeper start uri past := by
  rcases published_concat_document? regular front with ⟨new, isPublished, documents⟩
  have others : new.filter (·.uri = uri) = [] := by
    rw [List.filter_eq_nil_iff]
    intro publication isNew isOwn
    have inside : publication.uri ∈ request.document?.toList := documents ▸ List.mem_map_of_mem isNew
    rw [Option.mem_toList, of_decide_eq_true isOwn] at inside
    exact other inside
  rw [lastPublished?, isPublished, List.filter_append, others, List.append_nil, lastPublished?]

theorem lastPublished?_concat (regular : IsRegular keeper start requests)
    (front : past ++ [request] <+: requests) (tells : request.document? = some uri) :
    ∃ found, lastPublished? keeper start uri (past ++ [request]) = some found ∧
      AreDue uri found (currentText? uri (past ++ [request])) := by
  rcases reply_published regular front tells with ⟨found, isPublished, areDue⟩
  refine ⟨found, ?_, areDue⟩
  rw [lastPublished?, published_concat, isPublished]
  simp

/-- Once a document is told about, the problems published last for it are those that are due. -/
theorem lastPublished?_areDue (regular : IsRegular keeper start requests) (front : past <+: requests)
    (told : IsToldOf uri past) :
    ∃ found, lastPublished? keeper start uri past = some found ∧
      AreDue uri found (currentText? uri past) := by
  induction past using List.reverseRecOn with
  | nil => simp [IsToldOf] at told
  | append_singleton past request ih =>
      by_cases tells : request.document? = some uri
      · exact lastPublished?_concat regular front tells
      · have toldBefore := (isToldOf_concat.mp told).resolve_right tells
        rw [lastPublished?_concat_of_other regular front tells, currentText?_concat,
          Request.textOf?_of_other tells]
        exact ih ((List.prefix_append past [request]).trans front) toldBefore

/-- The problems that an editor was last told of are those of the texts that it has. -/
theorem published_upToDate (regular : IsRegular keeper start requests) (front : past <+: requests) :
    (∀ uri text, currentText? uri past = some text → ∃ found notices,
      problems text uri = .ok (found, notices) ∧ lastPublished? keeper start uri past = some found) ∧
    (∀ uri, currentText? uri past = none → IsToldOf uri past →
      lastPublished? keeper start uri past = some []) ∧
    ∀ request, past ++ [request] <+: requests →
      (∃ new, published keeper start (past ++ [request]) = published keeper start past ++ new ∧
        new.map Publication.uri = request.document?.toList) ∧
      ∀ uri, request.document? ≠ some uri →
        lastPublished? keeper start uri (past ++ [request]) = lastPublished? keeper start uri past := by
  refine ⟨fun uri text isCurrent => ?_, fun uri isClosed told => ?_, fun request next => ⟨?_, ?_⟩⟩
  · rcases lastPublished?_areDue regular front (isToldOf_of_currentText? isCurrent) with
      ⟨found, isLast, areDue⟩
    rw [isCurrent] at areDue
    rcases areDue with ⟨notices, isFound⟩
    exact ⟨found, notices, isFound, isLast⟩
  · rcases lastPublished?_areDue regular front told with ⟨found, isLast, areDue⟩
    rw [isClosed] at areDue
    rw [isLast, areDue]
  · exact published_concat_document? regular next
  · exact fun uri other => lastPublished?_concat_of_other regular next other

/-- Two documents, one of which is changed and closed while the other stays open and keeps its problem. -/
theorem published_upToDate_twoDocuments :
    ∃ requests,
      requests = [.opened "a" "\"", .opened "b" "?", .changed "a" (some "!"), .saved "b" none,
        .closed "a"] ∧
      IsRegular Workspace.keeper {} requests ∧
      lastPublished? Workspace.keeper {} "a" requests = some [] ∧
      lastPublished? Workspace.keeper {} "b" requests =
        some [{ range := .onLine 0 0 1
                message :=
                  "Unexpected character: '?'\nhelp: negative numbers and escape sequences are not supported"
                severity := .error
                code := some "E0101" }] := by
  let requests : List Request :=
    [.opened "a" "\"", .opened "b" "?", .changed "a" (some "!"), .saved "b" none, .closed "a"]
  have failing : ∀ text ∈ ["\"", "?", "!"], ∀ uri, IsCheckable text uri := by
    simp only [List.forall_mem_cons, List.not_mem_nil, false_imp_iff, implies_true, and_true]
    refine ⟨fun uri => ?_, fun uri => ?_, fun uri => ?_⟩
    · exact isCheckable_of_tokensOf (show tokensOf "\"" (some uri) = .error _ by cbv)
    · exact isCheckable_of_tokensOf (show tokensOf "?" (some uri) = .error _ by cbv)
    · exact isCheckable_of_tokensOf (show tokensOf "!" (some uri) = .error _ by cbv)
  have regular : IsRegular Workspace.keeper {} requests := by
    refine .of_distinct (fun past request => inTurn_of_take (by decide +kernel)) ?_ ?_ ?_
    · rintro uri text given
      refine failing text ?_ uri
      simp [requests] at given ⊢
      tauto
    · simp only [isToldOf_iff_mem]
      decide +kernel
    · simp only [isToldOf_iff_mem]
      decide +kernel
  have upToDate := published_upToDate regular List.prefix_rfl
  have isClosed := upToDate.2.1 "a" (by decide +kernel) ⟨.closed "a", by decide, rfl⟩
  rcases upToDate.1 "b" "?" (by decide +kernel) with ⟨found, notices, isFound, isLast⟩
  have fails : tokensOf "?" (some "b") =
      .error (.strayCharacter "?" (some ⟨1, 1, 0, some "b"⟩) (some "?")) := by
    cbv
  rw [problems_of_tokensOf fails, Except.ok.injEq, Prod.mk.injEq] at isFound
  refine ⟨requests, rfl, regular, isClosed, ?_⟩
  rw [isLast, ← isFound.1]
  decide +kernel

end Sessions

end Editor

end TermScene
