import Bria.Errors
import Bria.Go.Map
import Bria.Go.Runes

/-!
# Provider interactions

A provider asks a question or for an approval, and gets a response. This is the part of
`internal/runtimeprotocol` about them: what a request and a response may be, and whether a response
belongs to a request. The limits are those that `effectiveLimits` makes of `Limits{}`, which all
callers pass.
-/

namespace Bria.RuntimeProtocol

open Go

/-! ## Types -/

/-- `InteractionKind`. -/
inductive InteractionKind where
  | question
  | commandApproval
  | fileApproval
  /-- Any other text. -/
  | other (text : GoString)
  deriving DecidableEq

/-- The text of a kind. -/
def InteractionKind.text : InteractionKind → GoString
  | .question => ofText "question"
  | .commandApproval => ofText "command_approval"
  | .fileApproval => ofText "file_approval"
  | .other text => text

/-- `InteractionOutcome`. -/
inductive InteractionOutcome where
  | answered
  | cancelled
  /-- Any other text. -/
  | other (text : GoString)
  deriving DecidableEq

/-- `ApprovalDecision`. -/
inductive ApprovalDecision where
  | accept
  | acceptForSession
  | decline
  | cancel
  /-- Any other text. -/
  | other (text : GoString)
  deriving DecidableEq

/-- The text of a decision. -/
def ApprovalDecision.text : ApprovalDecision → GoString
  | .accept => ofText "accept"
  | .acceptForSession => ofText "acceptForSession"
  | .decline => ofText "decline"
  | .cancel => ofText "cancel"
  | .other text => text

/-- `Limits`, with the defaults. -/
structure Limits where
  maxLineBytes : Nat := 65536
  maxTextBytes : Nat := 32768
  maxQuestions : Nat := 8
  maxOptionsPerQuestion : Nat := 8
  maxAnswersPerQuestion : Nat := 8

/-- `Option`. -/
structure Choice where
  label : GoString
  description : GoString := []
  deriving DecidableEq

/-- `Question`. -/
structure Question where
  (id header text : GoString)
  options : Slice Choice := none
  isOther : Bool := false
  isSecret : Bool := false
  deriving DecidableEq

/-- `InteractionRequest`. -/
structure InteractionRequest where
  id : GoString
  kind : InteractionKind
  threadID : GoString := []
  turnID : GoString := []
  itemID : GoString := []
  blocking : Bool := false
  questions : Slice Question := none
  approvalID : GoString := []
  startedAtMS : Int := 0
  reason : GoString := []
  command : GoString := []
  cwd : GoString := []
  grantRoot : GoString := []
  decisions : Slice ApprovalDecision := none
  deriving DecidableEq

/-- The elements of a slice. -/
def elems {α : Type} (s : Slice α) : List α := s.getD []

/-- `InteractionResponse`. No decision is the empty text, and no answers are a nil map. -/
structure InteractionResponse where
  id : GoString
  outcome : InteractionOutcome
  answers : Option (Map GoString (List GoString)) := none
  decision : ApprovalDecision := .other []

/-! ## Texts -/

variable (value : GoString) (limits : Limits)

section

variable (question : Question) (max : Nat) (key : String)

/-- A text of one line: valid, not empty, of at most `max` bytes, without spaces at its ends and
without control characters. -/
def plainText : Bool :=
  value ≠ [] && value.length ≤ max && validString value && trimSpace value = value &&
    (chars value).all fun char => 0x20 ≤ rune char && rune char ≠ 0x7F

/-- `validOpaqueID`. -/
def validOpaqueID : Bool := plainText value 512

/-- `validOptionalOpaqueID`. -/
def validOptionalOpaqueID : Bool := value = [] || validOpaqueID value

/-- `validText`. -/
def validText : Bool := validString value && value.length ≤ max

/-- `validRequiredText`. -/
def validRequiredText : Bool := value ≠ [] && !blank value && validText value max

/-! ## Requests -/

/-- `validDecision`. -/
def validDecision : ApprovalDecision → Bool
  | .other _ => false
  | _ => true

/-- `validDecisions`. -/
def validDecisions (decisions : List ApprovalDecision) : Bool :=
  decisions ≠ [] && decisions.length ≤ 4 && decisions.all validDecision && decide decisions.Nodup

/-- The checks of one question. -/
def validQuestion : Bool :=
  validOpaqueID question.id && validRequiredText question.header limits.maxTextBytes &&
    validRequiredText question.text limits.maxTextBytes &&
    (elems question.options).length ≤ limits.maxOptionsPerQuestion &&
    ((elems question.options).all fun option =>
      validRequiredText option.label limits.maxTextBytes &&
        validText option.description limits.maxTextBytes) &&
    decide ((elems question.options).map Choice.label).Nodup

/-- `validateInteractionRequest`, whether it returns nil. -/
def validInteractionRequest (request : InteractionRequest) : Bool :=
  validOpaqueID request.id && validOptionalOpaqueID request.threadID &&
    validOptionalOpaqueID request.turnID && validOptionalOpaqueID request.itemID &&
    decide (0 ≤ request.startedAtMS) && validText request.approvalID limits.maxTextBytes &&
    validText request.reason limits.maxTextBytes && validText request.command limits.maxTextBytes &&
    validText request.cwd limits.maxTextBytes && validText request.grantRoot limits.maxTextBytes &&
    match request.kind with
    | .question =>
      elems request.questions ≠ [] && (elems request.questions).length ≤ limits.maxQuestions &&
        request.approvalID = [] && decide (request.startedAtMS = 0) && request.reason = [] &&
        request.command = [] && request.cwd = [] && request.grantRoot = [] &&
        request.decisions.isNone && (elems request.questions).all (validQuestion limits) &&
        decide ((elems request.questions).map Question.id).Nodup
    | .commandApproval =>
      elems request.questions = [] && validRequiredText request.command limits.maxTextBytes &&
        request.grantRoot = [] && validDecisions (elems request.decisions)
    | .fileApproval =>
      elems request.questions = [] && request.approvalID = [] && request.command = [] &&
        request.cwd = [] && validRequiredText request.grantRoot limits.maxTextBytes &&
        validDecisions (elems request.decisions)
    | .other _ => false

/-! ## The line of a request -/

/-- A field of a JSON object. -/
def field (length : Nat) : Nat × Nat := (key.length, length)

/-- A text field with `omitempty`. -/
def textField (value : GoString) : List (Nat × Nat) :=
  if value = [] then [] else [field key (quotedLength value)]

/-- A bool field with `omitempty`. -/
def flagField (value : Bool) : List (Nat × Nat) :=
  if value then [field key 4] else []

/-- An array field with `omitempty`. -/
def arrayField (elements : List Nat) : List (Nat × Nat) :=
  if elements = [] then [] else [field key (arrayLength elements)]

/-- The length of an option as JSON. -/
def choiceLength (option : Choice) : Nat :=
  objectLength (field "label" (quotedLength option.label) ::
    textField "description" option.description)

/-- The length of a question as JSON. -/
def questionLength : Nat :=
  objectLength ([field "id" (quotedLength question.id),
      field "header" (quotedLength question.header), field "text" (quotedLength question.text)] ++
    arrayField "options" ((elems question.options).map choiceLength) ++
    flagField "is_other" question.isOther ++ flagField "is_secret" question.isSecret)

end

section

variable (request : InteractionRequest) (response : InteractionResponse)

/-- The length of a request as JSON. -/
def requestLength : Nat :=
  objectLength ([field "id" (quotedLength request.id),
      field "kind" (quotedLength request.kind.text)] ++
    textField "thread_id" request.threadID ++ textField "turn_id" request.turnID ++
    [field "item_id" (quotedLength request.itemID)] ++ flagField "blocking" request.blocking ++
    arrayField "questions" ((elems request.questions).map questionLength) ++
    textField "approval_id" request.approvalID ++
    (if request.startedAtMS = 0 then []
      else [field "started_at_ms" (numberLength request.startedAtMS)]) ++
    textField "reason" request.reason ++ textField "command" request.command ++
    textField "cwd" request.cwd ++ textField "grant_root" request.grantRoot ++
    arrayField "decisions"
      ((elems request.decisions).map fun decision => quotedLength decision.text))

/-- `EncodeAdapterLine` on an interaction request with the request id `validation`, whether it
returns no error. The line has a byte more than its JSON, the newline. -/
def encodesInteractionRequest : Bool :=
  validInteractionRequest limits request &&
    objectLength [field "protocol" 1, field "type" (quotedLength (ofText "interaction_request")),
      field "request_id" (quotedLength (ofText "validation")),
      field "interaction_request" (requestLength request)] + 1 ≤ limits.maxLineBytes

/-! ## Responses -/

/-- `validateInteractionResponse`, whether it returns nil. -/
def validInteractionResponse : Bool :=
  validOpaqueID response.id &&
    match response.outcome with
    | .cancelled => response.answers.isNone && response.decision = .other []
    | .answered =>
      (response.answers.isNone != decide (response.decision = .other [])) &&
        (response.decision = .other [] || validDecision response.decision) &&
        response.answers.all fun answers =>
          answers.entries ≠ [] && answers.entries.length ≤ limits.maxQuestions &&
            answers.entries.all fun e =>
              validOpaqueID e.1 && e.2 ≠ [] && e.2.length ≤ limits.maxAnswersPerQuestion &&
                e.2.all fun answer => validRequiredText answer limits.maxTextBytes
    | .other _ => false

/-- `hasOption`. -/
def hasOption (options : List Choice) (wanted : GoString) : Bool :=
  options.any fun option => option.label = wanted

/-- `questions[questionID]` in `ValidateResponse`, the last one with the id. -/
def questionOf (questions : List Question) (id : GoString) : Option Question :=
  questions.reverse.find? fun question => question.id = id

/-- The checks of the answers to one question. -/
def validAnswers (question : Question) (answers : List GoString) : Bool :=
  answers ≠ [] && answers.length ≤ limits.maxAnswersPerQuestion &&
    (answers.all fun answer => validRequiredText answer limits.maxTextBytes &&
      (elems question.options = [] || question.isOther ||
        hasOption (elems question.options) answer)) && decide answers.Nodup

/-- `ValidateResponse`, whether it returns nil. -/
def validResponse : Bool :=
  validInteractionRequest limits request && validInteractionResponse limits response &&
    request.id = response.id &&
    (response.outcome = .cancelled ||
      match request.kind with
      | .question =>
        response.decision = .other [] &&
          ((response.answers.getD ∅).entries.length = (elems request.questions).length) &&
          (response.answers.getD ∅).entries.all fun e =>
            (questionOf (elems request.questions) e.1).any fun question =>
              validAnswers limits question e.2
      | .commandApproval | .fileApproval =>
        response.answers.isNone && (elems request.decisions).contains response.decision
      | .other _ => false)

end

end Bria.RuntimeProtocol
