import Bria.RuntimeProtocol.Interaction

/-!
# Operations of the interaction store

An operation is the record of one provider interaction: the request, how far its delivery and the
answers have come, and the response. `validateOperation` says what a record may be in each phase, and
`validTransition` which phase may follow which.

An operation goes through JSON when the store is opened again, which makes empty slices nil and
replaces what is not UTF-8. In a checked operation that may be an answer that was typed, and the
resolution; the other texts are UTF-8.
-/

namespace Bria.InteractionStore

open Go RuntimeProtocol

/-! ## Types -/

/-- `Phase`. -/
inductive Phase where
  | prepared
  | sendUnknown
  | waiting
  | waitingText
  | secretDeletionUnknown
  | responseReady
  | providerResponseUnknown
  | providerResponseConfirmed
  /-- Any other text. -/
  | other (text : GoString)
  deriving DecidableEq

/-- `Operation`. The index and the choice are not negative in any operation that is checked. -/
structure Operation where
  (id sessionID messageID providerRequestID : GoString)
  conversationID : Int
  carrierMessageID : Int := 0
  request : InteractionRequest
  phase : Phase
  questionIndex : Nat := 0
  selectedChoice : Nat := 0
  answers : Option (Map GoString (List GoString)) := some ∅
  response : Option InteractionResponse := none
  resolution : GoString := []
  lastCallbackID : GoString := []
  secretSourceMessageID : Int := 0
  secretResponse : Bool := false
  revision : Nat := 0
  (createdAt updatedAt : Time)

/-- The questions of an operation. -/
def Operation.questions (operation : Operation) : List Question := elems operation.request.questions

variable (operation : Operation)

/-- The current question. -/
def Operation.question : Option Question := operation.questions[operation.questionIndex]?

/-- The answers of an operation. -/
def Operation.answerMap : Map GoString (List GoString) := operation.answers.getD ∅

/-! ## Copies -/

/-- A slice that is appended to a nil one: an empty slice becomes nil. -/
def appended {α : Type} (s : Slice α) : Slice α := if elems s = [] then none else s

/-- The copy of a question in `cloneRequest`. -/
def cloneQuestion (question : Question) : Question :=
  { question with options := appended question.options }

/-- `cloneRequest`. -/
def cloneRequest (request : InteractionRequest) : InteractionRequest :=
  { request with
    decisions := appended request.decisions
    questions := request.questions.map fun questions => questions.map cloneQuestion }

/-- `cloneOperation`. -/
def cloneOperation : Operation := { operation with request := cloneRequest operation.request }

/-- A request as read from JSON. -/
def requestJSON (request : InteractionRequest) : InteractionRequest :=
  { cloneRequest request with questions := appended (cloneRequest request).questions }

/-- A response as read from JSON. -/
def responseJSON (response : InteractionResponse) : InteractionResponse :=
  { response with answers := response.answers.filter fun answers => answers.entries ≠ [] }

/-- An operation as read from JSON. -/
def Operation.json : Operation :=
  { operation with
    request := requestJSON operation.request
    answers := operation.answers.map fun answers =>
      answers.update fun _ values => some (values.map jsonText)
    response := operation.response.map responseJSON
    resolution := jsonText operation.resolution }

/-! ## Checks -/

/-- `saneText`. -/
def saneText (value : GoString) (max : Nat) : Bool := plainText value max

/-- `hasQuestionOption`. -/
def hasQuestionOption (question : Question) (answer : GoString) : Bool :=
  hasOption (elems question.options) answer

/-- The identity of an operation, and the times. -/
def validIdentity : Bool :=
  saneText operation.id 256 && saneText operation.sessionID 256 &&
    saneText operation.messageID 1024 && saneText operation.providerRequestID 1024 &&
    operation.request.id = operation.providerRequestID && decide (0 < operation.conversationID) &&
    operation.revision ≠ 0 && !operation.createdAt.isZero &&
    !operation.createdAt.after operation.updatedAt

/-- One answer to every question before the current one, and to no other. -/
def validProgress : Bool :=
  match operation.request.kind with
  | .question =>
    operation.answerMap.entries.length = operation.questionIndex &&
      (operation.questions.take operation.questionIndex).all fun question =>
        (operation.answerMap.lookup question.id).any fun answers =>
          match answers with
          | [answer] => question.isOther || hasQuestionOption question answer
          | _ => false
  | _ =>
    operation.questionIndex = 0 && operation.selectedChoice = 0 && operation.answerMap.entries = []

/-- A choice is selected exactly while an answer to a question is awaited. -/
def validSelection : Bool :=
  match operation.request.kind with
  | .question =>
    if operation.phase = .waiting then
      operation.question.any fun question =>
        1 ≤ operation.selectedChoice && operation.selectedChoice ≤ (elems question.options).length
    else operation.selectedChoice = 0
  | _ => true

/-- The carrier of the message is known, which an approval needs no message for. -/
def carried : Bool := decide (0 < operation.carrierMessageID) || operation.request.kind ≠ .question

/-- The checks by phase. -/
def validPhase : Bool :=
  match operation.phase with
  | .prepared | .sendUnknown => operation.carrierMessageID = 0 && operation.response.isNone
  | .waiting => decide (0 < operation.carrierMessageID) && operation.response.isNone
  | .waitingText =>
    decide (0 < operation.carrierMessageID) && operation.response.isNone &&
      operation.request.kind = .question && (operation.question.any fun question =>
        question.isOther) && decide (operation.secretSourceMessageID = 0) &&
      !operation.secretResponse
  | .secretDeletionUnknown =>
    decide (0 < operation.carrierMessageID) && operation.response.isNone &&
      operation.request.kind = .question && (operation.question.any fun question =>
        question.isOther && question.isSecret) &&
      decide (0 < operation.secretSourceMessageID) && !operation.secretResponse
  | .responseReady =>
    carried operation && operation.response.any fun response =>
      validResponse {} operation.request response
  | .providerResponseUnknown | .providerResponseConfirmed =>
    carried operation && operation.secretResponse != operation.response.isSome &&
      (operation.response.all fun response => validResponse {} operation.request response) &&
      (!operation.secretResponse || decide (0 < operation.secretSourceMessageID) &&
        operation.resolution = ofText "secret_answered")
  | .other _ => false

/-- `validateOperation`, whether it returns nil. -/
def validOperation : Bool :=
  validIdentity operation && encodesInteractionRequest {} operation.request &&
    operation.questionIndex ≤ operation.questions.length && operation.answers.isSome &&
    (operation.lastCallbackID = [] || saneText operation.lastCallbackID 256) &&
    validProgress operation && validSelection operation && validPhase operation

/-- `validateOperation`. -/
def validateOperation : Except Err Unit :=
  refuse (!validOperation operation) (err .invalidOperation)

/-- `validTransition`. -/
def validTransition : Phase → Phase → Bool
  | .prepared, next => next = .sendUnknown || next = .responseReady
  | .sendUnknown, next => next = .waiting
  | .waiting, next => next = .waiting || next = .waitingText || next = .responseReady
  | .waitingText, next => next = .responseReady || next = .secretDeletionUnknown
  | .secretDeletionUnknown, next => next = .providerResponseUnknown
  | .responseReady, next => next = .providerResponseUnknown
  | .providerResponseUnknown, next => next = .providerResponseConfirmed
  | _, _ => false

/-- `pendingTextPhase`. -/
def pendingTextPhase (phase : Phase) : Bool := phase = .waitingText || phase = .secretDeletionUnknown

/-- `sameIdentity`. -/
def sameIdentity (current next : Operation) : Bool :=
  current.id = next.id && current.sessionID = next.sessionID && current.messageID = next.messageID &&
    current.providerRequestID = next.providerRequestID &&
    current.conversationID = next.conversationID && current.createdAt = next.createdAt &&
    current.request = next.request

end Bria.InteractionStore
