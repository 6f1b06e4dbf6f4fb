import Bria.Base.Pool
import Bria.InteractionStore.Store

/-!
# The provider interaction flow

`internal/interactionflow`: an interaction of a provider is recorded, delivered to Telegram, answered
by callbacks or by a text, and its response is handed to the provider. Before each step whose outcome
may stay unknown, the flow writes a phase that says so: `PhaseSendUnknown` before the delivery, and
`PhaseProviderResponseUnknown` before the response is returned.

Each method is a program. Its requests are the methods of the store, which lock the store and so are
one step each, the delivery and the deletion of a message, the clock, the `select` in which a call
waits, and the accesses to the secret responses, which the flow holds in memory under a lock. What the
store of consumed sources answers is left open, and so is when a waiting call is woken. The texts and
keyboards that are shown are left out. Loops have fuel; a program that runs out of it has not returned.
-/

namespace Bria.InteractionFlow

open Go RuntimeProtocol InteractionStore Program

/-! ## Types -/

/-- `Delivery`, without the surface. -/
structure Delivery where
  (operationID sessionID messageID providerRequestID : GoString)
  conversationID : Int

/-- `DeliveryReceipt`. -/
structure DeliveryReceipt where
  operationID : GoString
  carrierMessageID : Int

/-- `interactionsourcestore.Source`. -/
structure ConsumedSource where
  operationID : GoString
  (actorID conversationID messageID : Int)
  deletionKnown : Bool := false
  revision : Nat := 0
  (createdAt updatedAt : Time)

/-- `telegramcontroller.InteractionEnvelope`. -/
structure InteractionEnvelope where
  (sessionID messageID : GoString)
  request : InteractionRequest

/-- `telegramcontroller.InteractionResponseAcceptance`. -/
structure ResponseAcceptance where
  (sessionID messageID providerRequestID : GoString)

/-- `telegramui.Action`, as far as interactions have their own. -/
inductive Action where
  | interactionChoice
  | interactionAccept
  | interactionDecline
  | interactionCancel
  | interactionOther
  | interactionPrevious
  | interactionNext
  | interactionSubmit
  /-- Any other action. -/
  | unrelated
  deriving DecidableEq

/-- `telegramui.IsInteractionAction`. -/
def isInteractionAction (action : Action) : Bool := action ≠ .unrelated

/-- `telegrampipeline.CallbackInteraction`. -/
structure CallbackInteraction where
  requestID : GoString
  choiceIndex : Int

/-- `telegrampipeline.CallbackPlan`, as far as it is read. -/
structure CallbackPlan where
  (operationID sessionID : GoString)
  (carrierChatID carrierMessageID : Int)
  action : Action
  targetChoice : Int := 0
  interaction : Option CallbackInteraction

/-- `telegramflow.CallbackResult`: a terminal text, or the surface of the operation. -/
structure CallbackResult where
  operationID : GoString
  terminal : Bool

/-- `telegramcontroller.InteractionTextInput`, as far as it is read. -/
structure TextInput where
  (actorID conversationID : Int)
  conversationKind : GoString
  sourceMessageID : Int
  text : GoString
  caption : GoString := []
  mediaKind : GoString := []

/-- The texts of `Status`. -/
inductive TextStatus where
  /-- No text. -/
  | none
  /-- "Ответ принят." -/
  | accepted
  /-- "Секретный ответ уже принят." -/
  | secretAccepted
  /-- "Нужен текстовый ответ." -/
  | textNeeded
  /-- "Ответ не принят: текст недопустим." -/
  | refused

/-- `telegramcontroller.InteractionTextResult`. -/
structure TextResult where
  handled : Bool := false
  status : TextStatus := .none
  secret : Bool := false
  deletionKnown : Bool := false

/-- A response that is returned to the provider with a nil error: the one in the operation, or a
secret one, which no operation has. -/
inductive Reply where
  | stored (response : InteractionResponse)
  | secret (response : InteractionResponse)

/-- `InteractionResponse{}`. -/
def emptyResponse : InteractionResponse where
  id := []
  outcome := .other []

/-- `Flow`, as far as it does not change. `New` checks the conversation. -/
structure Flow where
  conversationID : Int
  positive : 0 < conversationID
  ownerActorID : Int
  /-- There is a deleter of secret messages. -/
  deletes : Bool
  /-- `sha256.Sum256`. -/
  sum256 : GoString → Vector UInt8 32

/-! ## Requests -/

/-- Why a call that waits goes on. -/
inductive Wake where
  | woken
  | cancelled
  | timeout

/-- What the methods ask for. A context that can be cancelled is marked. -/
inductive Request where
  | load (cancellable : Bool) (id : GoString)
  | pendingText (conversationID : Int)
  | create (operation : Operation)
  | compareAndSwap (cancellable : Bool) (id : GoString) (revision : Nat) (next : Operation)
  | deleteConfirmed (id : GoString) (revision : Nat)
  | loadConsumedSource (actorID conversationID messageID : Int)
  | recordConsumedSource (source : ConsumedSource)
  | confirmConsumedSource (source : ConsumedSource) (revision : Nat)
  | deliver (delivery : Delivery)
  | deleteMessage (conversationID messageID : Int)
  | now
  | wait (id : GoString)
  | putSecret (id : GoString) (response : InteractionResponse)
  | dropSecret (id : GoString)
  | takeSecret (id : GoString)
  | setSecretInFlight (id : GoString) (inFlight : Bool)
  | secretIsInFlight (id : GoString)

/-- The answers. A swap that changes nothing has none. -/
def Answer : Request → Type
  | .load _ _ => Except Err (Option Operation)
  | .pendingText _ => Except Err (Option Operation)
  | .create _ => Except Err Operation
  | .compareAndSwap _ _ _ _ => Except Err (Option Operation)
  | .deleteConfirmed _ _ => Except Err Bool
  | .loadConsumedSource _ _ _ => Except Err (Option ConsumedSource)
  | .recordConsumedSource _ => Except Err ConsumedSource
  | .confirmConsumedSource _ _ => Except Err (Option ConsumedSource)
  | .deliver _ => Option DeliveryReceipt
  | .deleteMessage _ _ => Bool
  | .now => Time
  | .wait _ => Wake
  | .putSecret _ _ => Unit
  | .dropSecret _ => Unit
  | .takeSecret _ => Option InteractionResponse
  | .setSecretInFlight _ _ => Unit
  | .secretIsInFlight _ => Bool

/-- A program over these requests. -/
abbrev Work (α : Type) := Program Request Answer α

/-- `store.Load`. -/
def load (cancellable : Bool) (id : GoString) : Work (Except Err (Option Operation)) :=
  request (Request.load cancellable id)

/-- `store.PendingText`. -/
def pendingText (conversationID : Int) : Work (Except Err (Option Operation)) :=
  request (Request.pendingText conversationID)

/-- `store.Create`. -/
def create (operation : Operation) : Work (Except Err Operation) :=
  request (Request.create operation)

/-- `store.CompareAndSwap`. -/
def compareAndSwap (cancellable : Bool) (id : GoString) (revision : Nat) (next : Operation) :
    Work (Except Err (Option Operation)) :=
  request (Request.compareAndSwap cancellable id revision next)

/-- `store.DeleteConfirmed`. -/
def deleteConfirmed (id : GoString) (revision : Nat) : Work (Except Err Bool) :=
  request (Request.deleteConfirmed id revision)

/-- `store.LoadConsumedSource`. -/
def loadConsumedSource (input : TextInput) : Work (Except Err (Option ConsumedSource)) :=
  request (Request.loadConsumedSource input.actorID input.conversationID input.sourceMessageID)

/-- `store.RecordConsumedSource`. -/
def recordConsumedSource (source : ConsumedSource) : Work (Except Err ConsumedSource) :=
  request (Request.recordConsumedSource source)

/-- `store.ConfirmConsumedSourceDeletion`. -/
def confirmConsumedSource (source : ConsumedSource) (revision : Nat) :
    Work (Except Err (Option ConsumedSource)) :=
  request (Request.confirmConsumedSource source revision)

/-- `sender.Deliver`, none if it returns an error. -/
def deliver (delivery : Delivery) : Work (Option DeliveryReceipt) :=
  request (Request.deliver delivery)

/-- `secretDeleter.DeleteMessage`, whether it returns nil. -/
def deleteMessage (conversationID messageID : Int) : Work Bool :=
  request (Request.deleteMessage conversationID messageID)

/-- `flow.now().UTC()`. -/
def now : Work Time := request Request.now

/-- The `select` of a call that waits. -/
def wait (id : GoString) : Work Wake := request (Request.wait id)

/-- `putSecretResponse`. -/
def putSecretResponse (id : GoString) (response : InteractionResponse) : Work Unit :=
  request (Request.putSecret id response)

/-- `dropSecretResponse`. -/
def dropSecretResponse (id : GoString) : Work Unit := request (Request.dropSecret id)

/-- `takeSecretResponse`. -/
def takeSecretResponse (id : GoString) : Work (Option InteractionResponse) :=
  request (Request.takeSecret id)

/-- `setSecretInFlight`. -/
def setSecretInFlight (id : GoString) (inFlight : Bool) : Work Unit :=
  request (Request.setSecretInFlight id inFlight)

/-- `secretIsInFlight`. -/
def secretIsInFlight (id : GoString) : Work Bool := request (Request.secretIsInFlight id)

/-! ## Operation ids -/

/-- A digit of `base64.RawURLEncoding`. -/
def base64Digit (d : Nat) : UInt8 :=
  if d < 26 then 0x41 + UInt8.ofNat d
  else if d < 52 then 0x61 + UInt8.ofNat (d - 26)
  else if d < 62 then 0x30 + UInt8.ofNat (d - 52)
  else if d = 62 then 0x2D else 0x5F

/-- `base64.RawURLEncoding.EncodeToString`. -/
def base64 : GoString → GoString
  | a :: b :: c :: rest =>
    let bits := a.toNat * 0x10000 + b.toNat * 0x100 + c.toNat
    [base64Digit (bits / 0x40000), base64Digit (bits / 0x1000 % 0x40),
      base64Digit (bits / 0x40 % 0x40), base64Digit (bits % 0x40)] ++ base64 rest
  | [a, b] =>
    let bits := a.toNat * 0x400 + b.toNat * 4
    [base64Digit (bits / 0x1000), base64Digit (bits / 0x40 % 0x40), base64Digit (bits % 0x40)]
  | [a] => [base64Digit (a.toNat / 4), base64Digit (a.toNat % 4 * 16)]
  | [] => []

/-- `operationIDFor`. -/
def operationIDFor (sum256 : GoString → Vector UInt8 32)
    (sessionID messageID providerRequestID : GoString) : GoString :=
  ofText "interaction:" ++
    base64 (sum256 (sessionID ++ 0 :: messageID ++ 0 :: providerRequestID)).toList

variable (flow : Flow) (fuel : Nat) (envelope : InteractionEnvelope) (input : TextInput)

/-- `operationID`. -/
def operationID : GoString :=
  operationIDFor flow.sum256 envelope.sessionID envelope.messageID envelope.request.id

/-- `validEnvelope`. -/
def validEnvelope : Bool :=
  saneText envelope.sessionID 256 && saneText envelope.messageID 1024 &&
    encodesInteractionRequest {} envelope.request

/-- `matchesEnvelope`. -/
def matchesEnvelope (operation : Operation) (envelope : InteractionEnvelope) : Bool :=
  operation.sessionID = envelope.sessionID && operation.messageID = envelope.messageID &&
    operation.providerRequestID = envelope.request.id && operation.request = envelope.request

/-! ## The response -/

/-- `handoffResponse`. -/
def handoffResponse (cancellable : Bool) (operation : Operation) : Work (Except Err Reply) :=
  if operation.response.isNone then return .error (err .invalidOperation)
  else do
    let time ← now
    match ← compareAndSwap cancellable operation.id operation.revision
        { operation with phase := .providerResponseUnknown, updatedAt := time } with
    | .error e => return .error e
    | .ok none => return .error (err .providerResponseUnknown)
    | .ok (some updated) =>
      match updated.response with
      | some response => return .ok (.stored response)
      -- The response was there before, and a swap does not take it away.
      | none => return .error (err .invalidOperation)

/-- The response that cancels an operation. -/
def cancelledResponse (operation : Operation) : InteractionResponse where
  id := operation.providerRequestID
  outcome := .cancelled

/-- The operation that `cancelWaiting` writes. -/
def cancelled (operation : Operation) (resolution : GoString) (time : Time) : Operation :=
  { operation with
    phase := .responseReady
    selectedChoice := 0
    response := some (cancelledResponse operation)
    resolution
    updatedAt := time }

/-- `cancelWaiting`. -/
def cancelWaiting (id resolution : GoString) : Nat → Work (Option (Except Err Reply))
  | 0 => return none
  | fuel + 1 => do
    match ← load false id with
    | .error e => return some (.error e)
    | .ok none => return some (.error (err .invalidOperation))
    | .ok (some operation) =>
      if operation.phase = .responseReady then return some (← handoffResponse false operation)
      else if operation.phase = .providerResponseUnknown then
        return some (.error (err .providerResponseUnknown))
      else if operation.phase ≠ .waiting && operation.phase ≠ .waitingText then
        return some (.error (err .sendUnknown))
      else do
        let time ← now
        match ← compareAndSwap false id operation.revision (cancelled operation resolution time) with
        | .error e => return some (.error e)
        | .ok none => cancelWaiting id resolution fuel
        | .ok (some updated) => return some (← handoffResponse false updated)

/-- The loop of `awaitResponse` after its wait. -/
def goOn (id : GoString) (fuel : Nat) (again : Work (Option (Except Err Reply))) :
    Work (Option (Except Err Reply)) := do
  match ← wait id with
  | .woken => again
  | .cancelled => cancelWaiting id (ofText "cancelled") fuel
  | .timeout => cancelWaiting id (ofText "timeout") fuel

/-- `awaitResponse`. -/
def awaitResponse : Nat → GoString → Work (Option (Except Err Reply))
  | 0, _ => return none
  | fuel + 1, id => do
    match ← load false id with
    | .error e => return some (.error e)
    | .ok none => return some (.error (err .invalidOperation))
    | .ok (some operation) =>
      match operation.phase with
      | .sendUnknown | .prepared => return some (.error (err .sendUnknown))
      | .providerResponseUnknown => do
        match ← takeSecretResponse operation.id with
        | some response => return some (.ok (.secret response))
        | none => return some (.error (err .providerResponseUnknown))
      | .responseReady => return some (← handoffResponse false operation)
      | .waiting | .waitingText => goOn operation.id fuel (awaitResponse fuel operation.id)
      | .secretDeletionUnknown => do
        if ← secretIsInFlight operation.id then goOn operation.id fuel (awaitResponse fuel operation.id)
        else return some (.error (err .providerResponseUnknown))
      | .providerResponseConfirmed | .other _ => return some (.error (err .invalidOperation))

section

variable (operation : Operation)

/-- `isApproval`. -/
def isApproval (kind : InteractionKind) : Bool := kind = .commandApproval || kind = .fileApproval

/-- The decision of `autoApprove`, if it is among those of the request. -/
def approval (request : InteractionRequest) : Option ApprovalDecision :=
  if (elems request.decisions).contains .accept then some .accept
  else if (elems request.decisions).contains .acceptForSession then some .acceptForSession
  else none

/-- The response with a decision. -/
def decided (decision : ApprovalDecision) : InteractionResponse where
  id := operation.providerRequestID
  outcome := .answered
  decision

/-- `autoApprove`. -/
def autoApprove : Work (Except Err Operation) :=
  match (approval operation.request).filter fun decision =>
      validResponse {} operation.request (decided operation decision) with
  | none => return .error (err .invalidInteractionEnvelope)
  | some decision => do
    let time ← now
    match ← compareAndSwap true operation.id operation.revision
        { operation with
          phase := .responseReady
          response := some (decided operation decision)
          resolution := decision.text
          updatedAt := time } with
    | .error e => return .error e
    | .ok none => return .error (err .providerResponseUnknown)
    | .ok (some updated) => return .ok updated

/-- The operation that is written before the delivery. -/
def fenced (time : Time) : Operation := { operation with phase := .sendUnknown, updatedAt := time }

/-- The operation that is written after the delivery. -/
def waiting (operation : Operation) (carrierMessageID : Int) (time : Time) : Operation :=
  { operation with
    phase := .waiting
    selectedChoice :=
      if operation.request.kind = .question then 1 else operation.selectedChoice
    carrierMessageID
    updatedAt := time }

/-- What is delivered of an operation. -/
def deliveryOf : Delivery where
  operationID := operation.id
  sessionID := operation.sessionID
  messageID := operation.messageID
  providerRequestID := operation.providerRequestID
  conversationID := operation.conversationID

/-- `deliverInitial`. The operation is none if it is `Operation{}`. -/
def deliverInitial : Work (Except Err (Option Operation)) := do
  let time ← now
  match ← compareAndSwap true operation.id operation.revision (fenced operation time) with
  | .error e => return .error e
  | .ok none => load true operation.id
  | .ok (some fence) =>
    match (← deliver (deliveryOf operation)).filter fun receipt =>
        receipt.operationID = operation.id && decide (0 < receipt.carrierMessageID) with
    | none => return .error (err .sendUnknown)
    | some receipt =>
      let time ← now
      match ← compareAndSwap false fence.id fence.revision
          (waiting fence receipt.carrierMessageID time) with
      | .ok (some updated) => return .ok (some updated)
      | _ => return .error (err .sendUnknown)

/-- `ResolveInteraction` once the operation is found. -/
def resolveOperation : Work (Option (Except Err Reply)) :=
  if !matchesEnvelope operation envelope then return some (.error (err .invalidInteractionEnvelope))
  else if operation.phase = .prepared then
    if isApproval operation.request.kind then do
      match ← autoApprove operation with
      | .error e => return some (.error e)
      | .ok operation => awaitResponse fuel operation.id
    else do
      match ← deliverInitial operation with
      | .error e => return some (.error e)
      | .ok operation => awaitResponse fuel ((operation.map Operation.id).getD [])
  else awaitResponse fuel operation.id

end

/-- The operation that `ResolveInteraction` creates. -/
def prepared (flow : Flow) (envelope : InteractionEnvelope) (time : Time) : Operation where
  id := operationID flow envelope
  sessionID := envelope.sessionID
  messageID := envelope.messageID
  providerRequestID := envelope.request.id
  conversationID := flow.conversationID
  request := envelope.request
  phase := .prepared
  createdAt := time
  updatedAt := time

/-- `ResolveInteraction`. -/
def resolveInteraction : Work (Option (Except Err Reply)) :=
  if !validEnvelope envelope then return some (.error (err .invalidInteractionEnvelope))
  else do
    match ← load true (operationID flow envelope) with
    | .error e => return some (.error e)
    | .ok (some operation) => resolveOperation fuel envelope operation
    | .ok none =>
      let time ← now
      match ← create (prepared flow envelope time) with
      | .ok operation => resolveOperation fuel envelope operation
      | .error e =>
        if !e.is .operationExists then return some (.error e)
        else
          match ← load true (operationID flow envelope) with
          | .error e => return some (.error e)
          -- `err` is nil here.
          | .ok none => return some (.ok (.stored emptyResponse))
          | .ok (some operation) => resolveOperation fuel envelope operation

/-- `ResumeOperation`. -/
def resumeOperation (id : GoString) : Work (Except Err Reply) := do
  match ← load true id with
  | .error e => return .error e
  | .ok none => return .error (err .invalidOperation)
  | .ok (some operation) =>
    match operation.phase with
    | .responseReady => handoffResponse true operation
    | .providerResponseUnknown => return .error (err .providerResponseUnknown)
    | .sendUnknown => return .error (err .sendUnknown)
    | _ => return .error (err .invalidOperation)

/-! ## Callbacks -/

/-- The response with answers. -/
def answered (operation : Operation) (answers : Map GoString (List GoString)) :
    InteractionResponse where
  id := operation.providerRequestID
  outcome := .answered
  answers := some answers

section

variable (operation : Operation) (choice : Int) (plan : CallbackPlan)

/-- The choice of an option, by its number: its answer, and the next question or the response. -/
def choose : Except Err Operation :=
  match operation.question with
  | none => .error (err .invalidCallback)
  | some question =>
    match if 1 ≤ choice then (elems question.options)[choice.toNat - 1]? else none with
    | none => .error (err .invalidCallback)
    | some option =>
      let answers := operation.answerMap.insert question.id [option.label]
      let next := { operation with
        answers := some answers
        questionIndex := operation.questionIndex + 1
        selectedChoice := 0 }
      if operation.questionIndex + 1 = operation.questions.length then do
        refuse (!validResponse {} operation.request (answered operation answers))
          (err .invalidCallback)
        return { next with
          response := some (answered operation answers)
          phase := .responseReady
          resolution := ofText "answered" }
      else return { next with selectedChoice := 1 }

/-- The buttons that move the selection. -/
def moveSelection (back : Bool) : Except Err Operation :=
  match operation.question with
  | none => .error (err .invalidCallback)
  | some question => do
    let count := (elems question.options).length
    refuse (count = 0 || operation.selectedChoice < 1 || count < operation.selectedChoice)
      (err .invalidCallback)
    return { operation with
      selectedChoice :=
        if back then
          if operation.selectedChoice - 1 = 0 then count else operation.selectedChoice - 1
        else if count < operation.selectedChoice + 1 then 1 else operation.selectedChoice + 1 }

/-- The button for another answer, which a text is then awaited for. -/
def chooseOther : Except Err Operation :=
  match operation.question with
  | none => .error (err .invalidCallback)
  | some question => do
    refuse (!question.isOther || operation.questionIndex + 1 ≠ operation.questions.length ||
      decide (choice ≠ 0)) (err .invalidCallback)
    return { operation with
      phase := .waitingText
      selectedChoice := 0
      resolution := ofText "awaiting_other" }

/-- The buttons of an approval. -/
def decideApproval (decline : Bool) : Except Err Operation :=
  let decision :=
    if decline then .decline
    else if !(elems operation.request.decisions).contains .accept &&
        (elems operation.request.decisions).contains .acceptForSession then .acceptForSession
    else .accept
  do
    refuse (!validResponse {} operation.request (decided operation decision)) (err .invalidCallback)
    return { operation with
      response := some (decided operation decision)
      phase := .responseReady
      resolution := decision.text }

/-- The button that cancels. -/
def cancel : Except Err Operation := do
  refuse (!validResponse {} operation.request (cancelledResponse operation)) (err .invalidCallback)
  return { operation with
    response := some (cancelledResponse operation)
    phase := .responseReady
    selectedChoice := 0
    resolution := ofText "cancelled" }

/-- `applyCallback`. -/
def applyCallback (interaction : CallbackInteraction) : Except Err Operation :=
  match plan.action with
  | .interactionPrevious => do
    refuse (operation.request.kind ≠ .question) (err .invalidCallback)
    moveSelection operation true
  | .interactionNext => do
    refuse (operation.request.kind ≠ .question) (err .invalidCallback)
    moveSelection operation false
  | .interactionSubmit => do
    refuse (operation.request.kind ≠ .question) (err .invalidCallback)
    choose operation operation.selectedChoice
  | .interactionChoice => do
    refuse (operation.request.kind ≠ .question ||
      decide (interaction.choiceIndex ≠ plan.targetChoice)) (err .invalidCallback)
    choose operation interaction.choiceIndex
  | .interactionOther => do
    refuse (operation.request.kind ≠ .question) (err .invalidCallback)
    chooseOther operation interaction.choiceIndex
  | .interactionAccept => do
    refuse (!isApproval operation.request.kind) (err .invalidCallback)
    decideApproval operation false
  | .interactionDecline => do
    refuse (!isApproval operation.request.kind) (err .invalidCallback)
    decideApproval operation true
  | .interactionCancel => cancel operation
  | .unrelated => .error (err .invalidCallback)

/-- The operation that `HandleCallback` writes. -/
def recorded (time : Time) : Operation :=
  { operation with lastCallbackID := plan.operationID, updatedAt := time }

/-- Whether `HandleCallback` takes the callback in this phase. -/
def awaitsCallback (action : Action) : Bool :=
  operation.phase = .waiting || operation.phase = .waitingText && action = .interactionCancel

/-- `callbackResult`. -/
def callbackResult (callbackOperationID : GoString) : CallbackResult where
  operationID := callbackOperationID
  terminal := operation.phase = .responseReady || operation.phase = .providerResponseUnknown

end

/-- The loop of `HandleCallback`. -/
def handleOperation (plan : CallbackPlan) (interaction : CallbackInteraction) :
    Nat → Work (Option (Except Err CallbackResult))
  | 0 => return none
  | fuel + 1 => do
    match ← load true interaction.requestID with
    | .error e => return some (.error e)
    | .ok none => return some (.error (err .staleCallback))
    | .ok (some operation) =>
      if operation.sessionID ≠ plan.sessionID ||
          decide (operation.conversationID ≠ plan.carrierChatID) ||
          decide (operation.carrierMessageID ≠ plan.carrierMessageID) then
        return some (.error (err .staleCallback))
      else if operation.lastCallbackID = plan.operationID then
        return some (.ok (callbackResult operation plan.operationID))
      else if !awaitsCallback operation plan.action then return some (.error (err .staleCallback))
      else
        match applyCallback operation plan interaction with
        | .error e => return some (.error e)
        | .ok next =>
          let time ← now
          match ← compareAndSwap true operation.id operation.revision (recorded next plan time) with
          | .error e => return some (.error e)
          | .ok none => handleOperation plan interaction fuel
          | .ok (some updated) => return some (.ok (callbackResult updated plan.operationID))

/-- `HandleCallback`. -/
def handleCallback (plan : CallbackPlan) : Work (Option (Except Err CallbackResult)) :=
  match plan.interaction with
  | none => return some (.error (err .invalidCallback))
  | some interaction =>
    if !saneText interaction.requestID 256 || !isInteractionAction plan.action ||
        !saneText plan.operationID 256 then
      return some (.error (err .invalidCallback))
    else handleOperation plan interaction fuel

/-! ## Texts -/

/-- The answers of an operation with a text for the current question. -/
def withText (operation : Operation) (question : Question) (text : GoString) :
    Map GoString (List GoString) :=
  operation.answerMap.insert question.id [text]

/-- `finishSecretResponse`: the error, if there is one. -/
def finishSecretResponse (operation : Operation) (answer : GoString) : Work (Option Err) :=
  match operation.question with
  -- There is a question in the phase in which this is called.
  | none => return some (err .invalidInteractionEnvelope)
  | some question =>
    let response := answered operation (withText operation question answer)
    if !validResponse {} operation.request response then
      return some (err .invalidInteractionEnvelope)
    else do
      putSecretResponse operation.id response
      let time ← now
      let changed ← compareAndSwap false operation.id operation.revision
        { operation with
          phase := .providerResponseUnknown
          secretResponse := true
          resolution := ofText "secret_answered"
          updatedAt := time }
      match changed with
      | .ok (some _) =>
        setSecretInFlight operation.id false
        return none
      | .ok none =>
        dropSecretResponse operation.id
        setSecretInFlight operation.id false
        return some (err .providerResponseUnknown)
      | .error e =>
        dropSecretResponse operation.id
        setSecretInFlight operation.id false
        return some e

/-- What a text handler returns. -/
abbrev TextOutcome := TextResult × Option Err

/-- Whether the input comes from the owner, in the conversation of the flow. -/
def ownInput : Bool :=
  decide (0 < flow.ownerActorID) && decide (input.actorID = flow.ownerActorID) &&
    decide (input.conversationID = flow.conversationID) &&
    input.conversationKind = ofText "private"

/-- `ConsumeBoundSourceMessage` once the deletion of the message is known. -/
def finishBoundSource (source : ConsumedSource) (result : TextResult) :
    Work TextOutcome := do
  match ← load false source.operationID with
  | .error e => return (result, some e)
  | .ok none => return (result, none)
  | .ok (some operation) =>
    if operation.phase ≠ .secretDeletionUnknown ||
        decide (operation.secretSourceMessageID ≠ source.messageID) then return (result, none)
    else return (result, ← finishSecretResponse operation input.text)

/-- `ConsumeBoundSourceMessage`. -/
def consumeBoundSourceMessage : Work TextOutcome :=
  if decide (input.actorID ≤ 0) || decide (input.conversationID ≤ 0) ||
      decide (input.sourceMessageID ≤ 0) then
    return ({}, some (err .invalidInteractionEnvelope))
  else do
    match ← loadConsumedSource input with
    | .error e => return ({}, some e)
    | .ok none => return ({}, none)
    | .ok (some source) =>
      let result : TextResult := {
        handled := true, status := .secretAccepted, secret := true,
        deletionKnown := source.deletionKnown }
      let known := { result with deletionKnown := true }
      if source.deletionKnown then finishBoundSource input source known
      else if !ownInput flow input || !flow.deletes then
        return (result, some (err .invalidInteractionEnvelope))
      else if !(← deleteMessage source.conversationID source.messageID) then
        return (result, some (err .secretDeletionUnknown))
      else
        let time ← now
        match ← confirmConsumedSource { source with updatedAt := time } source.revision with
        | .error e => return (result, some e)
        | .ok confirmed =>
          match confirmed.filter ConsumedSource.deletionKnown with
          | none => return (result, some (err .secretDeletionUnknown))
          | some source => finishBoundSource input source known

section

variable (operation : Operation) (result : TextResult)

/-- The secret answer in `ResolvePendingText`. -/
def resolveSecret : Work TextOutcome :=
  if !flow.deletes then return (result, some (err .invalidFlowConfiguration))
  else do
    setSecretInFlight operation.id true
    let time ← now
    match ← compareAndSwap true operation.id operation.revision
        { operation with
          phase := .secretDeletionUnknown
          secretSourceMessageID := input.sourceMessageID
          resolution := ofText "secret_deletion_unknown"
          updatedAt := time } with
    | .error e =>
      setSecretInFlight operation.id false
      return (result, some e)
    | .ok none =>
      setSecretInFlight operation.id false
      return (result, some (err .pendingTextUnavailable))
    | .ok (some fence) =>
      let created ← now
      let updated ← now
      match ← recordConsumedSource {
          operationID := operation.id, actorID := input.actorID,
          conversationID := input.conversationID, messageID := input.sourceMessageID,
          createdAt := created, updatedAt := updated } with
      | .error e =>
        setSecretInFlight operation.id false
        return (result, some e)
      | .ok source =>
        if !(← deleteMessage input.conversationID input.sourceMessageID) then
          return (result, some (err .secretDeletionUnknown))
        else
          let time ← now
          match ← confirmConsumedSource { source with updatedAt := time } source.revision with
          | .error e =>
            setSecretInFlight operation.id false
            return (result, some e)
          | .ok none =>
            setSecretInFlight operation.id false
            return (result, some (err .secretDeletionUnknown))
          | .ok (some _) =>
            match ← finishSecretResponse fence input.text with
            | some e => return (result, some e)
            | none => return ({ result with deletionKnown := true }, none)

/-- The text for an operation that waits for one. -/
def resolveText (question : Question) (result : TextResult) : Work TextOutcome :=
  if input.mediaKind ≠ [] || input.caption ≠ [] || input.text = [] then
    return ({ result with status := .textNeeded }, none)
  else
    let answers := withText operation question input.text
    let response := answered operation answers
    if !validResponse {} operation.request response then
      return ({ result with status := .refused }, none)
    else if question.isSecret then resolveSecret flow input operation result
    else do
      let time ← now
      match ← compareAndSwap true operation.id operation.revision
          { operation with
            answers := some answers
            questionIndex := operation.questionIndex + 1
            response := some response
            phase := .responseReady
            resolution := ofText "other_answered"
            updatedAt := time } with
      | .error e => return (result, some e)
      | .ok none => return (result, some (err .pendingTextUnavailable))
      | .ok (some _) => return (result, none)

/-- `ResolvePendingText` for an operation whose secret message is being deleted. -/
def resolveRedelivered : Work TextOutcome :=
  if input.sourceMessageID ≠ operation.secretSourceMessageID then
    return (result, some (err .secretDeletionUnknown))
  else do
    match ← loadConsumedSource input with
    | .error e => return (result, some e)
    | .ok (some _) => consumeBoundSourceMessage flow input
    | .ok none =>
      match ← recordConsumedSource {
          operationID := operation.id, actorID := input.actorID,
          conversationID := input.conversationID, messageID := input.sourceMessageID,
          createdAt := operation.updatedAt, updatedAt := operation.updatedAt } with
      | .error e => return (result, some e)
      | .ok _ => consumeBoundSourceMessage flow input

end

/-- `ResolvePendingText`. -/
def resolvePendingText : Work TextOutcome :=
  if decide (input.conversationID ≤ 0) || decide (input.sourceMessageID ≤ 0) then
    return ({}, some (err .invalidInteractionEnvelope))
  else do
    match ← pendingText input.conversationID with
    | .error e => return ({}, some e)
    | .ok none => return ({}, none)
    | .ok (some operation) =>
      match operation.question with
      -- There is a question in the phases that are pending.
      | none => return ({}, some (err .invalidInteractionEnvelope))
      | some question =>
        let result : TextResult := {
          handled := true, status := .accepted, secret := question.isSecret,
          deletionKnown := !question.isSecret }
        if !ownInput flow input then return (result, some (err .invalidInteractionEnvelope))
        else if operation.phase = .secretDeletionUnknown then
          resolveRedelivered flow input operation result
        else resolveText flow input operation question result

/-! ## Confirmation -/

/-- The loop of `ConfirmInteractionResponse`. -/
def confirmOperation (acceptance : ResponseAcceptance) (id : GoString) :
    Nat → Work (Option (Except Err Unit))
  | 0 => return none
  | fuel + 1 => do
    match ← load true id with
    | .error e => return some (.error e)
    | .ok none => return some (.error (err .invalidInteractionEnvelope))
    | .ok (some operation) =>
      if operation.sessionID ≠ acceptance.sessionID || operation.messageID ≠ acceptance.messageID ||
          operation.providerRequestID ≠ acceptance.providerRequestID then
        return some (.error (err .invalidInteractionEnvelope))
      else if operation.phase = .providerResponseConfirmed then do
        match ← deleteConfirmed id operation.revision with
        | .error e => return some (.error e)
        | .ok _ => return some (.ok ())
      else if operation.phase ≠ .providerResponseUnknown then
        return some (.error (err .providerResponseUnknown))
      else do
        let time ← now
        match ← compareAndSwap true id operation.revision
            { operation with phase := .providerResponseConfirmed, updatedAt := time } with
        | .error e => return some (.error e)
        | .ok none => confirmOperation acceptance id fuel
        | .ok (some confirmed) =>
          dropSecretResponse id
          match ← deleteConfirmed id confirmed.revision with
          | .error e => return some (.error e)
          | .ok false => confirmOperation acceptance id fuel
          | .ok true => return some (.ok ())

/-- `ConfirmInteractionResponse`. -/
def confirmInteractionResponse (acceptance : ResponseAcceptance) :
    Work (Option (Except Err Unit)) :=
  if !saneText acceptance.sessionID 256 || !saneText acceptance.messageID 1024 ||
      !saneText acceptance.providerRequestID 1024 then
    return some (.error (err .invalidInteractionEnvelope))
  else
    confirmOperation acceptance
      (operationIDFor flow.sum256 acceptance.sessionID acceptance.messageID
        acceptance.providerRequestID) fuel

/-! ## The process -/

/-- The store, and what the flow holds of secret responses. -/
structure World where
  store : FileStore
  secretResponses : Map GoString InteractionResponse := ∅
  secretInFlight : Map GoString Unit := ∅

/-- What is left open at a request. -/
def Choice : Request → Type
  | .load _ _ => Bool
  | .pendingText _ => Bool
  | .create _ => Bool × Write
  | .compareAndSwap _ _ _ _ => Bool × Write
  | .deleteConfirmed _ _ => Bool × Write
  | .takeSecret _ => Unit
  | .secretIsInFlight _ => Unit
  | r => Answer r

/-- What a request does. A method of the store first looks whether its context is cancelled. -/
def perform : (r : Request) → World → Choice r → Answer r × World
  | .load cancellable id, w, (done : Bool) =>
    (if cancellable && done then .error (err .canceled) else InteractionStore.load id w.store, w)
  | .pendingText conversationID, w, (done : Bool) =>
    (if done then .error (err .canceled) else InteractionStore.pendingText conversationID w.store, w)
  | .create operation, w, (done, write) =>
    if done then (.error (err .canceled), w)
    else
      let r := InteractionStore.create write operation w.store
      (r.1, { w with store := r.2 })
  | .compareAndSwap cancellable id revision next, w, (done, write) =>
    if cancellable && done then (.error (err .canceled), w)
    else
      let r := InteractionStore.compareAndSwap write id revision next w.store
      (r.1, { w with store := r.2 })
  | .deleteConfirmed id revision, w, (done, write) =>
    if done then (.error (err .canceled), w)
    else
      let r := InteractionStore.deleteConfirmed write id revision w.store
      (r.1, { w with store := r.2 })
  | .loadConsumedSource _ _ _, w, c => (c, w)
  | .recordConsumedSource _, w, c => (c, w)
  | .confirmConsumedSource _ _, w, c => (c, w)
  | .deliver _, w, c => (c, w)
  | .deleteMessage _ _, w, c => (c, w)
  | .now, w, c => (c, w)
  | .wait _, w, c => (c, w)
  | .putSecret id response, w, _ =>
    ((), { w with secretResponses := w.secretResponses.insert id response })
  | .dropSecret id, w, _ => ((), { w with secretResponses := w.secretResponses.erase id })
  | .takeSecret id, w, _ =>
    (w.secretResponses.lookup id, { w with secretResponses := w.secretResponses.erase id })
  | .setSecretInFlight id inFlight, w, _ =>
    ((), { w with
      secretInFlight :=
        if inFlight then w.secretInFlight.insert id () else w.secretInFlight.erase id })
  | .secretIsInFlight id, w, _ => ((w.secretInFlight.lookup id).isSome, w)

/-- The surroundings of the calls. -/
def surroundings : Surroundings Request Answer World where
  Choice
  perform

/-- A call of a method. -/
inductive Call where
  | resolve (fuel : Nat) (envelope : InteractionEnvelope)
  | resume (id : GoString)
  | callback (fuel : Nat) (plan : CallbackPlan)
  | text (input : TextInput)
  | boundSource (input : TextInput)
  | confirm (fuel : Nat) (acceptance : ResponseAcceptance)

/-- What a call returns, none if it has not returned. -/
inductive Outcome where
  | reply (r : Option (Except Err Reply))
  | callback (r : Option (Except Err CallbackResult))
  | text (r : TextOutcome)
  | confirmed (r : Option (Except Err Unit))

/-- The program of a call. -/
def Call.work : Call → Work Outcome
  | .resolve fuel envelope => do return .reply (← resolveInteraction flow fuel envelope)
  | .resume id => do return .reply (some (← resumeOperation id))
  | .callback fuel plan => do return .callback (← handleCallback fuel plan)
  | .text input => do return .text (← resolvePendingText flow input)
  | .boundSource input => do return .text (← consumeBoundSourceMessage flow input)
  | .confirm fuel acceptance => do
    return .confirmed (← confirmInteractionResponse flow fuel acceptance)

/-- The process is started anew: the store is opened, and the secret responses are gone. -/
def Restarts (w w' : World) : Prop := ∃ store, Opens w.store.file store ∧ w' = { store }

/-- A process with the calls that run in it, and all that they have done. -/
abbrev Process := Pool Call Request Answer Outcome World

/-- A step of the process: a call starts, asks a request or returns, or the process is restarted. -/
abbrev Step (flow : Flow) (calls : Call → Prop) : Process → Process → Prop :=
  Pool.Step surroundings (Call.work flow) calls Restarts

end Bria.InteractionFlow
