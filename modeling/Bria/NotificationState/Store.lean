import Bria.Base.Stored
import Bria.Errors
import Bria.Go.Map

/-!
# The store of notification parts

`internal/notificationstate`: for every notification the plan of its pages, and for every page
whether it has been sent. A sender claims a part before it sends it; a part that has been claimed
is unknown until it is confirmed or released.

Every call reads the file, changes the state and replaces the file, all under a lock. So calls come
one after another, whoever makes them, and a store has no memory of its own. The file is what was
encoded last; reading it makes the trip through JSON (`FileState.decoded`). The sums and the texts
that are summed are left open (`Encoding`), and a file that would be too large is a write that is
refused. A file in which `operations` or the parts of an operation are `null` is not read, and has no
value here.
-/

namespace Bria.NotificationState

open Go

/-- `DeliveryState`. -/
inductive DeliveryState where
  | confirmed
  | failed
  | unknown
  | other (text : GoString)
  deriving DecidableEq

/-- `storedPart`. -/
structure StoredPart where
  state : DeliveryState
  messageID : Int := 0
  deriving DecidableEq

/-- `savedPlan`. -/
structure SavedPlan where
  version : Int
  inputHash : GoString
  pages : List GoString
  checksum : GoString := []
  deriving DecidableEq

/-- The parts of an operation. -/
abbrev Parts := Map GoString StoredPart

/-- `partReceiptFileState`. The defaults are those of a file that does not exist. -/
structure FileState where
  version : Int := 1
  operations : Map GoString Parts := ∅
  plans : Option (Map GoString SavedPlan) := none
  checksum : GoString := []
  deriving DecidableEq

/-- `partReceiptFileVersion`. -/
def partReceiptFileVersion : Int := 2

section

variable (state : FileState) (operationID : GoString)

/-- `state.Plans[operationID]`. -/
def FileState.plan : Option SavedPlan := (state.plans.getD ∅).lookup operationID

/-- `state.Operations[operationID]`, where a nil map is an empty one. -/
def FileState.parts : Parts := (state.operations.lookup operationID).getD ∅

/-- The state with other parts of an operation. -/
def FileState.setParts (parts : Parts) : FileState :=
  { state with operations := state.operations.insert operationID parts }

end

/-- The sums. -/
structure Encoding where
  /-- `sha256.Sum256`. -/
  sum256 : GoString → Vector UInt8 32
  /-- The text of a plan that is summed. -/
  encodePlan : GoString → SavedPlan → GoString
  /-- The text of a state that is summed. -/
  encodeState : FileState → GoString

variable (enc : Encoding)

/-- `planChecksum`. -/
def planChecksum (operationID : GoString) (plan : SavedPlan) : GoString :=
  hexText (enc.sum256 (enc.encodePlan operationID { plan with checksum := [] })).toList

variable (state : FileState)

/-- `stateChecksum`. -/
def stateChecksum : GoString :=
  hexText (enc.sum256 (enc.encodeState { state with checksum := [] })).toList

/-! ## Validation -/

section

variable (operationID partID : GoString)

/-- `validateOperation`. -/
def validateOperation : Except Err Unit :=
  refuse (operationID = [] || trimSpace operationID ≠ operationID || 512 < operationID.length ||
    !validString operationID) (.message "invalid notification operation identity")

/-- `validatePlanIdentity`. -/
def validatePlanIdentity (inputHash : GoString) : Except Err Unit := do
  validateOperation operationID
  refuse (!hexDecodes 32 inputHash) (.message "invalid notification input digest")

/-- What the id of a part starts with. -/
def partStem : GoString := operationID ++ ofText ":part:"

/-- A number that `strconv.Itoa` writes as it is written. -/
def canonicalInt (text : GoString) : Option Int := (atoi text).filter fun n => formatInt n = text

/-- The index and the total in the id of a part, none if they cannot be cut. -/
def partNumbers : Option (GoString × GoString) :=
  cut (ofText "-of-") (if (partStem operationID).isPrefixOf partID then
    partID.drop (partStem operationID).length else partID)

/-- `validatePartBinding`. -/
def validatePartBinding : Except Err Unit := do
  let invalid : Err := .message "invalid Telegram part identity"
  refuse ((errorOf (validateOperation operationID)).isSome || blank partID ||
    768 < partID.length || !(partStem operationID).isPrefixOf partID) invalid
  match partNumbers operationID partID with
  | none => .error invalid
  | some (index, total) =>
    match canonicalInt index, canonicalInt total with
    | some part, some count => refuse (part < 1 || count < part) invalid
    | _, _ => .error invalid

/-- `validateStoredBinding`. -/
def validateStoredBinding (requirePlan : Bool) :
    Except Err Unit := do
  validatePartBinding operationID partID
  match state.plan operationID with
  | none => refuse requirePlan (.message "notification part requires a saved plan")
  | some plan =>
    refuse (!(ofText "-of-" ++ formatInt plan.pages.length).isSuffixOf partID)
      (.message "notification part conflicts with saved plan")

/-- The check of `validateSavedPlan` on a page. -/
def validatePage (plan : SavedPlan) (page : GoString) : Except Err Unit :=
  refuse (!validString page || blank page || (plan.version = 2 && 4096 < page.length))
    (.message "invalid notification saved page")

/-- `validateSavedPlan`. -/
def validateSavedPlan (plan : SavedPlan) : Except Err Unit := do
  refuse ((errorOf (validatePlanIdentity operationID plan.inputHash)).isSome ||
    (plan.version ≠ 1 && plan.version ≠ 2) || plan.pages = [] ||
    plan.checksum ≠ planChecksum enc operationID plan)
    (.message "invalid notification saved plan")
  plan.pages.forM (validatePage plan)

/-- The total in the id of a part. -/
def partTotal : GoString := ((partNumbers operationID partID).map (·.2)).getD []

/-- The check of `validateFileState` on a part by itself. -/
def validPart (part : StoredPart) : Bool :=
  match part.state with
  | .confirmed => 0 < part.messageID
  | .unknown => part.messageID = 0
  | _ => false

/-- One turn of the loop over the parts of an operation, with the total of the parts before. -/
def scanPart (total : GoString) (entry : Σ _ : GoString, StoredPart) :
    Except Err GoString := do
  refuse ((errorOf (validateStoredBinding state operationID entry.1 false)).isSome ||
    (total ≠ [] && partTotal operationID entry.1 ≠ total) || !validPart entry.2)
    (.message "invalid part receipt store part")
  return partTotal operationID entry.1

/-- One turn of the loop over the operations. -/
def validateParts (entry : Σ _ : GoString, Parts) : Except Err Unit := do
  refuse (errorOf (validateOperation entry.1)).isSome
    (.message "invalid part receipt store operation")
  let _ ← entry.2.entries.foldlM (scanPart state entry.1) []

/-- One turn of the loop over the plans. -/
def validatePlan (entry : Σ _ : GoString, SavedPlan) : Except Err Unit :=
  refuse ((errorOf (validateOperation entry.1)).isSome ||
    (errorOf (validateSavedPlan enc entry.1 entry.2)).isSome)
    (.message "invalid part receipt store plan")

/-- `validateFileState`. -/
def validateFileState : Except Err Unit := do
  refuse ((state.version = 1 && state.checksum ≠ []) ||
    (state.version = partReceiptFileVersion && state.checksum ≠ stateChecksum enc state))
    (.message "invalid part receipt store checksum")
  refuse ((state.version ≠ 1 && state.version ≠ partReceiptFileVersion) ||
    (state.version = 1 && state.plans.isSome) || (state.version = 2 && state.plans.isNone))
    (.message "invalid part receipt store version")
  state.operations.entries.forM (validateParts state)
  (state.plans.getD ∅).entries.forM (validatePlan enc)

/-! ## The file -/

/-- A delivery state as read from the file. -/
def DeliveryState.reencode : DeliveryState → DeliveryState
  | .other text => .other (jsonText text)
  | state => state

/-- A part as read from the file. -/
def StoredPart.reencode (part : StoredPart) : StoredPart :=
  { part with state := part.state.reencode }

/-- A plan as read from the file. -/
def SavedPlan.reencode (plan : SavedPlan) : SavedPlan where
  version := plan.version
  inputHash := jsonText plan.inputHash
  pages := plan.pages.map jsonText
  checksum := jsonText plan.checksum

/-- A state as read from the file: `omitempty` drops plans that are empty. -/
def FileState.reencode (state : FileState) : FileState where
  version := state.version
  operations := state.operations.rekey jsonText fun parts => parts.rekey jsonText StoredPart.reencode
  plans := (state.plans.filter fun plans => plans.entries ≠ []).map fun plans =>
    plans.rekey jsonText SavedPlan.reencode
  checksum := jsonText state.checksum

/-- The keys of the objects of a state. -/
def FileState.keys (state : FileState) : List (List GoString) :=
  [state.operations.keys, (state.plans.getD ∅).keys] ++
    state.operations.entries.map fun entry => entry.2.keys

/-- The state that is decoded from the text of a state, none if `rejectDuplicateKeys` fails. -/
def FileState.decoded : Option FileState :=
  if state.keys.all fun keys => (keys.map jsonText).Nodup then some state.reencode else none

/-- The file: the state that was encoded, none if there is no file. -/
abbrev File := Option FileState

/-- `readPartReceiptState`. -/
def readPartReceiptState : File → Except Err FileState
  | none => .ok {}
  | some text =>
    match text.decoded with
    | none => .error (.message "invalid part receipt store file")
    | some state => do
      refuse (errorOf (validateFileState enc state)).isSome
        (.message "invalid part receipt store file")
      return state

/-- What fails in a call. -/
structure Faults where
  /-- The context has ended when the call starts. -/
  cancelled : Bool := false
  /-- The lock is not taken, the context has ended when it is, or the file is not read. -/
  unread : Bool := false
  write : Write := .done
  /-- The file that was written is not read. -/
  unverified : Bool := false

/-- An error of the file system or of the context. -/
def fileError : Err := .message "part receipt store file"

/-- The state with its checksum, as `mutate` writes it. -/
def FileState.sealed : FileState :=
  if state.version = partReceiptFileVersion then { state with checksum := stateChecksum enc state }
  else state

/-- The end of `mutate`: the state is written and read again. -/
def persist (faults : Faults) (state : FileState) (file : File) : Except Err Unit × File :=
  match validateFileState enc state with
  | .error e => (.error e, file)
  | .ok _ =>
    match faults.write with
    | .refused => (.error fileError, file)
    | .late => (.error fileError, some state)
    | .done =>
      if faults.unverified || (readPartReceiptState enc (some state)).toOption ≠ some state then
        (.error (.message "part receipt store reread mismatch"), some state)
      else (.ok (), some state)

/-- `mutate`. The action returns what the call returns, and the state to be written; none if it
returns `errNoChange`. -/
def mutate {α : Type} (faults : Faults) (action : FileState → Except Err (α × Option FileState))
    (file : File) : Except Err α × File :=
  if faults.cancelled then (.error (.message "part receipt store unavailable"), file)
  else if faults.unread then (.error fileError, file)
  else match readPartReceiptState enc file with
    | .error e => (.error e, file)
    | .ok state =>
      match action state with
      | .error e => (.error e, file)
      | .ok (a, none) => (.ok a, file)
      | .ok (a, some next) =>
        match persist enc faults (next.sealed enc) file with
        | (.error e, file) => (.error e, file)
        | (.ok _, file) => (.ok a, file)

/-! ## Calls -/

/-- `notificationplan.Plan`. -/
structure Plan where
  version : Int
  inputHash : GoString
  pages : List GoString

/-- `copy`. -/
def SavedPlan.copy (plan : SavedPlan) : Plan where
  version := plan.version
  inputHash := plan.inputHash
  pages := plan.pages

/-- The plan that `GetOrCreatePlan` saves: an operation that has parts already is an old one. -/
def newPlan (inputHash : GoString) (richPages legacyPages : List GoString) : SavedPlan :=
  let plan : SavedPlan :=
    if (state.operations.lookup operationID).isSome then
      { version := 1, inputHash, pages := legacyPages }
    else { version := 2, inputHash, pages := richPages }
  { plan with checksum := planChecksum enc operationID plan }

/-- The state with one more plan. -/
def FileState.savePlan (plan : SavedPlan) : FileState :=
  { state with
    plans := some ((state.plans.getD ∅).insert operationID plan)
    version := partReceiptFileVersion }

/-- The action of `GetOrCreatePlan`. -/
def createPlan (inputHash : GoString) (richPages legacyPages : List GoString) (state : FileState) :
    Except Err (Plan × Option FileState) :=
  match state.plan operationID with
  | some plan => do
    refuse (plan.inputHash ≠ inputHash) (.message "notification plan input identity conflicts")
    return (plan.copy, none)
  | none => do
    let plan := newPlan enc state operationID inputHash richPages legacyPages
    validateSavedPlan enc operationID plan
    let next := state.savePlan operationID plan
    (next.parts operationID).entries.forM fun entry =>
      validateStoredBinding next operationID entry.1 true
    return (plan.copy, some next)

/-- The action of `ClaimPart`. -/
def claim (state : FileState) :
    Except Err (Bool × Option FileState) := do
  validateStoredBinding state operationID partID true
  if ((state.parts operationID).lookup partID).isSome then return (false, none)
  else return (true, some (state.setParts operationID
    ((state.parts operationID).insert partID { state := .unknown })))

/-- The action of `ReleasePart`, which requires a plan, and of `ResolveUnknownForRetry`. -/
def release (requirePlan : Bool) (operationID partID : GoString) (state : FileState) :
    Except Err (Unit × Option FileState) := do
  validateStoredBinding state operationID partID requirePlan
  refuse (((state.parts operationID).lookup partID).all fun part => part.state ≠ .unknown)
    (.message "Telegram part is not unknown")
  return ((), some (state.setParts operationID ((state.parts operationID).erase partID)))

/-- The action of `replace`. -/
def replace (next : StoredPart) (requireUnknown : Bool) (state : FileState) :
    Except Err (Unit × Option FileState) := do
  validateStoredBinding state operationID partID false
  let parts := state.parts operationID
  refuse (requireUnknown && (parts.lookup partID).all fun part => part.state ≠ .unknown)
    (.message "Telegram part is not unknown")
  match (parts.lookup partID).filter fun part => part.state = .confirmed with
  | some current =>
    refuse (current ≠ next) (.message "confirmed Telegram part receipt conflicts")
    return ((), some state)
  | none => return ((), some (state.setParts operationID (parts.insert partID next)))

end

/-- A call. -/
inductive Call where
  | getOrCreatePlan (operationID inputHash : GoString) (richPages legacyPages : List GoString)
  | claimPart (operationID partID : GoString)
  | releasePart (operationID partID : GoString)
  | confirmPart (operationID partID : GoString) (messageID : Int)
  | markPartUnknown (operationID partID : GoString)
  | resolveUnknownConfirmed (operationID partID : GoString) (messageID : Int)
  | resolveUnknownForRetry (operationID partID : GoString)

variable (faults : Faults)

section

variable (operationID partID : GoString) (messageID : Int) (file : File)

/-- `GetOrCreatePlan`. -/
def getOrCreatePlan (inputHash : GoString) (richPages legacyPages : List GoString) (file : File) :
    Except Err Plan × File :=
  match validatePlanIdentity operationID inputHash with
  | .error e => (.error e, file)
  | .ok _ => mutate enc faults (createPlan enc operationID inputHash richPages legacyPages) file

/-- `ClaimPart`. -/
def claimPart : Except Err Bool × File := mutate enc faults (claim operationID partID) file

/-- `ReleasePart`. -/
def releasePart : Except Err Unit × File := mutate enc faults (release true operationID partID) file

/-- `ConfirmPart`. -/
def confirmPart : Except Err Unit × File :=
  if messageID ≤ 0 then
    (.error (.message "confirmed Telegram part requires a positive message receipt"), file)
  else mutate enc faults (replace operationID partID ⟨.confirmed, messageID⟩ false) file

/-- `MarkPartUnknown`. -/
def markPartUnknown : Except Err Unit × File :=
  mutate enc faults (replace operationID partID { state := .unknown } false) file

/-- `ResolveUnknownConfirmed`. -/
def resolveUnknownConfirmed : Except Err Unit × File :=
  if messageID ≤ 0 then
    (.error (.message "resolved Telegram part requires a positive message receipt"), file)
  else mutate enc faults (replace operationID partID ⟨.confirmed, messageID⟩ true) file

/-- `ResolveUnknownForRetry`. -/
def resolveUnknownForRetry : Except Err Unit × File :=
  mutate enc faults (release false operationID partID) file

end

/-- The file after a call. -/
def Call.perform : Call → File → File
  | .getOrCreatePlan operationID inputHash richPages legacyPages, file =>
    (NotificationState.getOrCreatePlan enc faults operationID inputHash richPages legacyPages file).2
  | .claimPart operationID partID, file =>
    (NotificationState.claimPart enc faults operationID partID file).2
  | .releasePart operationID partID, file =>
    (NotificationState.releasePart enc faults operationID partID file).2
  | .confirmPart operationID partID messageID, file =>
    (NotificationState.confirmPart enc faults operationID partID messageID file).2
  | .markPartUnknown operationID partID, file =>
    (NotificationState.markPartUnknown enc faults operationID partID file).2
  | .resolveUnknownConfirmed operationID partID messageID, file =>
    (NotificationState.resolveUnknownConfirmed enc faults operationID partID messageID file).2
  | .resolveUnknownForRetry operationID partID, file =>
    (NotificationState.resolveUnknownForRetry enc faults operationID partID file).2

end Bria.NotificationState
