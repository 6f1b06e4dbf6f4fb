import Bria.Base.Program
import Bria.Base.Stored
import Bria.Files.Links
import Bria.Go.Runes

/-!
# The delivery of artifacts

`internal/artifactdelivery`: `DeliverFinal` sends the files that a final answer refers to, `Retry`
sends again those that are not confirmed. A call is a program over the manifest's file, the files
themselves and the transport. Every attempt is saved before the file is sent.

All calls for one final hold a mutex of the process, so they come one after another; a process may
end at any point of a call. The manifest's file is what was encoded last, and reading it makes the
trip through JSON (`DeliveryManifest.reencode`). Of what is sent the model has the ids and the number
of the attempt.
-/

namespace Bria.ArtifactDelivery

open Go Files

/-- `TransportFile`, without the content. -/
structure TransportFile where
  fileID : GoString
  attempt : Nat
  operationID : GoString

/-- `Receipt`. -/
structure Receipt where
  messageID : Int
  (fileID fileUniqueID : GoString)

/-- An error of the transport, as `failureCode` sees it. -/
inductive SendError where
  /-- The context has ended. -/
  | canceled
  /-- It has a code of its own. -/
  | coded (code : GoString)
  | other

/-- `failureCode`. -/
def failureCode : SendError → GoString
  | .canceled => ofText "canceled"
  | .coded code => if failureCodeValid code then code else ofText "transport_error"
  | .other => ofText "transport_error"

/-- `validTelegramFileIdentity`. -/
def validTelegramFileIdentity (value : GoString) : Bool :=
  value ≠ [] && value.length ≤ 512 && validString value && trimSpace value = value &&
    !(chars value).any isControl

section

variable (manifest : DeliveryManifest) (platform : Platform) (finalID : GoString)

/-- `durableReceiptID`, none if the receipt is not valid. -/
def durableReceiptID (receipt : Receipt) : Option GoString :=
  if receipt.messageID ≤ 0 || !validTelegramFileIdentity receipt.fileID ||
      !validTelegramFileIdentity receipt.fileUniqueID then none
  else some (ofText "telegram:" ++ formatInt receipt.messageID ++ ofText ":" ++
    hexText ((platform.sum256 (receipt.fileID ++ 0 :: receipt.fileUniqueID)).toList.take 16))

/-- `Summary`. -/
structure Summary where
  finalID : GoString
  (total confirmed unconfirmed : Nat)
  needsExplicitRetry : Bool

/-- `summarize`. -/
def summarize : Summary :=
  let confirmed := manifest.files.countP fun file => file.state = .confirmed
  { finalID := manifest.finalID
    total := manifest.files.length
    confirmed
    unconfirmed := manifest.files.length - confirmed
    needsExplicitRetry := manifest.files.any fun file => file.state ≠ .confirmed }

/-! ## The store -/

/-- `invalidFinalID`. -/
def invalidFinalID : Bool := finalID = [] || 1024 < finalID.length || finalID.contains 0

/-- A delivery state as read from the file. -/
def reencodeState : DeliveryState → DeliveryState
  | .other text => .other (jsonText text)
  | state => state

/-- A file of a manifest as read from the manifest's file. -/
def reencodeFile (file : DeliveryFile) : DeliveryFile where
  fileID := jsonText file.fileID
  path := jsonText file.path
  state := reencodeState file.state
  attempts := file.attempts
  receiptID := jsonText file.receiptID
  failureCode := jsonText file.failureCode

/-- A manifest as read from its file. -/
def reencode : DeliveryManifest where
  finalID := jsonText manifest.finalID
  files := manifest.files.map reencodeFile

/-- The manifest's file: the manifest that was encoded, none if there is no file. -/
abbrev ManifestFile := Option DeliveryManifest

/-- An error of the file system or of the context. -/
def fileError : Err := .message "artifact manifest"

/-- `loadManifest`, none if there is no file. -/
def loadManifest :
    ManifestFile → Except Err (Option DeliveryManifest)
  | none => .ok none
  | some text => do
    refuse ((reencode text).finalID ≠ finalID) (err .invalidDeliveryManifest)
    ((reencode text).validate platform).mapError (.wrap "validate persisted artifact manifest")
    return some (reencode text)

/-- `Load`. It may fail. -/
def load (fails : Bool) (file : ManifestFile) :
    Except Err (Option DeliveryManifest) := do
  refuse (invalidFinalID finalID) (err .invalidService)
  refuse fails fileError
  loadManifest platform finalID file

/-- What fails in a `Save`. -/
structure SaveFaults where
  /-- The context has ended, or the encoded manifest is too large. -/
  refused : Bool := false
  write : Write := .done
  /-- The file that was written is not read. -/
  unread : Bool := false

variable (faults : SaveFaults)

/-- The checks of `Save` before it writes. -/
def checkSave (manifest : DeliveryManifest) :
    Except Err Unit := do
  refuse (invalidFinalID manifest.finalID) (err .invalidService)
  (manifest.validate platform).mapError (.wrap "validate artifact manifest")
  refuse faults.refused fileError

/-- The end of `Save`: the file is read again. -/
def verifySave (manifest : DeliveryManifest) :
    Except Err Unit := do
  refuse faults.unread fileError
  let persisted ← (loadManifest platform manifest.finalID (some manifest)).mapError
    (.wrap "verify artifact manifest")
  refuse (persisted ≠ some manifest) (.message "verify artifact manifest: persisted value differs")

/-- `Save`. -/
def save (manifest : DeliveryManifest) (file : ManifestFile) : Except Err Unit × ManifestFile :=
  match checkSave platform faults manifest with
  | .error e => (.error e, file)
  | .ok _ =>
    match faults.write with
    | .refused => (.error fileError, file)
    | .late => (.error fileError, some manifest)
    | .done => (verifySave platform faults manifest, some manifest)

/-! ## The service -/

/-- What a call asks of its surroundings. -/
inductive Request where
  /-- `Store.Load`. -/
  | load (finalID : GoString)
  /-- `Store.Save`. -/
  | save (manifest : DeliveryManifest)
  /-- `Opener.OpenRegular`. -/
  | openRegular (path : GoString)
  /-- `Transport.Send`. -/
  | send (file : TransportFile)

/-- The answers: of `send`, the receipt or the error, and whether the content was read to its
end. -/
abbrev Answer : Request → Type
  | .load _ => Except Err (Option DeliveryManifest)
  | .save _ => Except Err Unit
  | .openRegular _ => Bool
  | .send _ => Except SendError Receipt × Bool

/-- A method of the service. -/
abbrev Method (α : Type) : Type := Program.Fallible Request Answer Err α

/-- A request. -/
abbrev ask (r : Request) : Method (Answer r) := Program.Fallible.request r

/-- A computed result. -/
abbrev check {α : Type} (x : Except Err α) : Method α := Program.Fallible.check x

/-- A save whose error ends the call. -/
def saveManifest : Method Unit := do
  check (← ask (.save manifest))

/-- `markAndSaveUnconfirmed`. -/
def markAndSaveUnconfirmed (fileID code : GoString) :
    Method DeliveryManifest := do
  let manifest ← check (manifest.markUnconfirmed fileID code)
  saveManifest manifest
  return manifest

end

/-- The operation id of an attempt. -/
def operationID (fileID : GoString) (attempt : Nat) : GoString :=
  ofText "artifact-delivery:" ++ fileID ++ ofText ":" ++ formatInt attempt

/-- `sendVerified`. -/
def sendVerified (fileID : GoString) (attempt : Nat) : Method (Except SendError Receipt) := do
  let (result, complete) ← ask (.send ⟨fileID, attempt, operationID fileID attempt⟩)
  return result.bind fun receipt => if complete then .ok receipt else .error .other

variable (platform : Platform) (finalID : GoString) (explicit : Bool) (manifest : DeliveryManifest)

/-- What a turn of `process` does after a receipt. -/
def settle (fileID : GoString) :
    Except SendError Receipt → Method DeliveryManifest
  | .error e => markAndSaveUnconfirmed manifest fileID (failureCode e)
  | .ok receipt =>
    match durableReceiptID platform receipt with
    | none => markAndSaveUnconfirmed manifest fileID (ofText "invalid_receipt")
    | some receiptID => do
      let manifest ← check (manifest.markConfirmed fileID receiptID)
      saveManifest manifest
      return manifest

/-- What a turn of `process` does with a file that is to be sent. -/
def attemptFile (index : Nat) (file : DeliveryFile) :
    Method DeliveryManifest := do
  let manifest ← check (manifest.markAttempt file.fileID)
  saveManifest manifest
  let opened ← ask (.openRegular file.path)
  if opened then
    let attempt := (manifest.files[index]?.map (·.attempts)).getD 0
    settle platform manifest file.fileID (← sendVerified file.fileID attempt)
  else markAndSaveUnconfirmed manifest file.fileID (ofText "file_unavailable")

/-- One turn of the loop of `process`. -/
def processFile (index : Nat) : Method DeliveryManifest :=
  match manifest.files[index]? with
  | none => return manifest
  | some file =>
    if file.state = .confirmed then return manifest
    else if !explicit && 0 < file.attempts then return manifest
    else attemptFile platform manifest index file

/-- `process`. -/
def process : Method Summary := do
  let manifest ← (List.range manifest.files.length).foldlM (processFile platform explicit) manifest
  return summarize manifest

/-- `sameFiles`. -/
def sameFiles (left right : DeliveryManifest) : Bool :=
  left.finalID = right.finalID &&
    left.files.map (fun file => (file.fileID, file.path)) =
      right.files.map fun file => (file.fileID, file.path)

/-- `DeliverFinal`. -/
def deliverFinal (final : GoString) : Method Summary := do
  let links ← check (extractFinalLinks platform final)
  let expected ← check (newDeliveryManifest platform finalID links)
  match ← check (← ask (.load finalID)) with
  | none => do
    saveManifest expected
    process platform false expected
  | some manifest => do
    check (refuse (!sameFiles manifest expected) (err .finalMismatch))
    process platform false manifest

/-- `Retry`. -/
def retry : Method Summary := do
  match ← check (← ask (.load finalID)) with
  | none => throw (err .manifestAbsent)
  | some manifest => process platform true manifest

/-! ## Histories -/

/-- The manifest's file, and what has been handed to the transport, the last one first. -/
structure World where
  file : ManifestFile
  sent : List TransportFile

/-- What a request leaves open. -/
abbrev Choice : Request → Type
  | .load _ => Bool
  | .save _ => SaveFaults
  | .openRegular _ => Bool
  | .send _ => Except SendError Receipt × Bool

/-- What a request does. -/
def perform : (r : Request) → World → Choice r → Answer r × World
  | .load finalID, w, fails => (load platform finalID fails w.file, w)
  | .save manifest, w, faults =>
    ((save platform faults manifest w.file).1,
      { w with file := (save platform faults manifest w.file).2 })
  | .openRegular _, w, opened => (opened, w)
  | .send file, w, answer => (answer, { w with sent := file :: w.sent })

/-- The surroundings of a call. -/
def surroundings : Program.Surroundings Request Answer World where
  Choice
  perform := perform platform

/-- A call for the final. -/
inductive Call where
  | deliverFinal (final : GoString)
  | retry

/-- The method of a call. -/
def Call.method : Call → Method Summary
  | .deliverFinal final => ArtifactDelivery.deliverFinal platform finalID final
  | .retry => ArtifactDelivery.retry platform finalID

/-- What calls may lead to, each of which may be cut off. -/
inductive History (finalID : GoString) (allowed : Call → Prop) : World → World → Prop where
  | refl (w : World) : History finalID allowed w w
  | call {w w₁ w₂ : World} (call : Call) (ok : allowed call)
      (before : History finalID allowed w w₁)
      (reaches : Program.Reaches (surroundings platform) (call.method platform finalID) w₁ w₂) :
      History finalID allowed w w₂

end Bria.ArtifactDelivery
