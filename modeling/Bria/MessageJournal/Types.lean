import Bria.Errors

/-!
# The journal's records

The document of `internal/messagejournal` and the values its operations return. Sequence numbers
are natural numbers: a session's counter stops at `2^64 - 1` by a check of the enqueue operations,
so no arithmetic on them wraps. The phases are those the format admits; a file with another phase
does not load.
-/

namespace Bria.MessageJournal

open Go

/-- `InputPhase`. -/
inductive InputPhase where
  | pending | accepted | completed | failed | terminalFailed | unknown | skipped
  deriving DecidableEq

/-- `OutputPhase`. -/
inductive OutputPhase where
  | pending | confirmed | failed | unknown | superseded
  deriving DecidableEq

/-- `inputRecoveryPhase`. -/
inductive InputRecoveryPhase where
  | opened | committed | attached
  deriving DecidableEq

/-- `Limits`: bounds on accepted writes and on documents loaded from disk. Durations are in
nanoseconds. -/
structure Limits where
  maxSessions : Nat
  maxInputsPerSession : Nat
  maxPendingInputsPerSession : Nat
  (maxOutputsPerSession maxPayloadBytes maxIDBytes maxKindBytes maxReceiptBytes maxFileBytes : Nat)
  maxLeaseDuration : Int

/-- `DefaultLimits`. -/
def defaultLimits : Limits where
  maxSessions := 256
  maxInputsPerSession := 4096
  maxPendingInputsPerSession := 32
  maxOutputsPerSession := 4096
  maxPayloadBytes := 1048576
  maxIDBytes := 256
  maxKindBytes := 64
  maxReceiptBytes := 4096
  maxFileBytes := 67108864
  maxLeaseDuration := 86400000000000

/-- `validateLimits`: the hard ceilings of the format. -/
def validateLimits (limits : Limits) : Except Err Unit := do
  refuse (limits.maxSessions < 1 || 1024 < limits.maxSessions)
    (.message "max sessions is outside the supported range")
  refuse (limits.maxInputsPerSession < 1 || 65536 < limits.maxInputsPerSession)
    (.message "max inputs per session is outside the supported range")
  refuse (limits.maxPendingInputsPerSession < 1 ||
      limits.maxInputsPerSession < limits.maxPendingInputsPerSession)
    (.message "max pending inputs is outside the supported range")
  refuse (limits.maxOutputsPerSession < 1 || 65536 < limits.maxOutputsPerSession)
    (.message "max outputs per session is outside the supported range")
  refuse (limits.maxPayloadBytes < 1 || 4194304 < limits.maxPayloadBytes ||
      limits.maxIDBytes < 1 || 512 < limits.maxIDBytes ||
      limits.maxKindBytes < 1 || 128 < limits.maxKindBytes ||
      limits.maxReceiptBytes < 1 || 16384 < limits.maxReceiptBytes)
    (.message "message journal text limit is outside the supported range")
  refuse (limits.maxFileBytes < 1024 || 268435456 < limits.maxFileBytes)
    (.message "max journal file bytes is outside the supported range")
  refuse (limits.maxLeaseDuration ≤ 0 ||
      defaultLimits.maxLeaseDuration < limits.maxLeaseDuration)
    (.message "max lease duration is outside the supported range")

/-- An opened `Journal`: `Open` returns one only when its limits pass. -/
structure Journal where
  /-- The limits given to `Open`. -/
  limits : Limits
  /-- `Open` has checked them. -/
  opened : validateLimits limits = .ok ()

/-- A lease of an opened journal is at most a day long. -/
theorem Journal.leases_bounded (j : Journal) :
    j.limits.maxLeaseDuration ≤ defaultLimits.maxLeaseDuration := by
  have h := j.opened
  simp only [validateLimits, check_eq_ok, refuse_eq_ok, or_eq_false_iff,
    decide_eq_false_iff_not] at h
  exact Int.not_lt.mp h.2.2.2.2.2.2.2

/-- `leaseRecord`. The zero value is the absent lease. -/
structure LeaseRecord where
  owner : GoString := []
  untilUnix : Int := 0
  deriving DecidableEq

/-- `attachmentRecord`. -/
structure AttachmentRecord where
  reference : GoString
  size : Int
  sha256 : GoString
  deriving DecidableEq

/-- `inputRecord`. A nil attachment slice is `none`: `reflect.DeepEqual` tells it from an empty
one. -/
structure InputRecord where
  messageID : GoString
  sequence : Nat
  payload : GoString
  attachments : Option (List AttachmentRecord) := none
  phase : InputPhase
  lease : LeaseRecord := {}
  deriving DecidableEq

/-- `outputRecord`. -/
structure OutputRecord where
  operationID : GoString
  sequence : Nat
  (kind payload : GoString)
  phase : OutputPhase
  receipt : GoString := []
  lease : LeaseRecord := {}
  deriving DecidableEq

/-- `inputRecoveryRecord`. -/
structure InputRecoveryRecord where
  token : GoString
  throughSequence : Nat
  phase : InputRecoveryPhase
  deriving DecidableEq

/-- `sessionRecord`. -/
structure SessionRecord where
  sessionID : GoString
  nextSequence : Nat := 0
  inputs : List InputRecord := []
  outputs : List OutputRecord := []
  recovery : Option InputRecoveryRecord := none
  deriving DecidableEq

/-- `document`. -/
structure Document where
  version : Nat
  sessions : List SessionRecord
  deriving DecidableEq

/-- `formatVersion`. -/
def formatVersion : Nat := 3

/-- The document that `read` returns when there is no file. -/
def emptyDocument : Document := ⟨formatVersion, []⟩

/-! ## Returned values -/

/-- `Lease`: the owner and, for a lease that is present, its end. -/
structure Lease where
  owner : GoString := []
  untilTime : Option Time := none

/-- `AttachmentRef`. -/
structure AttachmentRef where
  reference : GoString
  size : Int
  sha256 : GoString

/-- `Input`. The defaults are the zero value. -/
structure Input where
  messageID : GoString := []
  sessionID : GoString := []
  sequence : Nat := 0
  payload : GoString := []
  attachments : List AttachmentRef := []
  phase : Option InputPhase := none
  lease : Lease := {}

/-- `Output`. The defaults are the zero value. -/
structure Output where
  operationID : GoString := []
  sessionID : GoString := []
  sequence : Nat := 0
  kind : GoString := []
  payload : GoString := []
  phase : Option OutputPhase := none
  receipt : GoString := []
  lease : Lease := {}

/-- `leaseFromRecord`. -/
def leaseFromRecord (record : LeaseRecord) : Lease :=
  if record = {} then {} else ⟨record.owner, some ⟨record.untilUnix⟩⟩

/-- `attachmentRefs`. -/
def attachmentRefs (attachments : Option (List AttachmentRecord)) : List AttachmentRef :=
  (attachments.getD []).map fun a => ⟨a.reference, a.size, a.sha256⟩

/-- `attachmentRecords`: nil for no attachments. -/
def attachmentRecords (attachments : List AttachmentRef) : Option (List AttachmentRecord) :=
  if attachments = [] then none
  else some (attachments.map fun a => ⟨a.reference, a.size, a.sha256⟩)

/-- `inputFromRecord`. -/
def inputFromRecord (sessionID : GoString) (record : InputRecord) : Input where
  messageID := record.messageID
  sessionID
  sequence := record.sequence
  payload := record.payload
  attachments := attachmentRefs record.attachments
  phase := some record.phase
  lease := leaseFromRecord record.lease

/-- `outputFromRecord`. -/
def outputFromRecord (sessionID : GoString) (record : OutputRecord) : Output where
  operationID := record.operationID
  sessionID
  sequence := record.sequence
  kind := record.kind
  payload := record.payload
  phase := some record.phase
  receipt := record.receipt
  lease := leaseFromRecord record.lease

end Bria.MessageJournal
