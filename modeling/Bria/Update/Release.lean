import Bria.Errors

/-!
# Release manifests

`update/release.go`: the manifest of a release, its checks, and the artifact for a platform. Texts
that a manifest may have are labels of ASCII characters, so that they survive JSON.
-/

namespace Bria.Update

open Go

/-- `Artifact`. -/
structure Artifact where
  (name platform arch : GoString)
  size : Int
  sha256 : GoString
  deriving DecidableEq

/-- `Manifest`. -/
structure Manifest where
  formatVersion : Int
  version : GoString
  artifacts : List Artifact
  deriving DecidableEq

/-- The characters of a label. -/
def labelCharacter (b : UInt8) : Bool :=
  0x61 ≤ b && b ≤ 0x7A || 0x41 ≤ b && b ≤ 0x5A || 0x30 ≤ b && b ≤ 0x39 ||
    b = 0x2E || b = 0x5F || b = 0x2B || b = 0x2D

/-- `validLabel`. -/
def validLabel (value : GoString) (maxLength : Nat) : Bool :=
  value ≠ [] && value.length ≤ maxLength && value = trimSpace value && value.all labelCharacter

/-- `validArtifactIdentity`. -/
def validArtifactIdentity (name platform arch : GoString) : Bool :=
  validLabel name 255 && validLabel platform 64 && validLabel arch 64

/-- The digits of a checksum that is its own lower case. -/
def checksumDigit (b : UInt8) : Bool := 0x30 ≤ b && b ≤ 0x39 || 0x61 ≤ b && b ≤ 0x66

/-- An error of the manifest. -/
def manifestError (text : String) : Err := .wrap (": " ++ text) (err .invalidManifest)

/-- `validateArtifact`. -/
def validateArtifact (artifact : Artifact) : Except Err Unit := do
  refuse (!validArtifactIdentity artifact.name artifact.platform artifact.arch ||
    artifact.size < 0 || artifact.sha256.length ≠ 64) (manifestError "invalid artifact metadata")
  refuse (!artifact.sha256.all checksumDigit) (manifestError "invalid artifact checksum")

/-- The loop of `validateManifest`, with the platforms it has seen. -/
def validateArtifacts : List Artifact → List GoString → Except Err Unit
  | [], _ => .ok ()
  | artifact :: rest, seen => do
    validateArtifact artifact
    let key := artifact.platform ++ 0 :: artifact.arch
    refuse (seen.contains key) (manifestError
      ("duplicate artifact for " ++ shown artifact.platform ++ "/" ++ shown artifact.arch))
    validateArtifacts rest (key :: seen)

/-- `validateManifest`. -/
def validateManifest (manifest : Manifest) : Except Err Unit := do
  refuse (manifest.formatVersion ≠ 1 || !validLabel manifest.version 128 || manifest.artifacts = [])
    (manifestError "format version, release version, and artifacts are required")
  validateArtifacts manifest.artifacts []

/-- `SelectArtifact`. -/
def selectArtifact (manifest : Manifest) (platform arch : GoString) : Except Err Artifact := do
  validateManifest manifest
  match manifest.artifacts.find? fun a => a.platform = platform && a.arch = arch with
  | some artifact => .ok artifact
  | none => .error (.wrap (": " ++ shown platform ++ "/" ++ shown arch) (err .noArtifact))

/-- A manifest from which an artifact was selected has a label for its version. -/
theorem validLabel_of_selectArtifact {manifest : Manifest} {platform arch : GoString}
    {artifact : Artifact} (h : selectArtifact manifest platform arch = .ok artifact) :
    validLabel manifest.version 128 := by
  obtain ⟨hvalid, -⟩ := check_eq_ok.mp h
  obtain ⟨hlabel, -⟩ := check_eq_ok.mp hvalid
  have hlabel := refuse_eq_ok.mp hlabel
  simp only [or_eq_false_iff, not_eq_false'] at hlabel
  exact hlabel.1.2

/-- `VerifyArtifact`, given what reading the payload returns. -/
def verifyArtifact (sum256 : GoString → Vector UInt8 32) (content : Except Err GoString)
    (artifact : Artifact) : Except Err Unit := do
  validateArtifact artifact
  let bytes ← content.mapError (.wrap "read release artifact: ")
  refuse ((bytes.length : Int) ≠ artifact.size ||
    hexText (sum256 bytes).toList ≠ artifact.sha256) (err .artifactHash)

end Bria.Update
