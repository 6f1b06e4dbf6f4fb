import Bria.Files.Manifest

/-!
# The links of a final answer

`internal/files/links.go`: `ExtractFinalLinks` returns the paths of the `file://` URIs in a final,
Markdown destinations and autolinks. Of `url.Parse` the model has what it does with such a text. A
host or a user makes a link invalid in every way that it can be written.
-/

namespace Bria.Files

open Go

/-- `ErrInvalidFileLink`. -/
def invalidFileLink : Err := .message "invalid local file link"

/-- The text before a closing byte and the text after it, none if a byte that stops comes first. -/
def upTo (close : UInt8) (stops : UInt8 → Bool) (s : GoString) : Option (GoString × GoString) :=
  let run := s.takeWhile fun b => b ≠ close && !stops b
  match s.drop run.length with
  | [] => none
  | b :: rest => if b = close then some (run, rest) else none

/-- A URI up to a closing byte: what stands after `file://`, and the text after the closing byte. -/
def destination (close : UInt8) (s : GoString) : Option (GoString × GoString) :=
  if (ofText "file://").isPrefixOf s then
    (upTo close (fun b => b = 0x20 || b = 0x09 || b = 0x0A || b = 0x0C || b = 0x0D)
      (s.drop 7)).filter fun parts => parts.1 ≠ []
  else none

/-- `finalFileLinkPattern` at the start of a text: a label in brackets with its destination, or a
URI in angle brackets. -/
def matchLink : GoString → Option (GoString × GoString)
  | [] => none
  | b :: s =>
    if b = 0x5B then
      (upTo 0x5D (fun b => b = 0x0D || b = 0x0A) s).bind fun parts =>
        if parts.2.head? = some 0x28 then destination 0x29 parts.2.tail else none
    else if b = 0x3C then destination 0x3E s
    else none

/-- `FindAllStringSubmatch`. Every turn takes a byte at least, so it is given the length. -/
def findLinks : Nat → GoString → List GoString
  | 0, _ => []
  | n + 1, s =>
    match matchLink s with
    | some (raw, rest) => raw :: findLinks n rest
    | none => findLinks n s.tail

/-- The value of a hexadecimal digit. -/
def unhex (b : UInt8) : UInt8 :=
  if b ≤ 0x39 then b - 0x30 else if b ≤ 0x46 then b - 0x37 else b - 0x57

/-- `unescape` of a path, none if an escape is not valid. -/
def unescape : GoString → Option GoString
  | [] => some []
  | b :: s =>
    if b ≠ 0x25 then (unescape s).map (b :: ·)
    else
      match s with
      | hi :: lo :: rest =>
        if hexByte hi && hexByte lo then (unescape rest).map ((unhex hi * 16 + unhex lo) :: ·)
        else none
      | _ => none

variable (platform : Platform)

/-- `url.Parse` of a text after `file://`, and the checks of the link: the path. -/
def linkPath (raw : GoString) : Except Err GoString := do
  let (text, fragment) := (cut [0x23] raw).getD (raw, [])
  refuse (fragment ≠ [] || text.any fun b => b < 0x20 || b = 0x7F) invalidFileLink
  let (text, query) := (cut [0x3F] text).getD (text, [])
  -- what stands before the first slash is the host
  refuse (query ≠ [] || text.head? ≠ some 0x2F) invalidFileLink
  match unescape text with
  | none => .error invalidFileLink
  | some path =>
    refuse (!platform.isAbs path || path.contains 0) invalidFileLink
    return path

/-- `ExtractFinalLinks`. -/
def extractFinalLinks (final : GoString) : Except Err (List GoString) :=
  (findLinks final.length final).foldlM (fun links raw => do
    let path := platform.clean (← linkPath platform raw)
    return if links.contains path then links else links ++ [path]) []

end Bria.Files
