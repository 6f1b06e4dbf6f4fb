/-!
# Files that are replaced as a whole

A process has a value in memory and the value of its file. A write replaces the file by renaming a
new one over it, so the file holds the old value or the new one. The write may fail before the
rename, or after it: then the file is new, but the caller is told that the write failed. A process
that ends loses its memory, and the next one reads the file.
-/

namespace Bria

/-- How a write of a file ends. -/
inductive Write where
  /-- It fails and leaves the file alone. -/
  | refused
  /-- It replaces the file and then fails. -/
  | late
  /-- It replaces the file. -/
  | done
  deriving DecidableEq

/-- Whether the write replaces the file. -/
def Write.lands : Write → Bool
  | .refused => false
  | .late | .done => true

/-- A value in memory and in its file. -/
structure Stored (α : Type) where
  (memory file : α)

namespace Stored

variable {α : Type}

/-- A write that memory follows if it succeeds. -/
def save (s : Stored α) (w : Write) (next : α) : Stored α where
  memory := if w = .done then next else s.memory
  file := if w.lands then next else s.file

end Stored

end Bria
