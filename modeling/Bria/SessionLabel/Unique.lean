import Bria.Domain.Session
import Bria.Go.Map

/-!
# Session labels

`sessionlabel/unique.go`: a session gets the name that was asked for, or that name with a number if
another session has it. Names are compared in lower case; `strings.ToLower` is left open.
-/

namespace Bria.SessionLabel

open Go Domain

/-- A character as `string` writes it after the conversion to runes. -/
def runeText (char : GoString) : GoString := if runeWidth char = 0 then replacement else char

/-- The name that `Unique` tries at an ordinal: as much of the requested one as leaves room for the
number. -/
def candidate (requested : GoString) (ordinal : Nat) : GoString :=
  let suffix := if 1 < ordinal then formatInt ordinal else []
  let runes := (chars requested).take (maxSessionNameRunes - runeCount suffix)
  trimSpace (runes.map runeText).flatten ++ suffix

/-- The first candidate from an ordinal on that is not used. -/
def firstUnused (used : GoString → Bool) (requested : GoString) : Nat → Nat → Option GoString
  | 0, _ => none
  | fuel + 1, ordinal =>
    if used (candidate requested ordinal) then firstUnused used requested fuel (ordinal + 1)
    else some (candidate requested ordinal)

/-- `Unique`. There are 9999 ordinals. -/
def unique (lower : GoString → GoString) (sessions : Map GoString Session)
    (excluded requested : GoString) : GoString :=
  let used := (sessions.entries.filter fun e => e.2.id != excluded && e.2.name != []).map
    fun e => lower e.2.name
  (firstUnused (fun name => used.contains (lower name)) requested 9999 1).getD requested

end Bria.SessionLabel
