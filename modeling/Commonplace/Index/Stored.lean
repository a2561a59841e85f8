import Commonplace.Json.Number
import Commonplace.Note.Field

namespace Commonplace
namespace Index

/-!
# What an index keeps of a note

Dates are held as whole seconds, in a 64-bit count of nanoseconds, which reaches some 292 years to
either side of 1970.  Numbers with a fraction are kept as text and read again.
-/

/-- The number of nanoseconds of a second. -/
def nanosecondsOfSecond : Int :=
  1000000000

/-- The number of values of a 64-bit count. -/
def countModulus : Nat :=
  Nat.pow 2 64

/-- The second as which a date is held.  Out of the range of the count, the product is taken modulo
2^64.  No run is known that confirms this, and a build with overflow checks would stop there, so
what is proved of dates assumes that they can be held. -/
def heldSecond (instant : Time.Instant) : Int :=
  (Int.bmod (instant.seconds * nanosecondsOfSecond) countModulus).tdiv nanosecondsOfSecond

theorem heldSecond_eq {instant : Time.Instant}
    (above : -(countModulus / 2 : Int) ≤ instant.seconds * nanosecondsOfSecond)
    (below : instant.seconds * nanosecondsOfSecond < (countModulus / 2 : Int)) :
    heldSecond instant = instant.seconds := by
  have modulus : (countModulus : Int) = 18446744073709551616 := rfl
  rw [modulus] at above below
  have kept : Int.bmod (instant.seconds * nanosecondsOfSecond) countModulus =
      instant.seconds * nanosecondsOfSecond := by
    apply Int.bmod_eq_of_le <;> rw [modulus] <;> omega
  rw [heldSecond, kept]
  exact Int.mul_tdiv_cancel _ (by decide)

/-- The instant that is read back for a date. -/
def heldInstant (instant : Time.Instant) : Time.Instant :=
  ⟨heldSecond instant, 0⟩

mutual

/-- A metadata value as it is read back.  A number with a fraction is read from its text, which may
give a neighbouring number. -/
def heldValue : Json -> Json
  | .fraction value => ((Json.readNumber (Json.fractionText value).toList).map Prod.fst).getD .null
  | .list items => .list (heldItems items)
  | .object fields => .object (heldFields fields)
  | value => value

def heldItems : List Json -> List Json
  | [] => []
  | item :: rest => heldValue item :: heldItems rest

/-- The fields of an object as they are read back. -/
def heldFields : List (String × Json) -> List (String × Json)
  | [] => []
  | field :: rest => (field.1, heldValue field.2) :: heldFields rest

end

/-- A note as it is read back from an index. -/
def stored (note : Note) : Note :=
  { note with
    tags := note.tags.foldl (fun kept tag => insertAscending (Text.lower tag) kept) []
    metadata := heldFields note.metadata
    created := note.created.map heldInstant
    modified := note.modified.map heldInstant }

end Index
end Commonplace
