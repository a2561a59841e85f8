import Commonplace.Index.Slot
import Commonplace.Index.TermPattern
import Commonplace.Time.Window

namespace Commonplace
namespace Index

/-!
# Criteria

A criterion selects notes by their terms.  Whether it selects a note depends on that note alone;
how well the note fits is another question, which depends on the whole index.
-/

/-- What a pattern is matched against. -/
inductive PatternSlot where
  | words (slot : TextSlot)
  | values (slot : ValueSlot)
  deriving DecidableEq, Inhabited

def PatternSlot.terms (note : Note) : PatternSlot -> List String
  | words slot => plainWords (slot.text note)
  | values slot => slot.terms note

/-- What an index is asked for. -/
inductive Criterion where
  /-- Every note. -/
  | everything
  /-- No note. -/
  | nothing
  /-- Stems that follow each other in a text; a match counts `weight` times. -/
  | phrase (slot : TextSlot) (stems : List String) (weight : Nat)
  /-- An exact term. -/
  | term (slot : ValueSlot) (value : String)
  /-- A term that a pattern matches. -/
  | pattern (slot : PatternSlot) (shape : TermPattern)
  /-- A date within a window. -/
  | dated (slot : DateSlot) (window : Time.Window)
  /-- All required criteria and none of the excluded ones.  The optional ones add to the fit; one
  of them has to hold when nothing is required. -/
  | clauses (required optional excluded : List Criterion)
  deriving Inhabited

/-- Whether a second lies in a window whose ends are held as whole seconds. -/
def withinHeld (window : Time.Window) (second : Int) : Bool :=
  let held : Time.Window := ⟨window.start.map heldInstant, window.stop.map heldInstant⟩
  held.contains ⟨second, 0⟩

namespace Criterion

mutual

def selects (note : Note) : Criterion -> Bool
  | everything => true
  | nothing => false
  | phrase slot stems _ => occursAsPhrase stems (stemPlaces (slot.text note))
  | term slot value => (slot.terms note).contains value
  | pattern slot shape => (slot.terms note).any shape.accepts
  | dated slot window => (slot.second note).any (withinHeld window)
  | clauses required optional excluded =>
      (if required.isEmpty then selectsSome note optional else selectsAll note required) &&
        !selectsSome note excluded

def selectsAll (note : Note) : List Criterion -> Bool
  | [] => true
  | criterion :: rest => criterion.selects note && selectsAll note rest

def selectsSome (note : Note) : List Criterion -> Bool
  | [] => false
  | criterion :: rest => criterion.selects note || selectsSome note rest

end

/-- All of some criteria and none of others.  Without a required criterion everything is taken as
the base, and a single required criterion stands for itself. -/
def conjunction (required excluded : List Criterion) : Criterion :=
  match required, excluded with
  | [], [] => everything
  | [criterion], [] => criterion
  | [], excluded => clauses [everything] [] excluded
  | required, excluded => clauses required [] excluded

def negation (criterion : Criterion) : Criterion :=
  clauses [everything] [] [criterion]

/-- Everything that one of two criteria selects. -/
def disjunction (first second : Criterion) : Criterion :=
  clauses [] [first, second] []

end Criterion

end Index
end Commonplace
