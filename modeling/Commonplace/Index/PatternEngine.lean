import Commonplace.Index.Criterion
import Commonplace.Search.Fault

namespace Commonplace
namespace Index

/-!
# The engine for patterns

Patterns are matched by an engine, which reads them as regular expressions.  It need not take every
pattern: one that would make it grow too large is refused, and the search fails with what the engine
says.  Which patterns these are is left open, so whatever is said of searches holds for any engine.
-/

/-- An engine for patterns, by what it says against a regular expression that it refuses. -/
class PatternEngine where
  refusal? : String -> Option String

/-- The engine that refuses nothing. -/
scoped instance PatternEngine.permissive : PatternEngine :=
  ⟨fun _ => none⟩

variable [PatternEngine]

/-- Whether the engine takes a pattern. -/
def TermPattern.Compiles (shape : TermPattern) : Prop :=
  PatternEngine.refusal? shape.written = none

instance (shape : TermPattern) : Decidable shape.Compiles :=
  inferInstanceAs (Decidable (_ = none))

/-- The criterion of a pattern, which there is if the engine takes it. -/
def compiled (slot : PatternSlot) (shape : TermPattern) : Except Fault Criterion :=
  match PatternEngine.refusal? shape.written with
  | some text => .error (.backend text)
  | none => .ok (.pattern slot shape)

theorem compiled_of_compiles {shape : TermPattern} (compiles : shape.Compiles)
    (slot : PatternSlot) : compiled slot shape = .ok (.pattern slot shape) := by
  rw [compiled, compiles]

theorem compiled_eq_ok {slot : PatternSlot} {shape : TermPattern} {found : Criterion} :
    compiled slot shape = .ok found ↔ shape.Compiles ∧ .pattern slot shape = found := by
  unfold compiled TermPattern.Compiles
  cases PatternEngine.refusal? shape.written <;> simp

end Index
end Commonplace
