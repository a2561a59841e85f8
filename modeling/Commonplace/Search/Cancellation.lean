namespace Commonplace

/-!
# Cancelling

A token tells a long operation to stop.  Copies of a token share its flag.  A token may also have a
deadline, which its copies share.
-/

/-- The tokens that were made, and the flags that they share. -/
structure Tokens where
  flags : List Bool
  /-- For every token the flag that it looks at, and its deadline in seconds. -/
  tokens : List (Nat × Option Nat)

namespace Tokens

def empty : Tokens :=
  ⟨[], []⟩

/-- Makes a token with a flag of its own. -/
def make (state : Tokens) (deadline : Option Nat) : Tokens where
  flags := state.flags ++ [false]
  tokens := state.tokens ++ [(state.flags.length, deadline)]

def copy (state : Tokens) (token : Nat) : Tokens :=
  match state.tokens[token]? with
  | some found => { state with tokens := state.tokens ++ [found] }
  | none => state

/-- Raises the flag of a token, and so of all its copies. -/
def cancel (state : Tokens) (token : Nat) : Tokens :=
  match state.tokens[token]? with
  | some found => { state with flags := state.flags.set found.1 true }
  | none => state

/-- Whether a token asks to stop, a number of seconds after all tokens were made. -/
def isCancelled (state : Tokens) (elapsed : Nat) (token : Nat × Option Nat) : Bool :=
  state.flags.getD token.1 false || token.2.any fun deadline => deadline ≤ elapsed

/-- Which tokens ask to stop, in the order in which they were made. -/
def status (state : Tokens) (elapsed : Nat) : List Bool :=
  state.tokens.map (state.isCancelled elapsed)

end Tokens

end Commonplace
