import CameraPipeline.Server.Call

/-!
Injected failures. A rule counts the calls that it matches and makes its last one fail.
-/

namespace CameraPipeline

/-- Lets `remaining - 1` further calls of `operation` pass and fails the next one; `kind` limits
the rule to channels of one kind. -/
structure FailureRule where
  operation : Operation
  kind : Option ChannelKind
  remaining : Nat
  remaining_pos : 0 < remaining

namespace FailureRule

/-- The rule that fails the `nth` matching call, counted from one. -/
def ofNth? (operation : Operation) (kind : Option ChannelKind) (nth : Nat) :
    Option FailureRule :=
  if h : 0 < nth then some ⟨operation, kind, nth, h⟩ else none

def covers (r : FailureRule) (operation : Operation) (kind : ChannelKind) : Bool :=
  r.operation == operation && (r.kind == none || r.kind == some kind)

/-- Counts one call against the rules, in the order of their registration. The first rule to run
out is spent and fails the call; the rules after it do not count that call. -/
def strike (operation : Operation) (kind : ChannelKind) :
    List FailureRule → Bool × List FailureRule
  | [] => (false, [])
  | r :: rest =>
    if r.covers operation kind then
      if h : 1 < r.remaining then
        let (hit, rest) := strike operation kind rest
        (hit, { r with remaining := r.remaining - 1, remaining_pos := by omega } :: rest)
      else (true, rest)
    else
      let (hit, rest) := strike operation kind rest
      (hit, r :: rest)

end FailureRule
end CameraPipeline
