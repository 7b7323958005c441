import ProxyUpgrade.Abi.Value.Parser
/-!
# Arguments with their kind

An argument is given as the name of its kind and its value, with a colon between them.
-/

namespace ProxyUpgrade.Abi.Argument

/-- Why a text is no argument. -/
inductive Fault where
  /-- There is no colon in the text. -/
  | noColon (text : String)
  /-- What precedes the colon names no kind. -/
  | kind
  /-- What follows the colon is no value of the kind. -/
  | value

/-- The sentence shown for a text without a colon; the other faults have none of their own. -/
def Fault.message? : Fault → Option String
  | noColon text => some ("expected <type>:<value>, got " ++ text)
  | _ => none

/-- Reads an argument. -/
def ofText (text : String) : Except Fault Value :=
  match text.toList.span (· != ':') with
  | (kind, ':' :: value) =>
    match Kind.ofText? kind with
    | none => .error .kind
    | some kind =>
      match Value.ofText? kind value with
      | none => .error .value
      | some value => .ok value
  | _ => .error (.noColon text)

end ProxyUpgrade.Abi.Argument
