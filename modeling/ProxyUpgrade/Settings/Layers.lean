import ProxyUpgrade.Json.Basic
/-!
# Layers of settings

Settings come as trees, one laid over the other. Where both have a table, the tables are laid over
each other member by member; everywhere else the upper one counts.
-/

namespace ProxyUpgrade.Settings

/-- Puts a value at a name, in place of the value there. -/
def put (name : String) (json : Json) : List (String × Json) → List (String × Json)
  | [] => [(name, json)]
  | (other, old) :: rest =>
    if other = name then (name, json) :: rest else (other, old) :: put name json rest

mutual

/-- One tree laid over another. -/
def overlay (lower : Json) : Json → Json
  | .object upper =>
    match lower with
    | .object members => .object (overlayMembers members upper)
    | _ => .object (overlayMembers [] upper)
  | upper => upper

/-- The members of one table laid over those of another. -/
def overlayMembers (lower : List (String × Json)) :
    List (String × Json) → List (String × Json)
  | [] => lower
  | (name, json) :: rest =>
    overlayMembers (put name (overlay ((lower.lookup name).getD .null) json) lower) rest

end

end ProxyUpgrade.Settings
