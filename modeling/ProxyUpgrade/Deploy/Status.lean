/-!
# The status of a deployment

One call leaves a deployment unchanged (`none`), created (`deployed`) or pointed at new code
(`upgraded`). Within a call the status only moves forward along `Status.Allowed`: from `none` to
either of the others, and from `deployed` to `upgraded`.
-/

namespace ProxyUpgrade

/-- What a call did to a deployment. -/
inductive Status where
  /-- Nothing changed on the chain. -/
  | none
  /-- A new proxy was created. -/
  | deployed
  /-- The proxy points, or will point once a wallet executes, at new code. -/
  | upgraded
  deriving DecidableEq, Repr

namespace Status

/-- The name of a status. -/
def name : Status → String
  | none => "NONE"
  | deployed => "DEPLOYED"
  | upgraded => "UPGRADED"

/-- The status of a name. -/
def ofName? (text : String) : Option Status :=
  [none, deployed, upgraded].find? (·.name == text)

theorem ofName?_name (s : Status) : ofName? s.name = some s := by
  cases s <;> decide

instance : ToString Status := ⟨name⟩

/-- The statuses from which each may be reached. -/
def sources : Status → List Status
  | none => []
  | deployed => [none]
  | upgraded => [none, deployed]

/-- Whether one status may follow another. -/
def Allowed (source target : Status) : Prop := source ∈ target.sources

instance (source target : Status) : Decidable (Allowed source target) :=
  inferInstanceAs (Decidable (source ∈ target.sources))

end Status

end ProxyUpgrade
