import ProxyUpgrade.Error
import ProxyUpgrade.Registry.Key
import ProxyUpgrade.Route
/-!
# Records of deployments

A record says what one call did to one deployment. It is written as JSON with its fields in a fixed
order; the activation is left out when there was none.

A call starts with the status `none` and advances along `Status.Allowed`; any other move is an
`Error.illegalTransition` and leaves the state as it was.
-/

namespace ProxyUpgrade

/-- What one call has done so far. -/
structure State where
  status : Status
  deriving DecidableEq

namespace State

/-- Nothing has been done yet. -/
def initial : State := ⟨.none⟩

/-- Moves on to a status, if it may follow the present one. -/
def advance (state : State) (target : Status) : Except Error State :=
  if Status.Allowed state.status target then .ok ⟨target⟩
  else .error (.illegalTransition target state.status)

@[simp] theorem advance_of_allowed {state : State} {target : Status}
    (h : Status.Allowed state.status target) : state.advance target = .ok ⟨target⟩ := by
  simp [advance, h]

end State

/-- What one call did to one deployment. -/
structure Record where
  name : LogicalName
  instanceId : Option String
  proxy : Address
  /-- The implementation behind the proxy, or that will be once a wallet executes a proposal. -/
  implementation : Address
  status : Status
  /-- Whether the explorer shows the implementation's source and the link to it; while a proposal
  waits, whether it shows the source. -/
  verified : Bool
  /-- What became of the call that activates the implementation, if there was one. -/
  activation : Option Route.Outcome
  deriving DecidableEq

namespace Record

/-- The key of the deployment. -/
def key (record : Record) : Key := ⟨record.name, record.instanceId⟩

/-- Whether owners of a wallet still have to act. -/
def isPending (record : Record) : Bool := record.activation.any Route.Outcome.isPending

/-- A record as JSON. -/
def toJson (record : Record) : Json :=
  .object ([("logical_name", record.name.toJson),
    ("deployment_id", Receipt.optionJson Json.string record.instanceId),
    ("proxy_address", record.proxy.toJson),
    ("implementation_address", record.implementation.toJson),
    ("status", .string record.status.name), ("verified", .bool record.verified)] ++
    (record.activation.map fun outcome => ("activation", outcome.toJson)).toList)

/-- The names of the fields in JSON. -/
def fieldNames : List String :=
  ["logical_name", "deployment_id", "proxy_address", "implementation_address", "status",
    "verified", "activation"]

/-- A record from JSON; without an activation there was none. -/
def ofJson? (json : Json) : Option Record := do
  let fields ← json.fields? fieldNames
  pure {
    name := ← fields.required "logical_name" LogicalName.ofJson?
    instanceId := ← fields.optional "deployment_id" Json.text?
    proxy := ← fields.required "proxy_address" Address.ofJson?
    implementation := ← fields.required "implementation_address" Address.ofJson?
    status := ← fields.required "status" fun json => json.choice?.bind Status.ofName?
    verified := ← fields.required "verified" Json.bool?
    activation := ← fields.defaulted "activation" none (Json.nullable? Route.Outcome.ofJson?) }

end Record

end ProxyUpgrade
