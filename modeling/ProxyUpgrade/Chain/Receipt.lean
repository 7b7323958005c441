import ProxyUpgrade.Chain.Json
import ProxyUpgrade.Json.Fields
/-!
# Receipts

What is known of a mined transaction. The program's own records keep numbers as JSON numbers; a node
writes them as quantities, and may leave out the status, which then counts as success.
-/

namespace ProxyUpgrade

/-- A mined transaction. -/
structure Receipt where
  transaction : Hash
  block : Option Nat
  /-- The contract that the transaction created, if it created one. -/
  contract : Option Address
  succeeded : Bool
  deriving DecidableEq

namespace Receipt

/-- A value that may be missing, as JSON. -/
def optionJson {α : Type} (toJson : α → Json) : Option α → Json
  | some a => toJson a
  | none => .null

/-- A receipt as JSON. -/
def toJson (r : Receipt) : Json :=
  .object [("tx_hash", r.transaction.toJson),
    ("block_number", optionJson (fun n : Nat => .integer n) r.block),
    ("contract_address", optionJson Address.toJson r.contract), ("success", .bool r.succeeded)]

/-- A receipt from JSON. -/
def ofJson? (json : Json) : Option Receipt := do
  let fields ← json.fields? ["tx_hash", "block_number", "contract_address", "success"]
  pure {
    transaction := ← fields.required "tx_hash" Hash.ofJson?
    block := ← fields.optional "block_number" Json.nat64?
    contract := ← fields.optional "contract_address" Address.ofJson?
    succeeded := ← fields.required "success" Json.bool? }

/-- A receipt as a node writes it. -/
def ofNodeJson? (json : Json) : Option Receipt := do
  let fields ← json.fields? ["transactionHash", "blockNumber", "contractAddress", "status"]
  let status ← fields.optional "status" (Quantity.ofJson? 64)
  pure {
    transaction := ← fields.required "transactionHash" Hash.ofJson?
    block := ← fields.optional "blockNumber" (Quantity.ofJson? 64)
    contract := ← fields.optional "contractAddress" Address.ofJson?
    succeeded := status.all (· == 1) }

end Receipt

end ProxyUpgrade
