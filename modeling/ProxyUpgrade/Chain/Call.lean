import ProxyUpgrade.Abi.Encode
import ProxyUpgrade.Action
import ProxyUpgrade.Chain.Json
import ProxyUpgrade.Chain.Receipt
import ProxyUpgrade.Crypto.Secp256k1
import ProxyUpgrade.Json.Fields
/-!
# Calls of contracts

A call is a plain value: the contract it goes to, the bytes it carries, the signature these were
made for, and the amount sent along. Whoever sends, signs or proposes it sees nothing else. Whatever
is sent to the chain or signed is sent or signed by an account, a `Signer`.
-/

namespace ProxyUpgrade

/-- A call of a contract. -/
structure Call where
  target : Address
  /-- Four bytes that select the function, and the encoded arguments. -/
  payload : Bytes
  /-- The signature of the function. -/
  signature : String
  /-- The amount sent along. -/
  value : Word
  deriving DecidableEq

namespace Call

/-- A call with arguments that are already encoded. -/
def ofEncoded (target : Address) (signature : String) (args : Bytes) : Call :=
  ⟨target, Abi.selector signature ++ args, signature, 0⟩

/-- A call with the given arguments. -/
def ofValues (target : Address) (signature : String) (args : List Abi.Value) : Call :=
  ⟨target, Abi.calldata signature args, signature, 0⟩

/-- The signature of the function that points a proxy at new code. -/
def upgradeSignature : String := "upgradeToAndCall(address,bytes)"

/-- An address and a byte string, encoded as the arguments of a function. -/
def addressAndBytes (a : Address) (data : Bytes) : Bytes := Abi.encode [.address a, .bytes data]

/-- The call that points a proxy at an implementation, which is then called with `data`. -/
def upgrade (proxy implementation : Address) (data : Bytes) : Call :=
  ofEncoded proxy upgradeSignature (addressAndBytes implementation data)

/-- The bytes that select the function, if the payload has as many. -/
def selector? (call : Call) : Option Bytes :=
  if 4 ≤ call.payload.length then some (call.payload.take 4) else none

/-- The encoded arguments. -/
def args (call : Call) : Bytes := call.payload.drop 4

/-- The call with another amount sent along. -/
def withValue (call : Call) (value : Word) : Call := { call with value }

/-- A call as JSON. -/
def toJson (call : Call) : Json :=
  .object [("target", call.target.toJson), ("payload", call.payload.toJson),
    ("abi_fragment", .string call.signature), ("value", Word.toJson call.value)]

/-- A call from JSON; without an amount, none is sent along. -/
def ofJson? (json : Json) : Option Call := do
  let fields ← json.fields? ["target", "payload", "abi_fragment", "value"]
  pure {
    target := ← fields.required "target" Address.ofJson?
    payload := ← fields.required "payload" Bytes.ofJson?
    signature := ← fields.required "abi_fragment" Json.text?
    value := ← fields.defaulted "value" 0 Word.ofJson? }

end Call

/-- A signature of a hash. -/
abbrev Signature := Secp256k1.Signature

/-- An account that sends transactions and signs hashes. -/
structure Signer (m : Type → Type) where
  address : Address
  /-- Sends a call and waits until it is mined; a call that fails on the chain is an error. -/
  send : Call → Action m Receipt
  /-- Creates a contract from its creation code and waits until it is mined. -/
  create : Bytes → Action m Receipt
  /-- Signs a hash, if the account can and will. -/
  sign : Hash → Action m (Option Signature)

end ProxyUpgrade
