import ProxyUpgrade.Chain.Call
/-!
# Transactions of a wallet

A wallet with several owners executes a transaction once enough of them have signed its hash. That
hash is made in two steps: the fields of the transaction are laid out as words, byte strings by
their hash, and hashed together with a mark of their type; then the result is hashed together with a
*domain*, which names the chain and the wallet. So a signature is good for one wallet on one chain.
-/

namespace ProxyUpgrade.Wallet

/-- How the wallet executes a transaction. -/
inductive Operation where
  /-- By calling the target. -/
  | call
  /-- By running the target's code as its own. -/
  | delegate
  deriving DecidableEq

namespace Operation

/-- The number of an operation. -/
def number : Operation → Nat
  | call => 0
  | delegate => 1

/-- The name of an operation. -/
def name : Operation → String
  | call => "Call"
  | delegate => "DelegateCall"

/-- The operation of a name. -/
def ofName? (text : String) : Option Operation := [call, delegate].find? (·.name == text)

end Operation

/-- What a wallet executes. -/
structure Transaction where
  target : Address
  value : Word
  data : Bytes
  operation : Operation
  safeGas : Word
  baseGas : Word
  gasPrice : Word
  gasToken : Address
  refundReceiver : Address
  nonce : BitVec 64
  deriving DecidableEq

namespace Transaction

/-- A plain call, without a refund for gas. -/
def ofCall (call : Call) (nonce : BitVec 64) : Transaction where
  target := call.target
  value := call.value
  data := call.payload
  operation := .call
  safeGas := 0
  baseGas := 0
  gasPrice := 0
  gasToken := .zero
  refundReceiver := .zero
  nonce := nonce

/-! ### Hashes -/

/-- A number as a word of 32 bytes. -/
def word (n : Nat) : Bytes := Bytes.ofNat 32 n

/-- The mark of the type of transactions: the hash of the names and kinds of its fields. -/
def typeMark : Nat := 0xbb8310d486368db6bd6f849402fdd73ad53d316b5a4b2644ad6efe0f941286d8

/-- The mark of the type of domains. -/
def domainMark : Nat := 0x47e79534a245952e8b16893a336b85a3d9ea9fa8c573f3d803afb92a79469218

/-- The fields of a transaction as words, after the mark of their type. -/
def encoded (t : Transaction) : Bytes :=
  word typeMark ++ word t.target.toNat ++ word t.value.toNat ++ (Hash.keccak t.data).bytes ++
    word t.operation.number ++ word t.safeGas.toNat ++ word t.baseGas.toNat ++
    word t.gasPrice.toNat ++ word t.gasToken.toNat ++ word t.refundReceiver.toNat ++
    word t.nonce.toNat

/-- A chain and a wallet as words, after the mark of their type. -/
def encodedDomain (chain : BitVec 64) (wallet : Address) : Bytes :=
  word domainMark ++ word chain.toNat ++ word wallet.toNat

/-- The hash of a transaction alone. -/
def structHash (t : Transaction) : Hash := .keccak t.encoded

/-- What is hashed for signing: two fixed bytes, the hash of the domain and that of the transaction.
-/
def digest (t : Transaction) (chain : BitVec 64) (wallet : Address) : Bytes :=
  0x19 :: 0x01 :: (Hash.keccak (encodedDomain chain wallet)).bytes ++ t.structHash.bytes

/-- The hash that owners sign. -/
def signingHash (t : Transaction) (chain : BitVec 64) (wallet : Address) : Hash :=
  .keccak (t.digest chain wallet)

/-! ### JSON -/

/-- A transaction as JSON. -/
def toJson (t : Transaction) : Json :=
  .object [("to", t.target.toJson), ("value", Word.toJson t.value), ("data", t.data.toJson),
    ("operation", .string t.operation.name), ("safe_tx_gas", Word.toJson t.safeGas),
    ("base_gas", Word.toJson t.baseGas), ("gas_price", Word.toJson t.gasPrice),
    ("gas_token", t.gasToken.toJson), ("refund_receiver", t.refundReceiver.toJson),
    ("nonce", .integer t.nonce.toNat)]

/-- The names of the fields in JSON. -/
def fieldNames : List String :=
  ["to", "value", "data", "operation", "safe_tx_gas", "base_gas", "gas_price", "gas_token",
    "refund_receiver", "nonce"]

/-- A transaction from JSON. -/
def ofJson? (json : Json) : Option Transaction := do
  let fields ← json.fields? fieldNames
  pure {
    target := ← fields.required "to" Address.ofJson?
    value := ← fields.required "value" Word.ofJson?
    data := ← fields.required "data" Bytes.ofJson?
    operation := ← fields.required "operation" fun json => json.choice?.bind Operation.ofName?
    safeGas := ← fields.required "safe_tx_gas" Word.ofJson?
    baseGas := ← fields.required "base_gas" Word.ofJson?
    gasPrice := ← fields.required "gas_price" Word.ofJson?
    gasToken := ← fields.required "gas_token" Address.ofJson?
    refundReceiver := ← fields.required "refund_receiver" Address.ofJson?
    nonce := BitVec.ofNat 64 (← fields.required "nonce" Json.nat64?) }

end Transaction

end ProxyUpgrade.Wallet
