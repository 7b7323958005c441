import ProxyUpgrade.Proofs.Chain.Checksum
import ProxyUpgrade.Proofs.Chain.Json
import ProxyUpgrade.Proofs.Decimal.Digits
import ProxyUpgrade.Wallet.Client
/-!
# What is read in a proposal

A proposal goes to the service as a document in which each kind of value has a notation of its own:
addresses with a checksum, amounts as decimal digits, byte strings in hexadecimal, the rest as
numbers. A reader of the document who knows the notations finds all that was proposed
(`Wallet.Form.ofJson?_document`).
-/

namespace ProxyUpgrade

theorem Quantity.ofDecimal?_toDigits (n : Nat) : ofDecimal? (Nat.toDigits 10 n) = some n := by
  have hdigits (digits : List Char) (h : ∀ c ∈ digits, ('0' ≤ c && c ≤ '9') = true) (acc : Nat) :
      digits.foldlM (fun acc c =>
        if '0' ≤ c ∧ c ≤ '9' then some (acc * 10 + (c.toNat - 48)) else none) acc =
          some (digits.foldl (fun acc c => acc * 10 + (c.toNat - 48)) acc) := by
    induction digits generalizing acc with
    | nil => rfl
    | cons c digits ih =>
      have hc : '0' ≤ c ∧ c ≤ '9' := by simpa using h c List.mem_cons_self
      rw [List.foldlM_cons, if_pos hc]
      exact ih (fun d hd => h d (List.mem_cons_of_mem c hd)) _
  rw [ofDecimal?, if_neg (by simp [Nat.toDigits_ne_nil]),
    hdigits _ (fun _ => Decimal.isDigit_of_mem_toDigits) 0, Decimal.foldl_toDigits]

namespace Wallet

/-! ### Notations -/

/-- An address, with or without a checksum. -/
def addressOf? (json : Json) : Option Address := json.text?.bind Address.ofHex?

/-- An amount in decimal digits. -/
def amountOf? (json : Json) : Option Word := do
  let n ← Quantity.ofDecimal? (← json.text?).toList
  if Bits.fits 256 n then some (BitVec.ofNat 256 n) else none

/-- An operation by its number. -/
def operationOf? (json : Json) : Option Operation := do
  let n ← json.nat64?
  [Operation.call, Operation.delegate].find? (·.number == n)

/-- A nonce. -/
def nonceOf? (json : Json) : Option (BitVec 64) := json.nat64?.map (BitVec.ofNat 64)

@[simp] theorem addressOf?_checksum (a : Address) : addressOf? (.string a.checksum) = some a := by
  rw [addressOf?, Json.text?, Option.bind_some, Address.ofHex?_checksum]

@[simp] theorem amountOf?_repr (w : Word) : amountOf? (.string w.toNat.repr) = some w := by
  have hbound : Bits.fits 256 w.toNat = true := decide_eq_true w.isLt
  simp [amountOf?, Json.text?, Quantity.ofDecimal?_toDigits, hbound]

@[simp] theorem operationOf?_number (operation : Operation) :
    operationOf? (.integer operation.number) = some operation := by
  cases operation <;> rfl

@[simp] theorem nonceOf?_toNat (nonce : BitVec 64) :
    nonceOf? (.integer nonce.toNat) = some nonce := by
  have hbound : Bits.fits 64 nonce.toNat = true := decide_eq_true nonce.isLt
  simp [nonceOf?, Json.nat64?, hbound]

/-! ### Forms -/

/-- What a proposal says. -/
structure Form where
  transaction : Transaction
  hash : Hash
  sender : Address
  signature : Bytes
  deriving DecidableEq

/-- **Reads a document as a proposal**, by the names of its members. -/
def Form.ofJson? (document : Json) : Option Form := do
  let transaction : Transaction := {
    target := ← (document.member? "to").bind addressOf?
    value := ← (document.member? "value").bind amountOf?
    data := ← (document.member? "data").bind Bytes.ofJson?
    operation := ← (document.member? "operation").bind operationOf?
    safeGas := ← (document.member? "safeTxGas").bind amountOf?
    baseGas := ← (document.member? "baseGas").bind amountOf?
    gasPrice := ← (document.member? "gasPrice").bind amountOf?
    gasToken := ← (document.member? "gasToken").bind addressOf?
    refundReceiver := ← (document.member? "refundReceiver").bind addressOf?
    nonce := ← (document.member? "nonce").bind nonceOf? }
  pure {
    transaction := transaction
    hash := ← (document.member? "contractTransactionHash").bind Hash.ofJson?
    sender := ← (document.member? "sender").bind addressOf?
    signature := ← (document.member? "signature").bind Bytes.ofJson? }

/-- **All that is proposed is read in the document.** -/
theorem Form.ofJson?_document (proposal : Proposal) :
    Form.ofJson? (Client.document proposal) =
      some ⟨proposal.transaction, proposal.hash, proposal.sender, proposal.signature.bytes⟩ := by
  simp [Form.ofJson?, Client.document, Json.member?, List.lookup_cons, Bytes.ofJson?_toJson,
    Hash.ofJson?_toJson]

end Wallet

end ProxyUpgrade
