import ProxyUpgrade.Abi.Encode
import ProxyUpgrade.Action
import ProxyUpgrade.Chain.Call
/-!
# Artifacts, and what a deployment needs of the chain

An artifact is the creation code of a contract. What identifies a deployed implementation is the
hash of the code it was created with: the artifact's, followed by the encoded arguments of the
constructor. So one artifact with different arguments never counts as the same implementation.

A deployment gets at artifacts and proxies through a `Deploy.Backend`: it has the steps that a call
is made of, apart from sending the call that activates new code.
-/

namespace ProxyUpgrade

/-- The creation code of a contract. -/
structure Artifact where
  name : String
  code : Bytes
  deriving DecidableEq

namespace Artifact

/-- The code that a contract is created with. -/
def creationCode (artifact : Artifact) (args : Bytes) : Bytes := artifact.code ++ args

/-- What identifies an implementation. -/
def codeHash (artifact : Artifact) (args : Bytes) : Hash := .keccak (artifact.creationCode args)

end Artifact

namespace Deploy

/-- Choices made for one call. -/
structure Options where
  /-- The signature of the initializer; made of the arguments unless given. -/
  initializer : Option String
  /-- Encoded arguments for the constructor of the implementation. -/
  constructorArgs : Bytes
  /-- What a new implementation is called with when it is activated. -/
  upgradeData : Bytes
  /-- Whether a new implementation is checked before it is activated. -/
  validate : Bool

/-- Nothing given, and checks made. -/
def Options.standard : Options := ⟨none, [], [], true⟩

/-- What a new proxy is called with: the initializer with its arguments, or nothing if there is
neither. -/
def initializerData (args : List Abi.Value) (initializer : Option String) : Except Error Bytes :=
  match initializer with
  | some signature => .ok (Abi.calldata signature args)
  | none =>
    if args.isEmpty then .ok []
    else do pure (Abi.calldata (← Abi.signature "initialize" args) args)

/-- Access to artifacts and proxies. -/
structure Backend (m : Type → Type) where
  /-- The artifact of a name. -/
  artifact : String → Action m Artifact
  /-- Makes an implementation available and creates a proxy in front of it, which is called with
  the given data. -/
  createProxy : Artifact → (data : Bytes) → Options → Action m Address
  /-- Makes an implementation available without activating it; the current one will do if it runs
  the same code. -/
  prepareUpgrade : (proxy : Address) → Artifact → Options → Action m Address
  /-- The implementation behind a proxy. -/
  currentImplementation : (proxy : Address) → Action m Address
  /-- Whether there is a contract at an address. -/
  contractExists : Address → Action m Bool
  /-- Fails if new code would break the state behind a proxy. -/
  validateUpgrade : (proxy candidate : Address) → Artifact → Action m Unit

end Deploy

end ProxyUpgrade
