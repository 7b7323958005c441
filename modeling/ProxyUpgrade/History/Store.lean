import ProxyUpgrade.Action
import ProxyUpgrade.Files.Document
import ProxyUpgrade.History.Group
/-!
# Stores of the history

A store gives access to a manifest that lies somewhere outside: in memory
(`Store.memory`) or in a file (`Store.file`). What is recorded is stamped with the present time.

Implementations are compared by what is on record there (`Comparator`): two addresses are taken to
carry the same code if they are equal, or if aliasing is on and both belong to one group.
-/

namespace ProxyUpgrade.History

/-- Access to a manifest. -/
structure Store (m : Type → Type) where
  /-- Records that an address carries a code, and gives the group of the code. -/
  record : Hash → Address → Action m Group
  /-- The first group an address belongs to. -/
  ofAddress : Address → Action m (Option Group)
  /-- The group of a code. -/
  ofCode : Hash → Action m (Option Group)
  /-- All groups. -/
  groups : Action m (List Group)

namespace Store

variable {m : Type → Type} [Monad m]

/-- A store that keeps its manifest in a cell. -/
def memory (cell : Cell m Manifest) (now : m Timestamp) : Store m where
  record code address := ExceptT.lift do
    let (group, manifest) := (← cell.get).record (← now) code address
    cell.set manifest
    pure group
  ofAddress address := ExceptT.lift do pure ((← cell.get).ofAddress? address)
  ofCode code := ExceptT.lift do pure ((← cell.get).ofCode? code)
  groups := ExceptT.lift cell.get

/-- How a manifest is kept in a document. -/
def format : Document.Format Manifest := ⟨[], Manifest.toJson, Manifest.ofJson?⟩

/-- A store that keeps its manifest in a file. Every operation reads the file afresh. -/
def file (files : Files m) (path : Path) (now : m Timestamp) : Store m where
  record code address := do
    let now ← ExceptT.lift now
    Document.update files format path fun manifest => manifest.record now code address
  ofAddress address := do pure ((← Document.load files format path).ofAddress? address)
  ofCode code := do pure ((← Document.load files format path).ofCode? code)
  groups := Document.load files format path

end Store

/-- How implementations are compared. -/
structure Comparator (m : Type → Type) where
  store : Store m
  /-- Whether addresses of one group count as the same. -/
  aliasing : Bool

/-- Whether two addresses are taken to carry the same code. -/
def Comparator.same {m : Type → Type} [Monad m] (c : Comparator m) (a b : Address) :
    Action m Bool := do
  if a = b then pure true
  else if !c.aliasing then pure false
  else pure ((← c.store.groups).any fun group => group.has a && group.has b)

end ProxyUpgrade.History
