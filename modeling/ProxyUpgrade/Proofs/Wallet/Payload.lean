import ProxyUpgrade.Proofs.Chain.Checksum
import ProxyUpgrade.Proofs.Chain.Upgrade
import ProxyUpgrade.Proofs.Wallet.Listing
/-!
# Upgrades that wait

A transaction that waits is recognized by what it carries, so it matters that an upgrade is written
in one way only and that no other upgrade is written in the same way. Both hold of data of any
length (`Call.addressAndBytes_inj`), and what is written says in so many words what it is
(`Call.Understood`): its selector is that of the function, and its arguments are read back.

How a document tells the data, with a mark or without and in whatever case, makes no difference. So
a document that is taken for one of an upgrade tells of this upgrade
(`Wallet.payload_tells_upgrade`).
-/

namespace ProxyUpgrade

namespace Call

/-- **A payload is understood as an upgrade**: it selects the function, and its arguments are read
as an implementation and the data this is called with. -/
structure Understood (payload : Bytes) (implementation : Address) (data : Bytes) : Prop where
  selected : payload.take 4 = Abi.selector "upgradeToAndCall(address,bytes)"
  read : Abi.decode? [.address, .bytes] (payload.drop 4) =
    some [.address implementation, .bytes data]

section Upgrade

variable (proxy implementation : Address) (data : Bytes)

/-- The selector of an upgrade comes first. -/
theorem take_payload_upgrade : (upgrade proxy implementation data).payload.take 4 =
    Abi.selector "upgradeToAndCall(address,bytes)" :=
  (Abi.calldata_parts _ [.address implementation, .bytes data]).1

theorem args_upgrade :
    (upgrade proxy implementation data).args = addressAndBytes implementation data :=
  (Abi.calldata_parts _ [.address implementation, .bytes data]).2

theorem selector?_upgrade : (upgrade proxy implementation data).selector? =
    some (Abi.selector "upgradeToAndCall(address,bytes)") := by
  have hlength := congrArg List.length (take_payload_upgrade proxy implementation data)
  rw [Abi.length_selector, List.length_take] at hlength
  rw [selector?, if_pos (by omega), take_payload_upgrade]

/-- **An upgrade is understood**, if the length of the data fits its word. -/
theorem understood_upgrade (h : data.length < 2 ^ 256) :
    Understood (upgrade proxy implementation data).payload implementation data where
  selected := take_payload_upgrade proxy implementation data
  read := by
    rw [← decode?_addressAndBytes implementation h, ← args_upgrade proxy]
    rfl

variable {proxy implementation data}

theorem payload_upgrade_inj {proxy' implementation' : Address} {data' : Bytes} :
    (upgrade proxy implementation data).payload = (upgrade proxy' implementation' data').payload ↔
      implementation = implementation' ∧ data = data' := by
  rw [upgrade, upgrade, ofEncoded, ofEncoded, List.append_right_inj, addressAndBytes_inj]

end Upgrade

end Call

namespace Wallet

/-- **What is found on a page is shown there**, with the data that was looked for. -/
theorem exists_of_matching? {page : Json} {data : Bytes} {hash : Hash}
    (h : Client.matching? page data = some hash) :
    ∃ document ∈ Client.results page, TellsHash document hash ∧ TellsData document data := by
  obtain ⟨before, document, after, hresults, hfound, -⟩ := List.findSome?_eq_some_iff.mp h
  obtain ⟨hdata, hhash⟩ := hashOf?_eq_some.mp hfound
  exact ⟨document, by simp [hresults], hhash, hdata⟩

/-- **An upgrade is told by its payload.** Two upgrades have the same payload if and only if they
are to the same implementation, with the same data: of any length. It begins with the selector of
the function, and the arguments are the same whichever way they are encoded. They lie in four
pieces, and they are read back. So if the upgrade is looked for on any page, only the hash of a
document is found whose data, in whatever case it is written, is understood as this upgrade. (There
is no data of a length that does not fit its word.) -/
theorem payload_tells_upgrade (proxy implementation : Address) (data : Bytes) :
    (∀ proxy' implementation' data',
      (Call.upgrade proxy implementation data).payload =
          (Call.upgrade proxy' implementation' data').payload ↔
        implementation = implementation' ∧ data = data') ∧
    (Call.upgrade proxy implementation data).selector? =
      some (Abi.selector "upgradeToAndCall(address,bytes)") ∧
    (∀ target, (Call.upgrade proxy implementation data).args =
      (Call.ofValues target "upgradeToAndCall(address,bytes)"
        [.address implementation, .bytes data]).args) ∧
    (Call.upgrade proxy implementation data).args = Abi.word implementation.toNat ++
      (Abi.word 64 ++ (Abi.word data.length ++ Bytes.padRight 32 data)) ∧
    (data.length < 2 ^ 256 →
      Call.Understood (Call.upgrade proxy implementation data).payload implementation data ∧
      ∀ page hash,
        Client.matching? page (Call.upgrade proxy implementation data).payload = some hash →
          ∃ document ∈ Client.results page, TellsHash document hash ∧
            ∃ text told, document.member? "data" = some (.string text) ∧
              Hex.decode? text = some told ∧ Call.Understood told implementation data ∧
                ∀ proxy' implementation' data',
                  told = (Call.upgrade proxy' implementation' data').payload →
                    implementation' = implementation ∧ data' = data) := by
  have hunderstood := Call.understood_upgrade proxy implementation data
  refine ⟨fun _ _ _ => Call.payload_upgrade_inj, Call.selector?_upgrade _ _ _, fun _ => rfl, ?_,
    fun hlength => ⟨hunderstood hlength, fun page hash hfound => ?_⟩⟩
  · rw [Call.args_upgrade, Call.addressAndBytes_eq]
  · obtain ⟨document, hmem, hhash, hdata⟩ := exists_of_matching? hfound
    refine ⟨document, hmem, hhash, ?_⟩
    generalize hpayload : (Call.upgrade proxy implementation data).payload = payload at hdata
    obtain ⟨said, read⟩ | - := hdata
    · refine ⟨_, payload, said, read, hpayload ▸ hunderstood hlength, ?_⟩
      rintro proxy' implementation' data' rfl
      exact Call.payload_upgrade_inj.mp hpayload.symm
    · -- A document without a text tells of no data, and the payload begins with four bytes.
      have hselected := (hunderstood hlength).selected
      rw [hpayload] at hselected
      exact absurd (congrArg List.length hselected) (by simp [Abi.length_selector])

/-! An upgrade that waits, with its data written in capitals, behind one to another
implementation. -/

/-- The payload of the upgrade. -/
def capitalPayload : Bytes := (Call.upgrade ⟨1⟩ ⟨2⟩ [0xab]).payload

/-- A document that shows it. -/
def capitalDocument : Json :=
  .object [("data", .string (String.ofList ('0' :: 'X' :: (Hex.digits capitalPayload).map
    Char.toUpper))), ("safeTxHash", (Hash.ofNat 2).toJson)]

/-- A page that shows both. -/
def capitalPage : Json :=
  .object [("results", .array [shownPlainly (Call.upgrade ⟨1⟩ ⟨3⟩ [0xab]).payload (.ofNat 1),
    capitalDocument])]

theorem matching?_capitalPage :
    Client.matching? capitalPage capitalPayload = some (.ofNat 2) := by
  have hother : Client.hashOf? capitalPayload
      (shownPlainly (Call.upgrade ⟨1⟩ ⟨3⟩ [0xab]).payload (.ofNat 1)) = none := by
    rw [Client.hashOf?, if_neg]
    rw [dataOf?_eq_some, tellsData_shownPlainly, capitalPayload, Call.payload_upgrade_inj]
    decide
  have hfound : Client.hashOf? capitalPayload capitalDocument = some (.ofNat 2) := by
    refine hashOf?_eq_some.mpr ⟨.text rfl (Hex.decode?_toUpper _), _, rfl, ?_⟩
    exact Hash.ofHex?_toHex _
  have hresults : Client.results capitalPage =
      [shownPlainly (Call.upgrade ⟨1⟩ ⟨3⟩ [0xab]).payload (.ofNat 1), capitalDocument] := rfl
  rw [Client.matching?, hresults, List.findSome?_cons_of_isNone (by rw [hother]; rfl),
    List.findSome?_cons_of_isSome (by rw [hfound]; rfl), hfound]

theorem payload_tells_upgrade_capital :
    [(0xab : UInt8)].length < 2 ^ 256 ∧
      Client.matching? capitalPage capitalPayload = some (.ofNat 2) ∧
      ∃ document ∈ Client.results capitalPage, TellsHash document (.ofNat 2) ∧
        ∃ text told, document.member? "data" = some (.string text) ∧
          Hex.decode? text = some told ∧ Call.Understood told ⟨2⟩ [0xab] := by
  have hlength : [(0xab : UInt8)].length < 2 ^ 256 := by decide
  obtain ⟨-, -, -, -, hfound⟩ := payload_tells_upgrade ⟨1⟩ ⟨2⟩ [0xab]
  obtain ⟨document, hmem, hhash, text, told, hsaid, hread, hunderstood, -⟩ :=
    (hfound hlength).2 capitalPage (.ofNat 2) matching?_capitalPage
  exact ⟨hlength, matching?_capitalPage, document, hmem, hhash, text, told, hsaid, hread,
    hunderstood⟩

end Wallet

end ProxyUpgrade
