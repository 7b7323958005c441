import ProxyUpgrade.History.Store
import ProxyUpgrade.Proofs.Chain.Json
import ProxyUpgrade.Proofs.Files.Document
import ProxyUpgrade.Proofs.History.Manifest
import ProxyUpgrade.Proofs.Json.Fields
import ProxyUpgrade.Proofs.Time.Timestamp
/-!
# Manifests of the history as documents

All that a manifest holds is written and read back, down to the nanosecond in which an alias was
first seen (`History.Manifest.faithful`).
-/

namespace ProxyUpgrade.History

theorem Alias.ofJson?_toJson (a : Alias) : ofJson? a.toJson = some a := by
  simp [toJson, ofJson?, Json.fields?, Json.distinct, Json.Fields.required, Json.Fields.get?,
    List.lookup_cons, Address.ofJson?_toJson, Json.text?, Timestamp.ofText?_text]

theorem Group.ofJson?_toJson (group : Group) : ofJson? group.toJson = some group := by
  have haliases : Json.list? Alias.ofJson? (.array (group.aliases.map Alias.toJson)) =
      some group.aliases := Json.list?_map fun a _ => a.ofJson?_toJson
  simp [toJson, ofJson?, Json.fields?, Json.distinct, Json.Fields.required, Json.Fields.defaulted,
    Json.Fields.get?, List.lookup_cons, Hash.ofJson?_toJson, Address.ofJson?_toJson, haliases]

theorem Group.isExact_toJson (group : Group) : group.toJson.IsExact := by
  refine ⟨trivial, trivial, Json.areExact_iff.mpr fun json hjson => ?_, trivial⟩
  obtain ⟨a, -, rfl⟩ := List.mem_map.mp hjson
  exact ⟨trivial, trivial, trivial⟩

namespace Manifest

/-- **A manifest is read back.** -/
theorem ofJson?_toJson (manifest : Manifest) : ofJson? manifest.toJson = some manifest := by
  have hgroups : Json.list? Group.ofJson? (.array (manifest.map Group.toJson)) = some manifest :=
    Json.list?_map fun group _ => group.ofJson?_toJson
  simp [toJson, ofJson?, Json.fields?, Json.distinct, Json.Fields.defaulted, Json.Fields.get?,
    hgroups]

theorem isExact_toJson (manifest : Manifest) : manifest.toJson.IsExact := by
  refine ⟨Json.areExact_iff.mpr fun json hjson => ?_, trivial⟩
  obtain ⟨group, -, rfl⟩ := List.mem_map.mp hjson
  exact group.isExact_toJson

/-- **Manifests are kept faithfully.** -/
theorem faithful : Store.format.Faithful where
  exact := isExact_toJson
  back := ofJson?_toJson

end Manifest

end ProxyUpgrade.History
