import Mathlib.Data.List.Infix
import ProxyUpgrade.Proofs.History.Manifest
/-!
# Manifests only grow

Whatever is recorded, no group is lost, and none changes its place, its code or its canonical
address: aliases are added behind those of a group, and groups behind all others. So the manifest
of a later moment is told from that of an earlier one by what is new at its ends
(`Manifest.Grows`).
-/

namespace ProxyUpgrade.History

/-- **A group has grown**: there may be more aliases, behind those that it had. -/
structure Group.Extends (group group' : Group) : Prop where
  code : group'.code = group.code
  canonical : group'.canonical = group.canonical
  aliases : group.aliases <+: group'.aliases

namespace Group

variable {group group₁ group' : Group}

theorem Extends.refl (group : Group) : group.Extends group := ⟨rfl, rfl, List.prefix_rfl⟩

theorem Extends.trans (h : group.Extends group₁) (h' : group₁.Extends group') :
    group.Extends group' :=
  ⟨h'.code.trans h.code, h'.canonical.trans h.canonical, h.aliases.trans h'.aliases⟩

theorem extends_add (group : Group) (now : Timestamp) (address : Address) :
    group.Extends (group.add now address) := by
  rw [add]
  split
  · exact .refl group
  · exact ⟨rfl, rfl, List.prefix_append _ _⟩

end Group

namespace Manifest

/-- **A manifest has grown**: each group has, where it stands, and there may be more groups behind
them. -/
inductive Grows : Manifest → Manifest → Prop
  | added (manifest : Manifest) : Grows [] manifest
  | group {first first' : Group} {rest rest' : Manifest} (extended : first.Extends first')
      (grown : Grows rest rest') : Grows (first :: rest) (first' :: rest')

variable {manifest manifest₁ manifest' : Manifest}

theorem Grows.refl (manifest : Manifest) : manifest.Grows manifest := by
  induction manifest with
  | nil => exact .added []
  | cons first rest ih => exact .group (.refl first) ih

theorem Grows.trans (h : manifest.Grows manifest₁) (h' : manifest₁.Grows manifest') :
    manifest.Grows manifest' := by
  induction h generalizing manifest' with
  | added => exact .added manifest'
  | group extended _ ih =>
    obtain - | ⟨extended', grown'⟩ := h'
    exact .group (extended.trans extended') (ih grown')

/-- **Recording lets a manifest grow.** -/
theorem grows_record (now : Timestamp) (code : Hash) (address : Address) (manifest : Manifest) :
    manifest.Grows (manifest.record now code address).2 := by
  induction manifest with
  | nil => exact .added _
  | cons first rest ih =>
    rw [record]
    split
    · exact .group (first.extends_add now address) (.refl rest)
    · exact .group (.refl first) ih

end Manifest

end ProxyUpgrade.History
