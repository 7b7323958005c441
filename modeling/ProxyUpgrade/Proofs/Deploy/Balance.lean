import Mathlib.Data.List.Nodup
import ProxyUpgrade.Proofs.Chain.Hash
import ProxyUpgrade.Proofs.Chain.Keccak
import ProxyUpgrade.Proofs.Deploy.First
import ProxyUpgrade.Proofs.Registry.Table
/-!
# The books balance

As long as stores do not fail, and what is reported as a failure has had no effect, deployments
create nothing in vain: there are as many proxies as rows in the registry, and as many
implementations as groups in the history, each with one address. What makes it so is that the books
of the chain, of the registry and of the history are the same (`Site.Balanced`). That is true
between any two calls, but not within one: there is a moment when a contract exists and is not on
record yet. So each step of a call is described by what it adds to books that balance.

An activation that is mined then is a change of code: two addresses with one code would both be the
canonical address of its group.
-/

namespace ProxyUpgrade.Site

open Deploy (Request)

/-! ### Books -/

/-- **The books balance**: everything ever created is on record, once, and each proxy has one of the
implementations. -/
structure Balanced (s : Ledger) : Prop where
  live : ∀ creation ∈ s.created, s.live creation.address = true
  addresses : (s.created.map (·.address)).Nodup
  registered : (s.proxies.map (·.address)).Perm (s.table.rows.map (·.address))
  recorded : (s.implementations.map fun creation =>
    (Hash.keccak creation.code, creation.address)).Perm
      (s.manifest.map fun group => (group.code, group.canonical))
  codes : (s.manifest.map (·.code)).Nodup
  single : ∀ group ∈ s.manifest, group.aliases = []
  slots : ∀ proxy ∈ s.proxies, ∃ implementation ∈ s.implementations,
    implementation.address = s.slot proxy.address

section Balanced

variable {s s' : Ledger} {code : Hash} {address other : Address}

/-- A site without any books balances. -/
theorem balanced_blank (hcreated : s.created = []) (htable : s.table = .empty)
    (hmanifest : s.manifest = []) : Balanced s := by
  constructor <;> simp [Ledger.proxies, Ledger.implementations, hcreated, htable, hmanifest,
    Registry.Table.empty]

/-- The group of a code has the only implementation that was created with it. -/
theorem Balanced.creation_of_group (h : Balanced s) {group : History.Group}
    (hgroup : group ∈ s.manifest) : ∃ creation ∈ s.implementations,
      Hash.keccak creation.code = group.code ∧ creation.address = group.canonical := by
  have hmem := h.recorded.symm.subset (List.mem_map_of_mem hgroup)
  obtain ⟨creation, hcreation, heq⟩ := List.mem_map.mp hmem
  exact ⟨creation, hcreation, (Prod.mk.inj heq).1, (Prod.mk.inj heq).2⟩

/-- Every implementation is on record with its code. -/
theorem Balanced.group_of_creation (h : Balanced s) {creation : Creation}
    (hcreation : creation ∈ s.implementations) : ∃ group ∈ s.manifest,
      group.code = Hash.keccak creation.code ∧ group.canonical = creation.address := by
  have hmem := h.recorded.subset (List.mem_map_of_mem hcreation)
  obtain ⟨group, hgroup, heq⟩ := List.mem_map.mp hmem
  exact ⟨group, hgroup, (Prod.mk.inj heq).1, (Prod.mk.inj heq).2⟩

theorem Balanced.live_implementation (h : Balanced s) {creation : Creation}
    (hcreation : creation ∈ s.implementations) : s.live creation.address = true :=
  h.live creation (List.mem_of_mem_filter hcreation)

theorem Balanced.live_group (h : Balanced s) {group : History.Group} (hgroup : group ∈ s.manifest) :
    s.live group.canonical = true := by
  obtain ⟨creation, hcreation, -, haddress⟩ := h.creation_of_group hgroup
  exact haddress ▸ h.live_implementation hcreation

/-- A registered address is that of a proxy. -/
theorem Balanced.proxy_of_registered (h : Balanced s) {id : String}
    (hget : s.table.get? id = some address) :
    ∃ creation ∈ s.proxies, creation.address = address := by
  have hmem : address ∈ s.table.rows.map (·.address) :=
    List.mem_map.mpr ⟨⟨id, address⟩, Registry.Table.mem_rows_iff.mpr hget, rfl⟩
  exact List.mem_map.mp (h.registered.symm.subset hmem)

/-- Nobody but its canonical address belongs to a group. -/
theorem Balanced.has_iff (h : Balanced s) {group : History.Group} (hgroup : group ∈ s.manifest) :
    group.has address = true ↔ address = group.canonical := by
  simp [History.Group.has, History.Group.addresses, h.single group hgroup]

/-- Groups with one code are one. -/
theorem Balanced.canonical_of_code (h : Balanced s) {group group' : History.Group}
    (hgroup : group ∈ s.manifest) (hgroup' : group' ∈ s.manifest)
    (hcode : group.code = group'.code) :
    group.canonical = group'.canonical := by
  rw [List.inj_on_of_nodup_map h.codes hgroup hgroup' hcode]

/-- **Books that balance have one address for each code.** -/
theorem Balanced.same_iff (h : Balanced s) (aliasing : Bool) (a b : Address) :
    s.same aliasing a b = true ↔ a = b := by
  rw [Ledger.same]
  constructor
  · intro hsame
    simp only [Bool.or_eq_true, decide_eq_true_eq, Bool.and_eq_true, List.any_eq_true] at hsame
    rcases hsame with heq | ⟨-, group, hgroup, ha, hb⟩
    · exact heq
    · rw [(h.has_iff hgroup).mp ha, (h.has_iff hgroup).mp hb]
  · rintro rfl
    simp

/-- An implementation on record is the canonical address of its group. -/
theorem Balanced.group_of_onRecord (h : Balanced s) {current : Option Address}
    (hfound : s.onRecord code current = some address) :
    ∃ group ∈ s.manifest, group.code = code ∧ group.canonical = address := by
  obtain ⟨group, hgroup, hhas, -⟩ := Site.group_of_onRecord hfound
  have hmem := History.Manifest.mem_of_ofCode? hgroup
  exact ⟨group, hmem, History.Manifest.code_of_ofCode? hgroup, ((h.has_iff hmem).mp hhas).symm⟩

/-- If no implementation is on record, there is no group. -/
theorem Balanced.ofCode?_of_onRecord (h : Balanced s) {current : Option Address}
    (hnone : s.onRecord code current = none) : s.manifest.ofCode? code = none := by
  rcases hgroup : s.manifest.ofCode? code with - | group
  · rfl
  · have hlive := h.live_group (History.Manifest.mem_of_ofCode? hgroup)
    rw [live_of_onRecord_none hnone hgroup group.has_canonical] at hlive
    cases hlive

/-- A group is found by its code. -/
theorem Balanced.ofCode?_of_mem (h : Balanced s) {group : History.Group}
    (hgroup : group ∈ s.manifest) : s.manifest.ofCode? group.code = some group := by
  rcases hfound : s.manifest.ofCode? group.code with - | found
  · have hnone := List.find?_eq_none.mp hfound group hgroup
    simp at hnone
  · have hcode := History.Manifest.code_of_ofCode? hfound
    have hmem := History.Manifest.mem_of_ofCode? hfound
    rw [List.inj_on_of_nodup_map h.codes hmem hgroup hcode]

end Balanced

/-! ### Additions to the books -/

section Additions

variable {s s' : Ledger}

theorem Balanced.live_create (h : Balanced s) {creation : Creation}
    (hcreated : s.Creates creation s') :
    ∀ other ∈ s'.created, s'.live other.address = true := by
  intro other hother
  rw [hcreated.created] at hother
  rcases List.mem_cons.mp hother with rfl | hother
  · exact hcreated.live
  · have hlive := h.live other hother
    exact (hcreated.live_of_ne (hcreated.ne_of_live hlive)).trans hlive

/-- A contract is created where there has never been one. -/
theorem Balanced.addresses_create (h : Balanced s) {creation : Creation}
    (hcreated : s.Creates creation s') : (s'.created.map (·.address)).Nodup := by
  rw [hcreated.created, List.map_cons, List.nodup_cons]
  refine ⟨fun hmem => ?_, h.addresses⟩
  obtain ⟨other, hother, haddress⟩ := List.mem_map.mp hmem
  exact hcreated.ne_of_live (h.live other hother) haddress

/-- The proxies that were there keep their implementations when something is created. -/
theorem Balanced.slot_create (h : Balanced s) {creation : Creation}
    (hcreated : s.Creates creation s') {proxy : Creation} (hproxy : proxy ∈ s.proxies) :
    s'.slot proxy.address = s.slot proxy.address :=
  hcreated.slot_of_ne (hcreated.ne_of_live (h.live proxy (List.mem_of_mem_filter hproxy)))

/-- **An implementation is added** to the books of the chain and of the history. -/
theorem Balanced.implementation (h : Balanced s) {address : Address} {code : Bytes}
    (hcreated : s.Creates ⟨address, code, .implementation⟩ s')
    (hnew : s.manifest.ofCode? (.keccak code) = none) (now : Timestamp) :
    Balanced (s'.recordAlias now (.keccak code) address) := by
  have hlive := h.live_create hcreated
  have haddresses := h.addresses_create hcreated
  have hproxies : s'.proxies = s.proxies := by
    simp [Ledger.proxies, hcreated.created, Purpose.isProxy]
  have himplementations : s'.implementations =
      ⟨address, code, .implementation⟩ :: s.implementations := by
    simp [Ledger.implementations, hcreated.created, Purpose.isProxy]
  have hmanifest : (s'.recordAlias now (.keccak code) address).manifest =
      s.manifest ++ [⟨.keccak code, address, []⟩] := by
    rw [Ledger.recordAlias, hcreated.manifest, History.Manifest.record_of_new hnew]
  exact {
    live := hlive
    addresses := haddresses
    registered := by
      change (s'.proxies.map _).Perm (s'.table.rows.map _)
      rw [hproxies, hcreated.table]
      exact h.registered
    recorded := by
      change (s'.implementations.map _).Perm _
      rw [himplementations, hmanifest, List.map_append]
      exact (h.recorded.cons _).trans (List.perm_append_singleton _ _).symm
    codes := by
      rw [hmanifest, List.map_append]
      refine List.Nodup.append h.codes (List.nodup_singleton _) ?_
      intro other hother hnew'
      obtain rfl := List.mem_singleton.mp hnew'
      obtain ⟨group, hgroup, hcode⟩ := List.mem_map.mp hother
      have hfound := h.ofCode?_of_mem hgroup
      rw [hcode] at hfound
      cases hnew.symm.trans hfound
    single := by
      intro group hgroup
      rw [hmanifest] at hgroup
      rcases List.mem_append.mp hgroup with hgroup | hgroup
      · exact h.single group hgroup
      · rw [List.mem_singleton.mp hgroup]
    slots := by
      intro proxy hproxy
      change proxy ∈ s'.proxies at hproxy
      rw [hproxies] at hproxy
      obtain ⟨implementation, himplementation, hslot⟩ := h.slots proxy hproxy
      refine ⟨implementation, ?_, hslot.trans (h.slot_create hcreated hproxy).symm⟩
      change implementation ∈ s'.implementations
      rw [himplementations]
      exact List.mem_cons_of_mem _ himplementation }

/-- **A proxy is added** to the books of the chain and of the registry. -/
theorem Balanced.proxy (h : Balanced s) {address : Address} {code : Bytes}
    {implementation : Creation} (himplementation : implementation ∈ s.implementations)
    (hcreated : s.Creates ⟨address, code, .proxy implementation.address⟩ s') {id : String}
    (hnew : s.table.get? id = none) : Balanced (s'.register id address) := by
  have hlive := h.live_create hcreated
  have haddresses := h.addresses_create hcreated
  have hproxies : s'.proxies =
      ⟨address, code, .proxy implementation.address⟩ :: s.proxies := by
    simp [Ledger.proxies, hcreated.created, Purpose.isProxy]
  have himplementations : s'.implementations = s.implementations := by
    simp [Ledger.implementations, hcreated.created, Purpose.isProxy]
  have htable : (s'.register id address).table.rows.Perm (⟨id, address⟩ :: s.table.rows) := by
    rw [Ledger.register, hcreated.table]
    exact Registry.Table.insert_perm hnew address
  exact {
    live := hlive
    addresses := haddresses
    registered := by
      change (s'.proxies.map _).Perm _
      rw [hproxies]
      exact (h.registered.cons _).trans (htable.map Registry.Entry.address).symm
    recorded := by
      change (s'.implementations.map _).Perm (s'.manifest.map _)
      rw [himplementations, hcreated.manifest]
      exact h.recorded
    codes := by
      change (s'.manifest.map _).Nodup
      rw [hcreated.manifest]
      exact h.codes
    single := by
      change ∀ group ∈ s'.manifest, _
      rw [hcreated.manifest]
      exact h.single
    slots := by
      change ∀ proxy ∈ s'.proxies, ∃ implementation ∈ s'.implementations, _ = s'.slot _
      rw [hproxies, himplementations]
      intro proxy hproxy
      rcases List.mem_cons.mp hproxy with rfl | hproxy
      · exact ⟨implementation, himplementation, (hcreated.slot_proxy rfl).symm⟩
      · obtain ⟨other, hother, hslot⟩ := h.slots proxy hproxy
        exact ⟨other, hother, hslot.trans (h.slot_create hcreated hproxy).symm⟩ }

/-- **A proxy gets another implementation.** -/
theorem Balanced.activate (h : Balanced s) {implementation : Creation}
    (himplementation : implementation ∈ s.implementations) (proxy : Address) :
    Balanced (s.activate ⟨proxy, implementation.address⟩) := by
  refine ⟨h.live, h.addresses, h.registered, h.recorded, h.codes, h.single, ?_⟩
  intro other hother
  by_cases hproxy : other.address = proxy
  · exact ⟨implementation, himplementation, by simp [Ledger.activate, hproxy]⟩
  · obtain ⟨current, hcurrent, hslot⟩ := h.slots other hother
    exact ⟨current, hcurrent, by simp [Ledger.activate, hproxy, hslot]⟩

end Additions

/-! ### One call, step by step -/

/-- **Nothing but implementations is new.** -/
structure Extends (s s' : Ledger) : Prop where
  table : s'.table = s.table
  activations : s'.activations = s.activations
  slot : ∀ address, s.live address = true → s'.slot address = s.slot address
  implementations : ∀ creation ∈ s.implementations, creation ∈ s'.implementations

theorem extends_refl (s : Ledger) : Extends s s := ⟨rfl, rfl, fun _ _ => rfl, fun _ h => h⟩

/-- **The code of a proxy has changed**: one activation was mined for it, and the code that its
implementation was created with before had another hash. -/
structure CodeChanged (s : Ledger) (proxy : Address) (code : Hash) (s' : Ledger) : Prop where
  activated : ∃ candidate, s'.activations = ⟨proxy, candidate⟩ :: s.activations
  changed : ∃ creation ∈ s.implementations, creation.address = s.slot proxy ∧
    Hash.keccak creation.code ≠ code

section Steps

variable {site : Site} {s : Ledger} (hs : Balanced s)
include hs

/-- **Making an implementation available leaves books that balance**, and a group of its code that
has it for its canonical address. -/
theorem implementationFor_balanced (artifact : Artifact) (current : Option Address) (args : Bytes) :
    ((site.proxies (asking site.account)).implementationFor artifact current args).Obeys
      site.dependable s fun s' result => Balanced s' ∧ Extends s s' ∧
        ∀ address, result = .ok address → ∃ group ∈ s'.manifest,
          group.code = artifact.codeHash args ∧ group.canonical = address := by
  have hfailed (e : Error) : Balanced s ∧ Extends s s ∧
      ∀ address, (.error e : Except Error Address) = .ok address → ∃ group ∈ s.manifest,
        group.code = artifact.codeHash args ∧ group.canonical = address :=
    ⟨hs, extends_refl s, by rintro _ ⟨⟩⟩
  refine implementationFor_obeys site.dependable_honest (fun _ e => hfailed e) ?_
    (fun _ => trivial) ?_ ?_
  · intro address hfound
    refine ⟨hs, extends_refl s, ?_⟩
    rintro _ ⟨⟩
    exact hs.group_of_onRecord hfound
  swap
  · rintro answer s₁ ⟨-, hfree⟩ hreported e
    obtain rfl : s₁ = s := hfree hreported
    exact hfailed e
  -- The books are out of balance here, until the store has answered.
  rintro hnone answer address s₁ ⟨hanswer, -⟩ hreported answer' s₂ ⟨hrecorded, group, rfl⟩
  have hcreated := creates_of_reported hanswer hreported
  rcases hrecorded with ⟨now, rfl, -⟩ | ⟨⟨e, he⟩, -⟩
  swap
  · cases he
  have hnew := hs.ofCode?_of_onRecord hnone
  refine ⟨hs.implementation hcreated hnew now, ⟨hcreated.table, hcreated.activations, ?_, ?_⟩, ?_⟩
  · exact fun other hlive => hcreated.slot_of_ne (hcreated.ne_of_live hlive)
  · intro creation hcreation
    change creation ∈ s₁.implementations
    rw [Ledger.implementations, hcreated.created]
    exact List.mem_cons_of_mem _ hcreation
  · rintro _ ⟨⟩
    refine ⟨⟨artifact.codeHash args, address, []⟩, ?_, rfl, rfl⟩
    simp [Ledger.recordAlias, hcreated.manifest, History.Manifest.record_of_new hnew]

/-- **A proxy that has been created is all that is missing in the registry.** -/
theorem createProxy_balanced (artifact : Artifact) (data : Bytes) (options : Deploy.Options)
    {id : String} (hnew : s.table.get? id = none) :
    (site.collaborators.backend.createProxy artifact data options).Obeys site.dependable s
      fun s' result =>
        match result with
        | .error _ => Balanced s'
        | .ok proxy => s'.table.get? id = none ∧ Balanced (s'.register id proxy) := by
  refine createProxy_obeys site.dependable_honest
    ((implementationFor_balanced hs artifact none options.constructorArgs).mono ?_)
  rintro s₁ (e | implementation) ⟨hbalanced, hextends, hgroup⟩
  · exact hbalanced
  intro answer _
  generalize site.artifactIn _ answer = front
  rcases front with e | front
  · exact hbalanced
  refine ⟨trivial, fun answer proxy s₂ hanswer hreported => ?_, ?_⟩
  swap
  · rintro answer s₂ ⟨-, hfree⟩ hreported e
    obtain rfl : s₂ = s₁ := hfree hreported
    exact hbalanced
  have hcreated := creates_of_reported hanswer.1 hreported
  -- The implementation of the new proxy is one that was created here.
  obtain ⟨group, hmem, -, rfl⟩ := hgroup implementation rfl
  obtain ⟨creation, hcreation, -, haddress⟩ := hbalanced.creation_of_group hmem
  rw [← haddress] at hcreated
  have hnew' : s₁.table.get? id = none := hextends.table ▸ hnew
  exact ⟨hcreated.table ▸ hnew', hbalanced.proxy hcreation hcreated hnew'⟩

omit hs in
/-- A proxy that is not on record yet is put on record. -/
theorem saveProxy_balanced {key : Key} {id : String} (hid : key.id = .ok id) {proxy : Address}
    (hnew : s.table.get? id = none) (hs : Balanced (s.register id proxy)) :
    (Registry.saveProxy site.collaborators.registry key proxy).Obeys site.dependable s
      fun s' _ => Balanced s' ∧ s'.table.get? id = some proxy := by
  simp only [Registry.saveProxy, hid]
  refine Action.obeys_bind.mpr ⟨trivial, fun answer s' hanswer => ?_⟩
  obtain ⟨⟨rfl, hvalue⟩, existing, rfl⟩ := hanswer
  obtain rfl : existing = none := (hvalue existing rfl).trans hnew
  refine ⟨trivial, fun answer s' hanswer => ?_⟩
  obtain ⟨hregistered, rfl⟩ := hanswer
  rcases hregistered with rfl | ⟨⟨e, he⟩, -⟩
  · exact ⟨hs, Registry.Table.get?_insert_self ..⟩
  · cases he

/-- What has become of the books when the proxy of a key has been located, or has not. -/
structure Located (s : Ledger) (key : Key) (s' : Ledger) (result : Except Error Address) :
    Prop where
  balanced : Balanced s'
  /-- A proxy that was on record is the one that is located. -/
  known : ∀ id proxy, key.id = .ok id → s.table.get? id = some proxy →
    s' = s ∧ ∀ located, result = .ok located → located = proxy
  registered : ∀ located, result = .ok located →
    ∃ id, key.id = .ok id ∧ s'.table.get? id = some located

omit hs in
/-- A proxy that was not on record. -/
theorem located_new {key : Key} {id : String} (hid : key.id = .ok id)
    (hnew : s.table.get? id = none) {s' : Ledger} (hbalanced : Balanced s')
    {result : Except Error Address}
    (hregistered : ∀ located, result = .ok located → s'.table.get? id = some located) :
    Located s key s' result where
  balanced := hbalanced
  known id' proxy hid' hget := by
    obtain rfl : id = id' := Except.ok.inj (hid.symm.trans hid')
    cases hnew.symm.trans hget
  registered located hresult := ⟨id, hid, hregistered located hresult⟩

/-- **Locating a proxy leaves books that balance**, and the proxy on record. -/
theorem locate_balanced (request : Request) (artifact : Artifact) (state : State) :
    (Deploy.locate site.collaborators request artifact state).Obeys site.dependable s
      fun s' result => Located s request.key s' (result.map (·.1)) := by
  rcases hid : request.key.id with e | id
  · have hlocated : Located s request.key s (.error e) :=
      ⟨hs, fun id proxy h => (by cases hid.symm.trans h), by rintro _ ⟨⟩⟩
    simp only [Deploy.locate, Registry.proxyAddress, hid]
    exact hlocated
  have hfailed (e : Error) : Located s request.key s (.error e) :=
    ⟨hs, fun _ _ _ _ => ⟨rfl, by rintro _ ⟨⟩⟩, by rintro _ ⟨⟩⟩
  have hregistered : Reads site.dependable False s
      (Registry.proxyAddress site.collaborators.registry request.key) (s.table.get? id) := by
    rw [Registry.proxyAddress, hid]
    exact registered_reads site.dependable_honest id
  refine hregistered.obeys_bind (fun _ e => hfailed e) ?_
  rcases hget : s.table.get? id with - | proxy
  · rcases Deploy.initializerData request.initArgs request.options.initializer with e | data
    · exact hfailed e
    simp only [Action.obeys_bind, Action.obeys_ofExcept]
    refine (createProxy_balanced hs artifact data request.options hget).mono ?_
    rintro s₁ (e | proxy) hcreated
    · exact located_new hid hget hcreated (by rintro _ ⟨⟩)
    refine (saveProxy_balanced hid hcreated.1 hcreated.2).mono ?_
    rintro s₂ (e | _) ⟨hbalanced, hsaved⟩
    · exact located_new hid hget hbalanced (by rintro _ ⟨⟩)
    rcases state.advance .deployed with e | state
    · exact located_new hid hget hbalanced (by rintro _ ⟨⟩)
    · refine located_new hid hget hbalanced ?_
      rintro _ ⟨⟩
      exact hsaved
  · refine (hasCode_reads site.dependable_honest proxy).obeys_bind (fun _ e => hfailed e) ?_
    rcases s.live proxy with - | -
    · exact hfailed _
    · refine ⟨hs, fun id' proxy' hid' hget' => ⟨rfl, ?_⟩, ?_⟩
      · rintro _ ⟨⟩
        obtain rfl : id = id' := Except.ok.inj (hid.symm.trans hid')
        exact Option.some.inj (hget.symm.trans hget')
      · rintro _ ⟨⟩
        exact ⟨id, hid, hget⟩

/-- **Upgrading a registered proxy leaves books that balance**, and activates nothing but a change
of code. -/
theorem upgrade_balanced {retry : Retry.Policy} (hway : site.way = .direct retry)
    (request : Request) (artifact : Artifact) {id : String} {proxy : Address}
    (hget : s.table.get? id = some proxy) (state : State) :
    (Deploy.upgrade site.collaborators request artifact proxy state).Obeys site.dependable s
      fun s' _ => Balanced s' ∧ (s'.activations = s.activations ∨
        CodeChanged s proxy (artifact.codeHash request.options.constructorArgs) s') := by
  have hfailed (e : Error) : Balanced s ∧ (s.activations = s.activations ∨
      CodeChanged s proxy (artifact.codeHash request.options.constructorArgs) s) :=
    ⟨hs, .inl rfl⟩
  obtain ⟨creation, hcreation, rfl⟩ := hs.proxy_of_registered hget
  obtain ⟨old, hold, hslot⟩ := hs.slots creation hcreation
  have hlive := hs.live creation (List.mem_of_mem_filter hcreation)
  refine Action.obeys_bind.mpr (currentOf_obeys site.dependable_honest (fun _ e => hfailed e)
    (fun _ e => hfailed e) fun _ => ?_)
  refine Action.obeys_bind.mpr (prepareUpgrade_obeys site.dependable_honest (fun _ e => hfailed e)
    ((implementationFor_balanced hs artifact _ request.options.constructorArgs).mono ?_))
  rintro s₁ (e | candidate) ⟨hbalanced, hextends, hgroup⟩
  · exact ⟨hbalanced, .inl hextends.activations⟩
  obtain ⟨group, hmem, hcode, rfl⟩ := hgroup candidate rfl
  have hfailed (e : Error) : Balanced s₁ ∧ (s₁.activations = s.activations ∨
      CodeChanged s creation.address (artifact.codeHash request.options.constructorArgs) s₁) :=
    ⟨hbalanced, .inl hextends.activations⟩
  have hfound := hcode ▸ hbalanced.ofCode?_of_mem hmem
  refine (recordAlias_reads site.dependable_honest hfound group.has_canonical).obeys_bind
    (fun _ e => hfailed e) ?_
  refine (same_reads site.dependable_honest _ _).obeys_bind (fun _ e => hfailed e) ?_
  rcases hsame : s₁.same site.aliasing (s.slot creation.address) group.canonical with - | -
  swap
  · exact ⟨hbalanced, .inl hextends.activations⟩
  -- Else the two have different codes, for they would have one group.
  have hchanged : Hash.keccak old.code ≠ artifact.codeHash request.options.constructorArgs := by
    intro hhash
    obtain ⟨other, hother, hcode', haddress⟩ :=
      hbalanced.group_of_creation (hextends.implementations old hold)
    have hcanonical :=
      hbalanced.canonical_of_code hother hmem (hcode'.trans (hhash.trans hcode.symm))
    rw [← hslot, ← haddress, hcanonical, (hbalanced.same_iff _ _ _).mpr rfl] at hsame
    cases hsame
  obtain ⟨creation', hcreation', -, haddress'⟩ := hbalanced.creation_of_group hmem
  have hactivate : (Deploy.activate site.collaborators request artifact creation.address
      group.canonical).Obeys site.dependable s₁ fun s' _ => Balanced s' ∧
        (s'.activations = s.activations ∨ CodeChanged s creation.address
          (artifact.codeHash request.options.constructorArgs) s') := by
    refine activate_obeys site.dependable_honest hfailed
      (send_obeys site.dependable_honest hway (· = s₁) ?_ ?_ rfl)
    · rintro _ e rfl
      exact hfailed e
    rintro _ rfl
    refine ⟨trivial, fun answer s₂ ⟨hanswer, hfree⟩ => ?_⟩
    rcases answer with e | receipt
    · exact hfree ⟨e, rfl⟩
    rcases hanswer with hactivates | ⟨⟨e, he⟩, -⟩
    swap
    · cases he
    obtain rfl := Ledger.activates_upgrade hactivates
    refine ⟨haddress' ▸ hbalanced.activate hcreation' _, .inr ⟨⟨group.canonical, ?_⟩, ?_⟩⟩
    · rw [Ledger.activate, hextends.activations]
    · exact ⟨old, hold, hslot, hchanged⟩
  refine Action.obeys_bind.mpr (hactivate.mono ?_)
  rintro s₂ (e | outcome) hdone
  · exact hdone
  rcases state.advance .upgraded with e | state <;> exact hdone

end Steps

/-! ### Whole calls -/

/-- Whatever is activated for a key that was on record is a change of code. -/
def OnlyForChange (key : Key) (code : Hash) (s s' : Ledger) : Prop :=
  ∀ id proxy, key.id = .ok id → s.table.get? id = some proxy →
    s'.activations = s.activations ∨ CodeChanged s proxy code s'

/-- **A call leaves books that balance.** If its proxy was on record before, an activation is mined
for it only if the code of the artifact has changed. -/
theorem record_balanced {site : Site} {retry : Retry.Policy} (hway : site.way = .direct retry)
    {s s' : Ledger} (hs : Balanced s) {request : Request} {turns : List Turn}
    {result : Except Error Record}
    (hrun : Dialogue.Run (Deploy.record site.collaborators request).run turns result)
    (hsteps : site.dependable.Steps s turns s') :
    Balanced s' ∧ ∀ id proxy, request.key.id = .ok id → s.table.get? id = some proxy →
      s'.activations = s.activations ∨ ∃ answer rest artifact,
        turns = ⟨.read (site.documentPath request.name.artifact), answer⟩ :: rest ∧
        site.artifactIn request.name.artifact answer = .ok artifact ∧
        CodeChanged s proxy (artifact.codeHash request.options.constructorArgs) s' := by
  -- The first turn is taken off the run, since the statement is about the artifact it tells of.
  obtain ⟨first, yielded, rest, rfl, hfirst, hrest⟩ := Action.exists_run_of_bind hrun
  obtain ⟨answer, rfl, rfl⟩ := artifact_run hfirst
  obtain ⟨s₁, hread, hafter⟩ := hsteps.exists_of_append
  obtain - | ⟨⟨hkept, -⟩, ⟨⟩⟩ := hread
  obtain rfl : s₁ = s := hkept
  rcases hartifact : site.artifactIn request.name.artifact answer with e | artifact
  · rw [hartifact] at hrest
    obtain ⟨rfl, -⟩ := hrest
    cases hafter
    exact ⟨hs, fun _ _ _ _ => .inl rfl⟩
  rw [hartifact] at hrest
  suffices hdone : Balanced s' ∧ OnlyForChange request.key
      (artifact.codeHash request.options.constructorArgs) s₁ s' by
    refine ⟨hdone.1, fun id proxy hid hget => (hdone.2 id proxy hid hget).imp_right fun h => ?_⟩
    exact ⟨answer, rest, artifact, rfl, hartifact, h⟩
  refine hrest.post hafter (?_ : Dialogue.Obeys _ _ _ fun s' _ => Balanced s' ∧
    OnlyForChange request.key (artifact.codeHash request.options.constructorArgs) s₁ s')
  refine Action.obeys_bind.mpr ((locate_balanced hs request artifact .initial).mono ?_)
  rintro s₂ (e | ⟨proxy, state⟩) hlocated
  · refine ⟨hlocated.balanced, fun id proxy hid hget => .inl ?_⟩
    rw [(hlocated.known id proxy hid hget).1]
  obtain ⟨id, hid, hget⟩ := hlocated.registered proxy rfl
  refine Action.obeys_bind.mpr
    ((upgrade_balanced hlocated.balanced hway request artifact hget state).mono ?_)
  rintro s₃ result ⟨hbalanced, hchanged⟩
  have hdone : Balanced s₃ ∧ OnlyForChange request.key
      (artifact.codeHash request.options.constructorArgs) s₁ s₃ := by
    refine ⟨hbalanced, fun id' proxy' hid' hget' => ?_⟩
    obtain ⟨rfl, hsame⟩ := hlocated.known id' proxy' hid' hget'
    obtain rfl := hsame proxy rfl
    exact hchanged
  rcases result with e | ⟨implementation, activation, state⟩
  · exact hdone
  refine Action.obeys_bind.mpr (Action.obeys_lift.mpr
    ((deploy_verify_obeys site.dependable_honest ..).mono ?_))
  rintro _ outcome rfl
  exact hdone

/-! ### Any number of calls -/

/-- **The ledgers that deployments lead to**, one after another, whatever they deploy and whether
they fail or not. -/
inductive Reached : Ledger → Prop
  | blank : Reached .blank
  | deploy {s s' : Ledger} {site : Site} {retry : Retry.Policy} {request : Request}
      {session : Session} {turns : List Turn} {result : Except Error (Record × Session)}
      (before : Reached s) (hway : site.way = .direct retry)
      (run : Dialogue.Run (site.deploy request session) turns result)
      (steps : site.dependable.Steps s turns s') : Reached s'

/-- The books of all these ledgers balance. -/
theorem Reached.balanced {s : Ledger} (h : Reached s) : Balanced s := by
  induction h with
  | blank => exact balanced_blank rfl rfl rfl
  | deploy _ hway run steps ih =>
    obtain ⟨recorded, hrecord, -⟩ := deploy_run run
    exact (record_balanced hway ih hrecord steps).1

/-- **Nothing is created in vain.** After any number of calls, failed or not, there are as many
proxies as registered keys, each with an address of its own, and as many implementations as codes on
record, each group of addresses being one; and a further call for a registered key activates
nothing, unless the code of the artifact that it has read is not the one that the present
implementation was created with. -/
theorem deployments_balance {s : Ledger} (hs : Reached s) :
    (s.proxies.length = s.table.rows.length ∧ (s.table.rows.map (·.id)).Nodup ∧
      (s.table.rows.map (·.address)).Nodup ∧ s.implementations.length = s.manifest.length ∧
      (s.manifest.map (·.code)).Nodup ∧ ∀ group ∈ s.manifest, group.addresses = [group.canonical]) ∧
    ∀ (site : Site) (retry : Retry.Policy), site.way = .direct retry →
      ∀ (request : Request) (session : Session) (turns : List Turn)
        (result : Except Error (Record × Session)) (s' : Ledger),
        Dialogue.Run (site.deploy request session) turns result →
        site.dependable.Steps s turns s' →
        ∀ id proxy, request.key.id = .ok id → s.table.get? id = some proxy →
          s'.activations = s.activations ∨ ∃ answer rest artifact,
            turns = ⟨.read (site.documentPath request.name.artifact), answer⟩ :: rest ∧
            site.artifactIn request.name.artifact answer = .ok artifact ∧
            CodeChanged s proxy (artifact.codeHash request.options.constructorArgs) s' := by
  have hbalanced := hs.balanced
  refine ⟨⟨?_, s.table.nodup_ids, ?_, ?_, hbalanced.codes, fun group hgroup => ?_⟩, ?_⟩
  · simpa using hbalanced.registered.length_eq
  · -- No two contracts have one address.
    have hproxies : (s.proxies.map (·.address)).Sublist (s.created.map (·.address)) :=
      List.filter_sublist.map _
    exact hbalanced.registered.nodup_iff.mp (hbalanced.addresses.sublist hproxies)
  · simpa using hbalanced.recorded.length_eq
  · simp [History.Group.addresses, hbalanced.single group hgroup]
  · intro site retry hway request session turns result s' hrun hsteps
    obtain ⟨recorded, hrecord, -⟩ := deploy_run hrun
    exact (record_balanced hway hbalanced hrecord hsteps).2

theorem plainLedger_reached : Reached plainLedger := by
  obtain ⟨record, hrun, -⟩ := plain_run .empty
  exact .deploy .blank rfl hrun (plain_steps.mono fun h => ⟨h.1, h.2.1⟩)

/-! The contract of the plain site is built again, with other code, and deployed once more. -/

/-- The document of the contract as it is now. -/
def rebuiltDocument : String := "\x7b\"bytecode\":\x7b\"object\":\"0x02\"\x7d\x7d"

theorem code?_rebuiltDocument : (Json.parse? rebuiltDocument).bind Build.code? = some [2] := by
  decide +kernel

/-- The build that has it. -/
def rebuiltFiles (_ : Path) : Except Files.Fault String := .ok rebuiltDocument

/-- The artifact of the contract. -/
def rebuilt : Artifact := ⟨"Stub", [2]⟩

/-- The code of an implementation of it. -/
def rebuiltCode : Hash := firstCode plainRequest rebuilt

theorem plainCode_ne_rebuiltCode : plainCode ≠ rebuiltCode := by
  intro h
  have hbytes : (Hash.keccak [1]).bytes = (Hash.keccak [2]).bytes := congrArg Hash.bytes h
  rw [Hash.bytes_keccak, Hash.bytes_keccak, Keccak.hash_eq_hashRows, Keccak.hash_eq_hashRows]
    at hbytes
  revert hbytes
  decide +kernel

theorem plainLedger_manifest : plainLedger.manifest = [⟨plainCode, ⟨1⟩, []⟩] := rfl

theorem plainLedger_new : plainLedger.manifest.ofCode? rebuiltCode = none := by
  simp [plainLedger_manifest, History.Manifest.ofCode?, plainCode_ne_rebuiltCode]

theorem rebuilt_artifactIn (name : String) (path : Path) :
    plain.artifactIn name (rebuiltFiles path) = .ok ⟨name, [2]⟩ :=
  artifactIn_of_code code?_rebuiltDocument (by simp)

/-- The turns of the deployment of it. -/
def rebuiltTurns : List Turn :=
  upgradeTurns rebuiltFiles rebuilt ⟨rebuiltCode, ⟨3⟩, []⟩ (availableTurns rebuilt)

/-- The ledger after that. -/
def rebuiltLedger : Ledger := (extendedLedger plainLedger rebuilt).activate ⟨⟨2⟩, ⟨3⟩⟩

theorem rebuiltTurns_steps : plain.dependable.Steps plainLedger rebuiltTurns rebuiltLedger := by
  have havailable : (plain.frank rebuiltFiles).Steps plainLedger (availableTurns rebuilt)
      (extendedLedger plainLedger rebuilt) := availableTurns_steps rfl rfl plainLedger_new rfl
  exact (upgradeTurns_steps rfl rfl rfl rfl havailable (extendedLedger_ofCode plainLedger_new)
    (History.Group.has_canonical _) (extendedLedger_zero rfl)).mono fun h => ⟨h.1, h.2.1⟩

/-- There is one proxy for the only key, and one implementation for the only code, until the code
has changed. -/
theorem deployments_balance_plain : Reached plainLedger ∧
    plainLedger.table.get? "Stub" = some ⟨2⟩ ∧ plainLedger.proxies.length = 1 ∧
    plainLedger.proxies.length = plainLedger.table.rows.length ∧
    plainLedger.implementations.length = 1 ∧
    plainLedger.implementations.length = plainLedger.manifest.length ∧
    ∃ record session, Dialogue.Run (plain.deploy plainRequest .empty) rebuiltTurns
        (.ok (record, session)) ∧
      plain.dependable.Steps plainLedger rebuiltTurns rebuiltLedger ∧
      plainLedger.activations = [] ∧ rebuiltLedger.activations = [⟨⟨2⟩, ⟨3⟩⟩] ∧
      CodeChanged plainLedger ⟨2⟩ rebuiltCode rebuiltLedger := by
  obtain ⟨⟨hproxies, -, -, himplementations, -, -⟩, hcalls⟩ :=
    deployments_balance plainLedger_reached
  refine ⟨plainLedger_reached, rfl, rfl, hproxies, rfl, himplementations, ?_⟩
  have hrun := upgradeTurns_run ⟨rebuiltCode, ⟨3⟩, []⟩ (rebuilt_artifactIn "Stub" _)
    (availableTurns_run rebuilt) .empty
  refine ⟨_, _, hrun, rebuiltTurns_steps, rfl, rfl, ?_⟩
  obtain hkept | ⟨answer, rest, artifact, hturns, hartifact, hchanged⟩ :=
    hcalls plain .once rfl _ _ _ _ _ hrun rebuiltTurns_steps "Stub" ⟨2⟩ rfl rfl
  · cases hkept
  · -- What has been read is the document of the contract as it is now.
    obtain ⟨hread, -⟩ := List.cons.inj hturns
    cases hread
    cases (rebuilt_artifactIn ..).symm.trans hartifact
    exact hchanged

end ProxyUpgrade.Site
