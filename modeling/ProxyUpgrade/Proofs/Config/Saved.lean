import ProxyUpgrade.Config.File
import ProxyUpgrade.Proofs.Files.Ready
import ProxyUpgrade.Proofs.Records
import ProxyUpgrade.Proofs.Toml.Document
/-!
# Saved configurations load back

A configuration is saved as one layer of settings and loaded from three. That nothing but its
secrets is lost on the way (`Config.saved_loads`) takes three facts: the tables of a configuration
can be written as TOML and are read back but for missing values (`Config.table_of_mem`,
`Toml.parse?_print?`); laid over the standard settings, what is read back is the tree of the
configuration again, since no missing value was set there (`Config.overlay_arranged`); and a
configuration without secrets is made of that tree (`Config.ofJson?_toJson`).
-/

namespace ProxyUpgrade.Config

open ProxyUpgrade.Action ProxyUpgrade.Document Files

variable {config other : Config} {tree tree' : Tree} {path : Path}

/-- The numbers in a configuration. -/
def numbers (config : Config) : List Nat :=
  [config.network.chain, config.retry.attempts, config.retry.delay, config.verification.attempts,
    config.verification.delay, config.verification.safetyDelay]

/-- The numbers of a configuration have 64 bits with a sign. -/
def Sized (config : Config) : Prop := ∀ n ∈ config.numbers, Bits.fitsSigned 64 n = true

/-- The addresses in a configuration are normal. -/
def Normal (config : Config) : Prop :=
  config.routing.Normal ∧ ∀ url ∈ config.verification.explorer, url.Normal

/-! ### The document -/

/-- **The tables of a configuration** have names that stand for themselves, and plain values if the
numbers in them can be written. -/
theorem table_of_mem {member : String × Json} (hmember : member ∈ config.members)
    {inner : List (String × Json)} (hinner : member.2 = .object inner) :
    Toml.Named inner ∧ (config.Sized → ∀ entry ∈ inner, Toml.Plain entry.2) := by
  simp only [members, List.mem_cons, List.not_mem_nil, or_false] at hmember
  simp only [Sized, numbers, List.forall_mem_cons]
  rcases hmember with rfl | rfl | rfl | rfl | rfl | rfl | rfl | rfl
  -- The network.
  · cases hinner
    refine ⟨.of_names (show _ = Network.fieldNames from rfl) rfl (by decide), ?_⟩
    rintro ⟨hchain, -⟩
    simp only [List.forall_mem_cons]
    exact ⟨.string _, .integer _ hchain, .string _, .string _, by simp⟩
  -- The route.
  · rcases hrouting : config.routing with - | ⟨wallet, service⟩ <;> rw [hrouting] at hinner <;>
      cases hinner
    · refine ⟨.of_names (show _ = ["mode"] from rfl) rfl (by decide), fun _ => ?_⟩
      simp only [List.forall_mem_cons]
      exact ⟨.string _, by simp⟩
    · refine ⟨.of_names (show _ = ["mode", "safe_address", "service_url"] from rfl) rfl
        (by decide), fun _ => ?_⟩
      simp only [List.forall_mem_cons]
      exact ⟨.string _, .string _, .string _, by simp⟩
  -- The attempts at a call.
  · cases hinner
    refine ⟨.of_names (show _ = Retrying.fieldNames from rfl) rfl (by decide), ?_⟩
    rintro ⟨-, hattempts, hdelay, -⟩
    simp only [List.forall_mem_cons]
    exact ⟨.integer _ hattempts, .integer _ hdelay, by simp⟩
  -- The verification.
  · cases hinner
    refine ⟨.of_names (show _ = Verifying.fieldNames.dropLast from rfl) rfl (by decide), ?_⟩
    rintro ⟨-, -, -, hattempts, hdelay, hsafety, -⟩
    have hexplorer : Toml.Plain ((config.verification.explorer.map Url.toJson).getD .null) := by
      cases config.verification.explorer with
      | none => exact .null
      | some url => exact .string _
    simp only [List.forall_mem_cons]
    exact ⟨.bool _, .integer _ hattempts, .integer _ hdelay, .integer _ hsafety, hexplorer,
      by simp⟩
  all_goals cases hinner

theorem regular_members (config : Config) : Toml.Regular config.members where
  named := .of_names (show _ = fieldNames.dropLast from rfl) rfl (by decide)
  tables _ hmember _ hinner := (table_of_mem hmember hinner).1

/-- **A configuration has a text** if its numbers can be written. -/
theorem exists_text? (h : config.Sized) : ∃ text, config.text? = some text := by
  refine Toml.exists_print? (fun member hmember hscalar => ?_)
    fun member hmember inner hinner => (table_of_mem hmember hinner).2 h
  simp only [members, List.mem_cons, List.not_mem_nil, or_false] at hmember
  rcases hmember with rfl | rfl | rfl | rfl | rfl | rfl | rfl | rfl
  · cases hscalar
  · cases hrouting : config.routing <;> rw [hrouting] at hscalar <;> cases hscalar
  · cases hscalar
  · cases hscalar
  · exact .string _
  · exact .string _
  · exact .string _
  · exact .bool _

theorem overlay_arranged (config : Config) :
    Settings.overlay standard.toJson (.object (Toml.arranged config.members)) = config.toJson := by
  obtain ⟨network, routing, retry, ⟨enabled, attempts, delay, safetyDelay, explorer, apiKey⟩,
    registryPath, historyPath, artifacts, aliasing, signerKey⟩ := config
  cases routing <;> cases explorer <;> rfl

/-- The text of a configuration is read as a layer that makes the standard one like it. -/
theorem overlay_parse? {text : String} (h : config.text? = some text) :
    ∃ file, Toml.parse? text = some file ∧ Settings.overlay standard.toJson file = config.toJson :=
  ⟨_, Toml.parse?_print? config.regular_members h, config.overlay_arranged⟩

/-! ### The fields -/

theorem lt_of_fitsSigned {n : Nat} (h : Bits.fitsSigned 64 n = true) : n < Bits.count 64 := by
  rw [Bits.fitsSigned, Bool.and_eq_true] at h
  have hlt : n < Bits.count 63 := Int.ofNat_lt.mp (of_decide_eq_true h.2)
  exact hlt.trans (by decide)

theorem nat64?_of_fitsSigned {n : Nat} (h : Bits.fitsSigned 64 n = true) :
    (Json.integer n).nat64? = some n := Json.nat64?_integer (lt_of_fitsSigned h)

theorem Retrying.ofJson?_toJson {retrying : Retrying}
    (hattempts : Bits.fitsSigned 64 retrying.attempts = true)
    (hdelay : Bits.fitsSigned 64 retrying.delay = true) :
    ofJson? retrying.toJson = some retrying := by
  have hfields : retrying.toJson.fields? fieldNames = _ := Json.fields?_object rfl
  rw [ofJson?, hfields]
  simp [Json.Fields.required, Json.Fields.get?, List.lookup_cons, nat64?_of_fitsSigned hattempts,
    nat64?_of_fitsSigned hdelay]

theorem Verifying.ofJson?_toJson {verifying : Verifying}
    (hattempts : Bits.fitsSigned 64 verifying.attempts = true)
    (hdelay : Bits.fitsSigned 64 verifying.delay = true)
    (hsafety : Bits.fitsSigned 64 verifying.safetyDelay = true)
    (hexplorer : ∀ url ∈ verifying.explorer, url.Normal) :
    ofJson? verifying.toJson = some { verifying with apiKey := none } := by
  obtain ⟨enabled, attempts, delay, safetyDelay, explorer, apiKey⟩ := verifying
  have hexplorer : ((explorer.map Url.toJson).getD .null).nullable? Url.ofJson? =
      some explorer := by
    rcases explorer with - | url
    · rfl
    · exact Json.nullable?_of_read rfl (Url.ofJson?_toJson (hexplorer url rfl))
  have hfields : (toJson ⟨enabled, attempts, delay, safetyDelay, explorer, apiKey⟩).fields?
      fieldNames = _ := Json.fields?_object rfl
  rw [ofJson?, hfields]
  simp [Json.Fields.required, Json.Fields.optional, Json.Fields.defaulted, Json.Fields.get?,
    List.lookup_cons, Json.bool?, nat64?_of_fitsSigned hattempts, nat64?_of_fitsSigned hdelay,
    nat64?_of_fitsSigned hsafety, hexplorer]

/-- **A configuration is read back from its tree**, without its secrets. -/
theorem ofJson?_toJson (hsized : config.Sized) (hnormal : config.Normal) :
    ofJson? config.toJson = some config.redacted := by
  simp only [Sized, numbers, List.forall_mem_cons] at hsized
  obtain ⟨hchain, hattempts, hdelay, htries, hwait, hsafety, -⟩ := hsized
  have hnetwork : record? Network.fieldNames Network.ofJson? config.network.toJson =
      some config.network := Network.ofJson?_toJson (lt_of_fitsSigned hchain)
  have hretry : record? Retrying.fieldNames Retrying.ofJson? config.retry.toJson =
      some config.retry := Retrying.ofJson?_toJson hattempts hdelay
  have hverification : record? Verifying.fieldNames Verifying.ofJson?
      config.verification.toJson = some { config.verification with apiKey := none } :=
    Verifying.ofJson?_toJson htries hwait hsafety hnormal.2
  have hfields : config.toJson.fields? fieldNames = _ := Json.fields?_object rfl
  rw [ofJson?, hfields]
  simp [members, Json.Fields.required, Json.Fields.defaulted, Json.Fields.get?, List.lookup_cons,
    Json.text?, Json.bool?, hnetwork, Routing.ofJson?_toJson hnormal.1, hretry, hverification,
    redacted]

/-! ### Layers -/

/-- Whether a variable gives a setting: its name starts with the word for that, in any case. -/
def IsSetting (name : String) : Prop :=
  variableStart.toList.map Char.toLower <+: name.toList.map Char.toLower

theorem environmentLayer_of_not_isSetting {environment : List (String × String)}
    (h : ∀ entry ∈ environment, ¬ IsSetting entry.1) :
    environmentLayer environment = .object [] := by
  have hempty : Settings.ofEnvironment variableStart environment = .object [] := by
    rw [Settings.ofEnvironment]
    induction environment with
    | nil => rfl
    | cons entry environment ih =>
      have hnone : Settings.path? variableStart entry.1 = none := by
        rw [Settings.path?]
        exact if_neg fun hstart => h entry (.head _) (List.isPrefixOf_iff_prefix.mp hstart)
      rw [List.foldl_cons]
      simp only [hnone]
      exact ih fun entry hentry => h entry (.tail _ hentry)
  rw [environmentLayer, hempty]
  rfl

/-- **The layer that was saved**, and none above it, make the configuration without its secrets. -/
theorem ofLayers_saved {file : Json} (hvalid : config.validate = .ok ()) (hsized : config.Sized)
    (hnormal : config.Normal) (hfile : Settings.overlay standard.toJson file = config.toJson) :
    ofLayers file (.object []) = .ok config.redacted := by
  have hsame : config.redacted.validate = config.validate := rfl
  have htop : Settings.overlay config.toJson (.object []) = config.toJson := rfl
  rw [ofLayers, hfile, htop, ofJson?_toJson hsized hnormal]
  simp [hsame, hvalid]

/-! ### Files -/

theorem fileLayer_run {text : String} (hread : tree.read path = .ok text) {file : Json}
    (hfile : Toml.parse? text = some file) (others : List Path) :
    (fileLayer held path ("" :: others)).run tree = pure (.ok file, tree) := by
  have hjoin : Path.join "" path = path := by simp [Path.join]
  have hrun : (held.read path).run tree = pure (.ok text, tree) := by rw [← hread]; rfl
  rw [fileLayer, hjoin, StateT.run_bind, hrun]
  simp [hfile]

/-- A file is found in the working directory, if that is where it is looked for first. -/
theorem load_run {directories : List Path} {environment : List (String × String)} {text : String}
    (hhere : directories.head? = some "") (hread : tree.read path = .ok text) {file : Json}
    (hfile : Toml.parse? text = some file) :
    (load held directories environment path).run tree =
      pure (ofLayers file (environmentLayer environment), tree) := by
  obtain ⟨others, hothers⟩ : ∃ others, searched directories path = "" :: others := by
    rw [searched]
    split
    · exact ⟨[], rfl⟩
    · obtain ⟨others, rfl⟩ := List.head?_eq_some_iff.mp hhere
      exact ⟨others, rfl⟩
  rw [load, hothers, StateT.run_bind, fileLayer_run hread hfile]
  rfl

theorem save_onState (hwritable : Tree.Writable path tree) {text : String}
    (htext : config.text? = some text) :
    ∃ tree', (save held config path).onState tree = (.ok (), tree') ∧
      tree'.read path = .ok text := by
  obtain ⟨tree', names, found, hwrite, hnames, hwritten, hfound⟩ :=
    write_ready hwritable (.ofText text) false
  obtain rfl := hfound rfl
  refine ⟨tree', ?_, ?_⟩
  · have hattempt : tree.attempt (tree.write path (.ofText text) false) = (.ok (), tree') := by
      rw [hwrite]
      rfl
    have hrun : (held.write path text).run tree = pure (.ok (), tree') := by
      rw [← hattempt]
      rfl
    rw [save, htext]
    change Id.run ((held.write path text >>= _).run tree) = _
    rw [StateT.run_bind, hrun]
    rfl
  · have hfind : tree'.find path = .ok (names, .file (.ofText text)) :=
      Tree.find_eq_ok_iff.mpr ⟨hwritten.keeps.resolve hnames, hwritten.here,
        fun _ => hwritable.direct⟩
    simp [Tree.read, hfind, Bytes.toText?_ofText, bind, Except.bind, pure, Except.pure]

/-- What is saved does not depend on the secrets. -/
theorem text?_congr (h : other.redacted = config.redacted) : other.text? = config.text? := by
  have hmembers (config : Config) : config.members = config.redacted.members := rfl
  rw [text?, text?, hmembers other, hmembers config, h]

theorem save_congr {m : Type → Type} [Monad m] (files : Files m)
    (h : other.redacted = config.redacted) (path : Path) :
    save files other path = save files config path := by
  rw [save, save, text?_congr h]

/-- **A saved configuration loads back**, but for its secrets, and what is saved does not depend on
these. For it to be saved its numbers have to have 64 bits with a sign; for it to be loaded it has
to be valid, with addresses of the web that are normal, while no variable gives a setting. The file
is looked for in the working directory first. -/
theorem saved_loads :
    (∀ (config : Config) (path : Path) (tree : Tree) (directories : List Path)
      (environment : List (String × String)),
      config.validate = .ok () → config.Sized → config.Normal → Tree.Writable path tree →
      directories.head? = some "" → (∀ entry ∈ environment, ¬ IsSetting entry.1) →
      ∃ text tree', config.text? = some text ∧
        (save held config path).onState tree = (.ok (), tree') ∧ tree'.read path = .ok text ∧
        (load held directories environment path).run tree' = pure (.ok config.redacted, tree')) ∧
    (∀ config other : Config, other.redacted = config.redacted →
      other.text? = config.text? ∧ ∀ path, save held other path = save held config path) := by
  refine ⟨?_, fun _ _ h => ⟨text?_congr h, save_congr held h⟩⟩
  intro config path tree directories environment hvalid hsized hnormal hwritable hhere hunset
  obtain ⟨text, htext⟩ := exists_text? hsized
  obtain ⟨tree', hsave, hread⟩ := save_onState hwritable htext
  obtain ⟨file, hfile, hoverlay⟩ := overlay_parse? htext
  refine ⟨text, tree', htext, hsave, hread, ?_⟩
  rw [load_run hhere hread hfile, environmentLayer_of_not_isSetting hunset,
    ofLayers_saved hvalid hsized hnormal hoverlay]

/-- A configuration with secrets and a name in quotes, whose calls are proposed to a wallet. -/
def confidential : Config :=
  { standard with
    network := { Network.standard with name := "the \"local\" one\n" }
    routing := .multisig .zero
      ⟨"http".toList, some ⟨[], [], "localhost".toList, none⟩, .segments [[]], none, none⟩
    verification := { Verifying.standard with apiKey := some "secret" }
    signerKey := some (.keccak []) }

theorem saved_loads_confidential : ∃ text tree', confidential.text? = some text ∧
    (save held confidential fileName).onState .empty = (.ok (), tree') ∧
    tree'.read fileName = .ok text ∧
    (load held [""] [("HOME", "/root")] fileName).run tree' =
      pure (.ok confidential.redacted, tree') := by
  have hvalid : confidential.validate = .ok () := by decide +kernel
  have hsized : confidential.Sized := by
    rw [Sized]
    decide
  have hnormal : confidential.Normal := by
    refine ⟨?_, by simp [confidential, standard, Verifying.standard]⟩
    intro wallet service h
    obtain ⟨-, rfl⟩ := Routing.multisig.inj h
    rw [Url.Normal]
    decide +kernel
  have hwritable : Tree.Writable fileName .empty := by
    refine ⟨by decide, [fileName], by decide, by decide, by decide⟩
  have hunset : ∀ entry ∈ [("HOME", "/root")], ¬ IsSetting entry.1 := by
    intro entry hentry
    obtain rfl := List.mem_singleton.mp hentry
    rw [IsSetting]
    decide
  exact saved_loads.1 confidential fileName .empty [""] _ hvalid hsized hnormal hwritable rfl hunset

end ProxyUpgrade.Config
