import ProxyUpgrade.Config.Network
import ProxyUpgrade.Config.Routing
import ProxyUpgrade.Deploy.Record
import ProxyUpgrade.Proofs.History.Document
import ProxyUpgrade.Registry.Store
/-!
# Records are kept without loss

Whatever kind of record the program writes as a document, it reads the same record in either text of
it; and whatever text is read as a record, writing that record anew leads to a text that stays as it
is (`Json.Lossless`). The texts that are read may differ from the ones that are written: members in
another order or left out, numbers and digits in other notations, points in time in other zones.

So each kind of record has to be read back from its document, and what is read has to be a record
that can be written: numbers of 64 bits have to fit these (`records_lossless`).
-/

namespace ProxyUpgrade

namespace Json

variable {α : Type}

/-! ### Texts of records -/

/-- What a text is read as. -/
def readText (ofJson? : Json → Option α) (text : String) : Option α := (parse? text).bind ofJson?

/-- A text that is read, written anew. -/
def rewrite (toJson : α → Json) (ofJson? : Json → Option α) (layout : Layout) (text : String) :
    Option String :=
  (readText ofJson? text).map fun a => layout.text (toJson a)

/-- **Texts of a kind of value are lossless.** All this is only said of values that are sound. -/
structure Lossless (toJson : α → Json) (ofJson? : Json → Option α) (Typed Sound : α → Prop) :
    Prop where
  /-- What is written is read back. -/
  back : ∀ (layout : Layout) a, Typed a → Sound a →
    readText ofJson? (layout.text (toJson a)) = some a
  /-- What is read can be written. -/
  typed : ∀ text a, readText ofJson? text = some a → Typed a
  /-- Writing anew what is read leads to a text that is read as the same, and stays as it is. -/
  again : ∀ layout text a, readText ofJson? text = some a → Sound a →
    ∃ text', rewrite toJson ofJson? layout text = some text' ∧
      readText ofJson? text' = some a ∧ rewrite toJson ofJson? layout text' = some text'

/-- Texts are lossless if documents are. -/
theorem Lossless.of_documents {toJson : α → Json} {ofJson? : Json → Option α}
    {Typed Sound : α → Prop} (exact : ∀ a, (toJson a).IsExact)
    (back : ∀ a, Typed a → Sound a → ofJson? (toJson a) = some a)
    (typed : ∀ json a, ofJson? json = some a → Typed a) :
    Lossless toJson ofJson? Typed Sound := by
  have hback (layout : Layout) (a : α) (ha : Typed a) (hsound : Sound a) :
      readText ofJson? (layout.text (toJson a)) = some a := by
    rw [readText, parse?_text layout (exact a), Option.bind_some, back a ha hsound]
  have htyped (text : String) (a : α) (h : readText ofJson? text = some a) : Typed a := by
    obtain ⟨json, -, hjson⟩ := Option.bind_eq_some_iff.mp h
    exact typed json a hjson
  refine ⟨hback, htyped, fun layout text a h hsound => ?_⟩
  have hagain := hback layout a (htyped text a h) hsound
  exact ⟨layout.text (toJson a), by rw [rewrite, h, Option.map_some], hagain,
    by rw [rewrite, hagain, Option.map_some]⟩

/-! ### Numbers of 64 bits -/

theorem nat64?_integer {n : Nat} (h : n < Bits.count 64) : (integer n).nat64? = some n := by
  simp [nat64?, Bits.fits, h]

theorem lt_of_nat64? {json : Json} {n : Nat} (h : json.nat64? = some n) : n < Bits.count 64 := by
  cases json with
  | integer number =>
    rw [nat64?, Option.ite_none_right_eq_some] at h
    obtain ⟨⟨-, hfits⟩, hn⟩ := h
    exact Option.some.inj hn ▸ of_decide_eq_true hfits
  | _ => cases h

end Json

/-! ### Names and keys -/

theorem LogicalName.ofJson?_toJson (name : LogicalName) : ofJson? name.toJson = some name := by
  obtain ⟨artifact, tags⟩ := name
  cases tags with
  | nil => rfl
  | cons tag tags =>
    have htags : Json.list? Json.text? (.array ((tag :: tags).map Json.string)) =
        some (tag :: tags) := Json.list?_map fun _ _ => rfl
    rw [List.map_cons] at htags
    simp [toJson, ofJson?, Json.fields?, Json.distinct, Json.Fields.required, Json.Fields.defaulted,
      Json.Fields.get?, List.lookup_cons, Json.text?, htags]

theorem LogicalName.isExact_toJson (name : LogicalName) : name.toJson.IsExact := by
  have htags : Json.AreExact (name.tags.map Json.string) := by
    rw [Json.areExact_iff]
    intro json hjson
    obtain ⟨tag, -, rfl⟩ := List.mem_map.mp hjson
    simp [Json.IsExact]
  rw [toJson]
  split <;> simp [Json.IsExact, Json.HasExact, htags]

theorem Key.ofJson?_toJson (key : Key) : ofJson? key.toJson = some key := by
  have hfields : key.toJson.fields? ["logical_name", "deployment_id"] = _ := Json.fields?_object rfl
  rw [ofJson?, hfields]
  rcases key with ⟨name, - | id⟩ <;>
    simp [Json.Fields.required, Json.Fields.optional, Json.Fields.get?, List.lookup_cons,
      Json.nullable?, Json.text?, LogicalName.ofJson?_toJson]

theorem Key.isExact_toJson (key : Key) : key.toJson.IsExact := by
  rcases key with ⟨name, - | id⟩ <;>
    simp [toJson, Json.IsExact, Json.HasExact, LogicalName.isExact_toJson]

theorem Registry.Entry.ofJson?_toJson (entry : Registry.Entry) :
    ofJson? entry.toJson = some entry := by
  have hfields : entry.toJson.fields? ["id", "address"] = _ := Json.fields?_object rfl
  rw [ofJson?, hfields]
  simp [Json.Fields.required, Json.Fields.get?, List.lookup_cons, Json.text?,
    Address.ofJson?_toJson]

theorem Registry.Entry.isExact_toJson (entry : Registry.Entry) : entry.toJson.IsExact := by
  simp [toJson, Address.toJson, Json.IsExact, Json.HasExact]

/-! ### Calls and transactions -/

theorem Call.ofJson?_toJson (call : Call) : ofJson? call.toJson = some call := by
  have hfields : call.toJson.fields? ["target", "payload", "abi_fragment", "value"] = _ :=
    Json.fields?_object rfl
  rw [ofJson?, hfields]
  simp [Json.Fields.required, Json.Fields.defaulted, Json.Fields.get?, List.lookup_cons, Json.text?,
    Address.ofJson?_toJson, Bytes.ofJson?_toJson, Word.ofJson?_toJson]

theorem Call.isExact_toJson (call : Call) : call.toJson.IsExact := by
  simp [toJson, Address.toJson, Bytes.toJson, Word.toJson, Json.IsExact, Json.HasExact]

theorem Wallet.Operation.ofName?_name (operation : Operation) :
    ofName? operation.name = some operation := by
  cases operation <;> decide

theorem Wallet.Transaction.ofJson?_toJson (t : Transaction) : ofJson? t.toJson = some t := by
  have hoperation : (Json.string t.operation.name).choice?.bind Operation.ofName? =
      some t.operation := Operation.ofName?_name t.operation
  have hnonce : (Json.integer t.nonce.toNat).nat64? = some t.nonce.toNat :=
    Json.nat64?_integer t.nonce.isLt
  have hfields : t.toJson.fields? fieldNames = _ := Json.fields?_object rfl
  rw [ofJson?, hfields]
  simp [Json.Fields.required, Json.Fields.get?, List.lookup_cons, Address.ofJson?_toJson,
    Bytes.ofJson?_toJson, Word.ofJson?_toJson, hoperation, hnonce]

theorem Wallet.Transaction.isExact_toJson (t : Transaction) : t.toJson.IsExact := by
  simp [toJson, Address.toJson, Bytes.toJson, Word.toJson, Json.IsExact, Json.HasExact]

/-! ### Receipts -/

/-- The number of the block fits 64 bits. -/
def Receipt.Sized (r : Receipt) : Prop := ∀ n, r.block = some n → n < Bits.count 64

theorem Receipt.ofJson?_toJson {r : Receipt} (h : r.Sized) : ofJson? r.toJson = some r := by
  obtain ⟨transaction, block, contract, succeeded⟩ := r
  have hblock : (optionJson (fun n : Nat => .integer n) block).nullable? Json.nat64? =
      some block := by
    rcases block with - | n
    · rfl
    · exact Json.nullable?_of_read rfl (Json.nat64?_integer (h n rfl))
  have hcontract : (optionJson Address.toJson contract).nullable? Address.ofJson? =
      some contract := by
    rcases contract with - | address
    · rfl
    · exact Json.nullable?_of_read rfl (Address.ofJson?_toJson address)
  have hfields : (toJson ⟨transaction, block, contract, succeeded⟩).fields?
      ["tx_hash", "block_number", "contract_address", "success"] = _ := Json.fields?_object rfl
  rw [ofJson?, hfields]
  simp [Json.Fields.required, Json.Fields.optional, Json.Fields.get?, List.lookup_cons,
    Hash.ofJson?_toJson, Json.bool?, hblock, hcontract]

theorem Receipt.sized_of_ofJson? {json : Json} {r : Receipt} (h : ofJson? json = some r) :
    r.Sized := by
  obtain ⟨fields, -, h⟩ := Option.bind_eq_some_iff.mp h
  obtain ⟨transaction, -, h⟩ := Option.bind_eq_some_iff.mp h
  obtain ⟨block, hblock, h⟩ := Option.bind_eq_some_iff.mp h
  obtain ⟨contract, -, h⟩ := Option.bind_eq_some_iff.mp h
  obtain ⟨succeeded, -, h⟩ := Option.bind_eq_some_iff.mp h
  obtain rfl := Option.some.inj h
  rintro n rfl
  obtain ⟨json, hjson⟩ := Json.Fields.exists_of_optional hblock
  exact Json.lt_of_nat64? hjson

theorem Receipt.isExact_toJson (r : Receipt) : r.toJson.IsExact := by
  obtain ⟨transaction, block, contract, succeeded⟩ := r
  cases block <;> cases contract <;>
    simp [toJson, optionJson, Hash.toJson, Address.toJson, Json.IsExact, Json.HasExact]

/-! ### Outcomes and records -/

namespace Route.Outcome

/-- A receipt in an outcome is one that can be written. -/
def Sized (outcome : Outcome) : Prop := ∀ receipt, outcome = mined receipt → receipt.Sized

theorem ofJson?_toJson {outcome : Outcome} (h : outcome.Sized) :
    ofJson? outcome.toJson = some outcome := by
  rcases outcome with receipt | ⟨wallet, hash⟩
  · have htagged : (toJson (mined receipt)).tagged? "kind" = some ("mined", receipt.toJson) := by
      rfl
    simp [ofJson?, htagged, Receipt.ofJson?_toJson (h receipt rfl)]
  · simp [toJson, ofJson?, Json.tagged?, Json.fields?, Json.distinct, Json.Fields.required,
      Json.Fields.get?, List.lookup_cons, Address.ofJson?_toJson, Hash.ofJson?_toJson]

theorem sized_of_ofJson? {json : Json} {outcome : Outcome} (h : ofJson? json = some outcome) :
    outcome.Sized := by
  rintro receipt rfl
  obtain ⟨⟨kind, json⟩, -, h⟩ := Option.bind_eq_some_iff.mp h
  split at h
  next =>
    obtain ⟨found, hfound, hsame⟩ := Option.map_eq_some_iff.mp h
    cases hsame
    exact Receipt.sized_of_ofJson? hfound
  next =>
    obtain ⟨fields, -, h⟩ := Option.bind_eq_some_iff.mp h
    obtain ⟨wallet, -, h⟩ := Option.bind_eq_some_iff.mp h
    obtain ⟨hash, -, h⟩ := Option.bind_eq_some_iff.mp h
    cases h
  next => cases h

theorem isExact_toJson (outcome : Outcome) : outcome.toJson.IsExact := by
  rcases outcome with receipt | ⟨wallet, hash⟩
  · exact ⟨trivial, receipt.isExact_toJson⟩
  · simp [toJson, Address.toJson, Hash.toJson, Json.IsExact, Json.HasExact]

end Route.Outcome

namespace Record

/-- An outcome in a record is one that can be written. -/
def Sized (record : Record) : Prop := ∀ outcome, record.activation = some outcome → outcome.Sized

theorem ofJson?_toJson {record : Record} (h : record.Sized) :
    ofJson? record.toJson = some record := by
  obtain ⟨name, instanceId, proxy, implementation, status, verified, activation⟩ := record
  have hid : (Receipt.optionJson Json.string instanceId).nullable? Json.text? =
      some instanceId := by
    rcases instanceId with - | id
    · rfl
    · exact Json.nullable?_of_read rfl rfl
  have hstatus : (Json.string status.name).choice?.bind Status.ofName? = some status :=
    Status.ofName?_name status
  rcases activation with - | outcome
  · have hfields : (toJson ⟨name, instanceId, proxy, implementation, status, verified,
        none⟩).fields? fieldNames = _ := Json.fields?_object rfl
    rw [ofJson?, hfields]
    simp [Json.Fields.required, Json.Fields.optional, Json.Fields.defaulted, Json.Fields.get?,
      List.lookup_cons, Address.ofJson?_toJson, LogicalName.ofJson?_toJson, Json.bool?, hid,
      hstatus]
  · have houtcome : outcome.toJson.nullable? Route.Outcome.ofJson? = some (some outcome) :=
      Json.nullable?_of_read rfl (Route.Outcome.ofJson?_toJson (h outcome rfl))
    have hfields : (toJson ⟨name, instanceId, proxy, implementation, status, verified,
        some outcome⟩).fields? fieldNames = _ := Json.fields?_object rfl
    rw [ofJson?, hfields]
    simp [Json.Fields.required, Json.Fields.optional, Json.Fields.defaulted, Json.Fields.get?,
      List.lookup_cons, Address.ofJson?_toJson, LogicalName.ofJson?_toJson, Json.bool?, hid,
      hstatus, houtcome]

theorem sized_of_ofJson? {json : Json} {record : Record} (h : ofJson? json = some record) :
    record.Sized := by
  obtain ⟨fields, -, h⟩ := Option.bind_eq_some_iff.mp h
  obtain ⟨name, -, h⟩ := Option.bind_eq_some_iff.mp h
  obtain ⟨instanceId, -, h⟩ := Option.bind_eq_some_iff.mp h
  obtain ⟨proxy, -, h⟩ := Option.bind_eq_some_iff.mp h
  obtain ⟨implementation, -, h⟩ := Option.bind_eq_some_iff.mp h
  obtain ⟨status, -, h⟩ := Option.bind_eq_some_iff.mp h
  obtain ⟨verified, -, h⟩ := Option.bind_eq_some_iff.mp h
  obtain ⟨activation, hactivation, h⟩ := Option.bind_eq_some_iff.mp h
  obtain rfl := Option.some.inj h
  rintro outcome rfl
  rcases Json.Fields.defaulted_cases hactivation with hnone | ⟨json, hjson⟩
  · cases hnone
  · obtain ⟨json, hjson⟩ := Json.exists_of_nullable? hjson
    exact Route.Outcome.sized_of_ofJson? hjson

theorem isExact_toJson (record : Record) : record.toJson.IsExact := by
  obtain ⟨name, instanceId, proxy, implementation, status, verified, activation⟩ := record
  cases instanceId <;> cases activation <;>
    simp [toJson, Receipt.optionJson, Address.toJson, Json.IsExact, Json.HasExact,
      LogicalName.isExact_toJson, Route.Outcome.isExact_toJson]

end Record

/-! ### Routings and networks -/

/-- **An address of the web is normal** if it is read back from its text. -/
def Url.Normal (url : Url) : Prop := Url.ofText url.text = .ok url

theorem Url.ofJson?_toJson {url : Url} (h : url.Normal) : ofJson? url.toJson = some url := by
  rw [Normal] at h
  rw [toJson, ofJson?, Json.text?, Option.bind_some, h]
  rfl

namespace Routing

/-- The address in a choice of a route is normal. -/
def Normal (routing : Routing) : Prop :=
  ∀ wallet service, routing = multisig wallet service → service.Normal

theorem ofJson?_toJson {routing : Routing} (h : routing.Normal) :
    ofJson? routing.toJson = some routing := by
  rcases routing with - | ⟨wallet, service⟩
  · rfl
  · have hservice : Url.ofJson? service.toJson = some service :=
      Url.ofJson?_toJson (h wallet service rfl)
    simp [toJson, ofJson?, Json.tagged?, Json.fields?, Json.distinct, Json.Fields.required,
      Json.Fields.get?, List.lookup_cons, Address.ofJson?_toJson, hservice]

theorem isExact_toJson (routing : Routing) : routing.toJson.IsExact := by
  cases routing <;> simp [toJson, Address.toJson, Url.toJson, Json.IsExact, Json.HasExact]

end Routing

namespace Network

/-- The chain of a network fits 64 bits. -/
def Sized (network : Network) : Prop := network.chain < Bits.count 64

theorem ofJson?_toJson {network : Network} (h : network.Sized) :
    ofJson? network.toJson = some network := by
  have hchain : (Json.integer network.chain).nat64? = some network.chain := Json.nat64?_integer h
  have htier : (Json.string network.tier.name).choice?.bind Tier.ofName? = some network.tier :=
    Tier.ofName?_name network.tier
  have hfields : network.toJson.fields? fieldNames = _ := Json.fields?_object rfl
  rw [ofJson?, hfields]
  simp [Json.Fields.required, Json.Fields.get?, List.lookup_cons, Json.text?, hchain, htier]

theorem sized_of_ofJson? {json : Json} {network : Network} (h : ofJson? json = some network) :
    network.Sized := by
  obtain ⟨fields, -, h⟩ := Option.bind_eq_some_iff.mp h
  obtain ⟨name, -, h⟩ := Option.bind_eq_some_iff.mp h
  obtain ⟨chain, hchain, h⟩ := Option.bind_eq_some_iff.mp h
  obtain ⟨tier, -, h⟩ := Option.bind_eq_some_iff.mp h
  obtain ⟨node, -, h⟩ := Option.bind_eq_some_iff.mp h
  obtain rfl := Option.some.inj h
  obtain ⟨json, hjson⟩ := Json.Fields.exists_of_required hchain
  exact Json.lt_of_nat64? hjson

theorem isExact_toJson (network : Network) : network.toJson.IsExact := by
  simp [toJson, Json.IsExact, Json.HasExact]

end Network

/-! ### All kinds of records -/

/-- **Records are kept without loss.** Every kind of record that the program writes as JSON is read
back from either text of it, and a text that is read as one becomes, written anew, a text that stays
as it is. The numbers of a record have to fit the 64 bits that they have, and the address of a
wallet's service has to be normal. -/
theorem records_lossless :
    Json.Lossless Record.toJson Record.ofJson? Record.Sized (fun _ => True) ∧
    Json.Lossless LogicalName.toJson LogicalName.ofJson? (fun _ => True) (fun _ => True) ∧
    Json.Lossless (fun status : Status => .string status.name)
      (fun json => json.choice?.bind Status.ofName?) (fun _ => True) (fun _ => True) ∧
    Json.Lossless Route.Outcome.toJson Route.Outcome.ofJson? Route.Outcome.Sized (fun _ => True) ∧
    Json.Lossless Receipt.toJson Receipt.ofJson? Receipt.Sized (fun _ => True) ∧
    Json.Lossless Key.toJson Key.ofJson? (fun _ => True) (fun _ => True) ∧
    Json.Lossless Registry.Entry.toJson Registry.Entry.ofJson? (fun _ => True) (fun _ => True) ∧
    Json.Lossless Call.toJson Call.ofJson? (fun _ => True) (fun _ => True) ∧
    Json.Lossless Wallet.Transaction.toJson Wallet.Transaction.ofJson? (fun _ => True)
      (fun _ => True) ∧
    Json.Lossless History.Group.toJson History.Group.ofJson? (fun _ => True) (fun _ => True) ∧
    Json.Lossless Routing.toJson Routing.ofJson? (fun _ => True) Routing.Normal ∧
    Json.Lossless Network.toJson Network.ofJson? Network.Sized (fun _ => True) := by
  refine ⟨?record, ?name, ?status, ?outcome, ?receipt, ?key, ?entry, ?call, ?transaction, ?group,
    ?routing, ?network⟩
  case record =>
    exact .of_documents Record.isExact_toJson (fun _ h _ => Record.ofJson?_toJson h)
      fun _ _ => Record.sized_of_ofJson?
  case name =>
    exact .of_documents LogicalName.isExact_toJson (fun name _ _ => name.ofJson?_toJson)
      fun _ _ _ => trivial
  case status =>
    exact .of_documents (fun _ => trivial) (fun status _ _ => Status.ofName?_name status)
      fun _ _ _ => trivial
  case outcome =>
    exact .of_documents Route.Outcome.isExact_toJson
      (fun _ h _ => Route.Outcome.ofJson?_toJson h) fun _ _ => Route.Outcome.sized_of_ofJson?
  case receipt =>
    exact .of_documents Receipt.isExact_toJson (fun _ h _ => Receipt.ofJson?_toJson h)
      fun _ _ => Receipt.sized_of_ofJson?
  case key =>
    exact .of_documents Key.isExact_toJson (fun key _ _ => key.ofJson?_toJson)
      fun _ _ _ => trivial
  case entry =>
    exact .of_documents Registry.Entry.isExact_toJson (fun entry _ _ => entry.ofJson?_toJson)
      fun _ _ _ => trivial
  case call =>
    exact .of_documents Call.isExact_toJson (fun call _ _ => call.ofJson?_toJson)
      fun _ _ _ => trivial
  case transaction =>
    exact .of_documents Wallet.Transaction.isExact_toJson (fun t _ _ => t.ofJson?_toJson)
      fun _ _ _ => trivial
  case group =>
    exact .of_documents History.Group.isExact_toJson (fun group _ _ => group.ofJson?_toJson)
      fun _ _ _ => trivial
  case routing =>
    exact .of_documents Routing.isExact_toJson (fun _ _ h => Routing.ofJson?_toJson h)
      fun _ _ _ => trivial
  case network =>
    exact .of_documents Network.isExact_toJson (fun _ h _ => Network.ofJson?_toJson h)
      fun _ _ => Network.sized_of_ofJson?

/-- A receipt with a block and without a contract, and a route by way of a service on the machine
itself. -/
theorem records_lossless_local :
    let receipt : Receipt := ⟨.keccak [], some 7, none, true⟩
    let routing : Routing := .multisig .zero
      ⟨"http".toList, some ⟨[], [], "localhost".toList, none⟩, .segments [[]], none, none⟩
    Json.readText Receipt.ofJson? (Json.Layout.indented.text receipt.toJson) = some receipt ∧
      Json.readText Routing.ofJson? (Json.Layout.compact.text routing.toJson) = some routing := by
  intro receipt routing
  obtain ⟨-, -, -, -, hreceipts, -, -, -, -, -, hroutings, -⟩ := records_lossless
  have hsized : receipt.Sized := by
    intro n hn
    obtain rfl := Option.some.inj hn
    decide
  have hnormal : routing.Normal := by
    intro wallet service h
    obtain ⟨-, rfl⟩ := Routing.multisig.inj h
    rw [Url.Normal]
    decide +kernel
  exact ⟨hreceipts.back .indented receipt hsized trivial,
    hroutings.back .compact routing trivial hnormal⟩

end ProxyUpgrade
