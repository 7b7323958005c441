import ProxyUpgrade.Proofs.Node.Reply
import ProxyUpgrade.Proofs.Site.Rules
/-!
# Sites where everybody answers

Whatever a ledger holds can also be said: there is a reply of a node for each code and each slot,
and stores may simply answer. So the rules of a site are not empty, and what is proved of all
deployments is true of some.
-/

namespace ProxyUpgrade.Site

variable {site : Site} {s : Ledger} {address other proxy : Address}

/-! ### Queries -/

theorem codeQuery_injective (h : site.codeQuery address = site.codeQuery other) :
    address = other := by
  simp only [codeQuery, query, Node.document, Address.toJson, Http.Request.mk.injEq,
    Http.Body.json.injEq, Json.object.injEq, List.cons.injEq, Prod.mk.injEq, Json.array.injEq,
    Json.string.injEq, true_and, and_true] at h
  exact Address.toHex_injective h

theorem slotQuery_injective (h : site.slotQuery address = site.slotQuery other) :
    address = other := by
  simp only [slotQuery, query, Node.document, Address.toJson, Http.Request.mk.injEq,
    Http.Body.json.injEq, Json.object.injEq, List.cons.injEq, Prod.mk.injEq, Json.array.injEq,
    Json.string.injEq, true_and, and_true] at h
  exact Address.toHex_injective h

theorem codeQuery_ne_slotQuery : site.codeQuery address ≠ site.slotQuery proxy := by
  simp [codeQuery, slotQuery, query, Node.document]

/-! ### Replies -/

theorem understood_replyOf {α : Type} (method : String) (read : Json → Option α) (bytes : Bytes) :
    site.understood method read (some (Node.replyOf bytes)) =
      Node.formed method read bytes.toJson := by
  simp only [understood, arrived, Node.heard_replyOf]
  rfl

theorem codeIn_replyOf (bytes : Bytes) :
    site.codeIn (some (Node.replyOf bytes)) = .ok bytes := by
  rw [codeIn, understood_replyOf, Node.formed_bytes]

/-- A word is long enough for an address. -/
theorem ofNat_word (address : Address) :
    Address.ofNat (BitVec.ofNat 256 address.toNat).toNat = address := by
  have hbound : address.toNat < 2 ^ 256 := Nat.lt_trans address.toNat_lt (by decide)
  rw [BitVec.toNat_ofNat, Nat.mod_eq_of_lt hbound]
  exact congrArg Address.mk (BitVec.ofNat_toNat 160 address.word)

theorem slotIn_replyOf (address : Address) :
    site.slotIn (some (Node.replyOf address.bytes)) = .ok address := by
  rw [slotIn, understood_replyOf, Node.formed_word, Except.map, ofNat_word]

/-- A node that says which code there is tells the truth. -/
theorem truthful_code (address : Address) :
    site.Truthful s (site.codeQuery address) (some (Node.replyOf (s.code address))) where
  code other bytes hquery hbytes := by
    obtain rfl := codeQuery_injective hquery
    rw [codeIn_replyOf] at hbytes
    exact (Except.ok.inj hbytes).symm
  slot _ _ hquery := absurd hquery codeQuery_ne_slotQuery

/-- A node that says which implementation there is tells the truth. -/
theorem truthful_slot (proxy : Address) :
    site.Truthful s (site.slotQuery proxy) (some (Node.replyOf (s.slot proxy).bytes)) where
  code _ _ hquery := absurd hquery.symm codeQuery_ne_slotQuery
  slot other implementation hquery hslot := by
    obtain rfl := slotQuery_injective hquery
    rw [slotIn_replyOf] at hslot
    exact (Except.ok.inj hslot).symm

/-- **There is a reply to every request**, by which the node says what it is asked for. -/
theorem exists_reply (site : Site) (s : Ledger) (request : Http.Request) :
    ∃ reply, site.Truthful s request reply ∧ site.Answered (.exchange request) reply := by
  by_cases hcode : ∃ address, request = site.codeQuery address
  · obtain ⟨address, rfl⟩ := hcode
    exact ⟨_, truthful_code address, fun _ _ => ⟨_, codeIn_replyOf _⟩,
      fun _ hquery => absurd hquery codeQuery_ne_slotQuery⟩
  by_cases hslot : ∃ proxy, request = site.slotQuery proxy
  · obtain ⟨proxy, rfl⟩ := hslot
    exact ⟨_, truthful_slot proxy, fun _ hquery => absurd hquery.symm codeQuery_ne_slotQuery,
      fun _ _ => ⟨_, slotIn_replyOf _⟩⟩
  · -- Of anything else the node may say nothing.
    rw [not_exists] at hcode hslot
    exact ⟨none, ⟨fun address _ h => absurd h (hcode address),
      fun proxy _ h => absurd h (hslot proxy)⟩, fun address h => absurd h (hcode address),
      fun proxy h => absurd h (hslot proxy)⟩

/-- Everybody may answer, and well. -/
theorem calm_answers (site : Site) (files : Path → Except Files.Fault String) (s : Ledger)
    (question : Question) :
    ∃ answer s', (site.calm files).answers s question answer s' := by
  cases question with
  | exchange request =>
    obtain ⟨reply, htrue, hanswered⟩ := site.exists_reply s request
    exact ⟨reply, s, ⟨rfl, htrue⟩, trivial, hanswered⟩
  | create purpose code => exact ⟨.error (.network "no"), s, .inl rfl, trivial, trivial⟩
  | send call => exact ⟨.error (.network "no"), s, .inr ⟨⟨_, rfl⟩, rfl⟩, trivial, trivial⟩
  | read path => exact ⟨files path, s, rfl, rfl, trivial⟩
  | registered id => exact ⟨.ok (s.table.get? id), s, ⟨rfl, says_ok _⟩, trivial, _, rfl⟩
  | register id address => exact ⟨.ok (), s.register id address, .inl rfl, trivial, rfl⟩
  | entries => exact ⟨.ok s.table.rows, s, ⟨rfl, says_ok _⟩, trivial, _, rfl⟩
  | recordAlias code address =>
    have now : Timestamp := .epoch
    exact ⟨.ok (s.manifest.record now code address).1, s.recordAlias now code address,
      .inl ⟨now, rfl, says_ok _⟩, trivial, _, rfl⟩
  | groupOfAddress address =>
    exact ⟨.ok (s.manifest.ofAddress? address), s, ⟨rfl, says_ok _⟩, trivial, _, rfl⟩
  | groupOfCode code => exact ⟨.ok (s.manifest.ofCode? code), s, ⟨rfl, says_ok _⟩, trivial, _, rfl⟩
  | groups => exact ⟨.ok s.manifest, s, ⟨rfl, says_ok _⟩, trivial, _, rfl⟩
  | now => exact ⟨0, s, rfl, trivial, trivial⟩
  | sleep time => exact ⟨(), s, rfl, trivial, trivial⟩
  | sign hash => exact ⟨.ok none, s, rfl, trivial, trivial⟩
  | isVerified target => exact ⟨.ok true, s, rfl, trivial, trivial⟩
  | submit target => exact ⟨([], .ok ()), s, rfl, trivial, trivial⟩
  | nextNonce wallet => exact ⟨.ok 0, s, rfl, trivial, trivial⟩
  | propose proposal => exact ⟨.ok (), s, rfl, trivial, trivial⟩
  | findPending wallet target data => exact ⟨.ok none, s, rfl, trivial, trivial⟩

end ProxyUpgrade.Site
