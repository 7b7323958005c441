import Mathlib.Data.List.Nodup
import ProxyUpgrade.Proofs.Json.RoundTrip
import ProxyUpgrade.Proofs.Wallet.Submission
/-!
# What a service lists

A service shows the transactions of a wallet as documents, page by page, the latest nonce first. A
document may be malformed; whatever can be read in one is true of the transaction. Asked for those
that wait and call an address, the service replies with the first page and says where the next one
is, so that all of them can be found by following the pages (`Wallet.Listing.mem_waiting_iff`).

The search for a waiting transaction reads the first page only. So it finds the first transaction
there that carries the data (`Wallet.Listing.Shows.finds`), and what it comes to is right for the
whole queue exactly if one that carries the data is on that page, or is on none at all
(`Wallet.findPending_first_page`).
-/

namespace ProxyUpgrade.Wallet

open Site (Question Talk Turn asking)

/-! ### Documents -/

/-- **What a document tells of the data** of a transaction. A document in which there is no text for
it tells that there is none. -/
inductive TellsData (document : Json) : Bytes → Prop
  | text {text : String} {data : Bytes} (said : document.member? "data" = some (.string text))
      (read : Hex.decode? text = some data) : TellsData document data
  | none (unsaid : ∀ text, document.member? "data" ≠ some (.string text)) : TellsData document []

/-- **What a document tells of the hash** of a transaction. -/
def TellsHash (document : Json) (hash : Hash) : Prop :=
  ∃ text, document.member? "safeTxHash" = some (.string text) ∧ Hash.ofHex? text = some hash

/-- **What a document tells of a nonce**: it is there as a number, or as the digits of one. -/
def TellsNonce (document : Json) (nonce : BitVec 64) : Prop :=
  document.member? "nonce" = some (.integer nonce.toNat) ∨
    document.member? "nonce" = some (.string (toString nonce.toNat))

/-- **What a document tells of a nonce of any size.** A number is there as it is kept as a plain
value, a text is there with its digits. -/
inductive TellsNumber (document : Json) (n : Nat) : Prop
  | number (level : Nat) {kept : Json} (read : (Json.integer n).plain? level = some kept)
      (said : document.member? "nonce" = some kept) : TellsNumber document n
  | text {text : String} (read : Quantity.ofDecimal? text.toList = some n)
      (said : document.member? "nonce" = some (.string text)) : TellsNumber document n

theorem text?_eq_some {json : Json} {text : String} :
    json.text? = some text ↔ json = .string text := by
  cases json <;> simp [Json.text?]

theorem bind_text?_eq_some {member : Option Json} {text : String} :
    member.bind Json.text? = some text ↔ member = some (.string text) := by
  simp [Option.bind_eq_some_iff, text?_eq_some]

theorem dataOf?_eq_some {document : Json} {data : Bytes} :
    Client.dataOf? document = some data ↔ TellsData document data := by
  rw [Client.dataOf?]
  rcases htext : (document.member? "data").bind Json.text? with - | text
  · have hunsaid (text : String) : document.member? "data" ≠ some (.string text) := fun h => by
      simp [bind_text?_eq_some.mpr h] at htext
    refine ⟨fun h => Option.some.inj h ▸ .none hunsaid, ?_⟩
    rintro (@⟨text, _, said, -⟩ | -)
    · exact absurd said (hunsaid text)
    · rfl
  · have hsaid := bind_text?_eq_some.mp htext
    refine ⟨fun h => .text hsaid h, ?_⟩
    rintro (@⟨other, _, said, read⟩ | unsaid)
    · rw [hsaid] at said
      cases said
      exact read
    · exact absurd hsaid (unsaid text)

/-- **A document is taken for what it tells.** -/
theorem hashOf?_eq_some {document : Json} {data : Bytes} {hash : Hash} :
    Client.hashOf? data document = some hash ↔
      TellsData document data ∧ TellsHash document hash := by
  rw [Client.hashOf?, ← dataOf?_eq_some]
  split
  next hdata =>
    rw [Option.bind_eq_some_iff]
    simp only [hdata, true_and, bind_text?_eq_some, TellsHash]
  next hdata => simp [hdata]

/-- Digits are read as the number they stand for, if that fits. -/
theorem decimal?_of_digits {text : String} {n : Nat}
    (h : Quantity.ofDecimal? text.toList = some n) :
    Client.decimal? text = if Bits.fits 64 n then some n else none := by
  rw [Client.decimal?]
  split
  next heq => simp [heq, Quantity.ofDecimal?] at h
  next => simp [h, Option.filter]

/-- A number is kept as it is written if it fits, and as a decimal otherwise. -/
theorem nonce?_of_plain {n level : Nat} {kept : Json}
    (h : (Json.integer n).plain? level = some kept) :
    Client.nonce? kept = if Bits.fits 64 n then some (BitVec.ofNat 64 n) else none := by
  rw [Json.plain?, Json.plainWithin?] at h
  split at h
  next =>
    cases h
    simp only [Client.nonce?, Json.nat64?, Int.natCast_nonneg, true_and, Int.toNat_natCast]
    split <;> rfl
  next hlarge =>
    have hfits : ¬ Bits.fits 64 n = true := fun hfits =>
      hlarge (.inr ⟨Int.natCast_nonneg n, by simpa using hfits⟩)
    rw [if_neg hfits]
    split at h <;> cases h
    rfl

theorem nonce?_of_tellsNumber {document : Json} {n : Nat} (h : TellsNumber document n) :
    (document.member? "nonce").bind Client.nonce? =
      if Bits.fits 64 n then some (BitVec.ofNat 64 n) else none := by
  obtain ⟨_, read, said⟩ | ⟨read, said⟩ := h
  · rw [said, Option.bind_some, nonce?_of_plain read]
  · rw [said, Option.bind_some, Client.nonce?, decimal?_of_digits read]
    split <;> rfl

theorem TellsNonce.tellsNumber {document : Json} {nonce : BitVec 64}
    (h : TellsNonce document nonce) : TellsNumber document nonce.toNat := by
  have hfits : Bits.fits 64 nonce.toNat = true := decide_eq_true nonce.isLt
  rcases h with h | h
  · exact .number 0 (by simp [Json.plain?, Json.plainWithin?, hfits]) h
  · exact .text (by simp [Quantity.ofDecimal?_toDigits]) h

/-- A nonce of the right size is read. -/
theorem nonce?_of_tellsNumber_toNat {document : Json} {nonce : BitVec 64}
    (h : TellsNumber document nonce.toNat) :
    (document.member? "nonce").bind Client.nonce? = some nonce := by
  have hfits : Bits.fits 64 nonce.toNat = true := decide_eq_true nonce.isLt
  rw [nonce?_of_tellsNumber h, if_pos hfits, BitVec.ofNat_toNat, BitVec.setWidth_eq]

theorem nonce?_of_tells {document : Json} {nonce : BitVec 64} (h : TellsNonce document nonce) :
    (document.member? "nonce").bind Client.nonce? = some nonce :=
  nonce?_of_tellsNumber_toNat h.tellsNumber

/-! ### Listings -/

/-- **A transaction that the service keeps**, and the document by which it shows it. The document
may be malformed, but it tells no other data and no other hash. -/
structure Entry where
  transaction : Transaction
  hash : Hash
  executed : Bool
  shown : Json
  truthful : ∀ {data told}, TellsData shown data → TellsHash shown told →
    transaction.data = data ∧ hash = told

namespace Entry

/-- The document tells the data and the hash. -/
def Readable (e : Entry) : Prop := TellsData e.shown e.transaction.data ∧ TellsHash e.shown e.hash

/-- The transaction carries some data, and the document tells it. -/
def Carries (e : Entry) (data : Bytes) : Prop := e.transaction.data = data ∧ e.Readable

theorem hashOf?_shown {e : Entry} {data : Bytes} {hash : Hash} :
    Client.hashOf? data e.shown = some hash ↔ e.Carries data ∧ e.hash = hash := by
  rw [hashOf?_eq_some]
  constructor
  · rintro ⟨hdata, hhash⟩
    obtain ⟨rfl, rfl⟩ := e.truthful hdata hhash
    exact ⟨⟨rfl, hdata, hhash⟩, rfl⟩
  · rintro ⟨⟨rfl, hreadable⟩, rfl⟩
    exact hreadable

theorem hashOf?_eq_none {e : Entry} {data : Bytes} :
    Client.hashOf? data e.shown = none ↔ ¬ e.Carries data := by
  rw [Option.eq_none_iff_forall_ne_some]
  constructor
  · intro h hcarries
    exact h e.hash (hashOf?_shown.mpr ⟨hcarries, rfl⟩)
  · intro h hash hfound
    exact h (hashOf?_shown.mp hfound).1

end Entry

/-- **What a service knows of a wallet**, and how it shows it. -/
structure Listing where
  /-- The nonce of the next transaction that is executed. -/
  nonce : BitVec 64
  /-- All transactions, the latest nonce first. -/
  entries : List Entry
  /-- How many are on a page. -/
  size : Nat
  /-- The address of a page after the first one. -/
  link : Address → Nat → Url
  descending : entries.Pairwise fun a b => b.transaction.nonce ≤ a.transaction.nonce
  distinct : (entries.map Entry.hash).Nodup
  size_pos : 0 < size

namespace Listing

variable (l : Listing)

/-- **The transactions that wait** and call an address. -/
def waiting (target : Address) : List Entry :=
  l.entries.filter fun e =>
    !e.executed && decide (l.nonce ≤ e.transaction.nonce) && decide (e.transaction.target = target)

/-- A page of those that wait. -/
def page (target : Address) (number : Nat) : List Entry :=
  ((l.waiting target).drop (number * l.size)).take l.size

/-- There is a page with a number; the first one always is. -/
def HasPage (target : Address) (number : Nat) : Prop :=
  number = 0 ∨ number * l.size < (l.waiting target).length

instance (target : Address) (number : Nat) : Decidable (l.HasPage target number) :=
  inferInstanceAs (Decidable (number = 0 ∨ number * l.size < (l.waiting target).length))

/-- The address of a page. -/
def pageUrl (url : Url) (wallet target : Address) : Nat → Except Error Url
  | 0 => (Client.mk (m := Id) .unreachable url).queueUrl wallet l.nonce [("to", target.checksum)]
  | number + 1 => .ok (l.link target (number + 1))

/-- **A document shows a page**, and says where the next one is if there is any. -/
structure Shows (target : Address) (number : Nat) (document : Json) : Prop where
  results : document.member? "results" = some (.array ((l.page target number).map Entry.shown))
  next : document.member? "next" = some (if l.HasPage target (number + 1) then
    .string (l.link target (number + 1)).text else .null)

/-- **How the service answers** when it is asked for a document: it tells the nonce of the wallet,
and shows the pages of what waits and calls `target`. -/
structure Answers (url : Url) (wallet target : Address) (address : Url) (document : Json) :
    Prop where
  nonce : (Client.mk (m := Id) .unreachable url).walletUrl wallet = .ok address →
    TellsNonce document l.nonce
  page : ∀ number, l.HasPage target number → l.pageUrl url wallet target number = .ok address →
    l.Shows target number document

/-- **A turn is served** by the listing. It may also be one without a reply, or with a reply that
tells of a failure or holds no document. -/
def Serves (url : Url) (wallet target : Address) (turn : Turn) : Prop :=
  ∀ address reply document, turn = ⟨.exchange ⟨address, .empty⟩, some reply⟩ →
    Http.isFailure reply.status = false → reply.plain? = some document →
      l.Answers url wallet target address document

variable {l} {target : Address} {data : Bytes} {e : Entry} {hash : Hash}

/-- **What waits** has not been executed, has no nonce below the wallet's, and calls the address. -/
theorem mem_waiting : e ∈ l.waiting target ↔ e ∈ l.entries ∧ e.executed = false ∧
    l.nonce ≤ e.transaction.nonce ∧ e.transaction.target = target := by
  simp [waiting, and_assoc]

/-- **All that waits is on some page.** -/
theorem mem_waiting_iff : e ∈ l.waiting target ↔ ∃ number, e ∈ l.page target number := by
  constructor
  · intro he
    obtain ⟨i, hi, rfl⟩ := List.mem_iff_getElem.mp he
    have hsplit : i / l.size * l.size + i % l.size = i := Nat.div_add_mod' i l.size
    have hmod : i % l.size < l.size := Nat.mod_lt i l.size_pos
    refine ⟨i / l.size, List.mem_iff_getElem.mpr ⟨i % l.size, ?_, ?_⟩⟩
    · simp only [page, List.length_take, List.length_drop]
      omega
    · simp [page, hsplit]
  · rintro ⟨number, he⟩
    exact List.mem_of_mem_drop (List.mem_of_mem_take he)

theorem waiting_of_page {number : Nat} (he : e ∈ l.page target number) : e ∈ l.waiting target :=
  mem_waiting_iff.mpr ⟨number, he⟩

/-- No two that wait have the same hash. -/
theorem eq_of_hash {other : Entry} (he : e ∈ l.waiting target) (hother : other ∈ l.waiting target)
    (hhash : e.hash = other.hash) : e = other :=
  List.inj_on_of_nodup_map l.distinct (mem_waiting.mp he).1 (mem_waiting.mp hother).1 hhash

/-! ### Searches -/

variable (l target data)

/-- **The first transaction on the first page** that carries some data. -/
def First (e : Entry) : Prop :=
  ∃ before after, l.page target 0 = before ++ e :: after ∧ e.Carries data ∧
    ∀ other ∈ before, ¬ other.Carries data

/-- **What the first page comes to.** -/
def Finds : Option Hash → Prop
  | some hash => ∃ e, l.First target data e ∧ e.hash = hash
  | none => ∀ e ∈ l.page target 0, ¬ e.Carries data

/-- **What is right for the whole queue**: the hash of a transaction that waits, or nothing if there
is none. -/
def Right : Option Hash → Prop
  | some hash => ∃ e ∈ l.waiting target, e.Carries data ∧ e.hash = hash
  | none => ∀ e ∈ l.waiting target, ¬ e.Carries data

variable {l target data}

theorem findSome?_eq_some : ((l.page target 0).map Entry.shown).findSome? (Client.hashOf? data) =
    some hash ↔ ∃ e, l.First target data e ∧ e.hash = hash := by
  rw [List.findSome?_map, List.findSome?_eq_some_iff]
  simp only [Function.comp_apply, Entry.hashOf?_shown, Entry.hashOf?_eq_none]
  constructor
  · rintro ⟨before, e, after, hpage, ⟨hcarries, hhash⟩, hbefore⟩
    exact ⟨e, ⟨before, after, hpage, hcarries, hbefore⟩, hhash⟩
  · rintro ⟨e, ⟨before, after, hpage, hcarries, hbefore⟩, hhash⟩
    exact ⟨before, e, after, hpage, ⟨hcarries, hhash⟩, hbefore⟩

/-- **A page is read** up to the first transaction that carries the data. -/
theorem Shows.finds {document : Json} (h : l.Shows target 0 document) :
    l.Finds target data (Client.matching? document data) := by
  have hresults : Client.results document = (l.page target 0).map Entry.shown := by
    simp [Client.results, h.results, Json.items?]
  rw [Client.matching?, hresults]
  rcases hfound : ((l.page target 0).map Entry.shown).findSome? (Client.hashOf? data)
    with - | hash
  · intro e he
    exact Entry.hashOf?_eq_none.mp (List.findSome?_eq_none_iff.mp hfound _ (List.mem_map_of_mem he))
  · exact findSome?_eq_some.mp hfound

theorem First.mem (h : l.First target data e) : e ∈ l.page target 0 := by
  obtain ⟨before, after, hpage, -⟩ := h
  rw [hpage]
  exact List.mem_append_right _ List.mem_cons_self

theorem First.carries (h : l.First target data e) : e.Carries data := by
  obtain ⟨-, -, -, hcarries, -⟩ := h
  exact hcarries

theorem First.unique {other : Entry} (h : l.First target data e)
    (hother : l.First target data other) : e = other := by
  have hsearch := findSome?_eq_some.mpr ⟨e, h, rfl⟩
  rw [findSome?_eq_some.mpr ⟨other, hother, rfl⟩] at hsearch
  exact eq_of_hash (waiting_of_page h.mem) (waiting_of_page hother.mem)
    (Option.some.inj hsearch).symm

/-- If there is a first transaction, it is what is found. -/
theorem Finds.eq_of_first {found : Option Hash} (h : l.Finds target data found)
    (he : l.First target data e) : found = some e.hash := by
  rcases found with - | hash
  · exact absurd he.carries (h e he.mem)
  · obtain ⟨other, hother, rfl⟩ := h
    rw [he.unique hother]

/-- What is found on the first page is right if there is anything, or nothing on any page. -/
theorem Finds.right_iff {found : Option Hash} (h : l.Finds target data found) :
    l.Right target data found ↔
      (∃ e ∈ l.page target 0, e.Carries data) ∨ ∀ e ∈ l.waiting target, ¬ e.Carries data := by
  rcases found with - | hash
  · refine ⟨.inr, ?_⟩
    rintro (⟨e, he, hcarries⟩ | hnone)
    · exact absurd hcarries (h e he)
    · exact hnone
  · obtain ⟨e, hfirst, hhash⟩ := h
    have hcarries := hfirst.carries
    exact iff_of_true ⟨e, waiting_of_page hfirst.mem, hcarries, hhash⟩
      (.inl ⟨e, hfirst.mem, hcarries⟩)

end Listing

/-! ### A service that answers -/

/-- The web, where every request has a reply of its own, or none. -/
def answering {m : Type → Type} [Monad m] (serve : Http.Request → Option Http.Reply) : Http m :=
  ⟨fun request => pure (serve request)⟩

/-- **A document is there** at an address of the web. -/
structure Available (serve : Http.Request → Option Http.Reply) (address : Url) (document : Json) :
    Prop where
  scheme : Http.schemes.contains address.scheme = true
  replied : ∃ reply, serve ⟨address, .empty⟩ = some reply ∧ Http.isFailure reply.status = false ∧
    reply.plain? = some document

/-- **The listing is served** by what replies to requests: all that is replied agrees with it, and
the nonce and the first page are there. -/
structure Listing.ServedBy (l : Listing) (url : Url) (wallet target : Address)
    (serve : Http.Request → Option Http.Reply) : Prop where
  agrees : ∀ address reply document, serve ⟨address, .empty⟩ = some reply →
    Http.isFailure reply.status = false → reply.plain? = some document →
      l.Answers url wallet target address document
  nonce : ∃ address document, Available serve address document ∧
    (Client.mk (m := Id) .unreachable url).walletUrl wallet = .ok address
  page : ∃ address document, Available serve address document ∧
    l.pageUrl url wallet target 0 = .ok address

section Answering

variable {m : Type → Type} [Monad m] [LawfulMonad m] {serve : Http.Request → Option Http.Reply}
  {l : Listing} {url address : Url} {wallet target : Address} {document : Json}

theorem ofExcept_bind {α β : Type} {result : Except Error α} {a : α} (h : result = .ok a)
    (f : α → Action m β) : Action.ofExcept result >>= f = f a := by
  rw [h]
  exact pure_bind a f

theorem ask_of_available (h : Available serve address document) :
    (Client.mk (answering serve) url).ask address = (pure document : Action m Json) := by
  obtain ⟨reply, hserve, hstatus, hplain⟩ := h.replied
  have hsent : (answering serve : Http m).sendChecked ⟨address, .empty⟩ = pure (.ok reply) := by
    simp only [Http.sendChecked, Http.send, h.scheme, if_true, answering, hserve, pure_bind,
      hstatus, Bool.false_eq_true, if_false]
  have hlift : (ExceptT.lift (pure (.ok reply)) : Action m (Except Http.Fault Http.Reply)) =
      pure (.ok reply) := by
    rw [ExceptT.lift, map_pure]
    rfl
  rw [Client.ask, hsent, hlift, pure_bind]
  dsimp only
  rw [hplain]

/-- Where the nonce can be read in what is told of the wallet, it is what the wallet has. -/
theorem ownNonce_of_available {own : BitVec 64}
    (hwallet : (Client.mk (m := Id) .unreachable url).walletUrl wallet = .ok address)
    (hinfo : Available serve address document)
    (hnonce : (document.member? "nonce").bind Client.nonce? = some own) :
    (Client.mk (answering serve) url).ownNonce wallet = (pure own : Action m (BitVec 64)) := by
  have hwallet' : (Client.mk (answering serve : Http m) url).walletUrl wallet = .ok address :=
    hwallet
  rw [Client.ownNonce, ofExcept_bind hwallet', ask_of_available hinfo, pure_bind, hnonce]

theorem Listing.ServedBy.answers (h : l.ServedBy url wallet target serve)
    (hdocument : Available serve address document) :
    l.Answers url wallet target address document := by
  obtain ⟨reply, hserve, hstatus, hplain⟩ := hdocument.replied
  exact h.agrees address reply document hserve hstatus hplain

/-- A search reads the first page. -/
theorem Listing.ServedBy.findPending (h : l.ServedBy url wallet target serve) (data : Bytes) :
    ∃ found : Option Hash,
      (∀ {m : Type → Type} [Monad m] [LawfulMonad m],
        (Client.mk (answering serve) url).findPending wallet target data =
          (pure found : Action m (Option Hash))) ∧ l.Finds target data found := by
  obtain ⟨walletAddress, info, hinfo, hwallet⟩ := h.nonce
  obtain ⟨queueAddress, page, hpage, hqueue⟩ := h.page
  have hnonce := nonce?_of_tells ((h.answers hinfo).nonce hwallet)
  refine ⟨_, ?_, ((h.answers hpage).page 0 (.inl rfl) hqueue).finds⟩
  intro m _ _
  have hqueue' : (Client.mk (answering serve : Http m) url).queueUrl wallet l.nonce
      [("to", target.checksum)] = .ok queueAddress := hqueue
  rw [Client.findPending, ownNonce_of_available hwallet hinfo hnonce, pure_bind,
    ofExcept_bind hqueue', ask_of_available hpage, pure_bind]

/-- **What a search comes to.** Where a service answers, the search yields the hash of the first
transaction on the first page that carries the data, or nothing if there is none on that page. This
is right for the whole queue exactly if such a transaction is on the first page, or on no page at
all. -/
theorem findPending_first_page (data : Bytes) (h : l.ServedBy url wallet target serve) :
    ∃ found : Option Hash,
      (∀ {m : Type → Type} [Monad m] [LawfulMonad m],
        (Client.mk (answering serve) url).findPending wallet target data =
          (pure found : Action m (Option Hash))) ∧
      l.Finds target data found ∧
      (l.Right target data found ↔
        (∃ e ∈ l.page target 0, e.Carries data) ∨ ∀ e ∈ l.waiting target, ¬ e.Carries data) := by
  obtain ⟨found, hfound, hfinds⟩ := h.findPending data
  exact ⟨found, hfound, hfinds, hfinds.right_iff⟩

end Answering

/-! ### A transaction on the second page -/

/-- A document that shows a transaction by its data and its hash. -/
def shownPlainly (data : Bytes) (hash : Hash) : Json :=
  .object [("data", data.toJson), ("safeTxHash", hash.toJson)]

theorem tellsData_shownPlainly {data told : Bytes} {hash : Hash} :
    TellsData (shownPlainly data hash) told ↔ data = told := by
  have hdata : Client.dataOf? (shownPlainly data hash) = some data := by
    simp [Client.dataOf?, shownPlainly, Json.member?, Bytes.toJson, Json.text?,
      Hex.decode?_encode]
  rw [← dataOf?_eq_some, hdata, Option.some.injEq]

theorem tellsHash_shownPlainly {data : Bytes} {hash told : Hash} :
    TellsHash (shownPlainly data hash) told ↔ hash = told := by
  simp [TellsHash, shownPlainly, Json.member?, Hash.toJson, List.lookup_cons, Hash.ofHex?_toHex]

/-- A transaction that waits, shown by its data and its hash. -/
def Entry.plain (t : Transaction) (hash : Hash) : Entry where
  transaction := t
  hash := hash
  executed := false
  shown := shownPlainly t.data hash
  truthful hdata hhash := ⟨tellsData_shownPlainly.mp hdata, tellsHash_shownPlainly.mp hhash⟩

theorem Entry.plain_readable (t : Transaction) (hash : Hash) : (Entry.plain t hash).Readable :=
  ⟨tellsData_shownPlainly.mpr rfl, tellsHash_shownPlainly.mpr rfl⟩

/-- A reply that holds a document. -/
def replyWith (document : Json) : Http.Reply := ⟨200, "OK", document.pretty, true⟩

theorem replyWith_plain {document : Json} (hexact : document.IsExact)
    (hplain : document.plain? 0 = some document) : (replyWith document).plain? = some document := by
  rw [replyWith, Http.Reply.plain?, if_pos rfl, Json.parsePlain?, Json.parse?_pretty hexact]
  exact hplain

/-- The web, where some documents are found at addresses of their own. -/
def serving (documents : List (Url × Json)) (request : Http.Request) : Option Http.Reply :=
  (documents.find? (·.1 = request.url)).map fun found => replyWith found.2

section Serving

variable {documents : List (Url × Json)} {address : Url} {document : Json} {reply : Http.Reply}

theorem mem_of_serving (hdocuments : ∀ found ∈ documents, (replyWith found.2).plain? = some found.2)
    (hreply : serving documents ⟨address, .empty⟩ = some reply)
    (hplain : reply.plain? = some document) : (address, document) ∈ documents := by
  obtain ⟨⟨found, told⟩, hfound, rfl⟩ := Option.map_eq_some_iff.mp hreply
  have hmem := List.mem_of_find?_eq_some hfound
  obtain rfl : found = address := by simpa using List.find?_some hfound
  obtain rfl : told = document := Option.some.inj ((hdocuments _ hmem).symm.trans hplain)
  exact hmem

/-- What is told at an address is the document that is found there. -/
theorem told_of_serving
    (hdocuments : ∀ found ∈ documents, (replyWith found.2).plain? = some found.2)
    (hdistinct : (documents.map Prod.fst).Nodup)
    (hreply : serving documents ⟨address, .empty⟩ = some reply)
    (hplain : reply.plain? = some document) {told : Json} (htold : (address, told) ∈ documents) :
    told = document :=
  (Prod.mk.inj (List.inj_on_of_nodup_map hdistinct htold
    (mem_of_serving hdocuments hreply hplain) rfl)).2

theorem available_of_mem
    (hdocuments : ∀ found ∈ documents, (replyWith found.2).plain? = some found.2)
    (hdistinct : (documents.map Prod.fst).Nodup)
    (hscheme : Http.schemes.contains address.scheme = true)
    (hmem : (address, document) ∈ documents) : Available (serving documents) address document := by
  refine ⟨hscheme, replyWith document, ?_, rfl, hdocuments (address, document) hmem⟩
  rcases hfound : documents.find? (·.1 = address) with - | found
  · exact absurd (List.find?_eq_none.mp hfound _ hmem) (by simp)
  · have haddress : found.1 = address := by simpa using List.find?_some hfound
    have hsame : found = (address, document) :=
      List.inj_on_of_nodup_map hdistinct (List.mem_of_find?_eq_some hfound) hmem haddress
    rw [serving, hfound, hsame]
    rfl

end Serving

theorem local_walletUrl (wallet : Address) :
    (Client.mk (m := Id) .unreachable localService).walletUrl wallet =
      .ok (localBelow (Client.walletNames wallet ++ [""])) := rfl

theorem local_queueUrl (wallet : Address) (more : List (String × String)) :
    (Client.mk (m := Id) .unreachable localService).queueUrl wallet 7 more =
      .ok (localQueue wallet more) := rfl

/-- A document that shows a transaction, and says where the next page is. -/
def pageDocument (next : Json) (e : Entry) : Json :=
  .object [("next", next), ("results", .array [e.shown])]

theorem replyWith_pageDocument {next : Json} (hexact : next.IsExact)
    (hplain : next.plain? 1 = some next) (t : Transaction) (hash : Hash) :
    (replyWith (pageDocument next (.plain t hash))).plain? =
      some (pageDocument next (.plain t hash)) := by
  refine replyWith_plain ?_ ?_
  · simp [pageDocument, Entry.plain, shownPlainly, Bytes.toJson, Hash.toJson, Json.IsExact,
      Json.AreExact, Json.HasExact, hexact]
  · simp only [Json.plain?, Json.maxDepth] at hplain
    have hlast (name : String) (json : Json) : Json.insertMember name json [] = [(name, json)] :=
      rfl
    have hnext (json json' : Json) : Json.insertMember "next" json [("results", json')] =
        [("next", json), ("results", json')] := if_pos (by decide)
    have hdata (json json' : Json) : Json.insertMember "data" json [("safeTxHash", json')] =
        [("data", json), ("safeTxHash", json')] := if_pos (by decide)
    simp [pageDocument, Entry.plain, shownPlainly, Bytes.toJson, Hash.toJson, Json.plain?,
      Json.maxDepth, Json.plainWithin?, Json.plainMembers?, Json.plainItems?, hlast, hnext, hdata,
      hplain]

/-- A call that another owner of the wallet has proposed since. -/
def laterCall : Call := ⟨sharedCall.target, [9], "pause()", 0⟩

/-- A wallet for which two transactions wait, with one of them on each page. -/
def pagedListing : Listing where
  nonce := 7
  entries := [.plain (.ofCall laterCall 9) (.ofNat 1), .plain (.ofCall sharedCall 8) (.ofNat 2)]
  size := 1
  link target number := localBelow ["pages", target.checksum, toString number]
  descending := by decide
  distinct := by decide
  size_pos := by decide

namespace Paged

/-- Where its service tells the nonce. -/
def infoUrl : Url := localBelow (Client.walletNames sharedWallet ++ [""])

/-- Where the first page is. -/
def firstUrl : Url := localQueue sharedWallet [("to", sharedCall.target.checksum)]

/-- Where the second page is. -/
def secondUrl : Url := pagedListing.link sharedCall.target 1

/-- The nonce. -/
def info : Json := .object [("nonce", .integer 7)]

/-- The first page. -/
def first : Json := pageDocument (.string secondUrl.text) (.plain (.ofCall laterCall 9) (.ofNat 1))

/-- The second page. -/
def second : Json := pageDocument .null (.plain (.ofCall sharedCall 8) (.ofNat 2))

/-- All that its service tells. -/
def documents : List (Url × Json) := [(infoUrl, info), (firstUrl, first), (secondUrl, second)]

theorem urls_nodup : (documents.map Prod.fst).Nodup := by
  have hquery : firstUrl.query ≠ none := Option.some_ne_none _
  have hfirst : infoUrl ≠ firstUrl := fun h => hquery (h ▸ rfl)
  have hlast : firstUrl ≠ secondUrl := fun h => hquery (h ▸ rfl)
  have hsecond : infoUrl ≠ secondUrl := fun h => by
    have hsegments := Url.Location.segments.inj (congrArg Url.location h)
    exact absurd (congrArg List.length hsegments) (by simp [Client.walletNames])
  simp [documents, hfirst, hsecond, hlast]

theorem plain_documents : ∀ found ∈ documents, (replyWith found.2).plain? = some found.2 := by
  have hinfo : (replyWith info).plain? = some info :=
    replyWith_plain (by simp [info, Json.IsExact, Json.HasExact]) rfl
  have hfirst : (replyWith first).plain? = some first :=
    replyWith_pageDocument (by simp [Json.IsExact]) rfl _ _
  have hsecond : (replyWith second).plain? = some second :=
    replyWith_pageDocument (by simp [Json.IsExact]) rfl _ _
  simp [documents, hinfo, hfirst, hsecond]

theorem hasPage_iff {number : Nat} :
    pagedListing.HasPage sharedCall.target number ↔ number = 0 ∨ number = 1 := by
  have hlength : (pagedListing.waiting sharedCall.target).length = 2 := rfl
  have hsize : pagedListing.size = 1 := rfl
  rw [Listing.HasPage, hlength, hsize]
  omega

theorem shows_first : pagedListing.Shows sharedCall.target 0 first := by
  refine ⟨rfl, ?_⟩
  rw [if_pos (hasPage_iff.mpr (.inr rfl))]
  rfl

theorem shows_second : pagedListing.Shows sharedCall.target 1 second := by
  refine ⟨rfl, ?_⟩
  rw [if_neg (fun h => by simpa using hasPage_iff.mp h)]
  rfl

theorem available {address : Url} {document : Json} (hmem : (address, document) ∈ documents) :
    Available (serving documents) address document := by
  refine available_of_mem plain_documents urls_nodup ?_ hmem
  simp only [documents, List.mem_cons, Prod.mk.injEq, List.not_mem_nil, or_false] at hmem
  rcases hmem with ⟨rfl, -⟩ | ⟨rfl, -⟩ | ⟨rfl, -⟩
  · rfl
  · exact congrArg Http.schemes.contains (Url.withPairs_scheme _ _)
  · rfl

theorem served :
    pagedListing.ServedBy localService sharedWallet sharedCall.target (serving documents) := by
  refine ⟨?_, ⟨infoUrl, info, available (by simp [documents]), local_walletUrl sharedWallet⟩,
    ⟨firstUrl, first, available (by simp [documents]), local_queueUrl sharedWallet _⟩⟩
  intro address reply document hreply _ hplain
  have hdocument {told : Json} : (address, told) ∈ documents → told = document :=
    told_of_serving plain_documents urls_nodup hreply hplain
  refine ⟨fun hwallet => ?_, fun number hnumber hpage => ?_⟩
  · obtain rfl : infoUrl = address :=
      Except.ok.inj ((local_walletUrl sharedWallet).symm.trans hwallet)
    obtain rfl : info = document := hdocument (by simp [documents])
    exact .inl rfl
  · rcases hasPage_iff.mp hnumber with rfl | rfl
    · obtain rfl : firstUrl = address :=
        Except.ok.inj ((local_queueUrl sharedWallet _).symm.trans hpage)
      obtain rfl : first = document := hdocument (by simp [documents])
      exact shows_first
    · obtain rfl : secondUrl = address := Except.ok.inj hpage
      obtain rfl : second = document := hdocument (by simp [documents])
      exact shows_second

end Paged

/-- **A transaction on the second page is not found.** It waits, and its page is there for whoever
follows the first one. -/
theorem second_page_unread :
    pagedListing.ServedBy localService sharedWallet sharedCall.target (serving Paged.documents) ∧
      Available (serving Paged.documents) (pagedListing.link sharedCall.target 1) Paged.second ∧
      pagedListing.Shows sharedCall.target 1 Paged.second ∧
      (∃ e ∈ pagedListing.waiting sharedCall.target, e.Carries sharedCall.payload) ∧
      (Client.mk (answering (serving Paged.documents)) localService).findPending sharedWallet
        sharedCall.target sharedCall.payload = (pure none : Action Id (Option Hash)) ∧
      ¬ pagedListing.Right sharedCall.target sharedCall.payload none := by
  have hwaits : ∃ e ∈ pagedListing.waiting sharedCall.target, e.Carries sharedCall.payload :=
    ⟨.plain (.ofCall sharedCall 8) (.ofNat 2), List.mem_of_mem_tail List.mem_cons_self, rfl,
      Entry.plain_readable _ _⟩
  have hpage : ∀ e ∈ pagedListing.page sharedCall.target 0, ¬ e.Carries sharedCall.payload := by
    intro e he hcarries
    obtain rfl := List.mem_singleton.mp he
    exact absurd hcarries.1 (by decide)
  obtain ⟨found, hfound, hfinds⟩ := Paged.served.findPending sharedCall.payload
  obtain rfl : found = none := by
    rcases found with - | hash
    · rfl
    · obtain ⟨e, hfirst, -⟩ := hfinds
      exact absurd hfirst.carries (hpage e hfirst.mem)
  obtain ⟨e, he, hcarries⟩ := hwaits
  exact ⟨Paged.served, Paged.available (.tail _ (.tail _ (.head _))), Paged.shows_second,
    ⟨e, he, hcarries⟩, hfound, fun h => h e he hcarries⟩

/-- The call that was proposed since is found. -/
theorem findPending_first_page_later :
    pagedListing.ServedBy localService sharedWallet sharedCall.target (serving Paged.documents) ∧
      (Client.mk (answering (serving Paged.documents)) localService).findPending sharedWallet
        sharedCall.target laterCall.payload = (pure (some (.ofNat 1)) : Action Id (Option Hash)) ∧
      pagedListing.Right sharedCall.target laterCall.payload (some (.ofNat 1)) := by
  have hcarries : (Entry.plain (.ofCall laterCall 9) (.ofNat 1)).Carries laterCall.payload :=
    ⟨rfl, Entry.plain_readable _ _⟩
  obtain ⟨found, hfound, hfinds, hright⟩ := findPending_first_page laterCall.payload Paged.served
  rcases found with - | hash
  · exact absurd hcarries (hfinds _ List.mem_cons_self)
  · obtain ⟨e, hfirst, rfl⟩ := hfinds
    obtain rfl := List.mem_singleton.mp hfirst.mem
    exact ⟨Paged.served, hfound, hright.mpr (.inl ⟨_, List.mem_cons_self, hcarries⟩)⟩

end ProxyUpgrade.Wallet
