import ProxyUpgrade.Build.Source
import ProxyUpgrade.Proofs.Files.Document
/-!
# The order in which a directory is listed

The compiler's input of a contract is looked for in the documents of `build-info`, one after
another, as the system lists them. The search ends at the first document that has the source or
cannot be read (`Build.findInput_onState`), so what is found may depend on the order of the list: it
does not, up to the kind of a failure, exactly if all documents that could end the search end it
alike (`Build.source_listed`).

A directory to which each build adds a document is not like that. After a source was changed there
are two documents that have it, and either input may be found (`Build.source_stale`).
-/

namespace ProxyUpgrade

/-- An order in which directories are listed. -/
structure Files.Order where
  arrange : List String → List String
  perm : ∀ names, (arrange names).Perm names

/-- The same files, with directories listed in another order. -/
def Files.listing {m : Type → Type} [Monad m] (files : Files m) (order : Files.Order) : Files m :=
  { files with list := fun path => do pure ((← files.list path).map order.arrange) }

namespace Build

open ProxyUpgrade.Action Files

variable {tree : Tree} {directory : Path} {order : Files.Order} {name source : String}

/-- The output of a build in a tree of files, in which directories are listed in some order. -/
abbrev listed (directory : Path) (order : Files.Order) : Build (StateM Tree) :=
  ⟨Document.held.listing order, directory⟩

theorem inputs_listed : (listed directory order).inputs = directory.join "build-info" := rfl

/-- What is read of a document of a build. -/
def documentIn {α : Type} (tree : Tree) (what : String) (read : Json → Option α) (path : Path) :
    Except Error α :=
  (textOf path (tree.read path)).bind (documentOf what read path)

theorem documentPath_listed : (listed directory order).documentPath name =
    (directory.join (name ++ ".sol")).join (name ++ ".json") := rfl

theorem list_onState (path : Path) :
    onState (ExceptT.lift ((Document.held.listing order).list path)) tree =
      (.ok ((tree.list path).map order.arrange), tree) := rfl

theorem document_onState {α : Type} (what : String) (read : Json → Option α) (path : Path) :
    ((listed directory order).document what read path).onState tree =
      (documentIn tree what read path, tree) := by
  have htext : ((listed directory order).text path).onState tree =
      (textOf path (tree.read path), tree) := rfl
  rw [document, onState_bind, htext, documentIn]
  rcases textOf path (tree.read path) with e | text <;> rfl

/-! ### The search -/

/-- How the search for a source ends at a document, if it does: with its input or with a failure. -/
def verdict (tree : Tree) (directory : Path) (source name : String) :
    Option (Except Error (Path × Json)) :=
  let path := (directory.join "build-info").join name
  if path.extension? = some "json" then
    match documentIn tree "build info" input? path with
    | .ok input => if hasSource source input then some (.ok (path, input)) else none
    | .error e => some (.error e)
  else none

/-- How the search ends when no document has the source. -/
def unfound (directory : Path) (source : String) : Except Error (Path × Json) :=
  .error (.config ("no build info in " ++ directory.join "build-info" ++ " compiles " ++ source))

/-- The search is over at a document, or goes on with the others. -/
theorem findInput_cons (source name : String) (others : List String) :
    (findInput (listed directory order) source (name :: others)).onState tree =
      match verdict tree directory source name with
      | some ends => (ends, tree)
      | none => (findInput (listed directory order) source others).onState tree := by
  rw [findInput, inputs_listed, verdict]
  by_cases hjson : ((directory.join "build-info").join name).extension? = some "json"
  · rw [if_pos hjson, if_pos hjson, onState_bind, document_onState]
    rcases documentIn tree "build info" input? _ with e | input
    · rfl
    · by_cases hhas : hasSource source input = true
      · simp only [if_pos hhas]
        rfl
      · simp only [if_neg hhas]
  · rw [if_neg hjson, if_neg hjson]

/-- **The search ends at the first document at which it can.** -/
theorem findInput_onState (source : String) (names : List String) :
    (findInput (listed directory order) source names).onState tree =
      ((names.findSome? (verdict tree directory source)).getD (unfound directory source),
        tree) := by
  induction names with
  | nil => rfl
  | cons name others ih =>
    rw [findInput_cons, List.findSome?_cons]
    rcases verdict tree directory source name with - | ends
    · exact ih
    · rfl

/-- The source that the document of a contract names, along with all that it says. -/
def named (tree : Tree) (directory : Path) (name : String) : Except Error (Metadata × String) :=
  (documentIn tree "artifact" Metadata.ofDocument?
      ((directory.join (name ++ ".sol")).join (name ++ ".json"))).bind fun
    | none => .error (.config ("artifact " ++ name ++ " carries no compiler metadata"))
    | some metadata => match metadata.sourceOf? name with
      | none => .error (.config ("artifact " ++ name ++ " has no compilation target"))
      | some path => .ok (metadata, path)

/-- What a contract was built from, as it is found with the directory listed in some order. -/
def found (directory : Path) (order : Files.Order) (name : String) (tree : Tree) :
    Except Error Source :=
  (((listed directory order).source name).onState tree).1

/-- **The order matters for the search only.** -/
theorem found_eq : found directory order name tree =
    (named tree directory name).bind fun (metadata, path) =>
      match tree.list (directory.join "build-info") with
      | .error fault => .error (.config ("no build info in " ++ directory.join "build-info" ++
          " (build with --build-info): " ++ fault.message))
      | .ok names =>
        (((order.arrange names).findSome? (verdict tree directory path)).getD
          (unfound directory path)).map fun (origin, input) =>
            ⟨path ++ ":" ++ name, metadata.compiler, input, path, origin⟩ := by
  rw [found, Build.source, documentPath_listed, onState_bind, document_onState, named]
  generalize documentIn tree "artifact" Metadata.ofDocument? _ = document
  rcases document with e | - | metadata
  · rfl
  · rfl
  simp only [Except.bind]
  rcases metadata.sourceOf? name with - | path
  · rfl
  simp only [inputs_listed]
  rw [onState_bind_ok (list_onState (directory.join "build-info"))]
  rcases tree.list (directory.join "build-info") with fault | names
  · rfl
  simp only [Except.map, onState_bind, findInput_onState]
  rcases ((order.arrange names).findSome? (verdict tree directory path)).getD
    (unfound directory path) with e | ⟨origin, input⟩ <;> rfl

/-! ### The same in every order -/

/-- What an outcome comes to: what is to be seen of its value, or of what kind the failure is. -/
def outline {α β : Type} (view : α → β) (outcome : Except Error α) : Except Nat β :=
  (outcome.map view).mapError Error.ctorIdx

/-- What it takes to build a contract again, without where it was found. -/
def Source.bundle (source : Source) : String × String × Json :=
  (source.contractPath, source.compiler, source.input)

/-- All documents that could end the search for the source of a contract end it alike. -/
def Agreed (tree : Tree) (directory : Path) (name : String) : Prop :=
  ∀ metadata path names, named tree directory name = .ok (metadata, path) →
    tree.list (directory.join "build-info") = .ok names →
    ∀ first ∈ names, ∀ second ∈ names, ∀ ends ends',
      verdict tree directory path first = some ends →
      verdict tree directory path second = some ends' →
        outline Prod.snd ends = outline Prod.snd ends'

/-- The order in which a name comes first, where it is listed at all. -/
def first (name : String) : Files.Order where
  arrange names := if name ∈ names then name :: names.erase name else names
  perm names := by
    split
    next h => exact (List.perm_cons_erase h).symm
    next => exact .refl _

section Search

variable {β γ : Type} {search : String → Option β} {names : List String}

theorem findSome?_first {name : String} {ends : β} (hname : name ∈ names)
    (hends : search name = some ends) :
    ((first name).arrange names).findSome? search = some ends := by
  simp [first, hname, hends]

/-- **A search comes to the same in every order** if it comes to the same wherever it may end. -/
theorem findSome?_agree {view : β → γ} (hagree : ∀ first ∈ names, ∀ second ∈ names,
      ∀ ends ends', search first = some ends → search second = some ends' → view ends = view ends')
    (order order' : Files.Order) (unfound : β) :
    view (((order.arrange names).findSome? search).getD unfound) =
      view (((order'.arrange names).findSome? search).getD unfound) := by
  have hmem : ∀ (order : Files.Order) name, name ∈ order.arrange names ↔ name ∈ names :=
    fun order name => (order.perm names).mem_iff
  rcases hfirst : (order.arrange names).findSome? search with - | ends
  · -- Where no name ends the search in one order, none does in the other.
    have hnone : (order'.arrange names).findSome? search = none := by
      rw [List.findSome?_eq_none_iff] at hfirst ⊢
      exact fun name hname => hfirst name ((hmem order name).mpr ((hmem order' name).mp hname))
    rw [hnone]
  obtain ⟨name, hname, hends⟩ := List.exists_of_findSome?_eq_some hfirst
  rcases hsecond : (order'.arrange names).findSome? search with - | ends'
  · rw [List.findSome?_eq_none_iff] at hsecond
    rw [hsecond name ((hmem order' name).mpr ((hmem order name).mp hname))] at hends
    cases hends
  obtain ⟨name', hname', hends'⟩ := List.exists_of_findSome?_eq_some hsecond
  exact hagree name ((hmem order name).mp hname) name' ((hmem order' name').mp hname') ends ends'
    hends hends'

end Search

theorem outline_map_iff {compiler contractPath path : String}
    {ends ends' : Except Error (Path × Json)} :
    outline Source.bundle (ends.map fun (origin, input) =>
        ⟨contractPath, compiler, input, path, origin⟩) =
      outline Source.bundle (ends'.map fun (origin, input) =>
        ⟨contractPath, compiler, input, path, origin⟩) ↔
      outline Prod.snd ends = outline Prod.snd ends' := by
  rcases ends with e | ⟨origin, input⟩ <;> rcases ends' with e' | ⟨origin', input'⟩ <;>
    simp [outline, Except.map, Except.mapError, Source.bundle]

/-- **What is found is the same in every order** if and only if all documents that could end the
search end it alike. -/
theorem found_agree_iff :
    (∀ order order' : Files.Order, outline Source.bundle (found directory order name tree) =
      outline Source.bundle (found directory order' name tree)) ↔ Agreed tree directory name := by
  simp only [found_eq, Agreed]
  rcases named tree directory name with e | ⟨metadata, path⟩
  · exact iff_of_true (fun _ _ => rfl) (by simp)
  rcases tree.list (directory.join "build-info") with fault | names
  · exact iff_of_true (fun _ _ => rfl) (by simp)
  simp only [Except.bind, outline_map_iff, Except.ok.injEq, Prod.mk.injEq]
  constructor
  · rintro h _ _ _ ⟨rfl, rfl⟩ rfl name hname name' hname' ends ends' hends hends'
    have hfirst := h (first name) (first name')
    rwa [findSome?_first hname hends, findSome?_first hname' hends'] at hfirst
  · intro h order order'
    exact findSome?_agree (h metadata path names ⟨rfl, rfl⟩ rfl) order order' _

/-! ### What a contract was built from -/

/-- **A contract was built from a source**: the document of the contract says so, and the input has
the source. -/
structure BuiltFrom (tree : Tree) (directory : Path) (name : String) (source : Source) : Prop where
  contractPath : source.contractPath = source.path ++ ":" ++ name
  /-- The document of the contract names the compiler, and the contract as the target of the source.
  -/
  target : ∃ metadata, documentIn tree "artifact" Metadata.ofDocument?
      ((directory.join (name ++ ".sol")).join (name ++ ".json")) = .ok (some metadata) ∧
    (source.path, name) ∈ metadata.targets ∧ source.compiler = metadata.compiler
  /-- The input is that of a document of `build-info`. -/
  origin : ∃ names listed, tree.list (directory.join "build-info") = .ok names ∧ listed ∈ names ∧
    source.origin = (directory.join "build-info").join listed ∧
    documentIn tree "build info" input? source.origin = .ok source.input
  /-- It has the source. -/
  content : ∃ content, (source.input.member? "sources").bind (·.member? source.path) = some content

theorem named_eq_ok {metadata : Metadata} {path : String}
    (h : named tree directory name = .ok (metadata, path)) :
    documentIn tree "artifact" Metadata.ofDocument?
        ((directory.join (name ++ ".sol")).join (name ++ ".json")) = .ok (some metadata) ∧
      (path, name) ∈ metadata.targets := by
  rw [named] at h
  generalize documentIn tree "artifact" Metadata.ofDocument? _ = document at h ⊢
  rcases document with e | - | found
  · cases h
  · cases h
  simp only [Except.bind] at h
  rcases hsource : found.sourceOf? name with - | source
  · simp [hsource] at h
  simp only [hsource, Except.ok.injEq, Prod.mk.injEq] at h
  obtain ⟨rfl, rfl⟩ := h
  obtain ⟨⟨source, contract⟩, hfind, rfl⟩ := Option.map_eq_some_iff.mp hsource
  obtain rfl : contract = name := by simpa using List.find?_some hfind
  exact ⟨rfl, List.mem_of_find?_eq_some hfind⟩

theorem verdict_eq_ok {origin : Path} {input : Json}
    (h : verdict tree directory source name = some (.ok (origin, input))) :
    origin = (directory.join "build-info").join name ∧
      documentIn tree "build info" input? origin = .ok input ∧ hasSource source input = true := by
  rw [verdict] at h
  split at h
  next hjson =>
    split at h
    next found hread =>
      split at h
      next hhas =>
        simp only [Option.some.injEq, Except.ok.injEq, Prod.mk.injEq] at h
        obtain ⟨rfl, rfl⟩ := h
        exact ⟨rfl, hread, hhas⟩
      next => cases h
    next => simp at h
  next => cases h

/-- **What is found is what the contract was built from**, in whatever order the directory is
listed. -/
theorem builtFrom_of_found {source : Source} (h : found directory order name tree = .ok source) :
    BuiltFrom tree directory name source := by
  rw [found_eq] at h
  rcases hnamed : named tree directory name with e | ⟨metadata, path⟩
  · rw [hnamed] at h
    cases h
  rw [hnamed] at h
  simp only [Except.bind] at h
  rcases hlist : tree.list (directory.join "build-info") with fault | names
  · simp [hlist] at h
  simp only [hlist] at h
  rcases hsearch : (order.arrange names).findSome? (verdict tree directory path) with - | ends
  · rw [hsearch] at h
    cases h
  rw [hsearch, Option.getD_some] at h
  rcases ends with e | ⟨origin, input⟩
  · cases h
  obtain rfl := Except.ok.inj h
  obtain ⟨listed, hlisted, hends⟩ := List.exists_of_findSome?_eq_some hsearch
  obtain ⟨horigin, hread, hhas⟩ := verdict_eq_ok hends
  obtain ⟨hdocument, htarget⟩ := named_eq_ok hnamed
  exact ⟨rfl, ⟨metadata, hdocument, htarget, rfl⟩,
    ⟨names, listed, hlist, (order.perm names).mem_iff.mp hlisted, horigin, hread⟩,
    Option.isSome_iff_exists.mp hhas⟩

/-- **What a contract was built from is the same in every order** if and only if all documents that
could end the search end it alike. In any order it is a source whose target the contract is, with an
input that has the source. -/
theorem source_listed (tree : Tree) (directory : Path) (name : String) :
    ((∀ order order' : Files.Order, outline Source.bundle (found directory order name tree) =
      outline Source.bundle (found directory order' name tree)) ↔ Agreed tree directory name) ∧
    ∀ (order : Files.Order) (source : Source), found directory order name tree = .ok source →
      BuiltFrom tree directory name source :=
  ⟨found_agree_iff, fun _ _ => builtFrom_of_found⟩

/-! ### A source that was changed between two builds -/

/-- A document that is kept in its file as it is printed is read. -/
theorem documentIn_of_find {α : Type} {path : Path} {names : List String} {json : Json}
    (h : tree.find path = .ok (names, .file (.ofText json.pretty))) (hexact : json.IsExact)
    {read : Json → Option α} {value : α} (hread : read json = some value) (what : String) :
    documentIn tree what read path = .ok value := by
  have htext : tree.read path = .ok json.pretty := by
    simp [Tree.read, h, Bytes.toText?_ofText, bind, Except.bind, pure, Except.pure]
  rw [documentIn, htext]
  simp [textOf, documentOf, Except.bind, Json.parse?_pretty hexact, hread]

/-- The input of a compiler for one source. -/
def inputOf (content : String) : Json :=
  .object [("sources", .object [("src/Box.sol", .object [("content", .string content)])])]

/-- The document of one contract. -/
def boxDocument : Json :=
  .object [("metadata", .object [("compiler", .object [("version", .string "0.8.20")]),
    ("settings", .object [("compilationTarget", .object [("src/Box.sol", .string "Box")])])])]

/-- The output of two builds, between which a source was changed. -/
def staleTree : Tree where
  nodes := [(["out"], .directory), (["out", "Box.sol"], .directory),
    (["out", "Box.sol", "Box.json"], .file (.ofText boxDocument.pretty)),
    (["out", "build-info"], .directory),
    (["out", "build-info", "new.json"],
      .file (.ofText (Json.object [("input", inputOf "contract Box { uint256 n; }")]).pretty)),
    (["out", "build-info", "old.json"],
      .file (.ofText (Json.object [("input", inputOf "contract Box {}")]).pretty))]
  sound := by simp [Tree.lookup, List.lookup_cons]

/-- The metadata in the document of the contract. -/
def boxMetadata : Metadata := ⟨"0.8.20", [("src/Box.sol", "Box")]⟩

theorem ofDocument?_box : Metadata.ofDocument? boxDocument = some (some boxMetadata) := by
  rfl

theorem input?_inputOf (content : String) :
    input? (.object [("input", inputOf content)]) = some (inputOf content) := by
  simp [input?, inputOf, Json.fields?, Json.distinct, Json.Fields.required, Json.Fields.get?,
    Json.plain?, Json.maxDepth, Json.plainWithin?, Json.plainMembers?, Json.insertMember]

theorem named_stale : named staleTree "out" "Box" = .ok (boxMetadata, "src/Box.sol") := by
  have hplace : Path.join (Path.join "out" ("Box" ++ ".sol")) ("Box" ++ ".json") =
      "out/Box.sol/Box.json" := by decide +kernel
  have hdocument : documentIn staleTree "artifact" Metadata.ofDocument? "out/Box.sol/Box.json" =
      .ok (some boxMetadata) :=
    documentIn_of_find rfl (by simp [boxDocument, Json.IsExact, Json.HasExact]) ofDocument?_box _
  rw [named, hplace, hdocument]
  rfl

/-- The search ends at either of the two inputs. -/
theorem verdict_stale {name : String} (path : Path) (content : String)
    (hplace : Path.join "out/build-info" name = path) (hjson : path.extension? = some "json")
    (hfind : staleTree.find path = .ok (["out", "build-info", name], .file (.ofText
      (Json.object [("input", inputOf content)]).pretty))) :
    verdict staleTree "out" "src/Box.sol" name = some (.ok (path, inputOf content)) := by
  have hroot : Path.join "out" "build-info" = "out/build-info" := by decide +kernel
  have hdocument := documentIn_of_find hfind
    (by simp [inputOf, Json.IsExact, Json.HasExact]) (input?_inputOf content) "build info"
  rw [verdict, hroot, hplace]
  simp only [hjson, if_true, hdocument]
  rfl

theorem list_stale : ∃ names, staleTree.list "out/build-info" = .ok names ∧
    "new.json" ∈ names ∧ "old.json" ∈ names := by
  have hfind : staleTree.find "out/build-info" = .ok (["out", "build-info"], .directory) := rfl
  simp only [Tree.list, hfind, bind, Except.bind]
  exact ⟨_, rfl, by simp [staleTree], by simp [staleTree]⟩

/-- What is found when a document is listed first. -/
theorem found_stale {name content : String} {path : Path}
    (hname : ∀ names, staleTree.list "out/build-info" = .ok names → name ∈ names)
    (hends : verdict staleTree "out" "src/Box.sol" name = some (.ok (path, inputOf content))) :
    outline Source.bundle (found "out" (first name) "Box" staleTree) =
      .ok ("src/Box.sol:Box", "0.8.20", inputOf content) := by
  have hplace : Path.join "out" "build-info" = "out/build-info" := by decide +kernel
  obtain ⟨names, hlist, -⟩ := list_stale
  rw [found_eq, named_stale, hplace, hlist]
  simp only [Except.bind, findSome?_first (hname names hlist) hends]
  rfl

/-- **What a contract was built from depends on the order** in which the directory is listed: if the
source was changed between two builds, it is either the present input or the former one. -/
theorem source_stale :
    outline Source.bundle (found "out" (first "new.json") "Box" staleTree) =
      .ok ("src/Box.sol:Box", "0.8.20", inputOf "contract Box { uint256 n; }") ∧
    outline Source.bundle (found "out" (first "old.json") "Box" staleTree) =
      .ok ("src/Box.sol:Box", "0.8.20", inputOf "contract Box {}") ∧
    ¬∀ order order' : Files.Order, outline Source.bundle (found "out" order "Box" staleTree) =
      outline Source.bundle (found "out" order' "Box" staleTree) := by
  obtain ⟨listed, hlist, hnew, hold⟩ := list_stale
  have hfirst : outline Source.bundle (found "out" (first "new.json") "Box" staleTree) =
      .ok ("src/Box.sol:Box", "0.8.20", inputOf "contract Box { uint256 n; }") :=
    found_stale (fun names h => by rwa [← Except.ok.inj (hlist.symm.trans h)])
      (verdict_stale "out/build-info/new.json" _ (by decide +kernel) (by decide +kernel) rfl)
  have hsecond : outline Source.bundle (found "out" (first "old.json") "Box" staleTree) =
      .ok ("src/Box.sol:Box", "0.8.20", inputOf "contract Box {}") :=
    found_stale (fun names h => by rwa [← Except.ok.inj (hlist.symm.trans h)])
      (verdict_stale "out/build-info/old.json" _ (by decide +kernel) (by decide +kernel) rfl)
  refine ⟨hfirst, hsecond, fun h => ?_⟩
  have hsame := h (first "new.json") (first "old.json")
  rw [hfirst, hsecond] at hsame
  simp [inputOf] at hsame

end Build

end ProxyUpgrade
