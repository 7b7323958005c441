import ProxyUpgrade.Proofs.Files.Ready
import ProxyUpgrade.Proofs.History.Document
import ProxyUpgrade.Proofs.History.Untimed
/-!
# Calls on the history

The history is called again and again, each time at some moment, on a store that may have been
opened just then. A store keeps a manifest (`History.Opening.Keeps`) if it answers as that manifest
would, and then what a call returns depends on the manifest alone (`History.answer_eq`). A store in
memory keeps the manifest that it holds (`History.keeps_memory`), and a store in a file one that is
read from there, wherever a file can be made (`History.keeps_file`).

The moments of the calls show in the times of aliases only: other moments lead to manifests that say
the same apart from times, and to replies that do (`History.Manifest.replies_untimed`).
-/

namespace ProxyUpgrade.History

open ProxyUpgrade.Action Document

variable {σ γ δ : Type}

/-- A call on the history. -/
inductive Call where
  | record (code : Hash) (address : Address)
  | ofAddress (address : Address)
  | ofCode (code : Hash)
  | groups
  deriving DecidableEq

/-- A call, and the moment at which it is made. -/
structure Timed where
  call : Call
  time : Timestamp

/-- What a call returns. -/
inductive Reply (γ : Type) where
  | recorded (outcome : Except Error γ)
  | found (outcome : Except Error (Option γ))
  | listed (outcome : Except Error (List γ))

/-- A reply with something else made of its groups. -/
def Reply.map (f : γ → δ) : Reply γ → Reply δ
  | .recorded outcome => .recorded (outcome.map f)
  | .found outcome => .found (outcome.map (Option.map f))
  | .listed outcome => .listed (outcome.map (List.map f))

/-- A store that can be opened at any moment. -/
abbrev Opening (σ : Type) : Type := Timestamp → Store (StateM σ)

/-- What a call returns on a state of a store, and the state that it leaves. -/
def answer (store : Opening σ) (s : σ) : Timed → Reply Group × σ
  | ⟨.record code address, time⟩ =>
    (((store time).record code address).onState s).map .recorded id
  | ⟨.ofAddress address, time⟩ => (((store time).ofAddress address).onState s).map .found id
  | ⟨.ofCode code, time⟩ => (((store time).ofCode code).onState s).map .found id
  | ⟨.groups, time⟩ => ((store time).groups.onState s).map .listed id

/-- The state that calls leave. -/
def after (store : Opening σ) (calls : List Timed) (s : σ) : σ :=
  calls.foldl (fun s timed => (answer store s timed).2) s

/-- What calls made one after another return. -/
def replies (store : Opening σ) : List Timed → σ → List (Reply Group)
  | [], _ => []
  | timed :: calls, s => (answer store s timed).1 :: replies store calls (answer store s timed).2

/-! ### Calls on a manifest -/

namespace Manifest

/-- The manifest that a call leaves. -/
def next (manifest : Manifest) : Timed → Manifest
  | ⟨.record code address, time⟩ => (manifest.record time code address).2
  | _ => manifest

/-- What a call returns on a manifest. -/
def reply (manifest : Manifest) : Timed → Reply Group
  | ⟨.record code address, time⟩ => .recorded (.ok (manifest.record time code address).1)
  | ⟨.ofAddress address, _⟩ => .found (.ok (manifest.ofAddress? address))
  | ⟨.ofCode code, _⟩ => .found (.ok (manifest.ofCode? code))
  | ⟨.groups, _⟩ => .listed (.ok manifest)

/-- The manifest that calls leave. -/
def after (manifest : Manifest) (calls : List Timed) : Manifest := calls.foldl next manifest

/-- What calls made one after another return on a manifest. -/
def replies (manifest : Manifest) : List Timed → List (Reply Group)
  | [] => []
  | timed :: calls => manifest.reply timed :: replies (manifest.next timed) calls

/-- A call at another moment gives another time to an alias, and nothing else. -/
theorem next_untimed {manifest other : Manifest} (h : other.untimed = manifest.untimed)
    {timed later : Timed} (hcall : later.call = timed.call) :
    (other.reply later).map Group.untimed = (manifest.reply timed).map Group.untimed ∧
      (other.next later).untimed = (manifest.next timed).untimed := by
  obtain ⟨call, time⟩ := timed
  obtain ⟨call', time'⟩ := later
  obtain rfl : call' = call := hcall
  cases call' with
  | record code address =>
    obtain ⟨hgroup, hmanifest⟩ := untimed_record h time time' code address
    exact ⟨congrArg (fun group => Reply.recorded (.ok group)) hgroup, hmanifest⟩
  | ofAddress address =>
    exact ⟨congrArg (fun group => Reply.found (.ok group)) (ofAddress?_untimed h address), h⟩
  | ofCode code =>
    exact ⟨congrArg (fun group => Reply.found (.ok group)) (ofCode?_untimed h code), h⟩
  | groups => exact ⟨congrArg (fun groups => Reply.listed (.ok groups)) h, h⟩

/-- **The moments of the calls make no difference but in times.** -/
theorem replies_untimed {manifest other : Manifest} (h : other.untimed = manifest.untimed)
    {calls later : List Timed} (hcalls : later.map (·.call) = calls.map (·.call)) :
    (other.replies later).map (Reply.map Group.untimed) =
      (manifest.replies calls).map (Reply.map Group.untimed) := by
  induction calls generalizing manifest other later with
  | nil =>
    obtain rfl : later = [] := by simpa using hcalls
    rfl
  | cons timed calls ih =>
    obtain - | ⟨first, later⟩ := later
    · cases hcalls
    obtain ⟨hfirst, hrest⟩ := List.cons.inj hcalls
    obtain ⟨hreply, hnext⟩ := next_untimed h hfirst
    exact List.cons_eq_cons.mpr ⟨hreply, ih hnext hrest⟩

end Manifest

/-! ### Stores that keep a manifest -/

/-- The states of a store hold a manifest, which is what is read, and what is recorded in. -/
structure Opening.Keeps (store : Opening σ) (holds : σ → Manifest → Prop) : Prop where
  record : ∀ {s manifest} time code address, holds s manifest →
    ∃ s', ((store time).record code address).onState s =
        (.ok (manifest.record time code address).1, s') ∧
      holds s' (manifest.record time code address).2
  ofAddress : ∀ {s manifest} time address, holds s manifest →
    ((store time).ofAddress address).onState s = (.ok (manifest.ofAddress? address), s)
  ofCode : ∀ {s manifest} time code, holds s manifest →
    ((store time).ofCode code).onState s = (.ok (manifest.ofCode? code), s)
  groups : ∀ {s manifest} time, holds s manifest →
    (store time).groups.onState s = (.ok manifest, s)

section Keeps

variable {store : Opening σ} {holds : σ → Manifest → Prop} {s : σ} {manifest : Manifest}

/-- **What a call returns is determined by the manifest**, and so is the manifest that it leaves. -/
theorem answer_eq (h : store.Keeps holds) (hs : holds s manifest) (timed : Timed) :
    ∃ s', answer store s timed = (manifest.reply timed, s') ∧ holds s' (manifest.next timed) := by
  obtain ⟨call, time⟩ := timed
  cases call with
  | record code address =>
    obtain ⟨s', hrecord, hs'⟩ := h.record time code address hs
    exact ⟨s', by rw [answer, hrecord]; rfl, hs'⟩
  | ofAddress address => exact ⟨s, by rw [answer, h.ofAddress time address hs]; rfl, hs⟩
  | ofCode code => exact ⟨s, by rw [answer, h.ofCode time code hs]; rfl, hs⟩
  | groups => exact ⟨s, by rw [answer, h.groups time hs]; rfl, hs⟩

theorem holds_after (h : store.Keeps holds) (hs : holds s manifest) (calls : List Timed) :
    holds (after store calls s) (manifest.after calls) := by
  induction calls generalizing s manifest with
  | nil => exact hs
  | cons timed calls ih =>
    obtain ⟨s', hanswer, hs'⟩ := answer_eq h hs timed
    obtain rfl : (answer store s timed).2 = s' := congrArg Prod.snd hanswer
    exact ih hs'

theorem replies_eq (h : store.Keeps holds) (hs : holds s manifest) (calls : List Timed) :
    replies store calls s = manifest.replies calls := by
  induction calls generalizing s manifest with
  | nil => rfl
  | cons timed calls ih =>
    obtain ⟨s', hanswer, hs'⟩ := answer_eq h hs timed
    rw [replies, Manifest.replies, hanswer, ih hs']

end Keeps

/-! ### The two stores -/

/-- A store in memory, with the manifest for its state. -/
def Opening.memory : Opening Manifest := fun time => .memory Cell.state (pure time)

/-- A store in a file of a tree. -/
def Opening.file (path : Path) : Opening Files.Tree := fun time => .file held path (pure time)

/-- A store in memory keeps the manifest that it holds. -/
theorem keeps_memory : Opening.memory.Keeps fun s manifest => s = manifest where
  record := by
    rintro _ manifest time code address rfl
    exact ⟨_, rfl, rfl⟩
  ofAddress := by
    rintro _ manifest time address rfl
    rfl
  ofCode := by
    rintro _ manifest time code rfl
    rfl
  groups := by
    rintro _ manifest time rfl
    rfl

/-- **A store in a file keeps the manifest that is kept there.** -/
theorem keeps_of_kept {path : Path} {holds : Files.Tree → Manifest → Prop}
    (h : Kept Store.format path holds) : (Opening.file path).Keeps holds where
  record time code address hholds := by
    obtain ⟨tree', hupdate, hholds'⟩ :=
      h.change (fun manifest => manifest.record time code address) hholds
    exact ⟨tree', (onState_bind_ok rfl _).trans hupdate, hholds'⟩
  ofAddress _ _ hholds := onState_bind_ok (h.load_eq hholds) _
  ofCode _ _ hholds := onState_bind_ok (h.load_eq hholds) _
  groups _ hholds := h.load_eq hholds

theorem keeps_file {path : Path} (hlock : path.extension? ≠ some "lock") :
    (Opening.file path).Keeps (Holds Store.format path) :=
  keeps_of_kept (kept_holds Manifest.faithful hlock)

end ProxyUpgrade.History
