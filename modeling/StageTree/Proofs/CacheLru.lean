import Mathlib.Data.List.Basic
import StageTree.Tools.Workspace

/-!
# The cache is a least-recently-used list

A cache behaves as a list of entries, least recently used first, with two moves (`Store.Lru`):
making an entry the most recent (`Lru.touch`, every entry of its name taken out and it put last)
and evicting from the least recent end until at most the capacity remain (`Lru.trim`).

A get of a name whose entry has the digest of the bytes given returns that very entry and makes
it the most recent. Any other get that returns stores a fresh entry of the name and digest, made
the most recent, and then evicts; a get that fails leaves the entries as they were. Forgetting a
name takes its entries out and tells whether there were any; emptying leaves none; asking for a
name or for the count changes nothing. Getting a file refuses a file over the size limit, or no
file at all, before the cache is touched (`Store.Behaves`).

Main statement: `Store.Cache.run_follows_lru`. Along every run of calls from an empty cache of
any capacity, each call behaves so, and after each one the names are distinct and at most the
capacity. A text is a `String`, so a text holding a lone surrogate half is no text to get.
-/

namespace StageTree.Store

open StageTree.Tree

namespace Lru

/-- The entries with `e` made the most recent: every entry of its name taken out, `e` put last. -/
def touch (entries : List Entry) (e : Entry) : List Entry := entries.filter (·.uri != e.uri) ++ [e]

/-- The entries with the least recent evicted until at most `cap` remain. -/
def trim (cap : Nat) (entries : List Entry) : List Entry := entries.drop (entries.length - cap)

variable {entries : List Entry}

/-- Making an entry the most recent keeps the names distinct. -/
theorem nodup_touch (distinct : (entries.map (·.uri)).Nodup) (e : Entry) :
    ((touch entries e).map (·.uri)).Nodup := by
  rw [touch, List.map_append, List.nodup_append]
  refine ⟨distinct.sublist (List.filter_sublist.map _), by simp, ?_⟩
  intro a kept b last
  obtain ⟨x, mem, rfl⟩ := List.mem_map.1 kept
  rw [List.mem_singleton.1 last]
  simpa using (List.mem_filter.1 mem).2

/-- Making an entry of the list the most recent adds no entry: its old place is taken out. -/
theorem length_touch_le {e : Entry} (mem : e ∈ entries) :
    (touch entries e).length ≤ entries.length := by
  have fewer : (entries.filter (·.uri != e.uri)).length < entries.length :=
    List.length_filter_lt_length_iff_exists.2 ⟨e, mem, by simp⟩
  rw [touch, List.length_append, List.length_singleton]
  omega

/-- Evicting leaves at most the capacity. -/
theorem length_trim_le (cap : Nat) (entries : List Entry) : (trim cap entries).length ≤ cap := by
  rw [trim, List.length_drop]
  omega

end Lru

namespace Cache

/-- Dropping the oldest entries down to a capacity that is no negative number never runs out of
entries, and leaves the most recent ones. -/
theorem dropOldest_eq (cap : Nat) (entries : List Entry) :
    dropOldest cap entries = (Lru.trim cap entries, false) := by
  induction entries with
  | nil => simp [dropOldest, Lru.trim]
  | cons e rest ih =>
    rw [dropOldest]
    by_cases longer : ((e :: rest).length : Int) > cap
    · rw [if_pos longer, ih]
      have fewer : (e :: rest).length - cap = rest.length - cap + 1 := by
        simp only [List.length_cons] at longer ⊢
        omega
      simp only [Lru.trim, fewer, List.drop_succ_cons]
    · rw [if_neg longer]
      have nothing : (e :: rest).length - cap = 0 := by omega
      simp only [Lru.trim, nothing, List.drop_zero]

/-- The entry a name has: the first one of that name. -/
theorem lookup_uri {c : Cache} {uri : String} {e : Entry} (found : c.lookup uri = some e) :
    e.uri = uri := by
  have := List.find?_some found
  simpa using this

/-- Inserting into a cache of a capacity that is no negative number puts the entry last, in
place of the name's entries, and evicts the least recent. -/
theorem insert_eq {c : Cache} {cap : Nat} (capacity : c.capacity = cap) (e : Entry) :
    c.insert e = ({ c with entries := Lru.trim cap (Lru.touch c.entries e) }, false) := by
  simp only [insert, capacity, dropOldest_eq, Lru.touch]

/-- Reading a given text afresh either fails and leaves the cache as it was, or returns a fresh
entry of the name and digest, not reused, stored as the most recent with the least recent
evicted. -/
theorem readFresh_text {c : Cache} {cap : Nat} (capacity : c.capacity = cap)
    (uri hash : String) (bytes : ByteArray) (text : String) (maxNodes : Int) :
    (∃ f, c.readFresh uri hash bytes (some text) maxNodes = (.error f, c)) ∨
      ∃ e : Entry, e.uri = uri ∧ e.contentHash = hash ∧
        c.readFresh uri hash bytes (some text) maxNodes =
          (.ok (e, false), { c with entries := Lru.trim cap (Lru.touch c.entries e) }) := by
  cases readEq : Document.read text maxNodes with
  | error f => exact .inl ⟨.fault f, by simp [readFresh, readEq]⟩
  | ok document =>
    refine .inr ⟨⟨uri, hash, text, LineTable.ofText text, document⟩, rfl, rfl, ?_⟩
    simp only [readFresh, readEq, insert_eq capacity]
    rfl

/-- Reading afresh either fails and leaves the cache as it was, or returns a fresh entry of the
name and digest, not reused, stored as the most recent with the least recent evicted. -/
theorem readFresh_eq {c : Cache} {cap : Nat} (capacity : c.capacity = cap)
    (uri hash : String) (bytes : ByteArray) (text : Option String) (maxNodes : Int) :
    (∃ f, c.readFresh uri hash bytes text maxNodes = (.error f, c)) ∨
      ∃ e : Entry, e.uri = uri ∧ e.contentHash = hash ∧
        c.readFresh uri hash bytes text maxNodes =
          (.ok (e, false), { c with entries := Lru.trim cap (Lru.touch c.entries e) }) := by
  cases text with
  | some text => exact readFresh_text capacity uri hash bytes text maxNodes
  | none =>
    -- the bytes are decoded first, and their text read as a given one
    cases decodeEq : Text.Utf8.decodeDroppingMark bytes with
    | error e => exact .inl ⟨.undecodable (.decode e), by simp [readFresh, decodeEq, Except.mapError]⟩
    | ok text =>
      have decoded : c.readFresh uri hash bytes none maxNodes =
          c.readFresh uri hash bytes (some text) maxNodes := by
        simp [readFresh, decodeEq, Except.mapError]
      rw [decoded]
      exact readFresh_text capacity uri hash bytes text maxNodes

/-- A get either finds the name's entry with the digest of the bytes, gives it back and makes it
the most recent; or reads afresh. -/
theorem get_eq (c : Cache) (uri : String) (bytes : ByteArray) (text : Option String) (maxNodes : Int) :
    (∀ old, c.lookup uri = some old → old.contentHash = Sha256.hexDigest bytes →
      c.get uri bytes text maxNodes =
        (.ok (old, true), { c with entries := Lru.touch c.entries old })) ∧
    ((∀ old, c.lookup uri = some old → old.contentHash ≠ Sha256.hexDigest bytes) →
      c.get uri bytes text maxNodes =
        c.readFresh uri (Sha256.hexDigest bytes) bytes text maxNodes) := by
  constructor
  · intro old found same
    simp [get, found, same, Lru.touch, lookup_uri found]
  · intro differs
    cases found : c.lookup uri with
    | none => simp [get, found]
    | some old =>
      have other : ¬(old.contentHash == Sha256.hexDigest bytes) = true := by
        simpa using differs old found
      simp [get, found, other]

end Cache

end StageTree.Store

namespace StageTree.Tools

open Store

/-- The entry a file tool gives back, if it gives one. -/
def fileEntry? (r : Except Raised (Except FileProblem Entry)) : Option Entry :=
  match r with
  | .ok (.ok e) => some e
  | _ => none

/-- Getting a file touches the cache only by getting the file's bytes under its path, and only
when the path names a file within the size limit; the tool gives back the entry the get does. -/
theorem getFile_run (w : Workspace) (path : String) :
    match w.volume.stat (w.absolute path) with
    | .ok (.file bytes) =>
      if bytes.size > w.settings.maxFileSize then ((getFile path).run.run w).2.cache = w.cache
      else ((getFile path).run.run w).2.cache =
          (w.cache.get path bytes none w.settings.maxAstNodes).2 ∧
        fileEntry? ((getFile path).run.run w).1 =
          (w.cache.get path bytes none w.settings.maxAstNodes).1.toOption.map Prod.fst
    | _ => ((getFile path).run.run w).2.cache = w.cache := by
  simp only [getFile, ExceptT.run, StateT.run, bind, ExceptT.bind, ExceptT.bindCont, ExceptT.mk,
    StateT.bind, get, getThe, MonadStateOf.get, ExceptT.lift, liftM, monadLift,
    MonadLift.monadLift, StateT.get, set, MonadStateOf.set, pure, ExceptT.pure, Functor.map,
    StateT.map]
  cases stat : w.volume.stat (w.absolute path) with
  | error e => rfl
  | ok inode =>
    cases inode with
    | file bytes =>
      by_cases big : bytes.size > w.settings.maxFileSize
      · simp only [big, if_true]
        rfl
      · simp only [big, if_false]
        -- whatever the get gives, the tool keeps the cache it leaves
        cases (w.cache.get path bytes none w.settings.maxAstNodes).1 with
        | ok got => exact ⟨rfl, rfl⟩
        | error f => cases f <;> exact ⟨rfl, rfl⟩
    | dir => rfl
    | link _ => rfl

end StageTree.Tools

namespace StageTree.Store

/-- A call made on a cache. -/
inductive Call where
  /-- Getting a name's document from its text, read with a budget of nodes. -/
  | getText (uri : String) (text : Text.Str) (maxNodes : Int)
  /-- Getting the document of a file of a workspace's volume, with the workspace's settings. -/
  | getFile (files : Workspace) (path : String)
  /-- Forgetting a name. -/
  | invalidate (uri : String)
  /-- Forgetting every name. -/
  | clear
  /-- Asking whether a name has an entry. -/
  | contains (uri : String)
  /-- Asking for the number of entries. -/
  | size

/-- What a call answers. -/
inductive Answer where
  /-- A get of a text: the entry and whether it was reused, or why it failed. -/
  | got (r : Except Failure (Entry × Bool))
  /-- A get of a file: the entry, or why the file was refused or the get failed. -/
  | file (r : Except Raised (Except Tools.FileProblem Entry))
  /-- Whether a name had or has an entry. -/
  | flag (b : Bool)
  /-- The number of entries. -/
  | count (n : Nat)
  /-- Nothing. -/
  | done

namespace Cache

/-- A call made on a cache: its answer and the cache after it. A file is got by the file tool,
run in the workspace given with this cache. -/
def perform (c : Cache) : Call → Answer × Cache
  | .getText uri text maxNodes =>
    let got := c.getText uri text maxNodes
    (.got got.1, got.2)
  | .getFile files path =>
    let ran := (Tools.getFile path).run.run { files with cache := c }
    (.file ran.1, ran.2.cache)
  | .invalidate uri =>
    let forgot := c.invalidate uri
    (.flag forgot.2, forgot.1)
  | .clear => (.done, c.clear)
  | .contains uri => (.flag (c.contains uri), c)
  | .size => (.count c.size, c)

/-- One call of a run: the cache before it, the call, its answer and the cache after it. -/
structure Step where
  before : Cache
  call : Call
  answer : Answer
  after : Cache

/-- The steps of a run of calls from a cache, each call made on the cache the last one left. -/
def run (c : Cache) : List Call → List Step
  | [] => []
  | call :: rest => ⟨c, call, (c.perform call).1, (c.perform call).2⟩ :: run (c.perform call).2 rest

end Cache

/-- What a get of a name with a digest does, as a least-recently-used list of entries sees it:
a name whose entry has that digest gives that very entry back and makes it the most recent;
otherwise a get that gives an entry gives a fresh one of that name and digest, made the most
recent with the least recent evicted down to `cap`, and one that fails leaves the entries as
they were. -/
def Gets (cap : Nat) (before : Cache) (uri hash : String) (returned : Option Entry)
    (after : Cache) : Prop :=
  (∀ old, before.lookup uri = some old → old.contentHash = hash →
    returned = some old ∧ after.entries = Lru.touch before.entries old) ∧
  ((∀ old, before.lookup uri = some old → old.contentHash ≠ hash) →
    match returned with
    | some e => e.uri = uri ∧ e.contentHash = hash ∧
        after.entries = Lru.trim cap (Lru.touch before.entries e)
    | none => after.entries = before.entries)

/-- How a call behaves on a cache of capacity `cap`, as a least-recently-used list of entries
sees it. A get of a text tells whether it reused an entry; a get of a file is refused before
the cache is touched when the path names no file or one over the size limit; forgetting a name
takes its entries out and tells whether it had one; the questions change nothing. -/
def Behaves (cap : Nat) (before : Cache) : Call → Answer → Cache → Prop
  | .getText uri text _, .got r, after =>
    match Text.Utf8.encode text with
    | .error _ => (∃ f, r = .error f) ∧ after.entries = before.entries
    | .ok bytes =>
      Gets cap before uri (Sha256.hexDigest bytes) (r.toOption.map Prod.fst) after ∧
        ∀ e reused, r = .ok (e, reused) →
          (reused = true ↔ ∃ old, before.lookup uri = some old ∧
            old.contentHash = Sha256.hexDigest bytes)
  | .getFile files path, .file r, after =>
    match files.volume.stat (files.absolute path) with
    | .ok (.file bytes) =>
      if bytes.size > files.settings.maxFileSize then after.entries = before.entries
      else Gets cap before path (Sha256.hexDigest bytes) (Tools.fileEntry? r) after
    | _ => after.entries = before.entries
  | .invalidate uri, .flag had, after =>
    (had = true ↔ ∃ e ∈ before.entries, e.uri = uri) ∧
      after.entries = before.entries.filter (·.uri != uri)
  | .clear, .done, after => after.entries = []
  | .contains uri, .flag has, after =>
    (has = true ↔ ∃ e ∈ before.entries, e.uri = uri) ∧ after.entries = before.entries
  | .size, .count n, after => n = before.entries.length ∧ after.entries = before.entries
  | _, _, _ => False

namespace Cache

/-- A get behaves as a least-recently-used list sees it, tells whether it reused an entry, and
keeps the capacity. -/
theorem gets_get {c : Cache} {cap : Nat} (capacity : c.capacity = cap) (uri : String)
    (bytes : ByteArray) (text : Option String) (maxNodes : Int) :
    Gets cap c uri (Sha256.hexDigest bytes)
        ((c.get uri bytes text maxNodes).1.toOption.map Prod.fst) (c.get uri bytes text maxNodes).2 ∧
      (∀ e reused, (c.get uri bytes text maxNodes).1 = .ok (e, reused) →
        (reused = true ↔ ∃ old, c.lookup uri = some old ∧
          old.contentHash = Sha256.hexDigest bytes)) ∧
      (c.get uri bytes text maxNodes).2.capacity = cap := by
  obtain ⟨hit, miss⟩ := get_eq c uri bytes text maxNodes
  by_cases found : ∃ old, c.lookup uri = some old ∧ old.contentHash = Sha256.hexDigest bytes
  · -- the entry of the name has the digest: it is given back
    obtain ⟨old, look, same⟩ := found
    rw [hit old look same]
    refine ⟨⟨fun old' look' _ => ?_, fun differs => absurd same (differs old look)⟩,
      fun e reused got => ?_, capacity⟩
    · rw [look] at look'
      cases look'
      exact ⟨rfl, rfl⟩
    · cases got
      exact ⟨fun _ => ⟨old, look, same⟩, fun _ => rfl⟩
  · -- any other get reads afresh
    have differs : ∀ old, c.lookup uri = some old → old.contentHash ≠ Sha256.hexDigest bytes :=
      fun old look same => found ⟨old, look, same⟩
    rw [miss differs]
    rcases readFresh_eq capacity uri (Sha256.hexDigest bytes) bytes text maxNodes with
      ⟨f, failed⟩ | ⟨e, named, hashed, fresh⟩
    · rw [failed]
      exact ⟨⟨fun old look same => absurd same (differs old look), fun _ => rfl⟩,
        fun _ _ got => (by cases got), capacity⟩
    · rw [fresh]
      refine ⟨⟨fun old look same => absurd same (differs old look), fun _ => ⟨named, hashed, rfl⟩⟩,
        fun e' reused got => ?_, capacity⟩
      cases got
      exact ⟨fun reusedFresh => absurd reusedFresh Bool.false_ne_true, fun hitFound => absurd hitFound found⟩

/-- Whether a name has an entry: whether one of the entries is of that name. -/
theorem contains_iff (c : Cache) (uri : String) :
    c.contains uri = true ↔ ∃ e ∈ c.entries, e.uri = uri := by
  simp [contains]

/-- Every call behaves on a cache as a least-recently-used list sees it, and keeps the
capacity. -/
theorem perform_behaves {c : Cache} {cap : Nat} (capacity : c.capacity = cap) (call : Call) :
    Behaves cap c call (c.perform call).1 (c.perform call).2 ∧ (c.perform call).2.capacity = cap := by
  cases call with
  | getText uri text maxNodes =>
    have performs : c.perform (.getText uri text maxNodes) =
        (.got (c.getText uri text maxNodes).1, (c.getText uri text maxNodes).2) := rfl
    rw [performs]
    cases encoded : Text.Utf8.encode text with
    | error e =>
      -- a text UTF-8 cannot write fails before the cache is looked at
      have failed : c.getText uri text maxNodes = (.error (.undecodable (.encode e)), c) := by
        simp only [getText, encoded]
      rw [failed]
      dsimp only [Behaves]
      rw [encoded]
      exact ⟨⟨⟨_, rfl⟩, rfl⟩, capacity⟩
    | ok bytes =>
      have got : c.getText uri text maxNodes = c.get uri bytes (some text.toString) maxNodes := by
        simp only [getText, encoded]
      rw [got]
      dsimp only [Behaves]
      rw [encoded]
      obtain ⟨gets, reuse, kept⟩ := gets_get capacity uri bytes (some text.toString) maxNodes
      exact ⟨⟨gets, reuse⟩, kept⟩
  | getFile files path =>
    have ran := Tools.getFile_run { files with cache := c } path
    have sameFiles : ({ files with cache := c } : Workspace).absolute path = files.absolute path :=
      rfl
    rw [sameFiles] at ran
    dsimp only at ran
    -- a refused file leaves the cache as it was
    have refused (same : ((Tools.getFile path).run.run { files with cache := c }).2.cache = c) :=
      And.intro (congrArg Cache.entries same) ((congrArg Cache.capacity same).trans capacity)
    show (match files.volume.stat (files.absolute path) with
      | .ok (.file bytes) =>
        if bytes.size > files.settings.maxFileSize then _ else _
      | _ => _) ∧ _
    cases stat : files.volume.stat (files.absolute path) with
    | error e =>
      rw [stat] at ran
      exact refused ran
    | ok inode =>
      rw [stat] at ran
      cases inode with
      | file bytes =>
        dsimp only at ran ⊢
        by_cases big : bytes.size > files.settings.maxFileSize
        · rw [if_pos big] at ran ⊢
          exact refused ran
        · rw [if_neg big] at ran ⊢
          obtain ⟨cacheAfter, entryBack⟩ := ran
          obtain ⟨gets, -, kept⟩ := gets_get capacity path bytes none files.settings.maxAstNodes
          refine ⟨?_, (congrArg Cache.capacity cacheAfter).trans kept⟩
          exact (congrArg₂ (Gets cap c path (Sha256.hexDigest bytes)) entryBack cacheAfter).mpr gets
      | dir => exact refused ran
      | link _ => exact refused ran
  | invalidate uri => exact ⟨⟨contains_iff c uri, rfl⟩, capacity⟩
  | clear => exact ⟨rfl, capacity⟩
  | contains uri => exact ⟨⟨contains_iff c uri, rfl⟩, capacity⟩
  | size => exact ⟨⟨rfl, rfl⟩, capacity⟩

/-- A cache of capacity `cap` that keeps to it: its names are distinct and at most `cap` many. -/
structure Fits (cap : Nat) (c : Cache) : Prop where
  capacity : c.capacity = cap
  distinct : c.keys.Nodup
  within : c.size ≤ cap

variable {cap : Nat} {before after : Cache}

/-- A cache of the same capacity whose entries are some of a fitting cache's, in order, fits. -/
theorem Fits.of_sublist (fits : before.Fits cap) (capacity : after.capacity = cap)
    (sub : after.entries.Sublist before.entries) : after.Fits cap :=
  ⟨capacity, fits.distinct.sublist (sub.map _), Nat.le_trans sub.length_le fits.within⟩

/-- A cache of the same capacity with a fitting cache's entries fits. -/
theorem Fits.of_entries_eq (fits : before.Fits cap) (capacity : after.capacity = cap)
    (same : after.entries = before.entries) : after.Fits cap :=
  fits.of_sublist capacity (same ▸ List.Sublist.refl _)

/-- A get keeps a cache fitting its capacity. -/
theorem Gets.fits {uri hash : String} {returned : Option Entry}
    (gets : Gets cap before uri hash returned after) (fits : before.Fits cap)
    (capacity : after.capacity = cap) : after.Fits cap := by
  by_cases found : ∃ old, before.lookup uri = some old ∧ old.contentHash = hash
  · -- the entry given back moves to the most recent end
    obtain ⟨old, look, same⟩ := found
    have mem : old ∈ before.entries := List.mem_of_find?_eq_some look
    have moved := (gets.1 old look same).2
    refine ⟨capacity, ?_, ?_⟩
    · rw [keys, moved]
      exact Lru.nodup_touch fits.distinct old
    · rw [size, moved]
      exact Nat.le_trans (Lru.length_touch_le mem) fits.within
  · have fresh := gets.2 fun old look same => found ⟨old, look, same⟩
    cases returned with
    | none => exact fits.of_entries_eq capacity fresh
    | some e =>
      -- a fresh entry is stored, then the least recent are evicted
      obtain ⟨-, -, stored⟩ := fresh
      refine ⟨capacity, ?_, ?_⟩
      · rw [keys, stored]
        exact (Lru.nodup_touch fits.distinct e).sublist ((List.drop_sublist _ _).map _)
      · rw [size, stored]
        exact Lru.length_trim_le cap _

/-- Every call keeps a cache fitting its capacity. -/
theorem Behaves.fits {call : Call} {answer : Answer}
    (behaves : Behaves cap before call answer after) (fits : before.Fits cap)
    (capacity : after.capacity = cap) : after.Fits cap := by
  match call, answer, behaves with
  | .getText _ text _, .got _, behaves =>
    dsimp only [Behaves] at behaves
    split at behaves
    · exact fits.of_entries_eq capacity behaves.2
    · exact Gets.fits behaves.1 fits capacity
  | .getFile files path, .file _, behaves =>
    -- a refused file leaves the entries as they were
    dsimp only [Behaves] at behaves
    split at behaves
    · split at behaves
      · exact fits.of_entries_eq capacity behaves
      · exact Gets.fits behaves fits capacity
    · exact fits.of_entries_eq capacity behaves
  | .invalidate _, .flag _, ⟨_, kept⟩ => exact fits.of_sublist capacity (kept ▸ List.filter_sublist)
  | .clear, .done, cleared => exact fits.of_sublist capacity (cleared ▸ List.nil_sublist _)
  | .contains _, .flag _, ⟨_, same⟩ => exact fits.of_entries_eq capacity same
  | .size, .count _, ⟨_, same⟩ => exact fits.of_entries_eq capacity same

/-- Along a run from a fitting cache every call behaves as a least-recently-used list sees it, and
leaves the cache fitting. -/
theorem run_fits {c : Cache} (fits : c.Fits cap) : ∀ calls : List Call,
    (c.run calls).Forall fun s => Behaves cap s.before s.call s.answer s.after ∧ s.after.Fits cap
  | [] => trivial
  | call :: rest => by
    obtain ⟨behaves, capacity⟩ := perform_behaves fits.capacity call
    have after := Behaves.fits behaves fits capacity
    rw [run, List.forall_cons]
    exact ⟨⟨behaves, after⟩, run_fits after rest⟩

/-- Along every run of calls from an empty cache of any capacity, each call behaves as a
least-recently-used list of entries sees it, and after each one the names are distinct and at
most the capacity. -/
theorem run_follows_lru (cap : Nat) (calls : List Call) :
    ((Cache.empty cap).run calls).Forall fun s =>
      Behaves cap s.before s.call s.answer s.after ∧ s.after.keys.Nodup ∧ s.after.size ≤ cap := by
  have start : (Cache.empty cap).Fits cap := ⟨rfl, List.nodup_nil, Nat.zero_le _⟩
  exact (run_fits start calls).imp fun _ ⟨behaves, fits⟩ => ⟨behaves, fits.distinct, fits.within⟩

end Cache

end StageTree.Store
