import Mathlib
import StageTree.Proofs.CacheLru
import StageTree.Proofs.Utf8Reading

/-!
# A cached document is the one a fresh read gives

Every entry the cache holds keeps the bytes it was read from: reading those bytes afresh, as the
get that stored it read them, gives the entry again (`Cache.FreshFrom`). A get of a text reads the
text as given; a get of a file decodes the file's bytes as UTF-8 after dropping any byte order
mark (`readEntry`). A get reuses an entry only when its digest is the digest of the bytes given,
so as long as no two of the bytes ever given share a digest, a reused entry was read from the
very bytes of the get that reuses it.

The two ways of reading agree on every byte string that does not start with the byte order
mark, since UTF-8 reads back as the text it encodes. On one that does they differ by that mark:
a file's get drops it and a text's get keeps it as a leading U+FEFF. A text got and a file got
under one name share that name's entry, so there an entry read one way is given back to a get
of the other way (`file_get_reuses_text_with_mark`).

Main statement: `Cache.run_reads_as_uncached`. Along every run of calls from an empty cache of
any capacity, every entry a get gives back is what reading the get's current bytes afresh, one
way or the other, gives; and when those bytes do not start with the mark it is exactly what the
same call on an empty cache gives.
-/

namespace StageTree.Tools

/-- A file tool gives back an entry only for a path naming a file within the size limit, and
then the entry the get of the file's bytes under its path gives. -/
theorem fileEntry_getFile (w : Workspace) (path : String) :
    Tools.fileEntry? ((Tools.getFile path).run.run w).1 =
      match w.volume.stat (w.absolute path) with
      | .ok (.file bytes) =>
        if bytes.size > w.settings.maxFileSize then none
        else (w.cache.get path bytes none w.settings.maxAstNodes).1.toOption.map Prod.fst
      | _ => none := by
  simp only [Tools.getFile, ExceptT.run, StateT.run, bind, ExceptT.bind, ExceptT.bindCont,
    ExceptT.mk, StateT.bind, get, getThe, MonadStateOf.get, ExceptT.lift, liftM, monadLift,
    MonadLift.monadLift, StateT.get, set, MonadStateOf.set, pure, ExceptT.pure, Functor.map,
    StateT.map]
  cases w.volume.stat (w.absolute path) with
  | error e => rfl
  | ok inode =>
    cases inode with
    | file bytes =>
      by_cases big : bytes.size > w.settings.maxFileSize
      · simp only [big, if_true]
        rfl
      · simp only [big, if_false]
        cases (w.cache.get path bytes none w.settings.maxAstNodes).1 with
        | ok got => rfl
        | error f => cases f <;> rfl
    | dir => rfl
    | link _ => rfl

end StageTree.Tools

namespace StageTree.Store

open StageTree.Tree Text.Utf8

/-- The text of bytes: the text given with them, or else the bytes decoded as UTF-8 after any
byte order mark. -/
def textRead (bytes : ByteArray) : Option String → Except Failure String
  | some t => .ok t
  | none => (decodeDroppingMark bytes).mapError fun e => .undecodable (.decode e)

/-- What reading a name's bytes afresh gives: their text read with a budget of `maxNodes` nodes,
under the bytes' digest. -/
def readEntry (uri : String) (bytes : ByteArray) (text : Option String) (maxNodes : Int) :
    Except Failure Entry := do
  let text ← textRead bytes text
  let document ← (Document.read text maxNodes).mapError Failure.fault
  pure ⟨uri, Sha256.hexDigest bytes, text, LineTable.ofText text, document⟩

/-- A text given with bytes is their text: the bytes are its UTF-8. -/
def TextOf (bytes : ByteArray) (text : Option String) : Prop := ∀ t ∈ text, t.toUTF8 = bytes

/-- An entry read afresh is the entry of the text read and of the tree that text reads to. -/
theorem readEntry_eq_ok {uri : String} {bytes : ByteArray} {text : Option String}
    {maxNodes : Int} {e : Entry} (read : readEntry uri bytes text maxNodes = .ok e) :
    ∃ t document, textRead bytes text = .ok t ∧ Document.read t maxNodes = .ok document ∧
      e = ⟨uri, Sha256.hexDigest bytes, t, LineTable.ofText t, document⟩ := by
  cases decoded : textRead bytes text with
  | error f => simp only [readEntry, decoded, bind, Except.bind, reduceCtorEq] at read
  | ok t =>
    cases parsed : Document.read t maxNodes with
    | error f =>
      simp only [readEntry, decoded, parsed, bind, Except.bind, Except.mapError, reduceCtorEq] at read
    | ok document =>
      simp only [readEntry, decoded, parsed, bind, Except.bind, Except.mapError, pure, Except.pure,
        Except.ok.injEq] at read
      exact ⟨t, document, rfl, parsed, read.symm⟩

/-- An entry read afresh is of the name read and has the digest of the bytes read. -/
theorem readEntry_ok {uri : String} {bytes : ByteArray} {text : Option String} {maxNodes : Int}
    {e : Entry} (read : readEntry uri bytes text maxNodes = .ok e) :
    e.uri = uri ∧ e.contentHash = Sha256.hexDigest bytes := by
  obtain ⟨t, document, -, -, rfl⟩ := readEntry_eq_ok read
  exact ⟨rfl, rfl⟩

/-- Bytes that do not start with the byte order mark have one text, given or decoded. -/
theorem textRead_eq_decoded {bytes : ByteArray} {text : Option String} (given : TextOf bytes text)
    (noMark : ¬startsWithMark bytes) : textRead bytes text = textRead bytes none := by
  cases text with
  | none => rfl
  | some t =>
    have encoded : t.toUTF8 = bytes := given t rfl
    subst encoded
    rw [textRead, textRead, decodeDroppingMark_of_not_startsWithMark noMark, decode_toUTF8]
    rfl

/-- Bytes that do not start with the byte order mark read alike whether they come with their
text or are decoded. -/
theorem readEntry_eq_decoded {uri : String} {bytes : ByteArray} {text : Option String}
    (maxNodes : Int) (given : TextOf bytes text) (noMark : ¬startsWithMark bytes) :
    readEntry uri bytes text maxNodes = readEntry uri bytes none maxNodes := by
  rw [readEntry, readEntry, textRead_eq_decoded given noMark]

namespace Cache

/-- Reading afresh reads the text the bytes have, given or decoded. -/
theorem readFresh_of_textRead {c : Cache} {uri hash : String} {bytes : ByteArray}
    {text : Option String} {maxNodes : Int} {t : String} (decoded : textRead bytes text = .ok t) :
    c.readFresh uri hash bytes text maxNodes = c.readFresh uri hash bytes (some t) maxNodes := by
  cases text with
  | some given =>
    cases decoded
    rfl
  | none =>
    simp only [textRead] at decoded
    simp [readFresh, decoded]

/-- Reading afresh into a cache of a capacity that is no negative number stores the entry that
reading the bytes afresh gives as the most recent, with the least recent evicted. -/
theorem readFresh_of_readEntry_ok {c : Cache} {cap : Nat} (capacity : c.capacity = cap)
    {uri : String} {bytes : ByteArray} {text : Option String} {maxNodes : Int} {e : Entry}
    (read : readEntry uri bytes text maxNodes = .ok e) :
    c.readFresh uri (Sha256.hexDigest bytes) bytes text maxNodes =
      (.ok (e, false), { c with entries := Lru.trim cap (Lru.touch c.entries e) }) := by
  obtain ⟨t, document, decoded, parsed, rfl⟩ := readEntry_eq_ok read
  rw [readFresh_of_textRead decoded]
  simp only [readFresh, parsed, insert_eq capacity]
  rfl

/-- Reading afresh fails as reading the bytes afresh does, and leaves the cache as it was. -/
theorem readFresh_of_readEntry_error {c : Cache} {uri : String} {bytes : ByteArray}
    {text : Option String} {maxNodes : Int} {f : Failure}
    (read : readEntry uri bytes text maxNodes = .error f) :
    c.readFresh uri (Sha256.hexDigest bytes) bytes text maxNodes = (.error f, c) := by
  cases decoded : textRead bytes text with
  | error f' =>
    have same : f' = f := by simpa [readEntry, decoded, bind, Except.bind] using read
    subst same
    -- only decoding can fail before the text is read
    cases text with
    | some given => cases decoded
    | none =>
      simp only [textRead] at decoded
      simp [readFresh, decoded]
  | ok t =>
    rw [readFresh_of_textRead decoded]
    cases parsed : Document.read t maxNodes with
    | error g =>
      have same : Failure.fault g = f := by
        simpa [readEntry, decoded, parsed, bind, Except.bind, Except.mapError] using read
      subst same
      simp [readFresh, parsed]
    | ok document =>
      simp [readEntry, decoded, parsed, bind, Except.bind, Except.mapError, pure,
        Except.pure] at read

/-- Getting from an empty cache gives what reading the bytes afresh gives. -/
theorem empty_get (cap : Nat) (uri : String) (bytes : ByteArray) (text : Option String)
    (maxNodes : Int) :
    ((Cache.empty cap).get uri bytes text maxNodes).1.toOption.map Prod.fst =
      (readEntry uri bytes text maxNodes).toOption := by
  have nothing : (Cache.empty cap).lookup uri = none := rfl
  rw [get, nothing]
  dsimp only
  cases read : readEntry uri bytes text maxNodes with
  | ok e =>
    rw [readFresh_of_readEntry_ok rfl read]
    rfl
  | error f =>
    rw [readFresh_of_readEntry_error read]
    rfl

/-- Every entry of a cache is what reading some of the `inputs` afresh gives, taken with their
text or decoded: the entry keeps the bytes it was read from. -/
def FreshFrom (inputs : Set ByteArray) (budget : Int) (c : Cache) : Prop :=
  ∀ e ∈ c.entries, ∃ bytes ∈ inputs, ∃ text, TextOf bytes text ∧
    readEntry e.uri bytes text budget = .ok e

variable {inputs : Set ByteArray} {budget : Int} {cap : Nat}

/-- A cache whose entries are among a fresh cache's is fresh. -/
theorem FreshFrom.of_subset {c c' : Cache} (fresh : c.FreshFrom inputs budget)
    (among : ∀ e ∈ c'.entries, e ∈ c.entries) : c'.FreshFrom inputs budget :=
  fun e mem => fresh e (among e mem)

/-- Making an entry the most recent adds no entry but that one. -/
theorem mem_touch {entries : List Entry} {e x : Entry} (mem : x ∈ Lru.touch entries e) :
    x ∈ entries ∨ x = e := by
  rw [Lru.touch] at mem
  rcases List.mem_append.1 mem with kept | last
  · exact .inl (List.mem_of_mem_filter kept)
  · exact .inr (List.mem_singleton.1 last)

/-- Making an entry the most recent and evicting add no entry but that one. -/
theorem mem_trim_touch {entries : List Entry} {e x : Entry}
    (mem : x ∈ Lru.trim cap (Lru.touch entries e)) : x ∈ entries ∨ x = e :=
  mem_touch (List.mem_of_mem_drop mem)

/-- A get from a fresh cache leaves it fresh, and gives back what reading its bytes afresh gives,
with their text or decoded, as long as the bytes are among the inputs and no two inputs share a
digest. -/
theorem get_fresh {c : Cache} (capacity : c.capacity = cap) (fresh : c.FreshFrom inputs budget)
    (distinct : Set.InjOn Sha256.hexDigest inputs) {uri : String} {bytes : ByteArray}
    {text : Option String} (given : bytes ∈ inputs) (isText : TextOf bytes text) :
    (c.get uri bytes text budget).2.FreshFrom inputs budget ∧
      ∀ e ∈ (c.get uri bytes text budget).1.toOption.map Prod.fst,
        ∃ text', TextOf bytes text' ∧ readEntry uri bytes text' budget = .ok e := by
  obtain ⟨hit, miss⟩ := get_eq c uri bytes text budget
  by_cases found : ∃ old, c.lookup uri = some old ∧ old.contentHash = Sha256.hexDigest bytes
  · -- the entry given back was read from bytes of the same digest, so from these very bytes
    obtain ⟨old, look, same⟩ := found
    have mem : old ∈ c.entries := List.mem_of_find?_eq_some look
    obtain ⟨source, sourceIn, text', isText', read⟩ := fresh old mem
    have sameBytes : source = bytes :=
      distinct sourceIn given ((readEntry_ok read).2.symm.trans same)
    subst sameBytes
    rw [hit old look same]
    refine ⟨fresh.of_subset fun x moved => ?_, fun e back => ?_⟩
    · rcases mem_touch moved with kept | rfl
      · exact kept
      · exact mem
    · cases back
      exact ⟨text', isText', lookup_uri look ▸ read⟩
  · -- any other get reads afresh
    have differs : ∀ old, c.lookup uri = some old → old.contentHash ≠ Sha256.hexDigest bytes :=
      fun old look same => found ⟨old, look, same⟩
    rw [miss differs]
    cases read : readEntry uri bytes text budget with
    | error f =>
      rw [readFresh_of_readEntry_error read]
      exact ⟨fresh, fun e back => by cases back⟩
    | ok e =>
      rw [readFresh_of_readEntry_ok capacity read]
      refine ⟨fun x mem => ?_, fun e' back => ?_⟩
      · rcases mem_trim_touch mem with kept | stored
        · exact fresh x kept
        · subst stored
          exact ⟨bytes, given, text, isText, (readEntry_ok read).1 ▸ read⟩
      · cases back
        exact ⟨text, isText, read⟩

end Cache

/-- The bytes a get call is given: a text's UTF-8, when it has one, or the bytes of the file its path names in
the call's workspace, when that is a file within the size limit. Other calls are given none. -/
def Call.bytes? : Call → Option ByteArray
  | .getText _ text _ => (Text.Utf8.encode text).toOption
  | .getFile files path =>
    match files.volume.stat (files.absolute path) with
    | .ok (.file bytes) => if bytes.size > files.settings.maxFileSize then none else some bytes
    | _ => none
  | _ => none

/-- The budget of nodes a get call reads with. -/
def Call.budget? : Call → Option Int
  | .getText _ _ maxNodes => some maxNodes
  | .getFile files _ => some files.settings.maxAstNodes
  | _ => none

/-- The entry an answer gives back, if it gives one. -/
def Answer.given? : Answer → Option Entry
  | .got r => r.toOption.map Prod.fst
  | .file r => Tools.fileEntry? r
  | _ => none

namespace Cache

variable {inputs : Set ByteArray} {budget : Int} {cap : Nat}

/-- What a get's answer gives back, against its bytes: what reading them afresh gives, with their
text or decoded, and when they do not start with the byte order mark, what the same get on an
empty cache gives. -/
def ReadsAfresh (cap : Nat) (budget : Int) (call : Call) (answer : Answer) : Prop :=
  ∀ e ∈ answer.given?, ∃ bytes ∈ call.bytes?,
    (∃ text, TextOf bytes text ∧ readEntry e.uri bytes text budget = .ok e) ∧
    (¬startsWithMark bytes → ((Cache.empty cap).perform call).1.given? = some e)

/-- A text's get on a fresh cache leaves it fresh and gives back what a fresh read gives. -/
theorem getText_fresh {c : Cache} (capacity : c.capacity = cap) (fresh : c.FreshFrom inputs budget)
    (distinct : Set.InjOn Sha256.hexDigest inputs) (uri : String) (text : Text.Str)
    (given : ∀ bytes ∈ (Call.getText uri text budget).bytes?, bytes ∈ inputs) :
    (c.perform (.getText uri text budget)).2.FreshFrom inputs budget ∧
      ReadsAfresh cap budget (.getText uri text budget) (c.perform (.getText uri text budget)).1 := by
  have performs : c.perform (.getText uri text budget) =
      (.got (c.getText uri text budget).1, (c.getText uri text budget).2) := rfl
  rw [performs]
  cases encoded : Text.Utf8.encode text with
  | error f =>
    -- a text UTF-8 cannot write gives nothing back and leaves the cache as it was
    have failed : c.getText uri text budget = (.error (.undecodable (.encode f)), c) := by
      simp only [getText, encoded]
    rw [failed]
    exact ⟨fresh, fun e got => by cases got⟩
  | ok bytes =>
    have isBytes : (Call.getText uri text budget).bytes? = some bytes := by
      simp only [Call.bytes?, encoded, Except.toOption]
    have isText : TextOf bytes (some text.toString) := fun t same => by
      cases same
      exact Text.Utf8.toUTF8_of_encode encoded
    have gets : c.getText uri text budget = c.get uri bytes (some text.toString) budget := by
      simp only [getText, encoded]
    rw [gets]
    obtain ⟨stays, back⟩ := get_fresh capacity fresh distinct (given bytes isBytes) isText
    refine ⟨stays, fun e got => ⟨bytes, isBytes, ?_⟩⟩
    obtain ⟨text', isText', read⟩ := back e got
    refine ⟨⟨text', isText', (readEntry_ok read).1 ▸ read⟩, fun noMark => ?_⟩
    -- without a mark the text given and the text decoded read alike
    have alike : readEntry uri bytes (some text.toString) budget = .ok e := by
      rw [readEntry_eq_decoded budget isText noMark, ← readEntry_eq_decoded budget isText' noMark]
      exact read
    show ((Cache.empty cap).getText uri text budget).1.toOption.map Prod.fst = some e
    simp only [getText, encoded]
    rw [empty_get, alike]
    rfl

/-- A file's get on a fresh cache leaves it fresh and gives back what a fresh read of the file's
bytes gives. -/
theorem getFile_fresh {c : Cache} (capacity : c.capacity = cap)
    (fresh : c.FreshFrom inputs budget) (distinct : Set.InjOn Sha256.hexDigest inputs)
    (files : Workspace) (path : String)
    (given : ∀ bytes ∈ (Call.getFile files path).bytes?, bytes ∈ inputs)
    (budgeted : files.settings.maxAstNodes = budget) :
    (c.perform (.getFile files path)).2.FreshFrom inputs budget ∧
      ReadsAfresh cap budget (.getFile files path) (c.perform (.getFile files path)).1 := by
  have after := Tools.getFile_run { files with cache := c } path
  have back := Tools.fileEntry_getFile { files with cache := c } path
  have uncached := Tools.fileEntry_getFile { files with cache := Cache.empty cap } path
  have sameFiles (d : Cache) :
      ({ files with cache := d } : Workspace).absolute path = files.absolute path := rfl
  rw [sameFiles] at after back uncached
  dsimp only at after back uncached
  subst budgeted
  set ran := (Tools.getFile path).run.run { files with cache := c }
  show FreshFrom inputs _ ran.2.cache ∧ ∀ e ∈ Tools.fileEntry? ran.1, _
  -- a refused file gives nothing back and leaves the cache as it was
  have refused (same : ran.2.cache = c) (nothing : Tools.fileEntry? ran.1 = none) :
      FreshFrom inputs files.settings.maxAstNodes ran.2.cache ∧
        ReadsAfresh cap files.settings.maxAstNodes (.getFile files path) (.file ran.1) :=
    ⟨by rw [same]; exact fresh, fun e got => by simp only [Answer.given?, nothing] at got; cases got⟩
  cases stat : files.volume.stat (files.absolute path) with
  | error e =>
    rw [stat] at after back
    exact refused after back
  | ok inode =>
    rw [stat] at after back uncached
    cases inode with
    | dir => exact refused after back
    | link _ => exact refused after back
    | file bytes =>
      dsimp only at after back uncached
      by_cases big : bytes.size > files.settings.maxFileSize
      · rw [if_pos big] at after back
        exact refused after back
      · rw [if_neg big] at after back uncached
        have isFile : (Call.getFile files path).bytes? = some bytes := by
          simp only [Call.bytes?, stat, big, if_false]
        have decoded : TextOf bytes none := fun t none => by cases none
        obtain ⟨stays, got⟩ := get_fresh capacity fresh distinct (given bytes isFile) decoded
        refine ⟨after.1 ▸ stays, fun e entry => ⟨bytes, isFile, ?_⟩⟩
        change e ∈ Tools.fileEntry? ran.1 at entry
        rw [after.2] at entry
        obtain ⟨text, isText, read⟩ := got e entry
        refine ⟨⟨text, isText, (readEntry_ok read).1 ▸ read⟩, fun noMark => ?_⟩
        -- without a mark the bytes read alike, with a text or decoded
        show Tools.fileEntry? ((Tools.getFile path).run.run { files with cache := Cache.empty cap }).1 = _
        rw [uncached, empty_get, ← readEntry_eq_decoded _ isText noMark, read]
        rfl

/-- Every call on a fresh cache leaves it fresh and of its capacity, and what a get gives back is
what a fresh read gives, when the call's bytes are among the inputs and it reads with the budget. -/
theorem perform_fresh {c : Cache} (capacity : c.capacity = cap) (fresh : c.FreshFrom inputs budget)
    (distinct : Set.InjOn Sha256.hexDigest inputs) (call : Call)
    (given : ∀ bytes ∈ call.bytes?, bytes ∈ inputs) (budgeted : ∀ n ∈ call.budget?, n = budget) :
    (c.perform call).2.FreshFrom inputs budget ∧ (c.perform call).2.capacity = cap ∧
      ReadsAfresh cap budget call (c.perform call).1 := by
  have kept := (perform_behaves capacity call).2
  cases call with
  | getText uri text maxNodes =>
    obtain rfl : maxNodes = budget := budgeted maxNodes rfl
    obtain ⟨stays, back⟩ := getText_fresh capacity fresh distinct uri text given
    exact ⟨stays, kept, back⟩
  | getFile files path =>
    obtain ⟨stays, back⟩ :=
      getFile_fresh capacity fresh distinct files path given (budgeted _ rfl)
    exact ⟨stays, kept, back⟩
  | invalidate uri =>
    exact ⟨fresh.of_subset fun e mem => List.mem_of_mem_filter mem, kept,
      fun e back => by cases back⟩
  | clear => exact ⟨fun e mem => absurd mem List.not_mem_nil, kept, fun e back => by cases back⟩
  | contains uri => exact ⟨fresh, kept, fun e back => by cases back⟩
  | size => exact ⟨fresh, kept, fun e back => by cases back⟩

/-- Along a run from a fresh cache, every get gives back what a fresh read gives, when the calls'
bytes are among the inputs and they read with the budget. -/
theorem run_fresh {c : Cache} (capacity : c.capacity = cap) (fresh : c.FreshFrom inputs budget)
    (distinct : Set.InjOn Sha256.hexDigest inputs) :
    ∀ calls : List Call, (∀ call ∈ calls, ∀ bytes ∈ call.bytes?, bytes ∈ inputs) →
      (∀ call ∈ calls, ∀ n ∈ call.budget?, n = budget) →
      (c.run calls).Forall fun s => ReadsAfresh cap budget s.call s.answer
  | [], _, _ => trivial
  | call :: rest, given, budgeted => by
    obtain ⟨stays, kept, back⟩ := perform_fresh capacity fresh distinct call
      (given call List.mem_cons_self) (budgeted call List.mem_cons_self)
    rw [run, List.forall_cons]
    exact ⟨back, run_fresh kept stays distinct rest
      (fun call mem => given call (List.mem_cons_of_mem _ mem))
      (fun call mem => budgeted call (List.mem_cons_of_mem _ mem))⟩

/-- Along every run of calls from an empty cache of any capacity, reading with one budget of
nodes, and as long as no two of the bytes the gets are given share a SHA-256 digest, every entry
a get gives back is what reading the get's current bytes afresh gives, taken with their text or
decoded after any byte order mark; and when those bytes do not start with the byte order mark,
it is what the same call gives on an empty cache. -/
theorem run_reads_as_uncached (cap : Nat) (budget : Int) (calls : List Call)
    (sameBudget : ∀ call ∈ calls, ∀ n ∈ call.budget?, n = budget)
    (noCollision : Set.InjOn Sha256.hexDigest {bytes | ∃ call ∈ calls, bytes ∈ call.bytes?}) :
    ((Cache.empty cap).run calls).Forall fun s => ∀ e ∈ s.answer.given?, ∃ bytes ∈ s.call.bytes?,
      (∃ text, TextOf bytes text ∧ readEntry e.uri bytes text budget = .ok e) ∧
      (¬startsWithMark bytes → ((Cache.empty cap).perform s.call).1.given? = some e) :=
  run_fresh rfl (fun e mem => by cases mem) noCollision calls
    (fun call mem bytes given => ⟨call, mem, given⟩) sameBudget

/-- Two texts got, reused, forgotten and got again under one name, with one budget: their
digests differ, so every entry given back is a fresh read. -/
theorem run_reads_as_uncached_two_texts :
    let calls : List Call := [.getText "ci.yml" "stage: build" 100,
      .getText "ci.yml" "stage: build" 100, .getText "ci.yml" "stage: test" 100,
      .invalidate "ci.yml", .getText "ci.yml" "stage: build" 100]
    (∀ call ∈ calls, ∀ n ∈ call.budget?, n = 100) ∧
      Set.InjOn Sha256.hexDigest {bytes | ∃ call ∈ calls, bytes ∈ call.bytes?} ∧
      ((Cache.empty 2).run calls).Forall fun s => ∀ e ∈ s.answer.given?,
        ∃ bytes ∈ s.call.bytes?,
          (∃ text, TextOf bytes text ∧ readEntry e.uri bytes text 100 = .ok e) ∧
          (¬startsWithMark bytes → ((Cache.empty 2).perform s.call).1.given? = some e) := by
  intro calls
  have budgets : ∀ call ∈ calls, ∀ n ∈ call.budget?, n = 100 := by
    intro call mem n got
    simp only [calls, List.mem_cons, List.not_mem_nil, or_false] at mem
    rcases mem with rfl | rfl | rfl | rfl | rfl <;> cases got <;> rfl
  have given : ∀ bytes ∈ {bytes | ∃ call ∈ calls, bytes ∈ call.bytes?},
      bytes = "stage: build".toUTF8 ∨ bytes = "stage: test".toUTF8 := by
    rintro bytes ⟨call, mem, got⟩
    simp only [calls, List.mem_cons, List.not_mem_nil, or_false] at mem
    rcases mem with rfl | rfl | rfl | rfl | rfl <;>
      simp only [Call.bytes?, Text.Utf8.encode_ofString, Except.toOption, Option.mem_def,
        Option.some.injEq, reduceCtorEq] at got
    · exact .inl got.symm
    · exact .inl got.symm
    · exact .inr got.symm
    · exact .inl got.symm
  have differ : Sha256.hexDigest "stage: build".toUTF8 ≠ Sha256.hexDigest "stage: test".toUTF8 := by
    decide +kernel
  have distinct : Set.InjOn Sha256.hexDigest {bytes | ∃ call ∈ calls, bytes ∈ call.bytes?} := by
    intro first firstGiven second secondGiven same
    rcases given first firstGiven with rfl | rfl <;> rcases given second secondGiven with rfl | rfl
    · rfl
    · exact absurd same differ
    · exact absurd same.symm differ
    · rfl
  exact ⟨budgets, distinct, run_reads_as_uncached 2 100 calls budgets distinct⟩

/-- A text that starts with U+FEFF, got under a name, and then the same bytes got as a file's under
that name: the file's get gives back the text's entry, U+FEFF kept, while getting the file's bytes
on an empty cache drops the mark. So an entry reused across the two ways of getting is not what
the same get gives on an empty cache. -/
theorem file_get_reuses_text_with_mark :
    (((Cache.empty 4).getText "ci.yml" "\uFEFF" 100).2.get "ci.yml" "\uFEFF".toUTF8 none
        100).1.toOption.map (·.1.text) = some "\uFEFF" ∧
      ((Cache.empty 4).get "ci.yml" "\uFEFF".toUTF8 none 100).1.toOption.map (·.1.text) =
        some "" := by
  decide +kernel

end Cache

end StageTree.Store
