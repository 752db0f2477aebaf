import StageTree.Digest.Sha256
import StageTree.Text.Lines
import StageTree.Text.Utf8
import StageTree.Tree.Document

/-!
# A cache of read documents

The cache maps names (file paths or document names) to read documents, and keeps them in the
order they were last used, least recent first. Getting a name whose entry has the same SHA-256
digest as the bytes given reuses the entry and moves it last. Any other get reads the text
afresh, puts the new entry last (in place of an old entry of that name), and then drops the
least recent entries while there are more than the capacity. With a negative capacity that
drop runs out of entries, which is a failure that leaves the cache empty. A text is got by its
UTF-8 bytes, which a text holding a surrogate half does not have: that get fails at once.
-/

namespace StageTree.Store

open StageTree.Tree

/-- A read document: its name, the digest of its bytes, its text, line table and trees. -/
structure Entry where
  uri : String
  contentHash : String
  text : String
  lines : LineTable
  document : Document
deriving Inhabited

/-- What an entry tells about its document: name, digest, count of documents and messages of
a failed reading. -/
def Entry.meta (e : Entry) : Json :=
  .obj [("uri", .str e.uri), ("content_hash", .str e.contentHash),
    ("document_count", .int e.document.documents.length),
    ("parse_errors", .arr (e.document.errors.map Json.text))]

/-- Why getting a document failed. -/
inductive Failure where
  /-- The bytes are not UTF-8, or the text holds a surrogate half, which has no UTF-8 form. -/
  | undecodable (e : Text.Utf8.CodecError)
  /-- Reading the text faulted. -/
  | fault (f : Yaml.Fault)
  /-- Dropping entries found none left to drop. -/
  | nothingToDrop
deriving Inhabited

/-- A cache with its capacity and its entries, least recently used first. -/
structure Cache where
  capacity : Int
  entries : List Entry := []
deriving Inhabited

namespace Cache

/-- An empty cache of a capacity. -/
def empty (capacity : Int) : Cache := ⟨capacity, []⟩

/-- The entry of a name. -/
def lookup (c : Cache) (uri : String) : Option Entry := c.entries.find? (·.uri == uri)

/-- Whether a name has an entry. -/
def contains (c : Cache) (uri : String) : Bool := c.entries.any (·.uri == uri)

/-- The names with entries, least recently used first. -/
def keys (c : Cache) : List String := c.entries.map (·.uri)

/-- The number of entries. -/
def size (c : Cache) : Nat := c.entries.length

/-- The cache without a name's entry, and whether it had one. -/
def invalidate (c : Cache) (uri : String) : Cache × Bool :=
  ({ c with entries := c.entries.filter (·.uri != uri) }, c.contains uri)

/-- The cache with no entries. -/
def clear (c : Cache) : Cache := { c with entries := [] }

/-- Drops the first entries while there are more than `capacity`; whether that ran out of
entries to drop. -/
def dropOldest (capacity : Int) : List Entry → List Entry × Bool
  | [] => ([], (0 : Int) > capacity)
  | e :: rest =>
    if ((e :: rest).length : Int) > capacity then dropOldest capacity rest else (e :: rest, false)

/-- The cache with an entry last, in place of any entry of its name, and the oldest dropped;
whether dropping ran out of entries. -/
def insert (c : Cache) (e : Entry) : Cache × Bool :=
  let (entries, ranOut) := dropOldest c.capacity (c.entries.filter (·.uri != e.uri) ++ [e])
  ({ c with entries }, ranOut)

/-- Reads a document afresh from its bytes (or its text, when known) and puts it in the cache
under its name and digest. -/
def readFresh (c : Cache) (uri hash : String) (bytes : ByteArray) (text : Option String)
    (maxNodes : Int) : Except Failure (Entry × Bool) × Cache :=
  let decoded : Except Failure String := match text with
    | some t => .ok t
    | none => (Text.Utf8.decodeDroppingMark bytes).mapError fun e => .undecodable (.decode e)
  match decoded with
  | .error f => (.error f, c)
  | .ok text =>
    match Document.read text maxNodes with
    | .error f => (.error (.fault f), c)
    | .ok document =>
      let e : Entry := ⟨uri, hash, text, LineTable.ofText text, document⟩
      let (c', ranOut) := c.insert e
      if ranOut then (.error .nothingToDrop, c') else (.ok (e, false), c')

/-- Gets the document of a name from its bytes; `text` is their text when known, else they are
read as UTF-8 after any byte order mark. Reading is with a budget of `maxNodes` nodes. Gives
the entry and whether it was reused, and the cache after, which a failure may have changed. -/
def get (c : Cache) (uri : String) (bytes : ByteArray) (text : Option String) (maxNodes : Int) :
    Except Failure (Entry × Bool) × Cache :=
  let hash := Sha256.hexDigest bytes
  match c.lookup uri with
  | some e =>
    if e.contentHash == hash then
      (.ok (e, true), { c with entries := c.entries.filter (·.uri != uri) ++ [e] })
    else c.readFresh uri hash bytes text maxNodes
  | none => c.readFresh uri hash bytes text maxNodes

/-- Gets the document of a name from its text, whose UTF-8 form is the bytes it is got by. A text
holding a surrogate half has none: the get fails before it looks at the cache. -/
def getText (c : Cache) (uri : String) (text : Text.Str) (maxNodes : Int) :
    Except Failure (Entry × Bool) × Cache :=
  match Text.Utf8.encode text with
  | .error e => (.error (.undecodable (.encode e)), c)
  | .ok bytes => c.get uri bytes (some text.toString) maxNodes

end Cache

end StageTree.Store
