import StageTree.Outline.Build
import StageTree.Raised
import StageTree.Store.Cache
import StageTree.Tree.Query

/-!
# Reports on a read document

The JSON reports made of a read document: its outline (a nested tree, or a pre-order listing
with depths), the pairs of a key with the ranges of the objects holding them, and the members
under a key in the object around a position. Ranges come from the text's line table; without
one (no text to place them in) the lookups find nothing. A report showing a value that holds an
integer too long to write fails.
-/

namespace StageTree.Report

open StageTree.Tree

/-- The outline of an entry's document; a failure when a shown value cannot be written. -/
def outlineOf (e : Store.Entry) : Except Raised Outline :=
  match Outline.build e.lines e.document with
  | some root => .ok root
  | none => .error .intTooLong

/-- The nodes below the root of an entry's outline, in pre-order with their depths. -/
def listing (e : Store.Entry) : Except Raised (List (Outline × Nat)) :=
  (fun root => Outline.preorder 0 root.children) <$> outlineOf e

/-- The members of the outline of an entry's document: the count of nodes below the root, what
the entry tells about its document, and the tree or, when `flat`, the pre-order listing. -/
def outlineMembers (e : Store.Entry) (flat : Bool) : Except Raised (List (Text.Str × Json)) := do
  let root ← outlineOf e
  let nodes := Outline.preorder 0 root.children
  return [("node_count", .int nodes.length), ("_meta", e.meta),
    ("outline", if flat then .arr (nodes.map Outline.flatJson) else root.toJson)]

/-- The outline of an entry's document as a JSON object. -/
def outline (e : Store.Entry) (flat : Bool) : Except Raised Json := .obj <$> outlineMembers e flat

/-- The display text of a value; a failure when it holds an integer too long to write. -/
def displayOf (v : Json) : Except Raised Text.Str :=
  if v.writable then .ok v.display else .error .intTooLong

/-- A found pair as JSON: its key, its value's display text and the range of its holder. -/
def occurrenceJson (t : LineTable) (o : Node.Occurrence) : Except Raised Json := do
  let value ← displayOf o.value.value
  return .obj [("key", .str o.key.text), ("value", .str value),
    ("range", Outline.rangeJson (t.rangeOf o.holder.start o.holder.stop))]

/-- The pairs keyed `key` in the first document, in document order. -/
def occurrences (lines : Option LineTable) (d : Document) (key : Text.Str) :
    Except Raised (List Json) :=
  match lines, d.first with
  | some t, some root => (root.occurrences key).mapM (occurrenceJson t)
  | _, _ => .ok []

/-- Sets a name's text: a name already there keeps its place. -/
def setDisplay (acc : List (Text.Str × Text.Str)) (k v : Text.Str) : List (Text.Str × Text.Str) :=
  if acc.any (·.1 == k) then acc.map fun (k', v') => if k' == k then (k', v) else (k', v')
  else acc ++ [(k, v)]

/-- The display texts of the members under the one pair keyed `name` in the object around
offset `o` of a tree, a later member of a name taking the place of an earlier one; every
member's text is made, so any of them too long to write fails. -/
def scopeAround (root : Node) (o : Nat) (name : Text.Str) :
    Except Raised (Option (List (Text.Str × Text.Str))) :=
  match root.scopeAt o name with
  | some pairs => some <$> pairs.foldlM (fun acc (k, v) => do
      return setDisplay acc k.text (← displayOf v.value)) []
  | none => .ok none

/-- The display texts of the members under the one pair keyed `name` in the object around a
line and character of the first document. -/
def scope (lines : Option LineTable) (d : Document) (line character : Int) (name : Text.Str) :
    Except Raised (Option (List (Text.Str × Text.Str))) :=
  match lines, d.first with
  | some t, some root => scopeAround root (t.offsetAt line character) name
  | _, _ => .ok none

/-- Members as a JSON object of strings. -/
def scopeJson : Option (List (Text.Str × Text.Str)) → Json
  | some members => .obj (members.map fun (k, v) => (k, .str v))
  | none => .null

end StageTree.Report
