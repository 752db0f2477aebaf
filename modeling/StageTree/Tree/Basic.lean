import StageTree.Json.Value

/-!
# Syntax trees of YAML documents

A document's syntax tree has objects (mappings, with their key-value pairs in order), arrays,
strings, numbers, truth values and nulls. Every node spans a half-open range of code-point
offsets of the text. A pair spans from its key's start to its value's end; its key is held as
the key's text (empty when the key is no scalar) and span.

A walk of the tree visits nodes, pairs and keys: a node, then for an object each pair, a pair,
then its key and its value. `Visit.walk` does this with a stack and yields the same list as the
pre-order `Visit.preorder`. `Visit.nodeLocated` lists the same visits, each with its way up to
the root (which tells it from every other visit) and the visits above it. `Node.value` reads a
node as a JSON value; an object's later pair with a key already seen overwrites that key's value
in its first place.
-/

namespace StageTree.Tree

/-- A half-open range `[start, stop)` of code-point offsets. -/
structure Span where
  start : Nat
  stop : Nat
deriving Repr, DecidableEq, Inhabited

/-- Whether an offset lies in a span. -/
def Span.contains (s : Span) (o : Nat) : Bool := s.start ≤ o && o < s.stop

/-- The key of a pair: its span and its text, empty when the key is no scalar. -/
structure Key where
  span : Span
  text : Text.Str
deriving Repr, DecidableEq, Inhabited

/-- A number in a tree: an integer or a double. -/
inductive Number where
  | int (i : Int)
  | float (x : Float)
deriving Inhabited

/-- A node of a syntax tree. -/
inductive Node where
  | object (span : Span) (pairs : List (Key × Node))
  | array (span : Span) (items : List Node)
  | string (span : Span) (value : Text.Str)
  | number (span : Span) (value : Number)
  | boolean (span : Span) (value : Bool)
  | null (span : Span)
deriving Inhabited

namespace Node

/-- The span of a node. -/
def span : Node → Span
  | object s _ => s
  | array s _ => s
  | string s _ => s
  | number s _ => s
  | boolean s _ => s
  | null s => s

mutual

/-- A node read as a JSON value. -/
def value : Node → Json
  | object _ pairs => .obj (pairsValue [] pairs)
  | array _ items => .arr (itemsValue items)
  | string _ s => .str s
  | number _ (.int i) => .int i
  | number _ (.float x) => .float x
  | boolean _ b => .bool b
  | null _ => .null

/-- The members of an object's value, after the members `acc` already set. -/
def pairsValue (acc : List (Text.Str × Json)) : List (Key × Node) → List (Text.Str × Json)
  | [] => acc
  | (k, v) :: rest => pairsValue (Json.setMember acc k.text (value v)) rest

/-- The values of array items. -/
def itemsValue : List Node → List Json
  | [] => []
  | n :: rest => value n :: itemsValue rest

end

mutual

/-- Whether every integer in a tree, under any key, has a decimal text short enough to write
(`Number.intWritable`). -/
def writable : Node → Bool
  | object _ pairs => pairsWritable pairs
  | array _ items => itemsWritable items
  | number _ (.int i) => Number.intWritable i
  | _ => true

/-- Whether every integer in the values of pairs can be written. -/
def pairsWritable : List (Key × Node) → Bool
  | [] => true
  | (_, v) :: rest => writable v && pairsWritable rest

/-- Whether every integer in array items can be written. -/
def itemsWritable : List Node → Bool
  | [] => true
  | n :: rest => writable n && itemsWritable rest

end

end Node

/-- The span of a pair: from its key's start to its value's end. -/
def pairSpan (k : Key) (v : Node) : Span := ⟨k.span.start, v.span.stop⟩

/-- What a walk of a tree visits: a node, a pair, or a pair's key. -/
inductive Visit where
  | node (n : Node)
  | pair (k : Key) (v : Node)
  | key (k : Key)
deriving Inhabited

namespace Visit

/-- The span of a visit. -/
def span : Visit → Span
  | node n => n.span
  | pair k v => pairSpan k v
  | key k => k.span

/-- The visits right below a visit: an object's pairs, an array's items, a pair's key and
value. -/
def children : Visit → List Visit
  | node (.object _ pairs) => pairs.map fun (k, v) => pair k v
  | node (.array _ items) => items.map node
  | node _ => []
  | pair k v => [key k, node v]
  | key _ => []

mutual

/-- The visits of a node's subtree in pre-order. -/
def nodePreorder : Node → List Visit
  | .object s pairs => node (.object s pairs) :: pairsPreorder pairs
  | .array s items => node (.array s items) :: itemsPreorder items
  | n => [node n]

/-- The pre-order visits of a list of pairs. -/
def pairsPreorder : List (Key × Node) → List Visit
  | [] => []
  | (k, v) :: rest => pair k v :: key k :: nodePreorder v ++ pairsPreorder rest

/-- The pre-order visits of a list of items. -/
def itemsPreorder : List Node → List Visit
  | [] => []
  | n :: rest => nodePreorder n ++ itemsPreorder rest

end

/-- The visits of a visit's subtree in pre-order: the visit, then its children's subtrees. -/
def preorder : Visit → List Visit
  | node n => nodePreorder n
  | pair k v => pair k v :: key k :: nodePreorder v
  | key k => [key k]

/-- A stack walk: take the top visit, yield it, and put its children on the stack, first child
on top. At most `fuel` visits are yielded. -/
def walkStack : (fuel : Nat) → List Visit → List Visit
  | 0, _ => []
  | _ + 1, [] => []
  | fuel + 1, v :: rest => v :: walkStack fuel (v.children ++ rest)

/-- The number of visits in a visit's subtree. -/
def count (v : Visit) : Nat := v.preorder.length

/-- All visits of a visit's subtree, by the stack walk. -/
def walk (v : Visit) : List Visit := walkStack (v.count + 1) [v]

/-- Whether a visit is an object. -/
def isObject : Visit → Bool
  | node (.object _ _) => true
  | _ => false

end Visit

/-- A visit with its place in its tree. No two visits of a tree share a way up, so the way tells
equal subtrees apart as the identity of a node does. -/
structure Located where
  /-- The visit itself. -/
  visit : Visit
  /-- The visit's index among its parent's children, then the parent's among its parent's, and
  so on up to the root; empty for the root. -/
  way : List Nat
  /-- The visits above it, its parent first. -/
  above : List Visit

/-- The span of the nearest object above a located visit, or the visit's own when none is. -/
def Located.holderSpan (l : Located) : Span := ((l.above.find? Visit.isObject).getD l.visit).span

namespace Visit

mutual

/-- A node's subtree in pre-order, located: the node's way up is `way` and the visits above it
are `above`. -/
def nodeLocated (way : List Nat) (above : List Visit) : Node → List Located
  | .object s pairs =>
    ⟨node (.object s pairs), way, above⟩ ::
      pairsLocated way (node (.object s pairs) :: above) 0 pairs
  | .array s items =>
    ⟨node (.array s items), way, above⟩ ::
      itemsLocated way (node (.array s items) :: above) 0 items
  | n => [⟨node n, way, above⟩]

/-- The subtrees of pairs in pre-order, located below the visits `above`, the first pair the
`i`-th child of the object whose way up is `way`: each pair, its key (the pair's first child)
and its value's subtree (its second). -/
def pairsLocated (way : List Nat) (above : List Visit) (i : Nat) : List (Key × Node) → List Located
  | [] => []
  | (k, v) :: rest =>
    ⟨pair k v, i :: way, above⟩ :: ⟨key k, 0 :: i :: way, pair k v :: above⟩ ::
      nodeLocated (1 :: i :: way) (pair k v :: above) v ++ pairsLocated way above (i + 1) rest

/-- The subtrees of items in pre-order, located below the visits `above`, the first item the
`i`-th child of the array whose way up is `way`. -/
def itemsLocated (way : List Nat) (above : List Visit) (i : Nat) : List Node → List Located
  | [] => []
  | n :: rest => nodeLocated (i :: way) above n ++ itemsLocated way above (i + 1) rest

end

end Visit

end StageTree.Tree
