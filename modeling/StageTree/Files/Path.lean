/-!
# Path names

A path name is a root (empty for a relative name, `/`, or `//`, which POSIX lets a system read
its own way) and the names of its parts. Reading a path text drops empty parts and `.` parts and
keeps `..` parts, so `a//b/./c/` names the same path as `a/b/c`; an empty text names `.`.
Nothing here looks at a file system: joining, naming and prefix checks are on the text alone.
-/

namespace StageTree.Files

/-- A path name: its root and the names of its parts. -/
structure Path where
  root : String
  parts : List String
deriving Repr, DecidableEq, Inhabited

namespace Path

/-- The parts of a path text between slashes, empty ones and `.` left out. -/
def partsOf (s : String) : List String :=
  ((s.toList.splitOn '/').map String.ofList).filter fun p => !p.isEmpty && p != "."

/-- The number of slashes a text starts with. -/
def leadingSlashes (s : String) : Nat := (s.toList.takeWhile (· == '/')).length

/-- The path a text names. -/
def parse (s : String) : Path :=
  let root := match leadingSlashes s with
    | 0 => ""
    | 2 => "//"
    | _ => "/"
  ⟨root, partsOf s⟩

/-- The text of a path: `.` for an empty relative path. -/
def text (p : Path) : String :=
  if p.root.isEmpty && p.parts.isEmpty then "."
  else p.root ++ "/".intercalate p.parts

/-- Whether a path starts at the root. -/
def isAbsolute (p : Path) : Bool := !p.root.isEmpty

/-- A path followed by another: the other itself when it is absolute. -/
def join (p q : Path) : Path := if q.isAbsolute then q else ⟨p.root, p.parts ++ q.parts⟩

/-- The last part's name, or empty when there is no part. -/
def name (p : Path) : String := p.parts.getLastD ""

/-- The suffix of a name: from its last dot, when that dot is neither first nor last. -/
def suffixOf (name : String) : String :=
  let cs := name.toList
  match (List.range cs.length).reverse.find? (fun i => cs[i]? == some '.') with
  | some i => if 0 < i && i < cs.length - 1 then String.ofList (cs.drop i) else ""
  | none => ""

/-- The suffix of a path's name. -/
def suffix (p : Path) : String := suffixOf p.name

/-- The path below a base: the parts after the base's, when the path has the base's root and
starts with its parts. -/
def relativeTo (p base : Path) : Option Path :=
  if p.root == base.root && base.parts.isPrefixOf p.parts then
    some ⟨"", p.parts.drop base.parts.length⟩
  else none

/-- Whether a path lies at or below a base. -/
def within (p base : Path) : Bool := (p.relativeTo base).isSome

end Path

/-- The name of the last part of a path text. -/
def baseName (s : String) : String := (Path.parse s).name

end StageTree.Files
