import StageTree.Files.Path

/-!
# A volume of files

A volume holds files (their bytes), directories and symbolic links (their target texts), each
under the physical path of its place: the parts from the root, through directories only. The
root is always a directory, and every entry's parent is a directory.

Looking a path up follows it part by part from the root, as a kernel does: `..` goes to the
parent of the physical directory reached, a link met on the way is replaced by its target (an
absolute target starts again at the root, a relative one at the link's directory), and a link
as the last part is followed only when asked. More than forty links in one lookup is a loop.
-/

namespace StageTree.Files

/-- What a place of a volume holds. -/
inductive Inode where
  | file (bytes : ByteArray)
  | dir
  | link (target : String)
deriving Inhabited

/-- Why looking a path up failed. -/
inductive Errno where
  /-- A part names nothing. -/
  | noEntry
  /-- A part before the last names a file. -/
  | notDir
  /-- Too many links were followed. -/
  | loop
deriving Repr, DecidableEq, Inhabited

/-- A volume: the entries below the root, by physical path. -/
structure Volume where
  entries : List (List String × Inode) := []
deriving Inhabited

namespace Volume

/-- The most links followed in one lookup. -/
def linkLimit : Nat := 40

/-- What a physical path holds. -/
def inode? (v : Volume) (place : List String) : Option Inode :=
  if place.isEmpty then some .dir else (v.entries.find? (·.1 == place)).map (·.2)

/-- Follows the parts `rest` from the physical directory `cur`, with `links` more links allowed;
a link as the last part is followed when `followLast`. Gives the physical path reached. -/
def walk (v : Volume) (followLast : Bool) (links : Nat) (cur rest : List String) :
    Except Errno (List String) :=
  match rest with
  | [] => .ok cur
  | ".." :: more => walk v followLast links cur.dropLast more
  | name :: more =>
    let here := cur ++ [name]
    match v.inode? here with
    | none => .error .noEntry
    | some .dir => walk v followLast links here more
    | some (.file _) => if more.isEmpty then .ok here else .error .notDir
    | some (.link target) =>
      if more.isEmpty && !followLast then .ok here
      else match links with
        | 0 => .error .loop
        | n + 1 =>
          let t := Path.parse target
          walk v followLast n (if t.isAbsolute then [] else cur) (t.parts ++ more)
termination_by (links, rest.length)

/-- The physical place an absolute path reaches, following a last link when `follow`. -/
def locate (v : Volume) (follow : Bool) (path : String) : Except Errno (List String) :=
  v.walk follow linkLimit [] (Path.parse path).parts

/-- What an absolute path holds, following links (a status lookup). -/
def stat (v : Volume) (path : String) : Except Errno Inode := do
  let place ← v.locate true path
  match v.inode? place with
  | some i => pure i
  | none => throw .noEntry

/-- What an absolute path holds, a last link not followed. -/
def lstat (v : Volume) (path : String) : Except Errno Inode := do
  let place ← v.locate false path
  match v.inode? place with
  | some i => pure i
  | none => throw .noEntry

/-- Whether an absolute path reaches anything. -/
def exists? (v : Volume) (path : String) : Bool := (v.stat path).toOption.isSome

/-- Whether an absolute path reaches a file. -/
def isFile (v : Volume) (path : String) : Bool :=
  match v.stat path with
  | .ok (.file _) => true
  | _ => false

/-- Whether an absolute path reaches a directory. -/
def isDir (v : Volume) (path : String) : Bool :=
  match v.stat path with
  | .ok .dir => true
  | _ => false

/-- Whether an absolute path is a link itself. -/
def isLink (v : Volume) (path : String) : Bool :=
  match v.lstat path with
  | .ok (.link _) => true
  | _ => false

/-- The target of a link. -/
def linkTarget? (v : Volume) (path : String) : Option String :=
  match v.lstat path with
  | .ok (.link t) => some t
  | _ => none

/-- The bytes of the file an absolute path reaches. -/
def read? (v : Volume) (path : String) : Option ByteArray :=
  match v.stat path with
  | .ok (.file b) => some b
  | _ => none

/-- The names in the directory an absolute path reaches, in order. -/
def list? (v : Volume) (path : String) : Option (List String) :=
  match v.locate true path with
  | .ok place =>
    match v.inode? place with
    | some .dir =>
      some (v.entries.filterMap fun (p, _) =>
        if p.dropLast == place && p.length == place.length + 1 then p.getLast? else none)
    | _ => none
  | .error _ => none

/-- The volume without a place and everything below it. -/
def remove (v : Volume) (place : List String) : Volume :=
  ⟨v.entries.filter fun (p, _) => !place.isPrefixOf p⟩

/-- The volume with directories at a place and at every place above it. -/
def makeDirs (v : Volume) (place : List String) : Volume :=
  (List.range place.length).foldl (fun w i =>
    let p := place.take (i + 1)
    if (w.inode? p).isSome then w else ⟨w.entries ++ [(p, .dir)]⟩) v

/-- The volume with an entry at a place (replacing what was there), its parents made
directories. -/
def put (v : Volume) (place : List String) (i : Inode) : Volume :=
  let w := v.makeDirs place.dropLast
  ⟨(w.entries.filter (·.1 != place)) ++ [(place, i)]⟩

end Volume

end StageTree.Files
