import StageTree.Files.Volume

/-!
# Resolving paths

The real path of an absolute path replaces every link by what it resolves to, part by part from
the root: `..` steps to the parent of the path resolved so far, and a part that names nothing is
kept as it is. Each link resolved is remembered with its result; a link met again while it is
still being resolved is a loop, and resolution then stops and keeps that link and the rest of
the path as written (with `..` steps then taken on the text). A resolved path is then checked:
if looking it up loops, resolving fails.
-/

namespace StageTree.Files

/-- The links met while resolving: a link's path and its resolution, none while it is being
resolved. -/
abbrev Seen := List (List String × Option (List String))

/-- Takes `..` steps on a path's text: each drops the part before it (none at the root). -/
def collapseDots (parts : List String) : List String :=
  parts.foldl (fun acc p => if p == ".." then acc.dropLast else acc ++ [p]) []

/-- The text of an absolute path's parts. -/
def absoluteText (parts : List String) : String := "/" ++ "/".intercalate parts

namespace Volume

/-- The number of links in a volume. -/
def linkCount (v : Volume) : Nat :=
  (v.entries.filter fun (_, i) => match i with | .link _ => true | _ => false).length

/-- Resolves the parts `rest` after the resolved path `path`. Gives the path, whether it was
resolved to the end (not stopped by a loop), and the links seen. `fuel` bounds the nesting of
link resolutions, each link entering it at most once. -/
def joinReal (v : Volume) (fuel : Nat) (path rest : List String) (seen : Seen) :
    List String × Bool × Seen :=
  match rest with
  | [] => (path, true, seen)
  | ".." :: more => joinReal v fuel path.dropLast more seen
  | name :: more =>
    let newpath := path ++ [name]
    match v.linkTarget? (absoluteText newpath) with
    | none => joinReal v fuel newpath more seen
    | some target =>
      match seen.lookup newpath with
      | some (some resolved) => joinReal v fuel resolved more seen
      | some none => (newpath ++ more, false, seen)
      | none =>
        match fuel with
        | 0 => (newpath ++ more, false, seen)
        | f + 1 =>
          let t := Path.parse target
          let (p, ok, seen') :=
            joinReal v f (if t.isAbsolute then [] else path) t.parts ((newpath, none) :: seen)
          if ok then
            joinReal v (f + 1) p more ((newpath, some p) :: seen'.filter (·.1 != newpath))
          else (p ++ more, false, seen')
termination_by (fuel, rest.length)

/-- The real path of an absolute path text. -/
def realPath (v : Volume) (path : String) : List String :=
  let (p, _, _) := v.joinReal (v.linkCount + 1) [] (Path.parse path).parts []
  collapseDots p

/-- The real path of an absolute path text, or the text of that real path when looking it up
loops. -/
def resolve (v : Volume) (path : String) : Except String String :=
  let real := absoluteText (v.realPath path)
  match v.stat real with
  | .error .loop => .error real
  | _ => .ok real

end Volume

end StageTree.Files
