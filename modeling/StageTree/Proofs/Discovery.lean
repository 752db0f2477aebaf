import Mathlib
import StageTree.Tools.Discover

/-!
# What discovery offers

Discovery only looks at the workspace and changes nothing in it (`Tools.Reads`: a small logic
of computations that read, with one rule per way of building them). What it lists comes from
walking the base directory a level at a time, through the names each directory holds: the
directories a walk enters (`Tools.Entered`) and the files it offers (`Tools.Offered`) are
stated on the names from the base down, one entry at a time (`Tools.crawlStep_reads`), and a
whole walk by recursion on the levels left (`Tools.crawl_offers`).

Main statement: `Tools.discoverYamlFiles_offers`. On a volume a file system could hold (no place
twice, no name empty or with a slash), whatever discovery lists is sorted and holds no path
twice, and every path in it is the names from the resolved base down to a file, joined with
slashes, such that the file resolves inside the base, is a file with a YAML suffix in any case,
has no sensitive name and is not ignored, no directory on the way is ignored (tested with a
trailing slash), skipped or, unless asked, hidden, no name on the way is a link unless links are
followed, and there is at most one name more than an integer depth limit.
-/

namespace StageTree

namespace Files.Volume

/-- A volume as a file system keeps it: no place is listed twice, and every name is a plain
name, neither empty nor holding a slash. -/
structure Proper (v : Volume) : Prop where
  places_nodup : (v.entries.map Prod.fst).Nodup
  names_plain : ∀ e ∈ v.entries, ∀ name ∈ e.1, name ≠ "" ∧ '/' ∉ name.toList

/-- The names a directory listing gives, drawn from the places of the volume. -/
theorem list_eq_filterMap {v : Volume} {path : String} {names : List String}
    (listed : v.list? path = some names) :
    ∃ place, names = (v.entries.map Prod.fst).filterMap fun p =>
      if p.dropLast == place && p.length == place.length + 1 then p.getLast? else none := by
  unfold list? at listed
  split at listed
  · rename_i place _
    split at listed
    · refine ⟨place, ?_⟩
      rw [List.filterMap_map]
      exact (Option.some.inj listed).symm
    · exact absurd listed (by simp)
  · exact absurd listed (by simp)

/-- A directory listing of a proper volume names nothing twice. -/
theorem Proper.list_nodup {v : Volume} (proper : v.Proper) {path : String} {names : List String}
    (listed : v.list? path = some names) : names.Nodup := by
  obtain ⟨place, rfl⟩ := list_eq_filterMap listed
  refine proper.places_nodup.filterMap fun p q name inP inQ => ?_
  -- two places under one directory with the same last name are one place
  simp only [Option.mem_def] at inP inQ
  split at inP <;> split at inQ <;> simp_all only [reduceCtorEq, Bool.and_eq_true, beq_iff_eq]
  rw [← List.dropLast_append_getLast? name inP, ← List.dropLast_append_getLast? name inQ]
  simp_all

/-- Every name a directory listing gives is a name in the place of some entry. -/
theorem list_names_mem {v : Volume} {path : String} {names : List String}
    (listed : v.list? path = some names) : ∀ name ∈ names, ∃ e ∈ v.entries, name ∈ e.1 := by
  obtain ⟨place, rfl⟩ := list_eq_filterMap listed
  intro name mem
  obtain ⟨p, inPlaces, gives⟩ := List.mem_filterMap.1 mem
  obtain ⟨e, inEntries, rfl⟩ := List.mem_map.1 inPlaces
  split at gives
  · exact ⟨e, inEntries, List.mem_of_getLast? gives⟩
  · exact absurd gives (by simp)

/-- A directory listing of a proper volume gives plain names. -/
theorem Proper.list_plain {v : Volume} (proper : v.Proper) {path : String} {names : List String}
    (listed : v.list? path = some names) :
    ∀ name ∈ names, name ≠ "" ∧ '/' ∉ name.toList := by
  intro name mem
  obtain ⟨e, inEntries, inPlace⟩ := list_names_mem listed name mem
  exact proper.names_plain e inEntries name inPlace

end Files.Volume

namespace Tools

variable {α β : Type}

/-! ## Computations that only read the workspace -/

/-- Running `x` on the workspace `w` leaves `w` as it is, and whatever `x` gives satisfies
`P`. -/
def Reads (w : Workspace) (x : ToolM α) (P : α → Prop) : Prop :=
  (x.run.run w).2 = w ∧ ∀ a, (x.run.run w).1 = .ok a → P a

variable {w : Workspace}

theorem Reads.mono {x : ToolM α} {P Q : α → Prop} (reads : Reads w x P)
    (imp : ∀ a, P a → Q a) : Reads w x Q :=
  ⟨reads.1, fun a ok => imp a (reads.2 a ok)⟩

/-- A computation that reads `w` gives its value with `w` left as it is. -/
theorem Reads.run_eq {x : ToolM α} {P : α → Prop} (reads : Reads w x P) {a : α}
    (ok : (x.run.run w).1 = .ok a) : x.run.run w = (.ok a, w) :=
  Prod.ext ok reads.1

theorem reads_pure {P : α → Prop} {a : α} (holds : P a) : Reads w (pure a) P :=
  ⟨rfl, fun _ ok => by cases ok; exact holds⟩

theorem reads_throw {P : α → Prop} (e : Raised) : Reads w (throw e) P :=
  ⟨rfl, fun _ ok => by cases ok⟩

theorem reads_get : Reads w get (· = w) :=
  ⟨rfl, fun _ ok => by cases ok; rfl⟩

theorem reads_orRaise (r : Except Raised α) : Reads w (orRaise r) (r = .ok ·) := by
  refine ⟨rfl, fun a ok => ?_⟩
  cases r with
  | error e => cases ok
  | ok a' => cases ok; rfl

/-- Reading on with what a first reading gives reads. -/
theorem Reads.bind {x : ToolM α} {f : α → ToolM β} {Q : β → Prop}
    (reads : Reads w x fun a => Reads w (f a) Q) : Reads w (x >>= f) Q := by
  obtain ⟨same, ok⟩ := reads
  unfold Reads
  rw [ExceptT.run_bind, StateT.run_bind]
  revert same ok
  -- the second computation starts from the state the first leaves, which is `w`
  cases x.run.run w with
  | mk r w' =>
    intro same ok
    cases r with
    | ok a =>
      dsimp only at same
      subst same
      exact ok a rfl
    | error e => exact ⟨same, fun _ bad => by cases bad⟩

/-- Reading on from a reading that gives what `P` says, with the value it gives. -/
theorem Reads.bind_run {x : ToolM α} {f : α → ToolM β} {P : α → Prop} {Q : β → Prop}
    (reads : Reads w x P) (next : ∀ a, x.run.run w = (.ok a, w) → P a → Reads w (f a) Q) :
    Reads w (x >>= f) Q :=
  Reads.bind ⟨reads.1, fun a ok => next a (reads.run_eq ok) (reads.2 a ok)⟩

/-- Reading on from a reading that gives what `P` says. -/
theorem Reads.bind_of {x : ToolM α} {f : α → ToolM β} {P : α → Prop} {Q : β → Prop}
    (reads : Reads w x P) (next : ∀ a, P a → Reads w (f a) Q) : Reads w (x >>= f) Q :=
  (reads.mono next).bind

/-- Reading on from a reading of which nothing is said but that it reads. -/
theorem Reads.bind_any {x : ToolM α} {f : α → ToolM β} {Q : β → Prop}
    (reads : Reads w x fun _ => True) (next : ∀ a, Reads w (f a) Q) : Reads w (x >>= f) Q :=
  reads.bind_of fun a _ => next a

theorem Reads.map_of {x : ToolM α} {P : α → Prop} {Q : β → Prop} {f : α → β}
    (reads : Reads w x P) (next : ∀ a, P a → Q (f a)) : Reads w (f <$> x) Q := by
  rw [map_eq_pure_bind]
  exact reads.bind_of fun a holds => reads_pure (next a holds)

/-- Resolving a path reads the workspace and gives the path's real path in the volume. -/
theorem reads_resolvePath (p : String) :
    Reads w (resolvePath p) (w.volume.resolve (w.absolute p) = .ok ·) := by
  unfold resolvePath
  refine reads_get.bind_of fun w' same => ?_
  subst same
  dsimp only
  split
  · exact (reads_throw _).bind
  · split
    · exact reads_pure ‹_›
    · exact reads_throw _

/-- Reading an ignore file's rules changes nothing. -/
theorem reads_ignoreFileSpec (bytes : ByteArray) :
    Reads w (ignoreFileSpec bytes) fun _ => True := by
  unfold ignoreFileSpec
  split
  · exact reads_throw _
  · split
    · exact reads_pure trivial
    · exact reads_throw _

/-- Reading the extra patterns' rules changes nothing. -/
theorem reads_extraSpec (extra : Json) : Reads w (extraSpec extra) fun _ => True := by
  unfold extraSpec
  dsimp only
  split
  all_goals first
    | exact (reads_throw _).bind
    | refine (reads_pure rfl).bind_of fun items same => ?_
  -- the patterns, given as a list or as an object's keys, are made rules or refused
  all_goals
    subst items
    split
    · exact reads_throw _
    · split
      · exact reads_throw _
      · exact reads_pure trivial

/-- Reading the ignore rules of a walk changes nothing. -/
theorem reads_ignoreSpecs (base : String) (extra : Json) :
    Reads w (ignoreSpecs base extra) fun _ => True := by
  unfold ignoreSpecs
  refine reads_get.bind_of fun w' same => ?_
  subst w'
  lift_lets
  intro ignoreFile afterFile
  -- whatever the ignore file gives, the extra patterns' rules come next
  have extraRules : ∀ fileSpec, Reads w (afterFile fileSpec) fun _ => True := by
    intro fileSpec
    simp only [afterFile]
    split
    · exact ((reads_extraSpec _).map_of fun _ _ => trivial).bind_any fun _ => reads_pure trivial
    · exact (reads_pure trivial).bind_any fun _ => reads_pure trivial
  split
  · split
    · exact ((reads_ignoreFileSpec _).map_of fun _ _ => trivial).bind_any extraRules
    · exact (reads_pure trivial).bind_any extraRules
  · exact (reads_pure trivial).bind_any extraRules

/-- Folding a step over a list reads when each step reads, carrying an invariant over the
entries done. -/
theorem reads_foldlM {f : β → α → ToolM β} (xs : List α) (I : List α → β → Prop)
    (step : ∀ done x rest b, done ++ x :: rest = xs → I done b →
      Reads w (f b x) (I (done ++ [x])))
    (init : β) (start : I [] init) : Reads w (xs.foldlM f init) (I xs) := by
  -- the fold runs over the entries still to do, after those done
  suffices go : ∀ todo done b, done ++ todo = xs → I done b →
      Reads w (todo.foldlM f b) (I xs) from
    go xs [] init rfl start
  intro todo
  induction todo with
  | nil =>
    intro done b whole holds
    rw [List.append_nil] at whole
    subst whole
    exact reads_pure holds
  | cons x rest ih =>
    intro done b whole holds
    rw [List.foldlM_cons]
    exact (step done x rest b whole holds).bind_of fun b' holds' =>
      ih (done ++ [x]) b' (by rw [List.append_assoc]; exact whole) holds'

/-! ## Paths a walk reaches -/

/-- The path reached from a directory through the names `names`, joined one at a time as a walk
joins them. -/
def descend (dir : String) (names : List String) : String :=
  names.foldl (fun cur name => ((Files.Path.parse cur).join ⟨"", [name]⟩).text) dir

theorem descend_append_single (dir : String) (names : List String) (name : String) :
    descend dir (names ++ [name]) =
      ((Files.Path.parse (descend dir names)).join ⟨"", [name]⟩).text := by
  simp [descend, List.foldl_append]

/-- Joined with slashes, nonempty lists of names without slashes stay apart. -/
theorem intercalate_injective {l m : List String} (hl : l ≠ []) (hm : m ≠ [])
    (plainL : ∀ s ∈ l, '/' ∉ s.toList) (plainM : ∀ s ∈ m, '/' ∉ s.toList)
    (same : "/".intercalate l = "/".intercalate m) : l = m := by
  have chars := congrArg String.toList same
  simp only [String.toList_intercalate] at chars
  -- splitting at the slashes gives each list's names back
  have names := congrArg (List.splitOn '/') chars
  have slash : "/".toList = ['/'] := rfl
  rw [slash, List.splitOn_intercalate '/' (by simpa using plainL) (by simpa using hl),
    List.splitOn_intercalate '/' (by simpa using plainM) (by simpa using hm)] at names
  exact (List.map_injective_iff.2 fun _ _ same => String.toList_injective same) names

/-- The directories `rel` below the base, as names from the base down, are ones a walk enters:
plain names, none of them skipped, none hidden unless hidden ones are walked, none ignored with
a trailing slash, and none a link unless links are followed. -/
structure Entered (w : Workspace) (walk : Walk) (base : String) (rel : List String) : Prop where
  plain : ∀ name ∈ rel, name ≠ "" ∧ '/' ∉ name.toList
  notSkipped : ∀ name ∈ rel, skippedDirs.contains name = false
  shown : walk.includeHidden = false → ∀ name ∈ rel, name.startsWith "." = false
  notIgnored : ∀ k, 0 < k → k ≤ rel.length →
    walk.ignored ("/".intercalate (rel.take k) ++ "/") = false
  noLinks : walk.followLinks = false → ∀ k, 0 < k → k ≤ rel.length →
    w.volume.isLink (descend base (rel.take k)) = false

/-- A file a walk offers, as the names from the base down to it: below directories the walk
enters, it has a plain name with a YAML suffix in any case, resolves inside the base, is a file,
is neither sensitive nor ignored, and is no link unless links are followed. -/
structure Offered (w : Workspace) (walk : Walk) (base : String) (parts : List String) : Prop where
  nonempty : parts ≠ []
  dirs : Entered w walk base parts.dropLast
  plainName : ∀ name ∈ parts.getLast?, name ≠ "" ∧ '/' ∉ name.toList
  yaml : ∀ name ∈ parts.getLast?,
    yamlSuffixes.contains (Text.lower (Files.Path.suffixOf name)) = true
  inside : ∃ real, w.volume.resolve (w.absolute (descend base parts)) = .ok real ∧
    (Files.Path.parse real).within walk.base = true
  file : w.volume.isFile (descend base parts) = true
  notSensitive : Security.isSensitiveName ("/".intercalate parts) = false
  notIgnored : walk.ignored ("/".intercalate parts) = false
  notLink : walk.followLinks = false → w.volume.isLink (descend base parts) = false

variable {walk : Walk} {base : String}

theorem Entered.nil : Entered w walk base [] :=
  ⟨by simp, by simp, by simp, fun k pos le => absurd le (by simp; omega),
    fun _ k pos le => absurd le (by simp; omega)⟩

/-- A nonempty prefix of `rel ++ [name]` is a nonempty prefix of `rel` or the whole list, so what
holds of both holds of it. -/
theorem forall_take_snoc {P : List String → Prop} {rel : List String} {name : String}
    (before : ∀ k, 0 < k → k ≤ rel.length → P (rel.take k)) (whole : P (rel ++ [name])) :
    ∀ k, 0 < k → k ≤ (rel ++ [name]).length → P ((rel ++ [name]).take k) := by
  intro k pos le
  by_cases short : k ≤ rel.length
  · rw [List.take_append_of_le_length short]
    exact before k pos short
  · rw [List.take_of_length_le (by simp at le ⊢; omega)]
    exact whole

/-- A walk entering the directories `rel` enters one more below them that passes its tests. -/
theorem Entered.snoc {rel : List String} {name : String} (entered : Entered w walk base rel)
    (plain : name ≠ "" ∧ '/' ∉ name.toList) (kept : skippedDirs.contains name = false)
    (shown : walk.includeHidden = false → name.startsWith "." = false)
    (notIgnored : walk.ignored ("/".intercalate (rel ++ [name]) ++ "/") = false)
    (noLink : walk.followLinks = false → w.volume.isLink (descend base (rel ++ [name])) = false) :
    Entered w walk base (rel ++ [name]) := by
  refine ⟨?plain, ?kept, ?shown, ?ignored, ?links⟩
  case plain =>
    exact List.forall_mem_append.2 ⟨entered.plain, List.forall_mem_singleton.2 plain⟩
  case kept =>
    exact List.forall_mem_append.2 ⟨entered.notSkipped, List.forall_mem_singleton.2 kept⟩
  case shown =>
    intro notHidden
    exact List.forall_mem_append.2
      ⟨entered.shown notHidden, List.forall_mem_singleton.2 (shown notHidden)⟩
  case ignored =>
    exact forall_take_snoc (P := fun l => walk.ignored ("/".intercalate l ++ "/") = false)
      entered.notIgnored notIgnored
  case links =>
    intro notFollowed
    exact forall_take_snoc (P := fun l => w.volume.isLink (descend base l) = false)
      (entered.noLinks notFollowed) (noLink notFollowed)

/-- The names of an offered file are all plain. -/
theorem Offered.plain {parts : List String} (offered : Offered w walk base parts) :
    ∀ name ∈ parts, name ≠ "" ∧ '/' ∉ name.toList := by
  intro name mem
  rw [← List.dropLast_append_getLast offered.nonempty, List.mem_append] at mem
  rcases mem with inDirs | isLast
  · exact offered.dirs.plain name inDirs
  · rw [List.mem_singleton.1 isLast]
    exact offered.plainName _ (List.getLast?_eq_some_getLast offered.nonempty)

/-! ## One entry of a directory -/

/-- What one entry `name` of the directory at `rel` adds to the files found so far: nothing, the
entry itself as a file the walk offers, or what walking it as a directory gives, which `Q`
says. -/
def Adds (w : Workspace) (walk : Walk) (base : String) (rel : List String) (name : String)
    (Q : List String → Prop) (found found' : List String) : Prop :=
  found' = found ∨
    (found' = found ++ ["/".intercalate (rel ++ [name])] ∧
      Offered w walk base (rel ++ [name])) ∨
    ∃ more, found' = found ++ more ∧ Q more

variable {rel : List String} {name : String} {sub : String → List String → ToolM (List String)}
  {Q : List String → Prop}

/-- An entry the walk goes on with, one that resolves inside the base and is no link unless
links are followed, is listed when it is a file passing the tests, walked by `sub` when it is a
directory passing them, and passed over otherwise. -/
theorem takeEntry_reads (entered : Entered w walk base rel)
    (plain : name ≠ "" ∧ '/' ∉ name.toList)
    (inside : ∃ real, w.volume.resolve (w.absolute (descend base (rel ++ [name]))) = .ok real ∧
      (Files.Path.parse real).within walk.base = true)
    (noLink : walk.followLinks = false → w.volume.isLink (descend base (rel ++ [name])) = false)
    (subReads : Entered w walk base (rel ++ [name]) →
      Reads w (sub (descend base (rel ++ [name])) (rel ++ [name])) Q)
    (found : List String) :
    Reads w (takeEntry walk sub w.volume rel found name (descend base (rel ++ [name])))
      (Adds w walk base rel name Q found) := by
  have last : (rel ++ [name]).getLast? = some name := List.getLast?_concat
  unfold takeEntry
  dsimp only
  split
  · -- a file: listed when its suffix, its name and the ignore rules let it
    rename_i isFile
    split
    · exact reads_pure (.inl rfl)
    split
    · exact reads_pure (.inl rfl)
    split
    · exact reads_pure (.inl rfl)
    rename_i yaml notSensitive notIgnored
    refine reads_pure (.inr (.inl ⟨rfl, ?_⟩))
    exact { nonempty := by simp
            dirs := by rw [List.dropLast_concat]; exact entered
            plainName := by rw [last]; simpa using plain
            yaml := by rw [last]; simpa using yaml
            inside, file := isFile
            notSensitive := by simpa using notSensitive
            notIgnored := by simpa using notIgnored
            notLink := noLink }
  · split
    · -- a directory: walked when its name and the ignore rules let it
      split
      · exact reads_pure (.inl rfl)
      split
      · exact reads_pure (.inl rfl)
      split
      · exact reads_pure (.inl rfl)
      rename_i kept hidden notIgnored
      have entered' : Entered w walk base (rel ++ [name]) :=
        entered.snoc plain (by simpa using kept)
          (fun notHidden => by simp_all) (by simpa using notIgnored) noLink
      exact (subReads entered').bind_of fun more holds =>
        reads_pure (.inr (.inr ⟨more, rfl, holds⟩))
    · exact reads_pure (.inl rfl)

/-- An entry of a directory the walk enters adds nothing, a file the walk offers, or what
walking it as a directory gives. -/
theorem crawlStep_reads (entered : Entered w walk base rel)
    (plain : name ≠ "" ∧ '/' ∉ name.toList)
    (subReads : Entered w walk base (rel ++ [name]) →
      Reads w (sub (descend base (rel ++ [name])) (rel ++ [name])) Q)
    (found : List String) :
    Reads w (crawlStep walk sub (descend base rel) rel found name)
      (Adds w walk base rel name Q found) := by
  unfold crawlStep
  dsimp only
  rw [← descend_append_single]
  refine (reads_resolvePath _).bind_of fun resolved resolves => ?_
  refine reads_get.bind_of fun w' same => ?_
  subst w'
  -- the entry is taken when it resolves inside the base and is a link only if links are followed
  have take : (Files.Path.parse resolved).within walk.base = true →
      (walk.followLinks = false → w.volume.isLink (descend base (rel ++ [name])) = false) →
      Reads w (takeEntry walk sub w.volume rel found name (descend base (rel ++ [name])))
        (Adds w walk base rel name Q found) :=
    fun inside noLink =>
      takeEntry_reads entered plain ⟨resolved, resolves, inside⟩ noLink subReads found
  split
  · split
    · exact reads_pure (.inl rfl)
    · rename_i followed
      exact take (by simp_all) (by simp_all)
  · split
    · exact reads_pure (.inl rfl)
    · rename_i notLink inside
      exact take (by simpa using inside) (fun _ => by simpa using notLink)

/-! ## A whole walk -/

/-- What a walk of the directory at `rel`, at most `levels` levels down, gives: the paths of
files it offers, each the names `rel` then one to `levels` more, joined with slashes, no path
twice. -/
def Crawled (w : Workspace) (walk : Walk) (base : String) (levels : Nat) (rel : List String)
    (found : List String) : Prop :=
  ∃ paths : List (List String), found = paths.map ("/".intercalate ·) ∧ paths.Nodup ∧
    ∀ parts ∈ paths, ∃ more, parts = rel ++ more ∧ more ≠ [] ∧
      more.length ≤ levels ∧ Offered w walk base parts

/-- A walk that goes no further, or finds no directory to list, gives nothing. -/
theorem Crawled.nil {levels : Nat} {rel : List String} : Crawled w walk base levels rel [] :=
  ⟨[], rfl, List.nodup_nil, fun _ mem => absurd mem List.not_mem_nil⟩

/-- The files found from the entries `done` of the directory at `rel`, walking each entry at most
`levels` levels further down: each below one of those entries, no path twice. -/
def Gathered (w : Workspace) (walk : Walk) (base : String) (levels : Nat) (rel done : List String)
    (found : List String) : Prop :=
  ∃ paths : List (List String), found = paths.map ("/".intercalate ·) ∧ paths.Nodup ∧
    ∀ parts ∈ paths, ∃ entry ∈ done, ∃ more, parts = rel ++ entry :: more ∧
      more.length ≤ levels ∧ Offered w walk base parts

/-- Paths below two different entries of one directory are different. -/
theorem ne_of_entry_ne {entry entry' : String} {more more' : List String}
    (apart : entry ≠ entry') : rel ++ entry :: more ≠ rel ++ entry' :: more' := by
  intro same
  exact apart (List.cons.inj (List.append_cancel_left same)).1

/-- One entry more, not among those done, keeps what has been gathered. -/
theorem Gathered.step {levels : Nat} {done : List String} {found found' : List String}
    (gathered : Gathered w walk base levels rel done found) (fresh : name ∉ done)
    (adds : Adds w walk base rel name (Crawled w walk base levels (rel ++ [name])) found found') :
    Gathered w walk base levels rel (done ++ [name]) found' := by
  obtain ⟨paths, rfl, nodup, below⟩ := gathered
  -- earlier paths lie below entries done, so none of them lies below the new entry
  have older : ∀ more, rel ++ name :: more ∉ paths := by
    intro more mem
    obtain ⟨entry, isDone, more', same, -⟩ := below _ mem
    exact ne_of_entry_ne (fun h : entry = name => fresh (h ▸ isDone)) same.symm
  have keep : ∀ parts ∈ paths, ∃ entry ∈ done ++ [name], ∃ more,
      parts = rel ++ entry :: more ∧ more.length ≤ levels ∧ Offered w walk base parts := by
    intro parts mem
    obtain ⟨entry, isDone, rest⟩ := below parts mem
    exact ⟨entry, List.mem_append_left _ isDone, rest⟩
  rcases adds with rfl | ⟨rfl, offered⟩ | ⟨more, rfl, paths', rfl, nodup', within⟩
  · exact ⟨paths, rfl, nodup, keep⟩
  · refine ⟨paths ++ [rel ++ [name]], by simp, ?_, ?_⟩
    · exact nodup.append (List.nodup_singleton _)
        (List.disjoint_singleton.2 (older []))
    · intro parts mem
      rcases List.mem_append.1 mem with old | new
      · exact keep parts old
      · rw [List.mem_singleton.1 new]
        exact ⟨name, by simp, [], by simp, by simp, offered⟩
  · refine ⟨paths ++ paths', by simp, ?_, ?_⟩
    · refine nodup.append nodup' fun parts old new => ?_
      obtain ⟨more, rfl, -⟩ := within parts new
      exact older more (by simpa using old)
    · intro parts mem
      rcases List.mem_append.1 mem with old | new
      · exact keep parts old
      · obtain ⟨more, rfl, -, short, offered⟩ := within parts new
        exact ⟨name, by simp, more, by simp, short, offered⟩

/-- A walk that enters the directories `rel` reads the workspace and gives the paths of the files
it offers below them, at most `levels` levels down, no path twice. -/
theorem crawl_offers (proper : w.volume.Proper) :
    ∀ (levels : Nat) (rel : List String), Entered w walk base rel →
      Reads w (crawl walk levels (descend base rel) rel) (Crawled w walk base levels rel)
  | 0, rel, _ => reads_pure Crawled.nil
  | levels + 1, rel, entered => by
    rw [crawl]
    refine reads_get.bind_of fun w' same => ?_
    subst w'
    split
    · rename_i names listed
      have nodup := proper.list_nodup listed
      -- the entries are taken one at a time, each walked at most `levels` levels further down
      have fold := reads_foldlM names (Gathered w walk base levels rel)
        (fun done entry rest found whole gathered => by
          have fresh : entry ∉ done := by
            rw [← whole] at nodup
            exact fun mem => (List.nodup_append.1 nodup).2.2 entry mem entry
              List.mem_cons_self rfl
          have plain := proper.list_plain listed entry (whole ▸ by simp)
          exact (crawlStep_reads entered plain
            (fun entered' => crawl_offers proper levels (rel ++ [entry]) entered') found).mono
            fun found' adds => Gathered.step gathered fresh adds)
        [] ⟨[], rfl, List.nodup_nil, fun _ mem => absurd mem List.not_mem_nil⟩
      refine fold.mono fun found ⟨paths, listedPaths, pathsNodup, below⟩ =>
        ⟨paths, listedPaths, pathsNodup, fun parts mem => ?_⟩
      obtain ⟨entry, -, more, rfl, short, offered⟩ := below parts mem
      exact ⟨entry :: more, rfl, List.cons_ne_nil _ _, by simpa using short, offered⟩
    · exact reads_pure Crawled.nil

/-! ## Discovery -/

/-- A walk for an integer depth limit goes down at most one level more than the limit, or not at
all. -/
theorem levelsFor_whole {maxDepth : Json} {d : Int} {deepest levels : Nat}
    (whole : numericOf? maxDepth = some (.whole d))
    (given : levelsFor maxDepth deepest = .ok levels) :
    levels = 0 ∨ (levels : Int) ≤ d + 1 := by
  unfold levelsFor at given
  rw [whole] at given
  simp only [Except.ok.injEq] at given
  split at given <;> omega

/-- What discovery of `basePath` gives: a sorted list with no path twice, each path the names
from the resolved base down to a file the walk offers, one more name at most than an integer
depth limit, with the ignore rules read from the base and the extra patterns. -/
def Discovered (w : Workspace) (basePath maxDepth includeHidden followLinks extra : Json)
    (found : List String) : Prop :=
  found.Pairwise (· ≤ ·) ∧ found.Nodup ∧
    ∃ baseText base specs, pathText basePath = .ok baseText ∧
      w.volume.resolve (w.absolute baseText) = .ok base ∧
      (ignoreSpecs base extra).run.run w = (.ok specs, w) ∧
      ∀ r ∈ found, ∃ parts, r = "/".intercalate parts ∧
        (∀ d, numericOf? maxDepth = some (.whole d) → (parts.length : Int) ≤ d + 1) ∧
        Offered w
          ⟨Files.Path.parse base, truthy includeHidden, truthy followLinks, ignoredBy specs⟩
          base parts

/-- Discovery on a volume a file system could hold changes nothing in the workspace, and whatever
it lists is sorted, holds no path twice, and holds only paths of files under the base that a walk
offers: each resolves inside the resolved base, is a file with a YAML suffix in any case, has no
sensitive name, is not ignored, lies below no ignored (with a trailing slash), skipped or, unless
asked, hidden directory and below no link unless links are followed, and has at most one name
more than an integer depth limit. -/
theorem discoverYamlFiles_offers (w : Workspace) (proper : w.volume.Proper)
    (basePath maxDepth includeHidden followLinks extra : Json) :
    Reads w (discoverYamlFiles basePath maxDepth includeHidden followLinks extra)
      (Discovered w basePath maxDepth includeHidden followLinks extra) := by
  unfold discoverYamlFiles
  refine (reads_orRaise _).bind_of fun baseText named => ?_
  refine (reads_resolvePath _).bind_of fun base resolved => ?_
  refine reads_get.bind_of fun w' same => ?_
  subst w'
  dsimp only
  split
  · exact (reads_throw _).bind
  split
  · exact (reads_throw _).bind
  refine (reads_ignoreSpecs base extra).bind_run fun specs ran _ => ?_
  refine (reads_orRaise _).bind_of fun levels depth => ?_
  refine (crawl_offers proper levels [] Entered.nil).bind_of
    fun found ⟨paths, listed, nodup, below⟩ => reads_pure ?_
  subst listed
  -- paths are told apart by their names, so the listing holds none twice
  have apart : (paths.map ("/".intercalate ·)).Nodup := by
    refine nodup.map_on fun l inL m inM same => ?_
    obtain ⟨_, -, _, -, offeredL⟩ := below l inL
    obtain ⟨_, -, _, -, offeredM⟩ := below m inM
    exact intercalate_injective offeredL.nonempty offeredM.nonempty
      (fun s mem => (offeredL.plain s mem).2) (fun s mem => (offeredM.plain s mem).2) same
  have sorted := List.mergeSort_perm (paths.map ("/".intercalate ·)) fun a b => decide (a ≤ b)
  refine ⟨List.pairwise_mergeSort' (· ≤ ·) _, sorted.nodup_iff.2 apart, baseText, base, specs,
    named, resolved, ran, fun r mem => ?_⟩
  obtain ⟨parts, inPaths, rfl⟩ := List.mem_map.1 (sorted.mem_iff.1 mem)
  obtain ⟨more, below, nonempty, short, offered⟩ := below parts inPaths
  rw [List.nil_append] at below
  subst below
  refine ⟨parts, rfl, fun d whole => ?_, offered⟩
  -- no walk at all lists nothing
  rcases levelsFor_whole whole depth with none | bound
  · exact absurd (List.length_eq_zero_iff.1 (by omega)) nonempty
  · omega

/-- A workspace whose base `/ws` holds a pipeline, a hidden directory holding another, and a link
back to itself. -/
def loopingWorkspace : Workspace :=
  { volume := ⟨[(["ws"], .dir), (["ws", "a.yml"], .file "stage: x\n".toUTF8),
      (["ws", ".h"], .dir), (["ws", ".h", "b.yml"], .file ByteArray.empty),
      (["ws", "loop"], .link ".")]⟩
    cwd := "/ws", cache := Store.Cache.empty 16, settings := default }

/-- Discovery in that workspace, links followed and hidden directories passed over, offers only
what a walk may list. -/
theorem discover_offers_in_looping_workspace :
    loopingWorkspace.volume.Proper ∧
      Reads loopingWorkspace
        (discoverYamlFiles (.str "/ws") (.int 5) (.bool false) (.bool true) .null)
        (Discovered loopingWorkspace (.str "/ws") (.int 5) (.bool false) (.bool true) .null) :=
  have proper : loopingWorkspace.volume.Proper := ⟨by decide, by decide⟩
  ⟨proper, discoverYamlFiles_offers _ proper _ _ _ _ _⟩

end Tools

end StageTree
