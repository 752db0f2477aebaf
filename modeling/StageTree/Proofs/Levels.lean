import StageTree.Proofs.Discovery

/-!
# Enough levels

A lookup follows at most forty links, and between two links each name it steps down through is
a place of the volume one part longer than the last. So after a directory's path, names none of
which is `..` can lead a lookup to a directory only when there are at most `E + 1` of them for
each link it may still follow and `E` more, where `E` is the number of entries
(`Files.Volume.walk_names_le`).

A walk of a directory reads each directory it enters by the path of the names that led there
(`Files.Path.parse_descend`). So on a volume whose names are names a directory can list, no
directory lies `walkLevels` levels down, and walking more levels than that runs alike
(`Tools.crawl_alike`): the cap that discovery puts on a depth limit changes nothing
(`Tools.crawl_min_walkLevels`).
-/

namespace StageTree

namespace Files

namespace Path

/-- A name a path text keeps as one part: not empty, no slash, not `.`. -/
def Keeps (name : String) : Prop := name ≠ "" ∧ '/' ∉ name.toList ∧ name ≠ "."

/-- The pieces of a list split at a separator hold no separator. -/
theorem not_mem_of_mem_splitOn (c : Char) (cs : List Char) : ∀ piece ∈ cs.splitOn c, c ∉ piece := by
  induction cs with
  | nil => simp [List.splitOn_nil]
  | cons x xs ih =>
    intro piece mem
    simp only [List.splitOn, List.splitOnP_cons_eq_if_modifyHead] at mem ih
    split at mem
    · -- the separator ends a piece and starts an empty one
      rcases List.mem_cons.1 mem with rfl | later
      · exact List.not_mem_nil
      · exact ih piece later
    · -- any other character joins the first piece
      rename_i notSep
      obtain ⟨first, rest, pieces⟩ := List.exists_cons_of_ne_nil (List.splitOnP_ne_nil (· == c) xs)
      rw [pieces, List.modifyHead_cons] at mem
      rcases List.mem_cons.1 mem with rfl | later
      · intro inFirst
        rcases List.mem_cons.1 inFirst with same | inner
        · exact notSep (by rw [← same]; exact beq_self_eq_true c)
        · exact ih first (pieces ▸ List.mem_cons_self ..) inner
      · exact ih piece (pieces ▸ List.mem_cons_of_mem _ later)

/-- The root read from a text is empty, one slash or two. -/
theorem parse_root (s : String) :
    (parse s).root = "" ∨ (parse s).root = "/" ∨ (parse s).root = "//" := by
  unfold parse
  dsimp only
  split <;> simp

/-- Every part read from a text is kept as it is when read again. -/
theorem parse_parts_keep (s : String) : ∀ p ∈ (parse s).parts, Keeps p := by
  intro p mem
  simp only [parse, partsOf, List.mem_filter, List.mem_map, Bool.and_eq_true, Bool.not_eq_true',
    String.isEmpty_eq_false_iff, bne_iff_ne] at mem
  obtain ⟨⟨piece, inSplit, rfl⟩, notEmpty, notDot⟩ := mem
  refine ⟨notEmpty, ?_, notDot⟩
  rw [String.toList_ofList]
  exact not_mem_of_mem_splitOn '/' s.toList piece inSplit

/-- A list split at a separator it starts with starts with an empty piece. -/
theorem splitOn_slash_cons (cs : List Char) : ('/' :: cs).splitOn '/' = [] :: cs.splitOn '/' := by
  simp [List.splitOn, List.splitOnP_cons_eq_if_modifyHead]

variable {ps : List String}

/-- Parts joined with slashes split at the slashes give the parts back. -/
theorem splitOn_joined (nonempty : ps ≠ []) (keep : ∀ x ∈ ps, Keeps x) :
    (['/'].intercalate (ps.map String.toList)).splitOn '/' = ps.map String.toList := by
  refine List.splitOn_intercalate '/' (fun l mem => ?_) (by simpa using nonempty)
  obtain ⟨x, inPs, rfl⟩ := List.mem_map.1 mem
  exact (keep x inPs).2.1

/-- Parts joined with slashes start with no slash. -/
theorem takeWhile_joined (nonempty : ps ≠ []) (keep : ∀ x ∈ ps, Keeps x) :
    (['/'].intercalate (ps.map String.toList)).takeWhile (· == '/') = [] := by
  obtain ⟨p, rest, rfl⟩ := List.exists_cons_of_ne_nil nonempty
  obtain ⟨notEmpty, noSlash, -⟩ := keep p List.mem_cons_self
  obtain ⟨c, cs, chars⟩ := List.exists_cons_of_ne_nil (by simpa using notEmpty : p.toList ≠ [])
  have notSlash : c ≠ '/' := fun same => noSlash (by rw [chars, same]; exact List.mem_cons_self)
  cases rest with
  | nil => simp [chars, notSlash]
  | cons q rest => simp [List.intercalate_cons_cons, chars, notSlash]

/-- Reading the text of a path with parts gives the path back, when its root is one a text can
have and each part is kept as it is. -/
theorem parse_text {r : String} (root : r = "" ∨ r = "/" ∨ r = "//") (nonempty : ps ≠ [])
    (keep : ∀ x ∈ ps, Keeps x) : parse (text ⟨r, ps⟩) = ⟨r, ps⟩ := by
  have joined := splitOn_joined nonempty keep
  have leading := takeWhile_joined nonempty keep
  -- the text is the root's slashes, then the parts joined with slashes
  have chars : (text ⟨r, ps⟩).toList = r.toList ++ ['/'].intercalate (ps.map String.toList) := by
    have notDot : ¬ (r.isEmpty && ps.isEmpty) = true := by simp [nonempty]
    rw [text, if_neg notDot, String.toList_append, String.toList_intercalate]
    rfl
  have kept : ∀ x ∈ ps, ¬ x = "" ∧ ¬ x = "." := fun x mem => ⟨(keep x mem).1, (keep x mem).2.2⟩
  rcases root with rfl | rfl | rfl
  · simpa [parse, leadingSlashes, partsOf, chars, joined, leading] using kept
  · simpa [parse, leadingSlashes, partsOf, chars, splitOn_slash_cons, joined, leading] using kept
  · simpa [parse, leadingSlashes, partsOf, chars, splitOn_slash_cons, joined, leading] using kept

/-- Read again, the path a walk reaches from `base` through names kept as they are is the base's
path with those names after its parts. -/
theorem parse_descend (base : String) (rel : List String) (keep : ∀ n ∈ rel, Keeps n) :
    parse (Tools.descend base rel) = ⟨(parse base).root, (parse base).parts ++ rel⟩ := by
  induction rel using List.reverseRecOn with
  | nil => simp [Tools.descend]
  | append_singleton rel n ih =>
    rw [Tools.descend_append_single, ih fun x mem => keep x (List.mem_append_left _ mem)]
    show parse (text ⟨(parse base).root, (parse base).parts ++ rel ++ [n]⟩) = _
    rw [← List.append_assoc]
    refine parse_text (parse_root base) (by simp) fun x mem => ?_
    rcases List.mem_append.1 mem with front | last
    · rcases List.mem_append.1 front with inBase | inRel
      · exact parse_parts_keep base x inBase
      · exact keep x (List.mem_append_left _ inRel)
    · exact keep x (List.mem_append_right _ last)

end Path

namespace Volume

/-- A volume whose names are all names a directory can list: none is `.` or `..`, which every
directory has for itself and for its parent. -/
def RealNames (v : Volume) : Prop := ∀ e ∈ v.entries, ∀ name ∈ e.1, name ≠ "." ∧ name ≠ ".."

instance (v : Volume) : Decidable v.RealNames := inferInstanceAs (Decidable (∀ e ∈ _, _))

/-- How many of the nonempty prefixes of a physical path are places of the volume. -/
def placesAlong (v : Volume) (cur : List String) : Nat :=
  ((List.range cur.length).filter fun k => (v.entries.map Prod.fst).contains (cur.take (k + 1))).length

/-- A path has no more places along it than the volume has entries: its prefixes are distinct. -/
theorem placesAlong_le (v : Volume) (cur : List String) : v.placesAlong cur ≤ v.entries.length := by
  let along := ((List.range cur.length).filter fun k =>
    (v.entries.map Prod.fst).contains (cur.take (k + 1))).map fun k => cur.take (k + 1)
  have distinct : along.Nodup := by
    refine ((List.nodup_range).filter _).map_on fun k inK l inL same => ?_
    have lengths := congrArg List.length same
    simp only [List.mem_filter, List.mem_range] at inK inL
    simp only [List.length_take] at lengths
    omega
  have inside : along ⊆ v.entries.map Prod.fst := by
    intro p mem
    obtain ⟨k, kept, rfl⟩ := List.mem_map.1 mem
    exact List.contains_iff_mem.1 (List.mem_filter.1 kept).2
  have bound := distinct.length_le_of_subset inside
  rw [List.length_map, List.length_map] at bound
  exact bound

/-- Stepping down into a place adds it to the places along the path. -/
theorem placesAlong_snoc {v : Volume} {cur : List String} {name : String}
    (place : cur ++ [name] ∈ v.entries.map Prod.fst) :
    v.placesAlong (cur ++ [name]) = v.placesAlong cur + 1 := by
  have earlier : ∀ k ∈ List.range cur.length, (cur ++ [name]).take (k + 1) = cur.take (k + 1) :=
    fun k mem => List.take_append_of_le_length (by simp at mem; omega)
  rw [placesAlong, placesAlong, List.length_append, List.length_singleton, List.range_succ,
    List.filter_append, List.filter_congr fun k mem => by rw [earlier k mem], List.length_append]
  simp [List.take_of_length_le, place]

/-- A nonempty physical path that holds something is a place of the volume. -/
theorem mem_places_of_inode {v : Volume} {here : List String} (nonempty : here ≠ [])
    {i : Inode} (found : v.inode? here = some i) : here ∈ v.entries.map Prod.fst := by
  unfold inode? at found
  rw [if_neg (by simpa using nonempty)] at found
  obtain ⟨e, inEntries, rfl⟩ := Option.map_eq_some_iff.1 found
  exact List.mem_map.2 ⟨e, List.mem_of_find?_eq_some inEntries, by simpa using List.find?_some inEntries⟩

/-- How many names after the parts `before`, none of them `..`, a lookup at `cur` with `links`
more links allowed can still step down through and end at a directory: `E + 1` for each link,
where `E` is the number of entries, and `E` more; once the names are reached, the places along
the way so far are used up. -/
def nameBudget (v : Volume) (links : Nat) (cur before : List String) : Nat :=
  links * (v.entries.length + 1) +
    if before = [] then v.entries.length - v.placesAlong cur else v.entries.length

/-- Once the names are reached, the places along the way so far are used up. -/
theorem nameBudget_nil (v : Volume) (links : Nat) (cur : List String) :
    v.nameBudget links cur [] =
      links * (v.entries.length + 1) + (v.entries.length - v.placesAlong cur) := by
  simp [nameBudget]

/-- A budget never exceeds `E + 1` for each link and `E` more. -/
theorem nameBudget_le (v : Volume) (links : Nat) (cur before : List String) :
    v.nameBudget links cur before ≤ links * (v.entries.length + 1) + v.entries.length := by
  unfold nameBudget
  split <;> omega

/-- Before the names are reached, the budget is `E + 1` for each link and `E` more. -/
theorem nameBudget_cons (v : Volume) (links : Nat) (cur : List String) (part : String)
    (before : List String) :
    v.nameBudget links cur (part :: before) = links * (v.entries.length + 1) + v.entries.length := by
  simp [nameBudget]

/-- Before the names are reached, every budget with as many links is within the budget. -/
theorem le_nameBudget_cons {v : Volume} {links n : Nat} {cur cur' before before' : List String}
    {part : String} (within : n ≤ v.nameBudget links cur' before') :
    n ≤ v.nameBudget links cur (part :: before) := by
  rw [nameBudget_cons]
  exact within.trans (v.nameBudget_le _ _ _)

/-- A lookup that ends at a directory steps down through no more names after the parts `before`,
none of them `..`, than its budget: between two links the names step through places, each one
part longer than the last, and each link followed is one fewer allowed. -/
theorem walk_names_le (v : Volume) : ∀ (links : Nat) (cur rest before names : List String),
    rest = before ++ names → (∀ n ∈ names, n ≠ "..") → ∀ place,
      v.walk true links cur rest = .ok place → v.inode? place = some .dir →
        names.length ≤ v.nameBudget links cur before := by
  intro links cur rest
  induction links, cur, rest using walk.induct v true with
  | case1 links cur =>
    intro before names split _ _ _ _
    rw [(List.append_eq_nil_iff.1 split.symm).2]
    exact Nat.zero_le _
  | case2 links cur more ih =>
    intro before names split noDots place walked dir
    rw [walk.eq_2] at walked
    cases before with
    | nil =>
      rw [List.nil_append] at split
      exact absurd rfl (noDots ".." (by rw [← split]; exact List.mem_cons_self))
    | cons part before =>
      exact le_nameBudget_cons (ih before names (List.cons.inj split).2 noDots place walked dir)
  | case3 links cur name more notDots here missing =>
    intro _ _ _ _ place walked _
    rw [walk.eq_3 _ _ _ _ _ _ notDots, show v.inode? (cur ++ [name]) = none from missing] at walked
    exact absurd walked (by simp)
  | case4 links cur name more notDots here isDir ih =>
    intro before names split noDots place walked dir
    replace isDir : v.inode? (cur ++ [name]) = some .dir := isDir
    rw [walk.eq_3 _ _ _ _ _ _ notDots, isDir] at walked
    cases before with
    | nil =>
      -- a name stepped through: one more place along the way
      rw [List.nil_append] at split
      subst split
      have bound : more.length ≤ v.nameBudget links (cur ++ [name]) [] :=
        ih [] more rfl (fun n mem => noDots n (List.mem_cons_of_mem _ mem)) place walked dir
      have stepped := placesAlong_snoc (mem_places_of_inode (by simp) isDir)
      have within := v.placesAlong_le (cur ++ [name])
      rw [nameBudget_nil] at bound ⊢
      rw [List.length_cons]
      omega
    | cons part before =>
      exact le_nameBudget_cons (ih before names (List.cons.inj split).2 noDots place walked dir)
  | case5 links cur name more notDots here bytes isFile last =>
    intro _ _ _ _ place walked dir
    replace isFile : v.inode? (cur ++ [name]) = some (.file bytes) := isFile
    rw [walk.eq_3 _ _ _ _ _ _ notDots, isFile] at walked
    simp only [last, if_true, Except.ok.injEq] at walked
    rw [← walked, isFile] at dir
    exact absurd dir (by simp)
  | case6 links cur name more notDots here bytes isFile notLast =>
    intro _ _ _ _ place walked _
    replace isFile : v.inode? (cur ++ [name]) = some (.file bytes) := isFile
    rw [walk.eq_3 _ _ _ _ _ _ notDots, isFile] at walked
    simp only [notLast] at walked
    exact absurd walked (by simp)
  | case7 links cur name more notDots here target isLink stops =>
    intro _ _ _ _ _ _ _
    simp at stops
  | case8 cur name more notDots here target isLink goesOn =>
    intro _ _ _ _ place walked _
    replace isLink : v.inode? (cur ++ [name]) = some (.link target) := isLink
    rw [walk.eq_3 _ _ _ _ _ _ notDots, isLink] at walked
    simp only [goesOn, Bool.false_eq_true, if_false] at walked
    exact absurd walked (by simp)
  | case9 cur name more notDots here target isLink goesOn n t ih =>
    intro before names split noDots place walked dir
    replace isLink : v.inode? (cur ++ [name]) = some (.link target) := isLink
    rw [walk.eq_3 _ _ _ _ _ _ notDots, isLink] at walked
    simp only [goesOn, Bool.false_eq_true, if_false] at walked
    -- a link followed: one fewer allowed, and its target's parts come before what is left
    cases before with
    | nil =>
      rw [List.nil_append] at split
      subst split
      have bound := (ih (Path.parse target).parts more rfl
        (fun n mem => noDots n (List.mem_cons_of_mem _ mem)) place walked dir).trans
          (v.nameBudget_le _ _ _)
      have within := v.placesAlong_le cur
      rw [nameBudget_nil, List.length_cons, Nat.succ_mul]
      omega
    | cons part before =>
      obtain ⟨-, rest⟩ := List.cons.inj split
      have bound := (ih ((Path.parse target).parts ++ before) names (by subst rest; simp [t])
        noDots place walked dir).trans (v.nameBudget_le _ _ _)
      rw [nameBudget_cons, Nat.succ_mul]
      omega

end Volume

end Files

namespace Tools

open Files

variable {w : Workspace} {α β : Type}

/-- Two computations that run alike on `w`: they give the same outcome and leave the same
workspace, which is `w` itself. -/
def RunsAlike (w : Workspace) (x y : ToolM α) : Prop :=
  x.run.run w = y.run.run w ∧ (x.run.run w).2 = w

/-- A computation that reads `w` runs alike with itself. -/
theorem RunsAlike.of_reads {x : ToolM α} {P : α → Prop} (reads : Reads w x P) : RunsAlike w x x :=
  ⟨rfl, reads.1⟩

theorem RunsAlike.pure (a : α) : RunsAlike w (pure a) (pure a) := ⟨rfl, rfl⟩

/-- Computations that run alike, followed by computations that run alike on what they give. -/
theorem RunsAlike.bind {x y : ToolM α} {f g : α → ToolM β} (first : RunsAlike w x y)
    (next : ∀ a, (x.run.run w).1 = .ok a → RunsAlike w (f a) (g a)) :
    RunsAlike w (x >>= f) (y >>= g) := by
  obtain ⟨same, stays⟩ := first
  unfold RunsAlike
  rw [ExceptT.run_bind, StateT.run_bind, ExceptT.run_bind, StateT.run_bind, ← same]
  revert stays next
  -- the second computations start from the workspace the first leave, which is `w`
  cases x.run.run w with
  | mk r w' =>
    intro next stays
    dsimp only at stays
    subst stays
    cases r with
    | ok a => exact next a rfl
    | error e => exact ⟨rfl, rfl⟩

/-- Reading the workspace, then going on alike from it, runs alike. -/
theorem RunsAlike.get_bind {f g : Workspace → ToolM β} (next : RunsAlike w (f w) (g w)) :
    RunsAlike w (get >>= f) (get >>= g) :=
  (RunsAlike.of_reads reads_get).bind fun w' got => by
    obtain rfl : w = w' := by cases got; rfl
    exact next

/-- Folds whose steps run alike from every value run alike. -/
theorem RunsAlike.foldlM {f g : β → α → ToolM β} (xs : List α)
    (steps : ∀ b, ∀ a ∈ xs, RunsAlike w (f b a) (g b a)) (b : β) :
    RunsAlike w (xs.foldlM f b) (xs.foldlM g b) := by
  induction xs generalizing b with
  | nil => exact RunsAlike.pure b
  | cons a rest ih =>
    rw [List.foldlM_cons, List.foldlM_cons]
    exact (steps b a List.mem_cons_self).bind fun b' _ =>
      ih (fun b'' a' mem => steps b'' a' (List.mem_cons_of_mem _ mem)) b'

variable {walk : Walk} {sub sub' : String → List String → ToolM (List String)}

/-- Taking an entry with two ways of walking a directory runs alike when walking the entry's
directory does. -/
theorem takeEntry_alike {v : Volume} {rel found : List String} {name item : String}
    (same : RunsAlike w (sub item (rel ++ [name])) (sub' item (rel ++ [name]))) :
    RunsAlike w (takeEntry walk sub v rel found name item) (takeEntry walk sub' v rel found name item) := by
  unfold takeEntry
  dsimp only
  split_ifs
  all_goals first
    | exact RunsAlike.pure _
    | exact same.bind fun _ _ => RunsAlike.pure _

/-- One entry of a directory with two ways of walking a directory runs alike when walking the
entry's directory does. -/
theorem crawlStep_alike {base : String} {rel found : List String} {name : String}
    (same : RunsAlike w (sub (descend base (rel ++ [name])) (rel ++ [name]))
      (sub' (descend base (rel ++ [name])) (rel ++ [name]))) :
    RunsAlike w (crawlStep walk sub (descend base rel) rel found name)
      (crawlStep walk sub' (descend base rel) rel found name) := by
  unfold crawlStep
  dsimp only
  rw [← descend_append_single]
  refine (RunsAlike.of_reads (reads_resolvePath _)).bind fun resolved _ => RunsAlike.get_bind ?_
  split_ifs
  all_goals first
    | exact RunsAlike.pure _
    | exact takeEntry_alike same

/-- A walk of a path that lists no directory gives nothing. -/
theorem crawl_list_none {cur : String} {rel : List String} (none : w.volume.list? cur = none) :
    ∀ levels, RunsAlike w (crawl walk levels cur rel) (pure [])
  | 0 => RunsAlike.pure []
  | levels + 1 => by
    rw [crawl]
    refine RunsAlike.get_bind (g := fun _ => pure []) ?_
    rw [none]
    exact RunsAlike.pure []

/-- No directory lies below a directory by as many names kept as they are, none of them `..`,
as a lookup can step down through between links and after the last. -/
theorem list_descend_deep {v : Volume} (base : String) {rel : List String}
    (keep : ∀ n ∈ rel, Path.Keeps n ∧ n ≠ "..")
    (deep : (Volume.linkLimit + 1) * (v.entries.length + 1) ≤ rel.length) :
    v.list? (descend base rel) = none := by
  unfold Volume.list? Volume.locate
  rw [Path.parse_descend base rel fun n mem => (keep n mem).1]
  split
  · rename_i place walked
    split
    · rename_i dir
      have bound := (Volume.walk_names_le v _ [] _ (Path.parse base).parts rel rfl
        (fun n mem => (keep n mem).2) place walked dir).trans (v.nameBudget_le _ _ _)
      rw [Nat.succ_mul] at deep
      omega
    · rfl
  · rfl

/-- Walking a directory `k + j` levels down runs alike with walking it `k` levels down once the
names from the base reach, with `k` more, past as many as a lookup can step down through: no
directory lies that deep, so the levels past it list nothing. -/
theorem crawl_alike (proper : w.volume.Proper) (real : w.volume.RealNames) (walk : Walk)
    (base : String) : ∀ (k : Nat) (rel : List String), (∀ n ∈ rel, Path.Keeps n ∧ n ≠ "..") →
      (Volume.linkLimit + 1) * (w.volume.entries.length + 1) ≤ rel.length + k → ∀ j,
        RunsAlike w (crawl walk (k + j) (descend base rel) rel) (crawl walk k (descend base rel) rel)
  | 0, rel, keep, deep, j => by
    rw [Nat.zero_add]
    exact crawl_list_none (list_descend_deep base keep deep) j
  | k + 1, rel, keep, deep, j => by
    rw [show k + 1 + j = k + j + 1 by omega, crawl, crawl]
    refine RunsAlike.get_bind ?_
    split
    · rename_i names listed
      -- each entry's directory, one level further down, is walked alike
      refine RunsAlike.foldlM names (fun found name mem => crawlStep_alike ?_) []
      obtain ⟨e, inEntries, inPlace⟩ := Volume.list_names_mem listed name mem
      have plain := proper.names_plain e inEntries name inPlace
      have dots := real e inEntries name inPlace
      have keep' : ∀ n ∈ rel ++ [name], Path.Keeps n ∧ n ≠ ".." := by
        intro n mem'
        rcases List.mem_append.1 mem' with old | new
        · exact keep n old
        · rw [List.mem_singleton.1 new]
          exact ⟨⟨plain.1, plain.2, dots.1⟩, dots.2⟩
      exact crawl_alike proper real walk base k (rel ++ [name]) keep'
        (by rw [List.length_append, List.length_singleton]; omega) j
    · exact RunsAlike.pure []

/-- On a volume a file system could hold, whose names are names a directory can list, walking a
directory at most `walkLevels` levels down gives what walking it any number of levels down
gives: the cap that discovery puts on a depth limit changes nothing. -/
theorem crawl_min_walkLevels (proper : w.volume.Proper) (real : w.volume.RealNames) (walk : Walk)
    (base : String) (levels : Nat) :
    (crawl walk (min levels (walkLevels w.volume)) base []).run.run w =
      (crawl walk levels base []).run.run w := by
  by_cases short : levels ≤ walkLevels w.volume
  · rw [Nat.min_eq_left short]
  · rw [Nat.min_eq_right (by omega)]
    obtain ⟨j, rfl⟩ : ∃ j, levels = walkLevels w.volume + j :=
      ⟨levels - walkLevels w.volume, by omega⟩
    exact (crawl_alike proper real walk base (walkLevels w.volume) []
      (fun _ mem => absurd mem List.not_mem_nil) (by unfold walkLevels; omega) j).1.symm

/-- In the workspace whose base holds a link back to itself, a walk capped at `walkLevels` lists
what a walk a thousand levels deep lists. -/
theorem looping_walk_capped :
    loopingWorkspace.volume.Proper ∧ loopingWorkspace.volume.RealNames ∧
      (crawl ⟨Path.parse "/ws", false, true, fun _ => false⟩
          (min 1000 (walkLevels loopingWorkspace.volume)) "/ws" []).run.run loopingWorkspace =
        (crawl ⟨Path.parse "/ws", false, true, fun _ => false⟩ 1000 "/ws" []).run.run
          loopingWorkspace :=
  have proper : loopingWorkspace.volume.Proper := ⟨by decide, by decide⟩
  have real : loopingWorkspace.volume.RealNames := by decide
  ⟨proper, real, crawl_min_walkLevels proper real _ _ 1000⟩

end Tools

end StageTree
