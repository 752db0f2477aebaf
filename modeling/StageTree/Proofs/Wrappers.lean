import StageTree.Proofs.OutlinePass
import StageTree.Settings

/-!
# Flattening takes out wrappers and nothing else

`Outline.flattenArrays` deletes nodes of a tree and hands their children on, and does nothing
more: the root keeps its head, every node deleted is a wrapper, the nodes kept come in the order
of the tree's pre-order listing, and a kept node below a kept node is still below it after
(`Outline.flattenArrays_removes_only_wrappers`). Which wrappers go is decided by their places
among their siblings before anything moves (`Outline.keepsAt`), and children handed on to a
kept sibling are not looked at again.

So a second flattening can change a flattened tree. It leaves a tree as it is exactly when every
wrapper in the tree stands first among two or more children (`Outline.WrappersLead`), the one
place where flattening keeps a wrapper; the JSON of a tree tells the tree, so the same holds of
its JSON (`Outline.toJson_flattenArrays_eq_iff`). The outline of `stages:` followed by `jobs:`
hands the jobs to the wrapper of the stages, which is then the root's only child: flattening
that outline again takes the wrapper away.

The wrappers left are, one for one and in pre-order, the wrappers that stood first among two or
more children before flattening (`Outline.wrappers_flattenArrays`), and so for the outline of a
document (`Outline.build_keeps_leading_wrappers`). Where they stand afterwards is another matter:
a wrapper first under a wrapper that flattening drops moves with its siblings to the end of an
earlier sibling's children. In the outline of `stages:` followed by a `steps:` item holding an
empty `steps` array, that empty wrapper ends up second under the wrapper of the stages.
-/

namespace StageTree.Outline

open List (Forall₂)
open StageTree.Tree

/-! ## What flattening deletes -/

/-- The entries of a list paired with the marks of a list of the same first parts give that
list back. -/
theorem zip_map_snd {α β γ : Type} : ∀ {l : List (α × β)} {m : List (α × γ)},
    l.map Prod.fst = m.map Prod.fst → (l.zip (m.map Prod.snd)).map (fun e => (e.1.1, e.2)) = m
  | [], [], _ => rfl
  | a :: l, b :: m, same => by
    simp only [List.map_cons, List.cons.injEq] at same
    simp only [List.map_cons, List.zip_cons_cons, zip_map_snd same.2, same.1]
  | [], _ :: _, same => absurd same (by simp)
  | _ :: _, [], same => absurd same (by simp)

/-- The marks set before place `i` count the marked entries before it. -/
theorem count_take_map_snd {α : Type} (m : List (α × Bool)) (i : Nat) :
    ((m.map Prod.snd).take i).count true = (m.take i).countP Prod.snd := by
  rw [← List.map_take, List.count_eq_countP, List.countP_map]
  simp [Function.comp_def]

/-- Flattening a tree takes out wrappers and nothing else. The root keeps its head. The nodes
below the flattened root are, in pre-order and one for one, the nodes below the root marked to
stay, each showing the head it had; every node marked to go is a wrapper. A node marked to
stay that was in the subtree of another marked to stay is in that node's subtree afterwards,
each counted at its place among the nodes that stay. -/
theorem flattenArrays_removes_only_wrappers (o : Outline) :
    (flattenArrays o).head = o.head ∧
    ∃ keep : List Bool, keep.length = (preorder 0 o.children).length ∧
      (∀ e ∈ (preorder 0 o.children).zip keep, e.2 = false → e.1.1.isArray = true) ∧
      (preorder 0 (flattenArrays o).children).map (·.1.head) =
        (((preorder 0 o.children).zip keep).filter (·.2)).map (·.1.1.head) ∧
      ∀ i j, keep[i]? = some true → keep[j]? = some true → Within (preorder 0 o.children) i j →
        Within (preorder 0 (flattenArrays o).children) ((keep.take i).count true)
          ((keep.take j).count true) := by
  -- the marks are flattening's own: a node stays unless it is a wrapper out of first place
  have listed : (preorder 0 o.children).map Prod.fst = (marked o).map Prod.fst := by
    rw [preorder_fst, marked_fst]
  have paired := zip_map_snd listed
  refine ⟨head_flattenArrays o, (marked o).map Prod.snd, ?length, ?wrappers, ?heads, ?encloses⟩
  case length =>
    simpa using (congrArg List.length listed).symm
  case wrappers =>
    intro e mem goes
    have marks : (e.1.1, e.2) ∈ marked o := paired ▸ List.mem_map_of_mem mem
    exact marked_dropped o _ marks goes
  case heads =>
    calc (preorder 0 (flattenArrays o).children).map (·.1.head)
        = (kept o).map head := preorder_heads_flattenArrays o
      _ = (((preorder 0 o.children).zip ((marked o).map Prod.snd)).filter (·.2)).map
            (·.1.1.head) := by
          conv_lhs => rw [kept, ← paired]
          rw [List.filter_map, List.map_map, List.map_map]
          rfl
  case encloses =>
    rintro i j keptI keptJ ⟨hi, before, inside⟩
    rw [List.getElem?_map, Option.map_eq_some_iff] at keptI keptJ
    obtain ⟨x, atI, stayI⟩ := keptI
    obtain ⟨y, atJ, stayJ⟩ := keptJ
    obtain ⟨hmi, rfl⟩ := List.getElem?_eq_some_iff.1 atI
    obtain ⟨hmj, rfl⟩ := List.getElem?_eq_some_iff.1 atJ
    -- the node at `i` is the same in the listing and among the marked nodes
    have same : (preorder 0 o.children)[i].1 = (marked o)[i].1 := by
      have at_i := congrArg (·[i]?) listed
      simp only [List.getElem?_map, List.getElem?_eq_getElem hi,
        List.getElem?_eq_getElem hmi, Option.map_some, Option.some.injEq] at at_i
      exact at_i
    rw [same] at inside
    obtain ⟨h, lt, encloses⟩ := flattenArrays_encloses o hmi hmj stayI stayJ before inside
    rw [count_take_map_snd, count_take_map_snd]
    exact within_preorder h lt encloses

/-! ## Flattening again -/

/-- Whether every wrapper in a tree stands first among two or more children: the one place where
flattening keeps a wrapper. -/
def WrappersLead (o : Outline) : Prop :=
  ∀ p ∈ nodes o, ∀ (i : Nat) (h : i < p.children.length), p.children[i].isArray = true →
    i = 0 ∧ 2 ≤ p.children.length

/-- The nodes of a child are nodes of the tree. -/
theorem nodes_subset_of_mem {c : Outline} {cs : List Outline} (mem : c ∈ cs) :
    nodes c ⊆ nodesOf cs := by
  induction cs with
  | nil => exact absurd mem List.not_mem_nil
  | cons d rest ih =>
    rw [nodesOf, List.mem_cons] at *
    rcases mem with rfl | later
    · exact List.subset_append_left _ _
    · exact List.Subset.trans (ih later) (List.subset_append_right _ _)

/-- A child of a tree whose wrappers lead has leading wrappers. -/
theorem WrappersLead.of_mem {o c : Outline} (lead : WrappersLead o) (mem : c ∈ o.children) :
    WrappersLead c := fun p inC =>
  lead p (by rw [nodes_eq]; exact List.mem_cons_of_mem _ (nodes_subset_of_mem mem inC))

/-- Absorbing children none of which is a wrapper keeps each of them after the children kept. -/
theorem absorb_of_no_wrapper : ∀ (done rest : List Outline), (∀ c ∈ rest, c.isArray = false) →
    absorb done rest = done.reverse ++ rest
  | done, [], _ => by rw [absorb, List.append_nil]
  | [], c :: rest, plain => by
    rw [absorb, absorb_of_no_wrapper [c] rest fun x mem => plain x (List.mem_cons_of_mem c mem)]
    rfl
  | last :: done, c :: rest, plain => by
    have kept : c.isArray = false := plain c List.mem_cons_self
    rw [absorb, if_neg (by rw [kept]; decide),
      absorb_of_no_wrapper _ rest fun x mem => plain x (List.mem_cons_of_mem c mem)]
    simp

/-- Children whose wrappers lead collapse to themselves. -/
theorem collapse_of_lead {cs : List Outline}
    (lead : ∀ (i : Nat) (h : i < cs.length), cs[i].isArray = true → i = 0 ∧ 2 ≤ cs.length) :
    collapse cs = cs := by
  match cs, lead with
  | [], _ => rfl
  | [w], lead =>
    have plain : w.isArray = false := by
      rw [← Bool.not_eq_true]
      intro wrapper
      have := (lead 0 (by simp) wrapper).2
      simp at this
    rw [collapse, if_neg (by rw [plain]; decide)]
  | first :: c :: rest, lead =>
    -- past the first place there is no wrapper, so nothing is absorbed
    have plain : ∀ x ∈ c :: rest, x.isArray = false := by
      intro x mem
      obtain ⟨k, hk, rfl⟩ := List.getElem_of_mem mem
      rw [← Bool.not_eq_true]
      intro wrapper
      have := (lead (k + 1) (by simp only [List.length_cons] at hk ⊢; omega) wrapper).1
      omega
    show absorb [first] (c :: rest) = first :: c :: rest
    rw [absorb_of_no_wrapper [first] (c :: rest) plain]
    rfl

mutual

/-- Flattening leaves a tree whose wrappers lead as it is. -/
theorem flattenArrays_of_lead : ∀ o : Outline, WrappersLead o → flattenArrays o = o
  | ⟨k, v, r, a, cs⟩, lead => by
    have children := flattenEach_of_lead cs fun c mem => lead.of_mem mem
    have here := lead ⟨k, v, r, a, cs⟩ (by rw [nodes_eq]; exact List.mem_cons_self)
    rw [flattenArrays, children, collapse_of_lead here]

/-- Flattening leaves trees whose wrappers lead as they are. -/
theorem flattenEach_of_lead : ∀ cs : List Outline, (∀ c ∈ cs, WrappersLead c) →
    flattenEach cs = cs
  | [], _ => rfl
  | c :: rest, lead => by
    rw [flattenEach, flattenArrays_of_lead c (lead c List.mem_cons_self),
      flattenEach_of_lead rest fun x mem => lead x (List.mem_cons_of_mem c mem)]

end

/-- The child at place `i` among trees standing from place `j` on is marked by its place. -/
theorem getElem_mem_markedAmong (m : Nat) : ∀ (j : Nat) (cs : List Outline) (i : Nat)
    (h : i < cs.length), (cs[i], keepsAt m (j + i) cs[i]) ∈ markedAmong m j cs
  | _, [], _, h => absurd h (Nat.not_lt_zero _)
  | j, c :: rest, 0, _ => by simp [markedAmong]
  | j, c :: rest, i + 1, h => by
    have later := getElem_mem_markedAmong m (j + 1) rest i (by simp at h; omega)
    rw [markedAmong]
    simp only [List.getElem_cons_succ, List.cons_append, List.mem_cons, List.mem_append]
    rw [show j + (i + 1) = j + 1 + i by omega]
    exact .inr (.inr later)

/-- Every child of a tree is marked by its place among the children. -/
theorem getElem_mem_marked (p : Outline) (i : Nat) (h : i < p.children.length) :
    (p.children[i], keepsAt p.children.length i p.children[i]) ∈ marked p := by
  have own := getElem_mem_markedAmong p.children.length 0 p.children i h
  rwa [Nat.zero_add, ← marked_eq] at own

/-- A child marked in a tree is marked among any trees the tree stands in. -/
theorem marked_subset_markedAmong {m j : Nat} {c : Outline} {cs : List Outline} (mem : c ∈ cs) :
    marked c ⊆ markedAmong m j cs := by
  induction cs generalizing j with
  | nil => exact absurd mem List.not_mem_nil
  | cons d rest ih =>
    rw [markedAmong]
    rcases List.mem_cons.1 mem with rfl | later
    · exact List.Subset.trans (List.subset_append_left _ _) (List.subset_cons_self _ _)
    · exact List.Subset.trans (ih later)
        (List.Subset.trans (List.subset_append_right _ _) (List.subset_cons_self _ _))

mutual

/-- Every child of a node below a root is marked, by its place among its siblings. -/
theorem child_mem_marked : ∀ o p : Outline, p ∈ nodesOf o.children →
    ∀ (i : Nat) (h : i < p.children.length),
      (p.children[i], keepsAt p.children.length i p.children[i]) ∈ marked o
  | ⟨_, _, _, _, cs⟩, p, mem, i, h => child_mem_markedAmong cs.length 0 cs p mem i h

/-- Every child of a node of some trees is marked among them, by its place among its
siblings. -/
theorem child_mem_markedAmong : ∀ (m j : Nat) (cs : List Outline) (p : Outline),
    p ∈ nodesOf cs → ∀ (i : Nat) (h : i < p.children.length),
      (p.children[i], keepsAt p.children.length i p.children[i]) ∈ markedAmong m j cs
  | _, _, [], _, mem, _, _ => absurd mem List.not_mem_nil
  | m, j, c :: rest, p, mem, i, h => by
    rw [nodesOf_cons, List.cons_append, List.mem_cons, List.mem_append] at mem
    rcases mem with rfl | below | later
    · -- a child of `c` itself, marked among the children of `c`
      exact marked_subset_markedAmong List.mem_cons_self (getElem_mem_marked p i h)
    · exact marked_subset_markedAmong List.mem_cons_self (child_mem_marked c p below i h)
    · rw [markedAmong]
      exact List.mem_cons_of_mem _
        (List.mem_append_right _ (child_mem_markedAmong m (j + 1) rest p later i h))

end

/-- A tree all of whose nodes below the root are marked to stay has leading wrappers. -/
theorem lead_of_marked {o : Outline} (stay : ∀ x ∈ marked o, x.2 = true) : WrappersLead o := by
  intro p mem i h wrapper
  -- the root's children are marked by their places as well
  have marks : (p.children[i], keepsAt p.children.length i p.children[i]) ∈ marked o := by
    rw [nodes_eq, List.mem_cons] at mem
    rcases mem with rfl | below
    · exact getElem_mem_marked p i h
    · exact child_mem_marked o p below i h
  have kept := stay _ marks
  simp only [keepsAt, wrapper, Bool.not_true, Bool.false_or, Bool.and_eq_true, beq_iff_eq,
    bne_iff_ne, ne_eq] at kept
  omega

/-- A tree that flattening leaves as it is has every node below its root marked to stay: each
node marked to go would leave one node fewer. -/
theorem marked_of_flattenArrays_eq {o : Outline} (fixed : flattenArrays o = o) :
    ∀ x ∈ marked o, x.2 = true := by
  have counted := (flattenArrays_keeps o).length_eq
  rw [fixed, kept, List.length_map, ← marked_fst, List.length_map] at counted
  exact List.length_filter_eq_length_iff.1 counted.symm

/-- Flattening leaves a tree as it is exactly when every wrapper in it stands first among two
or more children. -/
theorem flattenArrays_eq_self_iff (o : Outline) : flattenArrays o = o ↔ WrappersLead o :=
  ⟨fun fixed => lead_of_marked (marked_of_flattenArrays_eq fixed), flattenArrays_of_lead o⟩

/-! ## The JSON of a tree tells the tree -/

theorem positionJson_injective {p q : Position} (same : positionJson p = positionJson q) :
    p = q := by
  simp only [positionJson, Json.obj.injEq, List.cons.injEq, Prod.mk.injEq, Json.int.injEq,
    Int.ofNat_inj, true_and, and_true] at same
  cases p; cases q
  simp_all

theorem rangeJson_injective {r s : Range} (same : rangeJson r = rangeJson s) : r = s := by
  simp only [rangeJson, Json.obj.injEq, List.cons.injEq, Prod.mk.injEq, true_and,
    and_true] at same
  cases r; cases s
  simp only [Range.mk.injEq]
  exact ⟨positionJson_injective same.1, positionJson_injective same.2⟩

theorem ofString_injective {s w : String} (same : (s : Text.Str) = w) : s = w := by
  rw [← Text.Str.toString_ofString s, ← Text.Str.toString_ofString w]
  exact congrArg Text.Str.toString same

mutual

/-- Trees with the same JSON are the same tree. -/
theorem toJson_injective : ∀ {o o' : Outline}, toJson o = toJson o' → o = o'
  | ⟨k, v, r, a, cs⟩, ⟨k', v', r', a', cs'⟩, same => by
    simp only [toJson, heading, arrayMark, Json.obj.injEq, List.cons_append, List.nil_append,
      List.cons.injEq, Prod.mk.injEq, Json.str.injEq, Json.arr.injEq, true_and] at same
    obtain ⟨key, value, range, children, mark⟩ := same
    have hv : v = v' := by
      cases v <;> cases v' <;> simp_all
    have ha : a = a' := by
      cases a <;> cases a' <;> simp_all
    rw [ofString_injective key, hv, rangeJson_injective range, ha,
      toJsonEach_injective children]

/-- Lists of trees with the same JSON are the same lists. -/
theorem toJsonEach_injective : ∀ {cs cs' : List Outline}, toJsonEach cs = toJsonEach cs' →
    cs = cs'
  | [], [], _ => rfl
  | o :: rest, o' :: rest', same => by
    simp only [toJsonEach, List.cons.injEq] at same
    rw [toJson_injective same.1, toJsonEach_injective same.2]
  | [], _ :: _, same => by simp [toJsonEach] at same
  | _ :: _, [], same => by simp [toJsonEach] at same

end

/-- Flattening a tree again leaves its JSON as it is exactly when every wrapper in the tree
stands first among two or more children. -/
theorem toJson_flattenArrays_eq_iff (o : Outline) :
    (flattenArrays o).toJson = o.toJson ↔ WrappersLead o :=
  ⟨fun same => (flattenArrays_eq_self_iff o).1 (toJson_injective same),
    fun lead => by rw [flattenArrays_of_lead o lead]⟩

/-! ## The wrappers flattening leaves -/

mutual

/-- The wrappers below a tree's root that stand first among two or more children, in
pre-order. -/
def leading : Outline → List Outline
  | ⟨_, _, _, _, cs⟩ => leadingAmong (decide (2 ≤ cs.length)) cs

/-- The leading wrappers of trees standing side by side, the first of them leading its siblings
when `first` holds. -/
def leadingAmong (first : Bool) : List Outline → List Outline
  | [] => []
  | c :: rest => (if first && c.isArray then [c] else []) ++ leading c ++ leadingAmong false rest

end

/-- A wrapper stays where it stands first among several children, and only there. -/
theorem keepsAt_and_isArray (m i : Nat) (c : Outline) :
    (keepsAt m i c && c.isArray) = ((i == 0 && m != 1) && c.isArray) := by
  cases h : c.isArray <;> simp [keepsAt, h]

mutual

/-- The wrappers marked to stay in a tree are its leading wrappers. -/
theorem marked_wrappers : ∀ o : Outline,
    ((marked o).filter fun x => x.2 && x.1.isArray).map Prod.fst = leading o
  | ⟨_, _, _, _, []⟩ => rfl
  | ⟨_, _, _, _, c :: rest⟩ => by
    -- among two or more children the first leads; a lone child leads nothing
    have lead : (0 == 0 && (rest.length + 1) != 1) = decide (2 ≤ rest.length + 1) := by
      cases rest <;> simp
    simpa only [marked, leading, List.length_cons, lead] using
      markedAmong_wrappers (rest.length + 1) 0 (c :: rest)

/-- The wrappers marked to stay among trees standing from place `i` on among `m` children are
their leading wrappers, the first of them leading when it stands first among several. -/
theorem markedAmong_wrappers : ∀ (m i : Nat) (cs : List Outline),
    ((markedAmong m i cs).filter fun x => x.2 && x.1.isArray).map Prod.fst =
      leadingAmong (i == 0 && m != 1) cs
  | _, _, [] => rfl
  | m, i, c :: rest => by
    have later : (i + 1 == 0 && m != 1) = false := by simp
    have here := keepsAt_and_isArray m i c
    rw [markedAmong, leadingAmong, List.filter_append, List.filter_cons, List.map_append,
      markedAmong_wrappers m (i + 1) rest, later]
    dsimp only
    rw [here]
    split <;> simp [marked_wrappers c]

end

/-- The wrappers of a flattened tree are, in pre-order and one for one, the wrappers that stood
first among two or more children before: a wrapper stays where it leads its siblings, and a
child handed to an earlier sibling keeps its wrapper mark but may stand anywhere among that
sibling's children. -/
theorem wrappers_flattenArrays (o : Outline) :
    ((nodesOf (flattenArrays o).children).filter (·.isArray)).map head = (leading o).map head := by
  have heads : (nodesOf (flattenArrays o).children).map head = (kept o).map head := by
    rw [← preorder_fst 0, List.map_map]
    exact preorder_heads_flattenArrays o
  -- a node's head carries its wrapper mark, so filtering heads filters nodes
  have byHead : ∀ l : List Outline,
      (l.filter (·.isArray)).map head = (l.map head).filter (·.isArray) :=
    fun l => by rw [List.filter_map]; rfl
  calc ((nodesOf (flattenArrays o).children).filter (·.isArray)).map head
      = ((kept o).map head).filter (·.isArray) := by rw [byHead, heads]
    _ = (((marked o).filter fun x => x.2 && x.1.isArray).map Prod.fst).map head := by
        rw [← byHead, kept, List.filter_map, List.filter_filter]
        congr 3
        funext x
        simp [Bool.and_comm]
    _ = (leading o).map head := by rw [marked_wrappers]

/-- The wrappers of a document's outline are, in pre-order and one for one, the wrappers that
stood first among two or more children of their parents in the outline gathered before
flattening. Such a wrapper need not stay first among its new siblings. -/
theorem build_keeps_leading_wrappers (t : LineTable) (root : Node) (rest : List Node)
    (errors : List String) {children : List Outline} (gathered : ofNode t root = some children) :
    ∃ o, build t ⟨root :: rest, errors⟩ = some o ∧
      ((nodesOf o.children).filter (·.isArray)).map head =
        (leading ⟨rootName, some (rootName : Text.Str),
          t.rangeOf root.span.start root.span.stop, false, children⟩).map head :=
  ⟨_, by rw [build_cons, gathered]; rfl, wrappers_flattenArrays _⟩

/-! ## An outline that a second flattening changes -/

/-- The outline of `stages:\n- stage: A\njobs:\n- job: B\n` keeps the wrapper of the stages as
the root's only child, holding the stage and the job the wrapper of the jobs handed over;
flattening it again takes the wrapper away, so its JSON changes. -/
theorem stages_then_jobs_refold :
    ∃ d o, Document.read "stages:\n- stage: A\njobs:\n- job: B\n" Settings.defaultMaxAstNodes = .ok d ∧
      build (LineTable.ofText "stages:\n- stage: A\njobs:\n- job: B\n") d = some o ∧
      (flattenArrays o).toJson ≠ o.toJson :=
  -- written out, the two differ: the wrapper is written in one and gone from the other
  ⟨_, _, read_eq_ok_getD (by decide +kernel), (Option.getD_of_ne_none (by decide +kernel) default).symm,
    fun same => absurd (congrArg Json.compact same) (by decide +kernel)⟩

/-! ## An outline with a wrapper out of first place -/

/-- The outline of `stages:\n- stage: A\nsteps:\n- steps: []\n  script: a\n` has a wrapper
that is not the first child of its parent: the empty inner `steps` array, second under the
wrapper of the stages. -/
theorem nested_steps_wrapper_stands_second :
    ∃ d o, Document.read "stages:\n- stage: A\nsteps:\n- steps: []\n  script: a\n"
        Settings.defaultMaxAstNodes = .ok d ∧
      build (LineTable.ofText "stages:\n- stage: A\nsteps:\n- steps: []\n  script: a\n") d = some o ∧
      ∃ p ∈ nodes o, ∃ c ∈ p.children.tail, c.isArray = true :=
  ⟨_, _, read_eq_ok_getD (by decide +kernel), (Option.getD_of_ne_none (by decide +kernel) default).symm,
    by decide +kernel⟩

/-- A document whose first tree is `root` is that tree before the documents after it. -/
theorem Document.eq_cons_of_first {d : Document} {root : Node} (first : d.first = some root) :
    d = ⟨root :: d.documents.tail, d.errors⟩ := by
  obtain ⟨documents, errors⟩ := d
  obtain ⟨rest, rfl⟩ := List.head?_eq_some_iff.1 first
  rfl

/-- In the outline of the same text, the nodes gathered before flattening are the wrapper of the
stages and the wrapper of the steps, and the wrappers left are the wrapper of the stages and the
inner `steps` array: before flattening, each stood first of two children, the root's and the
wrapper of the steps'. -/
theorem nested_steps_keeps_leading_wrapper :
    let text := "stages:\n- stage: A\nsteps:\n- steps: []\n  script: a\n"
    let t := LineTable.ofText text
    let d := (Document.read text Settings.defaultMaxAstNodes).toOption.getD default
    let root := d.first.getD default
    let children := (ofNode t root).getD []
    Document.read text Settings.defaultMaxAstNodes = .ok d ∧ d.first = some root ∧
      ofNode t root = some children ∧ children.map (·.key) = ["stages", "steps"] ∧
      ∃ o, build t d = some o ∧
        ((nodesOf o.children).filter (·.isArray)).map head =
          (leading ⟨rootName, some (rootName : Text.Str), t.rangeOf root.span.start root.span.stop,
            false, children⟩).map head ∧
        ((nodesOf o.children).filter (·.isArray)).map (·.key) = ["stages", "steps"] := by
  intro text t d root children
  have first : d.first = some root := (Option.getD_of_ne_none (by decide +kernel) default).symm
  have gathered : ofNode t root = some children :=
    (Option.getD_of_ne_none (by decide +kernel) []).symm
  obtain ⟨o, built, heads⟩ := build_keeps_leading_wrappers t root d.documents.tail d.errors gathered
  rw [← Document.eq_cons_of_first first] at built
  refine ⟨read_eq_ok_getD (by decide +kernel), first, gathered, by decide +kernel, o, built, heads, ?_⟩
  -- the outline kept is the one the check below evaluates
  have evaluated : o = (build t d).getD default := by rw [built]; rfl
  rw [evaluated]
  decide +kernel

end StageTree.Outline
