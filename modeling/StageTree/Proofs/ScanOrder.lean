import Mathlib
import StageTree.Proofs.ScanMoves

/-!
# Tokens in the order of the text

The scanner hands out tokens in the order of the text: each starts no earlier than the one before
it stops. Most tokens are queued at the end, starting where the scan that read them began, which
no token queued before passes. The exceptions are the key token a `:` puts in front of a pending
simple key, and the block mapping start that may come with it. Both are empty tokens at the key's
mark, and they go in at the place of the token that the key was saved before, which starts at that
mark: so they too stand between the tokens before and after them.

That place must still be in the queue. A pending simple key points at a queued token that starts
at its mark (`KeyAt`); the scanner keeps a token whose key is pending until the key is settled or
dropped, and it never runs short of the steps that takes, since each step moves on by a character
or ends the stream. Keys pending on lower flow levels were saved earlier, before the bracket that
opened the level above (`Orderly.increasing`), so putting a token in front of the innermost key's
token moves no other key's token.

Main statement: `scan_inOrder`.
-/

open Std.Do

set_option mvcgen.warning false

namespace StageTree.Yaml

open StageTree.Tree

section Insert

variable {α : Type} {span : α → Span}

/-- An empty item at a point that every item before it stops at or before, and every item after
it starts at or after, stands in order between them. -/
theorem inOrder_insert {l m : List α} {x : α} (ordered : InOrder span (l ++ m))
    (point : (span x).start = (span x).stop) (before : ∀ a ∈ l, (span a).stop ≤ (span x).start)
    (after : ∀ b ∈ m, (span x).stop ≤ (span b).start) : InOrder span (l ++ x :: m) := by
  obtain ⟨inL, inM, across⟩ := inOrder_append.1 ordered
  refine inOrder_append.2 ⟨inL, inOrder_cons.2 ⟨point.le, after, inM⟩, fun a memA b memB => ?_⟩
  rcases List.mem_cons.1 memB with rfl | memB
  · exact before a memA
  · exact across a memA b memB

theorem insertIdx_append_length (before after : List α) (x : α) :
    (before ++ after).insertIdx before.length x = before ++ x :: after := by
  induction before with
  | nil => rfl
  | cons a before ih => rw [List.cons_append, List.length_cons, List.insertIdx_succ_cons, ih]; rfl

/-- An empty item at the start of the item at place `i` of a list in order stands in order in
front of it. -/
theorem inOrder_insertIdx {out l : List α} {i : Nat} {t x : α} (ordered : InOrder span (out ++ l))
    (at_ : l[i]? = some t) (point : (span x).start = (span x).stop)
    (starts : (span x).start = (span t).start) :
    InOrder span (out ++ l.insertIdx i x) := by
  obtain ⟨before, after, rfl, rfl⟩ : ∃ before after, l = before ++ t :: after ∧ before.length = i := by
    obtain ⟨lt, rfl⟩ := List.getElem?_eq_some_iff.1 at_
    exact ⟨l.take i, l.drop (i + 1), by rw [← List.drop_eq_getElem_cons lt, List.take_append_drop],
      List.length_take_of_le lt.le⟩
  rw [insertIdx_append_length, ← List.append_assoc]
  rw [← List.append_assoc] at ordered
  -- the item at `i` starts where the new one does; those before stop there, those after start
  -- no earlier
  obtain ⟨-, rest, across⟩ := inOrder_append.1 ordered
  obtain ⟨-, afterT, -⟩ := inOrder_cons.1 rest
  refine inOrder_insert ordered point (fun a mem => starts ▸ across a mem _ List.mem_cons_self)
    (fun b mem => ?_)
  rcases List.mem_cons.1 mem with rfl | mem
  · exact (point.symm.trans starts).le
  · have := afterT b mem
    have := (inOrder_cons.1 rest).1
    omega

end Insert

namespace Scanner

/-- A pending simple key points at the queued token it was saved before, which starts at the
key's mark; or, just saved, at the token about to be queued at the mark. -/
def KeyAt (s : Scanner) (k : SimpleKey) : Prop :=
  s.taken ≤ k.tokenNumber ∧
    ((∃ t ∈ s.queue[k.tokenNumber - s.taken]?, t.start.index = k.mark.index) ∨
      (k.tokenNumber - s.taken = s.queue.length ∧ k.mark.index = s.mark.index))

/-- Every pending simple key's token is queued. -/
def Settled (s : Scanner) : Prop := ∀ lk ∈ s.keys, lk.2.tokenNumber - s.taken < s.queue.length

/-- The tokens `out` handed out and those queued stand in the order of the text and stop no later
than the mark; every pending key points at its token; keys are pending on no level deeper than the
flow level, and those on lower levels stand before those on higher. -/
structure Orderly (out : List Token) (s : Scanner) : Prop where
  ordered : InOrder Token.span (out ++ s.queue)
  behind : ∀ t ∈ out ++ s.queue, t.stop.index ≤ s.mark.index
  keyed : ∀ lk ∈ s.keys, KeyAt s lk.2
  levels : ∀ lk ∈ s.keys, lk.1 ≤ s.flowLevel
  increasing : ∀ a ∈ s.keys, ∀ b ∈ s.keys, a.1 < b.1 → a.2.tokenNumber < b.2.tokenNumber

section Orderly

variable {out : List Token} {s s' : Scanner}

/-- A key whose token is queued points at it. -/
theorem KeyAt.queued {k : SimpleKey} (at_ : KeyAt s k) (queued : k.tokenNumber - s.taken < s.queue.length) :
    ∃ t ∈ s.queue[k.tokenNumber - s.taken]?, t.start.index = k.mark.index := by
  rcases at_.2 with found | ⟨atEnd, -⟩
  · exact found
  · omega

/-- A scanner that agrees on the queue, the tokens taken, the keys and the mark, at a flow level
no lower, is as orderly. -/
theorem Orderly.frame (o : Orderly out s) (queue : s'.queue = s.queue) (taken : s'.taken = s.taken)
    (keys : s'.keys = s.keys) (flow : s.flowLevel ≤ s'.flowLevel) (mark : s'.mark = s.mark) :
    Orderly out s' where
  ordered := queue ▸ o.ordered
  behind := by rw [queue, mark]; exact o.behind
  keyed := by
    rw [keys]
    intro lk mem
    have := o.keyed lk mem
    unfold KeyAt at *
    rwa [queue, taken, mark]
  levels := fun lk mem => le_trans (o.levels lk (keys ▸ mem)) flow
  increasing := keys ▸ o.increasing

theorem Settled.frame (settled : Settled s) (queue : s'.queue = s.queue) (taken : s'.taken = s.taken)
    (keys : s'.keys = s.keys) : Settled s' := by
  unfold Settled at *
  rwa [queue, taken, keys]

/-- Reading on, with every key's token queued, keeps the scanner orderly. -/
theorem Orderly.moved (o : Orderly out s) (settled : Settled s) (moved : Moved s s') :
    Orderly out s' ∧ Settled s' := by
  obtain ⟨-, flow, queue, taken, -, -, keys, -, le⟩ := moved
  refine ⟨⟨queue ▸ o.ordered, ?_, ?_, flow ▸ keys ▸ o.levels, keys ▸ o.increasing⟩,
    settled.frame queue taken keys⟩
  · rw [queue]
    exact fun t mem => le_trans (o.behind t mem) le
  · rw [keys]
    intro lk mem
    exact ⟨taken ▸ (o.keyed lk mem).1,
      Or.inl (queue ▸ taken ▸ (o.keyed lk mem).queued (settled lk mem))⟩

/-- A token read from where the scan began, stopping no later than where it got to, goes at the
end of the queue; it is the token of a key saved where the scan began. -/
theorem Orderly.push {s0 : Scanner} {t : Token} (o : Orderly out s0) (moved : Moved s0 s)
    (spans : Spans s0 t s) : Orderly out { s with queue := s.queue ++ [t] } ∧
      Settled { s with queue := s.queue ++ [t] } := by
  obtain ⟨-, flow, queue, taken, -, -, keys, -, le⟩ := moved
  obtain ⟨start, after, before⟩ := spans
  have startIndex : t.start.index = s0.mark.index := by rw [start]
  have fresh : ∀ u ∈ out ++ s0.queue, u.stop.index ≤ t.start.index := by
    rw [startIndex]
    exact o.behind
  refine ⟨⟨?_, ?_, ?_, flow ▸ keys ▸ o.levels, keys ▸ o.increasing⟩, ?_⟩
  · rw [queue, ← List.append_assoc, inOrder_append]
    refine ⟨o.ordered, inOrder_cons.2 ⟨by simp only [Token.span]; omega, by simp, inOrder_nil⟩, ?_⟩
    intro u mem v memV
    rw [List.mem_singleton.1 memV]
    exact fresh u mem
  · rw [queue, ← List.append_assoc]
    intro u mem
    rcases List.mem_append.1 mem with old | new
    · exact le_trans (o.behind u old) le
    · rw [List.mem_singleton.1 new]
      exact before
  · rw [keys]
    intro lk mem
    obtain ⟨low, found | ⟨atEnd, markAt⟩⟩ := o.keyed lk mem
    · obtain ⟨u, at_, starts⟩ := found
      refine ⟨taken ▸ low, Or.inl ⟨u, ?_, starts⟩⟩
      rw [taken, queue, List.getElem?_append_left (List.getElem?_eq_some_iff.1 at_).1]
      exact at_
    · refine ⟨taken ▸ low, Or.inl ⟨t, ?_, by rw [start, markAt]⟩⟩
      rw [taken, queue, atEnd, List.getElem?_append_right (le_refl _), Nat.sub_self]
      rfl
  · intro lk mem
    have := (o.keyed lk (keys ▸ mem)).2
    simp only [List.length_append, List.length_singleton, taken, queue]
    rcases this with ⟨u, at_, -⟩ | ⟨atEnd, -⟩
    · have := (List.getElem?_eq_some_iff.1 at_).1
      omega
    · omega

/-- An empty token at the mark goes at the end of the queue. -/
theorem Orderly.pushHere (o : Orderly out s) (k : TokenKind) :
    Orderly out { s with queue := s.queue ++ [⟨k, s.mark, s.mark⟩] } ∧
      Settled { s with queue := s.queue ++ [⟨k, s.mark, s.mark⟩] } :=
  o.push (⟨rfl, rfl, rfl, rfl, rfl, rfl, rfl, rfl, le_refl _⟩ : Moved s s)
    ⟨rfl, le_refl _, le_refl _⟩

/-- Empty tokens of one kind at the mark go at the end of the queue. -/
theorem Orderly.pushHeres (o : Orderly out s) (settled : Settled s) (k : TokenKind) :
    ∀ n, Orderly out { s with queue := s.queue ++ List.replicate n ⟨k, s.mark, s.mark⟩ } ∧
      Settled { s with queue := s.queue ++ List.replicate n ⟨k, s.mark, s.mark⟩ }
  | 0 => ⟨o.frame (by simp) rfl rfl (le_refl _) rfl, settled.frame (by simp) rfl rfl⟩
  | n + 1 => by
    have pushed := (o.pushHeres settled k n).1.pushHere k
    rw [List.replicate_succ', ← List.append_assoc]
    exact pushed

/-- Dropping pending keys keeps the scanner orderly. -/
theorem Orderly.filterKeys (o : Orderly out s) (p : Int × SimpleKey → Bool) :
    Orderly out { s with keys := s.keys.filter p } where
  ordered := o.ordered
  behind := o.behind
  keyed := fun lk mem => o.keyed lk (List.mem_of_mem_filter mem)
  levels := fun lk mem => o.levels lk (List.mem_of_mem_filter mem)
  increasing := fun a memA b memB => o.increasing a (List.mem_of_mem_filter memA) b
    (List.mem_of_mem_filter memB)

theorem Settled.filterKeys (settled : Settled s) (p : Int × SimpleKey → Bool) :
    Settled { s with keys := s.keys.filter p } :=
  fun lk mem => settled lk (List.mem_of_mem_filter mem)

/-- A key saved at the mark, before the token about to be queued, replaces any key of its level;
the keys on lower levels point at tokens queued already. -/
theorem Orderly.save (o : Orderly out s) (settled : Settled s) {k : SimpleKey}
    (number : k.tokenNumber = s.taken + s.queue.length) (mark : k.mark = s.mark) :
    Orderly out { s with keys := (s.flowLevel, k) :: s.keys.filter (·.1 != s.flowLevel) } where
  ordered := o.ordered
  behind := o.behind
  keyed := by
    intro lk mem
    rcases List.mem_cons.1 mem with rfl | old
    · refine ⟨by dsimp only; omega, Or.inr ⟨by dsimp only; omega, ?_⟩⟩
      dsimp only
      rw [mark]
    · exact o.keyed lk (List.mem_of_mem_filter old)
  levels := by
    intro lk mem
    rcases List.mem_cons.1 mem with rfl | old
    · exact le_refl _
    · exact o.levels lk (List.mem_of_mem_filter old)
  increasing := by
    -- the other keys stand on lower levels and point into the queue, before the new key's token
    have lower : ∀ lk ∈ s.keys.filter (·.1 != s.flowLevel), lk.1 < s.flowLevel ∧
        lk.2.tokenNumber < k.tokenNumber := by
      intro lk mem
      obtain ⟨old, other⟩ := List.mem_filter.1 mem
      have := o.levels lk old
      have := (o.keyed lk old).1
      have := settled lk old
      simp only [bne_iff_ne, ne_eq] at other
      exact ⟨lt_of_le_of_ne (o.levels lk old) other, by omega⟩
    intro a memA b memB deeper
    rcases List.mem_cons.1 memA with rfl | oldA <;> rcases List.mem_cons.1 memB with rfl | oldB
    · exact absurd deeper (lt_irrefl _)
    · exact absurd (lower b oldB).1 (not_lt.2 deeper.le)
    · exact (lower a oldA).2
    · exact o.increasing a (List.mem_of_mem_filter oldA) b (List.mem_of_mem_filter oldB) deeper

/-- Leaving a flow level drops its key first, so no key is pending deeper than the level left
open. -/
theorem Orderly.close (o : Orderly out s) :
    Orderly out
      { s with flowLevel := s.flowLevel - 1, keys := s.keys.filter (·.1 != s.flowLevel) } where
  ordered := o.ordered
  behind := o.behind
  keyed := fun lk mem => o.keyed lk (List.mem_of_mem_filter mem)
  levels := by
    intro lk mem
    obtain ⟨old, other⟩ := List.mem_filter.1 mem
    have := o.levels lk old
    simp only [bne_iff_ne, ne_eq] at other
    dsimp only
    omega
  increasing := fun a memA b memB => o.increasing a (List.mem_of_mem_filter memA) b
    (List.mem_of_mem_filter memB)

/-- An empty token at the start of a queued token goes in front of it, when every pending key's
token stands before it. -/
theorem Orderly.insert (o : Orderly out s) (settled : Settled s) {i : Nat} {t x : Token}
    (at_ : s.queue[i]? = some t) (point : x.start.index = x.stop.index)
    (starts : x.start.index = t.start.index)
    (below : ∀ lk ∈ s.keys, lk.2.tokenNumber - s.taken < i) :
    Orderly out { s with queue := s.queue.insertIdx i x } ∧
      Settled { s with queue := s.queue.insertIdx i x } := by
  have inside : i < s.queue.length := (List.getElem?_eq_some_iff.1 at_).1
  have memT : t ∈ out ++ s.queue := List.mem_append_right _ (List.mem_of_getElem? at_)
  have tOrdered : t.start.index ≤ t.stop.index := o.ordered.1 t memT
  refine ⟨⟨inOrder_insertIdx o.ordered at_ point starts, ?_, ?_, o.levels, o.increasing⟩, ?_⟩
  · intro u mem
    rcases List.mem_append.1 mem with old | new
    · exact o.behind u (List.mem_append_left _ old)
    · rcases (List.mem_insertIdx inside.le).1 new with rfl | old
      · have := o.behind t memT
        dsimp only
        omega
      · exact o.behind u (List.mem_append_right _ old)
  · intro lk mem
    obtain ⟨u, at_, starts⟩ := (o.keyed lk mem).queued (settled lk mem)
    refine ⟨(o.keyed lk mem).1, Or.inl ⟨u, ?_, starts⟩⟩
    dsimp only
    rw [List.getElem?_insertIdx_of_lt (below lk mem)]
    exact at_
  · intro lk mem
    have := below lk mem
    simp only [List.length_insertIdx_of_le_length inside.le]
    omega

/-- The key of the current flow level points at a queued token, and every other pending key, on
a lower level, at one before it. -/
theorem Orderly.found (o : Orderly out s) (settled : Settled s) {key : SimpleKey}
    (found : s.keys.lookup s.flowLevel = some key) :
    ∃ t, s.queue[key.tokenNumber - s.taken]? = some t ∧ t.start.index = key.mark.index ∧
      ∀ lk ∈ s.keys.filter (·.1 != s.flowLevel),
        lk.2.tokenNumber - s.taken < key.tokenNumber - s.taken := by
  obtain ⟨before, after, split, -⟩ := List.lookup_eq_some_iff.1 found
  have mem : (s.flowLevel, key) ∈ s.keys := by
    rw [split]
    exact List.mem_append_right _ List.mem_cons_self
  obtain ⟨t, at_, starts⟩ := (o.keyed _ mem).queued (settled _ mem)
  refine ⟨t, at_, starts, fun lk other => ?_⟩
  obtain ⟨old, level⟩ := List.mem_filter.1 other
  simp only [bne_iff_ne, ne_eq] at level
  have lower : lk.1 < s.flowLevel := lt_of_le_of_ne (o.levels lk old) level
  have earlier : lk.2.tokenNumber < key.tokenNumber := o.increasing lk old _ mem lower
  have := (o.keyed lk old).1
  omega

/-- Handing out the first token queued, which no pending key points at, keeps the scanner
orderly. -/
theorem Orderly.take {t : Token} {rest : List Token} (o : Orderly out s) (settled : Settled s)
    (queue : s.queue = t :: rest) (later : ∀ lk ∈ s.keys, s.taken < lk.2.tokenNumber) :
    Orderly (out ++ [t]) { s with queue := rest, taken := s.taken + 1 } ∧
      Settled { s with queue := rest, taken := s.taken + 1 } := by
  have same : out ++ [t] ++ rest = out ++ s.queue := by rw [queue]; simp
  refine ⟨⟨same ▸ o.ordered, same ▸ o.behind, fun lk mem => ?_, o.levels, o.increasing⟩,
    fun lk mem => ?_⟩
  · obtain ⟨u, at_, starts⟩ := (o.keyed lk mem).queued (settled lk mem)
    have := later lk mem
    refine ⟨by dsimp only; omega, Or.inl ⟨u, ?_, starts⟩⟩
    have shift : lk.2.tokenNumber - s.taken = lk.2.tokenNumber - (s.taken + 1) + 1 := by omega
    rw [shift, queue, List.getElem?_cons_succ] at at_
    exact at_
  · have queued := settled lk mem
    have := later lk mem
    rw [queue, List.length_cons] at queued
    dsimp only
    omega

end Orderly

section Bookkeeping

-- Queuing and the flag for simple keys are read forward, giving the scanner after them a name,
-- so that the conditions left by `mvcgen` stay a chain of small steps.
@[spec]
theorem push_spec (t : Token) (s1 : Scanner) :
    ⦃fun s => ⌜s = s1⌝⦄ push t ⦃⇓? _ s => ⌜s = { s1 with queue := s1.queue ++ [t] }⌝⦄ := by
  mvcgen [push]
  subst_vars
  rfl

@[spec]
theorem pushHere_spec (k : TokenKind) (s1 : Scanner) :
    ⦃fun s => ⌜s = s1⌝⦄ pushHere k
    ⦃⇓? _ s => ⌜s = { s1 with queue := s1.queue ++ [⟨k, s1.mark, s1.mark⟩] }⌝⦄ := by
  mvcgen [pushHere]
  subst_vars
  exact id

@[spec]
theorem pushSpan_spec (k : TokenKind) (n : Nat) (s1 : Scanner) :
    ⦃fun s => ⌜s = s1⌝⦄ pushSpan k n
    ⦃⇓? _ s => ⌜s = { s1 with mark := Mark.stepBy s1.buf n s1.mark
                              queue := s1.queue ++ [⟨k, s1.mark, Mark.stepBy s1.buf n s1.mark⟩] }⌝⦄ := by
  mvcgen [pushSpan]
  subst_vars
  exact id

@[spec high]
theorem modifyGet_step (f : Scanner → PUnit × Scanner) (s1 : Scanner) :
    ⦃fun s => ⌜s = s1⌝⦄ (MonadStateOf.modifyGet f : ScanM PUnit)
    ⦃⇓? _ s => ⌜s = (f s1).2⌝⦄ := by
  mvcgen
  subst_vars
  rfl

@[spec high]
theorem setAllowSimpleKey_step (b : Bool) (s1 : Scanner) :
    ⦃fun s => ⌜s = s1⌝⦄ setAllowSimpleKey b
    ⦃⇓? _ s => ⌜s = { s1 with allowSimpleKey := b }⌝⦄ := by
  mvcgen [setAllowSimpleKey]
  subst_vars
  rfl

/-- Dropping the key of the current level leaves the other keys; with none there, nothing
changes. -/
@[spec]
theorem removeSimpleKey_spec (s1 : Scanner) :
    ⦃fun s => ⌜s = s1⌝⦄ removeSimpleKey
    ⦃⇓? _ s => ⌜s = { s1 with keys := s1.keys.filter (·.1 != s1.flowLevel) }⌝⦄ := by
  mvcgen [removeSimpleKey]
  all_goals subst_vars
  · rfl
  · rename_i none_
    rw [List.lookup_eq_none_iff] at none_
    rw [List.filter_eq_self.2 fun lk mem => by simpa [bne_comm] using none_ lk mem]

@[spec]
theorem saveSimpleKey_spec (s1 : Scanner) :
    ⦃fun s => ⌜s = s1⌝⦄ saveSimpleKey
    ⦃⇓? _ s => ⌜∃ keys, s = { s1 with keys } ∧ (keys = s1.keys ∨ ∃ required, keys =
      (s1.flowLevel, ⟨s1.taken + s1.queue.length, required, s1.mark⟩) ::
        s1.keys.filter (·.1 != s1.flowLevel))⌝⦄ := by
  mvcgen [saveSimpleKey]
  all_goals subst_vars
  · exact ⟨_, rfl, Or.inr ⟨_, rfl⟩⟩
  · exact ⟨_, rfl, Or.inl rfl⟩

@[spec]
theorem staleKeys_spec (s1 : Scanner) :
    ⦃fun s => ⌜s = s1⌝⦄ staleKeys
    ⦃⇓? _ s => ⌜∃ p, s = { s1 with keys := s1.keys.filter p }⌝⦄ := by
  mvcgen [staleKeys]
  subst_vars
  exact ⟨_, rfl⟩

@[spec]
theorem unwindIndent_spec (column : Int) (s1 : Scanner) :
    ⦃fun s => ⌜s = s1⌝⦄ unwindIndent column
    ⦃⇓? _ s => ⌜∃ n indent indents, s =
      { s1 with indent, indents
                queue := s1.queue ++ List.replicate n ⟨.blockEnd, s1.mark, s1.mark⟩ }⌝⦄ := by
  mvcgen [unwindIndent]
  all_goals subst_vars
  · rename_i s _
    exact ⟨0, s.indent, s.indents, by simp⟩
  · exact ⟨_, _, _, rfl⟩

@[spec]
theorem addIndent_spec (column : Int) (s1 : Scanner) :
    ⦃fun s => ⌜s = s1⌝⦄ addIndent column
    ⦃⇓? _ s => ⌜∃ indent indents, s = { s1 with indent, indents }⌝⦄ := by
  mvcgen [addIndent]
  all_goals subst_vars
  · exact ⟨_, _, rfl⟩
  · rename_i s _
    exact ⟨s.indent, s.indents, rfl⟩

end Bookkeeping

/-- Bookkeeping from `s0` to `s`: the text and whether the stream has ended stay, the mark moves
back never, and a scanner orderly with every key's token queued stays so. -/
structure Tidy (s0 s : Scanner) : Prop where
  buf : s.buf = s0.buf
  done : s.done = s0.done
  mark : s0.mark.index ≤ s.mark.index
  keeps : ∀ out, Orderly out s0 → Settled s0 → Orderly out s ∧ Settled s

/-- Bookkeeping from `s0` up to the token about to be queued: as `Tidy`, except that a key may
have been saved for that token. -/
structure Prepared (s0 s : Scanner) : Prop where
  buf : s.buf = s0.buf
  done : s.done = s0.done
  mark : s0.mark.index ≤ s.mark.index
  keeps : ∀ out, Orderly out s0 → Settled s0 → Orderly out s

/-- A fetch from `s0` that left the scanner at `s`: the text is the same; a scanner orderly with
every key's token queued stays so; the stream ends only with no key pending; and the mark moves
on unless the stream ends. -/
structure Fetched (s0 s : Scanner) : Prop where
  buf : s.buf = s0.buf
  keeps : ∀ out, Orderly out s0 → Settled s0 → Orderly out s ∧ Settled s
  quiet : s.done = true → s0.done = true ∨ s.keys = []
  moves : s0.mark.index < s.mark.index ∨ s.done = true

section Steps

variable {s0 s s' : Scanner}

theorem Tidy.refl (s : Scanner) : Tidy s s := ⟨rfl, rfl, le_refl _, fun _ o settled => ⟨o, settled⟩⟩

theorem Tidy.trans (first : Tidy s0 s) (second : Tidy s s') : Tidy s0 s' where
  buf := second.buf.trans first.buf
  done := second.done.trans first.done
  mark := le_trans first.mark second.mark
  keeps out o settled := second.keeps out (first.keeps out o settled).1 (first.keeps out o settled).2

theorem Tidy.prepared (tidy : Tidy s0 s) : Prepared s0 s :=
  ⟨tidy.buf, tidy.done, tidy.mark, fun out o settled => (tidy.keeps out o settled).1⟩

theorem Tidy.then (first : Tidy s0 s) (second : Prepared s s') : Prepared s0 s' where
  buf := second.buf.trans first.buf
  done := second.done.trans first.done
  mark := le_trans first.mark second.mark
  keeps out o settled := second.keeps out (first.keeps out o settled).1 (first.keeps out o settled).2

/-- Reading on changes nothing the order of tokens rests on. -/
theorem Tidy.moved (moved : Moved s s') : Tidy s s' :=
  ⟨moved.1, moved.2.2.2.2.2.2.2.1, moved.2.2.2.2.2.2.2.2, fun _ o settled => o.moved settled moved⟩

/-- Nor does a change of whether a simple key may start. -/
theorem Tidy.setAllow (s : Scanner) (b : Bool) : Tidy s { s with allowSimpleKey := b } :=
  ⟨rfl, rfl, le_refl _, fun _ o settled =>
    ⟨o.frame rfl rfl rfl (le_refl _) rfl, settled.frame rfl rfl rfl⟩⟩

/-- Nor does a change of indentation. -/
theorem Tidy.indent (s : Scanner) (indent : Int) (indents : List Int) :
    Tidy s { s with indent, indents } :=
  ⟨rfl, rfl, le_refl _, fun _ o settled =>
    ⟨o.frame rfl rfl rfl (le_refl _) rfl, settled.frame rfl rfl rfl⟩⟩

theorem Tidy.filterKeys (s : Scanner) (p : Int × SimpleKey → Bool) :
    Tidy s { s with keys := s.keys.filter p } :=
  ⟨rfl, rfl, le_refl _, fun _ o settled => ⟨o.filterKeys p, settled.filterKeys p⟩⟩

theorem Tidy.pushHere (s : Scanner) (k : TokenKind) :
    Tidy s { s with queue := s.queue ++ [⟨k, s.mark, s.mark⟩] } :=
  ⟨rfl, rfl, le_refl _, fun _ o _ => o.pushHere k⟩

theorem Tidy.unwind (s : Scanner) (n : Nat) (indent : Int) (indents : List Int) :
    Tidy s { s with indent, indents
                    queue := s.queue ++ List.replicate n ⟨.blockEnd, s.mark, s.mark⟩ } :=
  ⟨rfl, rfl, le_refl _, fun _ o settled =>
    let pushed := o.pushHeres settled .blockEnd n
    ⟨pushed.1.frame rfl rfl rfl (le_refl _) rfl, pushed.2.frame rfl rfl rfl⟩⟩

/-- Leaving a flow level drops its key. -/
theorem Tidy.close (s : Scanner) :
    Tidy s { s with flowLevel := s.flowLevel - 1, keys := s.keys.filter (·.1 != s.flowLevel) } :=
  ⟨rfl, rfl, le_refl _, fun _ o settled => ⟨o.close, settled.filterKeys _⟩⟩

/-- Dropping every pending key, and with them whether one may start here. -/
theorem Tidy.dropKeys (s : Scanner) (b : Bool) : Tidy s { s with allowSimpleKey := b, keys := [] } :=
  ⟨rfl, rfl, le_refl _, fun _ o settled => by
    have := ((Tidy.setAllow s b).trans (Tidy.filterKeys _ fun _ => false)).keeps _ o settled
    simpa using this⟩

/-- Bookkeeping before a fetch is part of it. -/
theorem Tidy.fetched (tidy : Tidy s0 s) (fetched : Fetched s s') : Fetched s0 s' where
  buf := fetched.buf.trans tidy.buf
  keeps out o settled := fetched.keeps out (tidy.keeps out o settled).1 (tidy.keeps out o settled).2
  quiet ended := (fetched.quiet ended).imp_left (fun done => tidy.done ▸ done)
  moves := (fetched.moves).imp_left (lt_of_le_of_lt tidy.mark)

/-- Ending the stream with no key pending ends a fetch. -/
theorem Tidy.finish (tidy : Tidy s0 s) (keys : s.keys = []) : Fetched s0 { s with done := true } where
  buf := tidy.buf
  keeps out o settled := by
    obtain ⟨o', settled'⟩ := tidy.keeps out o settled
    exact ⟨o'.frame rfl rfl rfl (le_refl _) rfl, settled'.frame rfl rfl rfl⟩
  quiet _ := Or.inr keys
  moves := Or.inr rfl

/-- After a key is saved, a change of whether a simple key may start keeps the key waiting for
the token about to be queued. -/
theorem Prepared.setAllow (prepared : Prepared s0 s) (b : Bool) :
    Prepared s0 { s with allowSimpleKey := b } :=
  ⟨prepared.buf, prepared.done, prepared.mark,
    fun out o settled => (prepared.keeps out o settled).frame rfl rfl rfl (le_refl _) rfl⟩

/-- So does entering a flow level. -/
theorem Prepared.enter (prepared : Prepared s0 s) :
    Prepared s0 { s with flowLevel := s.flowLevel + 1 } :=
  ⟨prepared.buf, prepared.done, prepared.mark,
    fun out o settled => (prepared.keeps out o settled).frame rfl rfl rfl (by dsimp only; omega) rfl⟩

/-- Saving a key, or finding that none may start here, prepares the token about to be queued. -/
theorem Tidy.save (tidy : Tidy s0 s) {keys : List (Int × SimpleKey)}
    (saved : keys = s.keys ∨ ∃ required, keys =
      (s.flowLevel, ⟨s.taken + s.queue.length, required, s.mark⟩) ::
        s.keys.filter (·.1 != s.flowLevel)) : Prepared s0 { s with keys } := by
  rcases saved with rfl | ⟨required, rfl⟩
  · exact tidy.prepared
  · exact tidy.then ⟨rfl, rfl, le_refl _, fun out o settled => o.save settled rfl rfl⟩

/-- A fetch chosen by reading on from `s0`, where the text has not ended. -/
theorem Tidy.fetchedAway (tidy : Tidy s0 s) (fetched : Fetched s s')
    (away : ¬(charAt s0 0 == '\x00') = true) :
    Fetched s0 s' ∧ (charAt s0 0 = '\x00' → s'.done = true) :=
  ⟨tidy.fetched fetched, fun nul => absurd (beq_iff_eq.2 nul) away⟩

/-- Queuing a token read from the mark, which the scan moved past, ends a fetch. -/
theorem Prepared.push {t : Token} (prepared : Prepared s0 s) (moved : Moved s s')
    (spans : Spans s t s') (progress : s.mark.index < s'.mark.index) :
    Fetched s0 { s' with queue := s'.queue ++ [t] } where
  buf := moved.1.trans prepared.buf
  keeps out o settled := (prepared.keeps out o settled).push moved spans
  quiet _ := Or.inl (moved.2.2.2.2.2.2.2.1.trans prepared.done ▸ ‹_›)
  moves := Or.inl (lt_of_le_of_lt prepared.mark progress)

/-- Queuing a token for the next `n` characters, `n` at least one, ends a fetch. -/
theorem Prepared.pushSpan (prepared : Prepared s0 s) (k : TokenKind) {n : Nat} (pos : 0 < n) :
    Fetched s0 { s with mark := Mark.stepBy s.buf n s.mark
                        queue := s.queue ++ [⟨k, s.mark, Mark.stepBy s.buf n s.mark⟩] } :=
  prepared.push
    (⟨rfl, rfl, rfl, rfl, rfl, rfl, rfl, rfl, by rw [stepBy_index]; omega⟩ :
      Moved s { s with mark := Mark.stepBy s.buf n s.mark })
    ⟨rfl, by rw [stepBy_index]; omega, le_refl _⟩ (by dsimp only; rw [stepBy_index]; omega)

/-- A value indicator with a key pending on its level puts the key token in front of the token
the key points at. -/
theorem Tidy.insertKey (s : Scanner) {key : SimpleKey} (found : s.keys.lookup s.flowLevel = some key) :
    Tidy s { s with keys := s.keys.filter (·.1 != s.flowLevel)
                    queue := s.queue.insertIdx (key.tokenNumber - s.taken) ⟨.key, key.mark, key.mark⟩ } :=
  ⟨rfl, rfl, le_refl _, fun _ o settled => by
    obtain ⟨_, at_, starts, below⟩ := o.found settled found
    exact (o.filterKeys _).insert (settled.filterKeys _) at_
      (show (⟨.key, key.mark, key.mark⟩ : Token).start.index = _ from rfl) starts.symm below⟩

/-- In block context, where the key opens a new indentation, a mapping start goes in front of
the key token: the keys left still point at tokens before both. -/
theorem Tidy.insertMappingKey (s : Scanner) {key : SimpleKey}
    (found : s.keys.lookup s.flowLevel = some key) (indent : Int) (indents : List Int) :
    Tidy s { s with keys := s.keys.filter (·.1 != s.flowLevel), indent, indents
                    queue := (s.queue.insertIdx (key.tokenNumber - s.taken) ⟨.key, key.mark, key.mark⟩).insertIdx
                      (key.tokenNumber - s.taken) ⟨.blockMappingStart, key.mark, key.mark⟩ } :=
  ⟨rfl, rfl, le_refl _, fun _ o settled => by
    obtain ⟨_, at_, starts, below⟩ := o.found settled found
    have inside : key.tokenNumber - s.taken < s.queue.length := (List.getElem?_eq_some_iff.1 at_).1
    obtain ⟨keyed, settledKeyed⟩ := (o.filterKeys _).insert (settled.filterKeys _) at_
      (show (⟨.key, key.mark, key.mark⟩ : Token).start.index = _ from rfl) starts.symm below
    have atKey : (s.queue.insertIdx (key.tokenNumber - s.taken)
        (⟨.key, key.mark, key.mark⟩ : Token))[key.tokenNumber - s.taken]? = some ⟨.key, key.mark, key.mark⟩ :=
by
      rw [List.getElem?_insertIdx_self, if_pos inside.le]
    obtain ⟨mapped, settledMapped⟩ := keyed.insert settledKeyed atKey
      (show (⟨.blockMappingStart, key.mark, key.mark⟩ : Token).start.index = _ from rfl) rfl below
    exact ⟨mapped.frame rfl rfl rfl (le_refl _) rfl, settledMapped.frame rfl rfl rfl⟩⟩

end Steps

section Fetches

@[spec]
theorem fetchFlowEntry_spec (s1 : Scanner) :
    ⦃fun s => ⌜s = s1⌝⦄ fetchFlowEntry ⦃⇓? _ s => ⌜Fetched s1 s⌝⦄ := by
  mvcgen [fetchFlowEntry]
  rintro rfl
  subst_vars
  exact ((Tidy.setAllow _ true).trans (Tidy.filterKeys _ _)).prepared.pushSpan _ Nat.one_pos

@[spec]
theorem fetchFlowStart_spec (k : TokenKind) (s1 : Scanner) :
    ⦃fun s => ⌜s = s1⌝⦄ fetchFlowStart k ⦃⇓? _ s => ⌜Fetched s1 s⌝⦄ := by
  mvcgen [fetchFlowStart]
  rintro rfl
  obtain ⟨keys, rfl, saved⟩ := ‹∃ _, _›
  subst_vars
  exact (((Tidy.refl _).save saved).enter.setAllow true).pushSpan _ Nat.one_pos

@[spec]
theorem fetchFlowEnd_spec (k : TokenKind) (s1 : Scanner) :
    ⦃fun s => ⌜s = s1⌝⦄ fetchFlowEnd k ⦃⇓? _ s => ⌜Fetched s1 s⌝⦄ := by
  mvcgen [fetchFlowEnd]
  rintro rfl
  subst_vars
  exact ((Tidy.close _).trans (Tidy.setAllow _ false)).prepared.pushSpan _ Nat.one_pos

-- In block context the entry may open a sequence at a new indentation first.
@[spec]
theorem fetchBlockEntry_spec (s1 : Scanner) :
    ⦃fun s => ⌜s = s1⌝⦄ fetchBlockEntry ⦃⇓? _ s => ⌜Fetched s1 s⌝⦄ := by
  mvcgen [fetchBlockEntry]
  all_goals rintro rfl
  · obtain ⟨_, _, rfl⟩ := ‹∃ _ _, _›
    subst_vars
    exact ((((Tidy.indent _ _ _).trans (Tidy.pushHere _ _)).trans (Tidy.setAllow _ _)).trans
      (Tidy.filterKeys _ _)).prepared.pushSpan _ Nat.one_pos
  · obtain ⟨_, _, rfl⟩ := ‹∃ _ _, _›
    subst_vars
    exact (((Tidy.indent _ _ _).trans (Tidy.setAllow _ _)).trans
      (Tidy.filterKeys _ _)).prepared.pushSpan _ Nat.one_pos
  · subst_vars
    exact ((Tidy.setAllow _ _).trans (Tidy.filterKeys _ _)).prepared.pushSpan _ Nat.one_pos

-- In block context an explicit key may open a mapping at a new indentation first.
@[spec]
theorem fetchKey_spec (s1 : Scanner) :
    ⦃fun s => ⌜s = s1⌝⦄ fetchKey ⦃⇓? _ s => ⌜Fetched s1 s⌝⦄ := by
  mvcgen [fetchKey]
  all_goals rintro rfl
  · obtain ⟨_, _, rfl⟩ := ‹∃ _ _, _›
    subst_vars
    exact ((((Tidy.indent _ _ _).trans (Tidy.pushHere _ _)).trans (Tidy.setAllow _ _)).trans
      (Tidy.filterKeys _ _)).prepared.pushSpan _ Nat.one_pos
  · obtain ⟨_, _, rfl⟩ := ‹∃ _ _, _›
    subst_vars
    exact (((Tidy.indent _ _ _).trans (Tidy.setAllow _ _)).trans
      (Tidy.filterKeys _ _)).prepared.pushSpan _ Nat.one_pos
  · subst_vars
    exact ((Tidy.setAllow _ _).trans (Tidy.filterKeys _ _)).prepared.pushSpan _ Nat.one_pos

@[spec]
theorem fetchBlockScalar_spec (folded : Bool) (s1 : Scanner) :
    ⦃fun s => ⌜s = s1⌝⦄ fetchBlockScalar folded ⦃⇓? _ s => ⌜Fetched s1 s⌝⦄ := by
  mvcgen [fetchBlockScalar]
  rintro rfl
  obtain ⟨moved, spans, progress⟩ := ‹Scanned _ _ _›
  subst_vars
  exact ((Tidy.setAllow _ _).trans (Tidy.filterKeys _ _)).prepared.push moved spans progress

@[spec]
theorem fetchStreamEnd_spec (s1 : Scanner) :
    ⦃fun s => ⌜s = s1⌝⦄ fetchStreamEnd ⦃⇓? _ s => ⌜Fetched s1 s ∧ s.done = true⌝⦄ := by
  mvcgen [fetchStreamEnd]
  rintro rfl
  obtain ⟨n, indent, indents, rfl⟩ := ‹∃ _ _ _, _›
  subst_vars
  refine ⟨?_, rfl⟩
  exact ((((Tidy.unwind _ _ _ _).trans (Tidy.filterKeys _ _)).trans (Tidy.dropKeys _ false)).trans
    (Tidy.pushHere _ _)).finish rfl

/-- A value indicator keeps the order: the key token it may put in front of a pending key's token,
and the mapping start with it, stand at the key's mark. -/
@[spec]
theorem fetchValue_spec (s1 : Scanner) :
    ⦃fun s => ⌜s = s1⌝⦄ fetchValue ⦃⇓? _ s => ⌜Fetched s1 s⌝⦄ := by
  mvcgen [fetchValue]
  all_goals rintro rfl
  · -- a key pending in block context, at a new indentation
    obtain ⟨indent, indents, rfl⟩ := ‹∃ _ _, _›
    subst_vars
    exact ((Tidy.insertMappingKey _ ‹_› indent indents).trans (Tidy.setAllow _ false)).prepared.pushSpan
      _ Nat.one_pos
  · obtain ⟨indent, indents, rfl⟩ := ‹∃ _ _, _›
    subst_vars
    exact (((Tidy.insertKey _ ‹_›).trans (Tidy.indent _ indent indents)).trans
      (Tidy.setAllow _ false)).prepared.pushSpan _ Nat.one_pos
  · subst_vars
    exact ((Tidy.insertKey _ ‹_›).trans (Tidy.setAllow _ false)).prepared.pushSpan _ Nat.one_pos
  · -- no key pending: in block context the value may open a mapping with an empty key
    obtain ⟨indent, indents, rfl⟩ := ‹∃ _ _, _›
    subst_vars
    exact ((((Tidy.indent _ indent indents).trans (Tidy.pushHere _ _)).trans (Tidy.setAllow _ _)).trans
      (Tidy.filterKeys _ _)).prepared.pushSpan _ Nat.one_pos
  · obtain ⟨indent, indents, rfl⟩ := ‹∃ _ _, _›
    subst_vars
    exact (((Tidy.indent _ indent indents).trans (Tidy.setAllow _ _)).trans
      (Tidy.filterKeys _ _)).prepared.pushSpan _ Nat.one_pos
  · subst_vars
    exact ((Tidy.setAllow _ _).trans (Tidy.filterKeys _ _)).prepared.pushSpan _ Nat.one_pos

/-- Every fetch the next character chooses keeps the order, and the end of the text ends the
stream. -/
@[spec]
theorem fetchToken_spec (s1 : Scanner) :
    ⦃fun s => ⌜s = s1⌝⦄ fetchToken
    ⦃⇓? _ s => ⌜Fetched s1 s ∧ (charAt s1 0 = '\x00' → s.done = true)⌝⦄ := by
  mvcgen [fetchToken, fetchKeyStart, fetchAtTopLevel, atLineMarker]
  case vc1 =>
    subst_vars
    intro fetched ended
    exact ⟨fetched, fun _ => ended⟩
  case vc2 =>
    rintro rfl
    obtain ⟨n, indent, indents, rfl⟩ := ‹∃ _ _ _, _›
    obtain ⟨moved, spans, progress⟩ := ‹Scanned _ _ _›
    subst_vars
    exact (Tidy.refl _).fetchedAway ((((Tidy.unwind _ n indent indents).trans (Tidy.filterKeys _ _)).trans
      (Tidy.setAllow _ false)).prepared.push moved spans progress) ‹_›
  case vc3 =>
    rintro rfl
    obtain ⟨n, indent, indents, rfl⟩ := ‹∃ _ _ _, _›
    subst_vars
    exact (Tidy.moved ‹_›).fetchedAway ((((Tidy.unwind _ n indent indents).trans (Tidy.filterKeys _ _)).trans
      (Tidy.setAllow _ false)).prepared.pushSpan _ (by decide : 0 < 3)) ‹_›
  case vc4 =>
    rintro rfl
    obtain ⟨n, indent, indents, rfl⟩ := ‹∃ _ _ _, _›
    subst_vars
    exact ((Tidy.moved ‹_›).trans (Tidy.moved ‹_›)).fetchedAway ((((Tidy.unwind _ n indent indents).trans
      (Tidy.filterKeys _ _)).trans (Tidy.setAllow _ false)).prepared.pushSpan _ (by decide : 0 < 3)) ‹_›
  case vc5 | vc6 | vc7 | vc8 | vc9 | vc10 | vc11 | vc12 | vc16 | vc17 =>
    subst_vars
    intro fetched
    exact ((Tidy.moved ‹_›).trans (Tidy.moved ‹_›)).fetchedAway fetched ‹_›
  case vc13 | vc14 | vc15 | vc18 | vc19 =>
    rintro rfl
    obtain ⟨keys, rfl, saved⟩ := ‹∃ _, _›
    obtain ⟨moved, spans, progress⟩ := ‹Scanned _ _ _›
    subst_vars
    exact ((Tidy.moved ‹_›).trans (Tidy.moved ‹_›)).fetchedAway
      ((((Tidy.refl _).save saved).setAllow false).push moved spans progress) ‹_›
  case vc20 =>
    rintro rfl
    obtain ⟨rfl, plain⟩ := ‹_ = _ ∧ (_ → PlainStart _)›
    obtain ⟨keys, rfl, saved⟩ := ‹∃ _, _›
    obtain ⟨moved, spans, progress⟩ := ‹Moved _ _ ∧ Spans _ _ _ ∧ _›
    subst_vars
    exact ((Tidy.moved ‹_›).trans (Tidy.moved ‹_›)).fetchedAway
      ((((Tidy.refl _).save saved).setAllow false).push moved spans (progress (plain rfl))) ‹_›
  case vc21 => exact False.elim

end Fetches

section Rounds

/-- What a scanner has left to read, and one step more for the end of the stream; nothing once
the stream has ended. Every fetch from a scanner whose stream goes on takes some of it. -/
def remaining (s : Scanner) : Nat := if s.done then 0 else s.buf.size - s.mark.index + 1

theorem remaining_le (s : Scanner) : remaining s ≤ s.buf.size - s.mark.index + 1 := by
  unfold remaining
  split <;> omega

theorem charAt_past_end {s : Scanner} (past : s.buf.size ≤ s.mark.index) : charAt s 0 = '\x00' := by
  simp [charAt, past]

/-- A fetch either ends the stream or moves the mark on within the text, which it can only do
before the text's end: so it takes some of what is left. -/
theorem Tidy.remaining_lt {s0 s s' : Scanner} (tidy : Tidy s0 s) (fetched : Fetched s s')
    (ended : charAt s 0 = '\x00' → s'.done = true) (live : s0.done = false) :
    remaining s' < remaining s0 := by
  simp only [remaining, live, Bool.false_eq_true, ↓reduceIte]
  by_cases stopped : s'.done = true
  · simp [stopped]
  · rw [if_neg stopped]
    have within : s.mark.index < s.buf.size := by
      by_contra past
      exact stopped (ended (charAt_past_end (not_lt.1 past)))
    have moves := fetched.moves.resolve_right stopped
    have sizes : s'.buf.size = s0.buf.size := by rw [fetched.buf, tidy.buf]
    have size : s.buf.size = s0.buf.size := by rw [tidy.buf]
    have := tidy.mark
    omega

/-- Skipping to the next token, dropping stale keys and closing block collections keep the order,
and so does the fetch after them, which takes some of what is left to read. -/
@[spec]
theorem fetchMoreTokens_spec (s1 : Scanner) :
    ⦃fun s => ⌜s = s1⌝⦄ fetchMoreTokens
    ⦃⇓? _ s => ⌜Fetched s1 s ∧ (s1.done = false → remaining s < remaining s1)⌝⦄ := by
  mvcgen [fetchMoreTokens]
  intro fetched ended
  obtain ⟨p, rfl⟩ := ‹∃ p : Int × SimpleKey → Bool, _›
  obtain ⟨n, indent, indents, rfl⟩ := ‹∃ n : Nat, _›
  subst_vars
  have tidy := ((Tidy.moved ‹_›).trans (Tidy.filterKeys _ p)).trans (Tidy.unwind _ n indent indents)
  exact ⟨tidy.fetched fetched, tidy.remaining_lt fetched ended⟩

/-- Once the stream has ended, no key is pending. -/
def Quiet (s : Scanner) : Prop := s.done = true → s.keys = []

/-- The scanner may hand out its first token: the stream has ended, or a token is queued that no
pending key could put a key token in front of. -/
def Ready (s : Scanner) : Prop := s.done = true ∨ s.queue ≠ [] ∧ firstKeyNumber s ≠ some s.taken

/-- Asking whether to scan on drops stale keys at most; the answer no means the scanner is ready,
and yes that the stream goes on. -/
@[spec]
theorem needMoreTokens_spec (s1 : Scanner) :
    ⦃fun s => ⌜s = s1⌝⦄ needMoreTokens
    ⦃⇓? r s => ⌜(∃ p, s = { s1 with keys := s1.keys.filter p }) ∧ (r = false → Ready s) ∧
      (r = true → s.done = false)⌝⦄ := by
  mvcgen [needMoreTokens]
  case vc1 =>
    subst_vars
    exact ⟨⟨fun _ => true, by simp⟩, Or.inl ‹_›, fun wanted => absurd wanted Bool.false_ne_true⟩
  case vc2 =>
    subst_vars
    exact ⟨⟨fun _ => true, by simp⟩, fun ready => absurd ready.symm Bool.false_ne_true,
      Bool.eq_false_iff.2 ‹¬Scanner.done _ = true›⟩
  case vc3 =>
    obtain ⟨p, rfl⟩ := ‹∃ _, _›
    subst_vars
    refine ⟨⟨p, rfl⟩, fun ready => Or.inr ⟨?_, by simpa using ready⟩,
      fun _ => Bool.eq_false_iff.2 ‹¬Scanner.done _ = true›⟩
    simpa using ‹¬(Scanner.queue _).isEmpty = true›

/-- A fold that keeps the least number met so far ends at `n` when every number is `n` or more
and one of them, or the number it starts from, is `n`. -/
theorem foldl_least {f : Option Nat → Int × SimpleKey → Option Nat} {n : Nat}
    (step : ∀ acc lk, f acc lk = some (acc.elim lk.2.tokenNumber fun m => min m lk.2.tokenNumber)) :
    ∀ (l : List (Int × SimpleKey)) (acc : Option Nat), (∀ a, acc = some a → n ≤ a) →
      (∀ lk ∈ l, n ≤ lk.2.tokenNumber) → (acc = some n ∨ ∃ lk ∈ l, lk.2.tokenNumber = n) →
      l.foldl f acc = some n
  | [], _, _, _, found => by simpa using found
  | lk :: l, acc, low, atLeast, found => by
    have here : n ≤ lk.2.tokenNumber := atLeast lk List.mem_cons_self
    have rest : ∀ k ∈ l, n ≤ k.2.tokenNumber := fun k mem => atLeast k (List.mem_cons_of_mem _ mem)
    rw [List.foldl_cons, step]
    -- the least number so far is `n` or more, and `n` once a number `n` was met
    refine foldl_least step l _ (fun a least => ?_) rest ?_
    · rcases acc with _ | b
      · simp only [Option.elim, Option.some.injEq] at least
        omega
      · have := low b rfl
        simp only [Option.elim, Option.some.injEq] at least
        omega
    · rcases found with rfl | ⟨k, mem, at_⟩
      · exact Or.inl (by simp only [Option.elim, Option.some.injEq]; omega)
      · rcases List.mem_cons.1 mem with rfl | later
        · left
          rcases acc with _ | b
          · simp [at_]
          · have := low b rfl
            simp only [Option.elim, Option.some.injEq]
            omega
        · exact Or.inr ⟨k, later, at_⟩

/-- With every pending key at token `n` or later and one at `n`, the first key number is `n`. -/
theorem firstKeyNumber_eq {s : Scanner} {n : Nat} (atLeast : ∀ lk ∈ s.keys, n ≤ lk.2.tokenNumber)
    (at_ : ∃ lk ∈ s.keys, lk.2.tokenNumber = n) : firstKeyNumber s = some n := by
  unfold firstKeyNumber
  exact foldl_least (fun acc lk => by cases acc <;> rfl) s.keys none
    (fun a none_ => absurd none_ (Option.some_ne_none a).symm) atLeast (Or.inr at_)

/-- In an orderly scanner whose first key number is not that of the next token to hand out, no
pending key points at that token. -/
theorem Orderly.later {out : List Token} {s : Scanner} (o : Orderly out s)
    (free : firstKeyNumber s ≠ some s.taken) : ∀ lk ∈ s.keys, s.taken < lk.2.tokenNumber := by
  intro lk mem
  have atLeast : ∀ lk ∈ s.keys, s.taken ≤ lk.2.tokenNumber := fun lk mem => (o.keyed lk mem).1
  by_contra early
  exact free (firstKeyNumber_eq atLeast ⟨lk, mem, by have := atLeast lk mem; omega⟩)

/-- A ready scanner, orderly with every key's token queued and quiet, hands out its first token
and stays so. -/
theorem Orderly.handOut {out : List Token} {s : Scanner} (o : Orderly out s) (settled : Settled s)
    (quiet : Quiet s) (ready : Ready s) {t : Token} {rest : List Token} (queue : s.queue = t :: rest) :
    Orderly (out ++ [t]) { s with queue := rest, taken := s.taken + 1 } ∧
      Settled { s with queue := rest, taken := s.taken + 1 } ∧
        Quiet { s with queue := rest, taken := s.taken + 1 } := by
  have later : ∀ lk ∈ s.keys, s.taken < lk.2.tokenNumber := by
    rcases ready with ended | ⟨-, free⟩
    · rw [quiet ended]
      exact fun _ mem => absurd mem List.not_mem_nil
    · exact o.later free
  exact ⟨(o.take settled queue later).1, (o.take settled queue later).2, quiet⟩

/-- Scanning ahead from `s0` to `s`, before a token is handed out: a scanner orderly with every
key's token queued, and quiet, stays so. -/
def Scanning (s0 s : Scanner) : Prop :=
  ∀ out, Orderly out s0 → Settled s0 → Quiet s0 → Orderly out s ∧ Settled s ∧ Quiet s

theorem Scanning.refl (s : Scanner) : Scanning s s := fun _ o settled quiet => ⟨o, settled, quiet⟩

theorem Scanning.filterKeys {s0 s : Scanner} (scanning : Scanning s0 s) (p : Int × SimpleKey → Bool) :
    Scanning s0 { s with keys := s.keys.filter p } := fun out o settled quiet =>
  let ⟨o', settled', quiet'⟩ := scanning out o settled quiet
  ⟨o'.filterKeys p, settled'.filterKeys p, fun ended => by simp [quiet' ended]⟩

/-- A fetch from a scanner whose stream goes on is part of scanning ahead. -/
theorem Scanning.fetched {s0 s s' : Scanner} (scanning : Scanning s0 s) (live : s.done = false)
    (fetched : Fetched s s') : Scanning s0 s' := fun out o settled quiet =>
  let ⟨o', settled', _⟩ := scanning out o settled quiet
  let ⟨o'', settled''⟩ := fetched.keeps out o' settled'
  ⟨o'', settled'', fun ended => (fetched.quiet ended).resolve_left (by simp [live])⟩

/-- Handing out `r` from `s0` left the scanner at `s`: a scanner orderly with every key's token
queued, and quiet, stays so, with `r` handed out too. -/
def Handed (s0 : Scanner) (r : Option Token) (s : Scanner) : Prop :=
  ∀ out, Orderly out s0 → Settled s0 → Quiet s0 → Orderly (out ++ r.toList) s ∧ Settled s ∧ Quiet s

/-- Handing out a token keeps the order. The loop fetches until the scanner is ready; it has more
rounds than there is left to read, and each fetch takes some of that, so it never stops short. -/
@[spec]
theorem nextToken_spec (s1 : Scanner) :
    ⦃fun s => ⌜s = s1⌝⦄ nextToken ⦃⇓? r s => ⌜Handed s1 r s⌝⦄ := by
  mvcgen [nextToken] invariants
  | inv1 => ⇓? r s => ⌜Scanning s1 s ∧ (r.1.suffix = [] → Ready s) ∧
      (r.1.suffix ≠ [] → remaining s + r.1.pos ≤ remaining s1)⌝
  all_goals
    have same := (‹_ = s1›).symm
    subst same
  case vc1 =>
    -- nothing more is needed: the first token may go
    obtain ⟨scanning, -, -⟩ := ‹Scanning _ _ ∧ _›
    obtain ⟨⟨p, rfl⟩, ready, -⟩ := ‹(∃ p, _) ∧ _›
    exact ⟨scanning.filterKeys p, ready (by simpa using ‹(!_) = true›), fun ne => absurd rfl ne⟩
  case vc2 =>
    -- one more fetch, which takes some of what is left to read
    obtain ⟨scanning, -, rounds⟩ := ‹Scanning _ _ ∧ _›
    obtain ⟨⟨p, rfl⟩, -, live⟩ := ‹(∃ p, _) ∧ _›
    obtain ⟨fetched, fewer⟩ := ‹Fetched _ _ ∧ _›
    have live := live (by simpa using ‹¬(!_) = true›)
    have fewer := fewer live
    have taken := (Nat.add_lt_add_right fewer _).trans_le (rounds (List.cons_ne_nil _ _))
    simp only [List.Cursor.pos] at taken
    refine ⟨(scanning.filterKeys p).fetched live fetched, fun last => ?_, fun _ => ?_⟩
    · -- the rounds cannot run out: there are more of them than there is left to read
      have length := congrArg List.length ‹[:_].toList = _›
      simp [last] at length
      have := remaining_le s1
      exfalso
      omega
    · simp only [List.Cursor.pos, List.length_append, List.length_singleton]
      omega
  case vc5 =>
    exact ⟨Scanning.refl _, fun empty => absurd empty (by simp), fun _ => by simp⟩
  case vc6 =>
    obtain ⟨scanning, -, -⟩ := ‹Scanning _ _ ∧ _›
    intro out o settled quiet
    simpa using scanning out o settled quiet
  case vc7 =>
    obtain ⟨scanning, ready, -⟩ := ‹Scanning _ _ ∧ _›
    intro out o settled quiet
    obtain ⟨o', settled', quiet'⟩ := scanning out o settled quiet
    exact o'.handOut settled' quiet' ready ‹_›

end Rounds

section Collect

/-- A property of the scanner and the tokens so far that handing out a token keeps holds of the
tokens `collect` gives. -/
theorem collect_invariant (I : Scanner → Array Token → Prop)
    (keeps : ∀ s acc t s', I s acc → nextToken.run s = .ok (some t, s') → I s' (acc.push t)) :
    ∀ fuel s acc, I s acc → ∃ s', I s' (collect fuel s acc).1
  | 0, s, acc, holds => ⟨s, holds⟩
  | fuel + 1, s, acc, holds => by
    rw [collect]
    split
    · exact ⟨s, holds⟩
    · exact ⟨s, holds⟩
    · rename_i t s' handed
      split
      · exact ⟨s', keeps s acc t s' holds handed⟩
      · exact collect_invariant I keeps fuel s' (acc.push t) (keeps s acc t s' holds handed)

/-- The tokens handed out and those queued stand in order, every key's token is queued, and no
key is pending after the stream ended. -/
def Sound (s : Scanner) (acc : Array Token) : Prop := Orderly acc.toList s ∧ Settled s ∧ Quiet s

theorem Sound.handOut {s s' : Scanner} {acc : Array Token} {t : Token} (sound : Sound s acc)
    (handed : nextToken.run s = .ok (some t, s')) : Sound s' (acc.push t) := by
  obtain ⟨o, settled, quiet⟩ := sound
  rw [Sound, Array.toList_push]
  exact ok_of_triple (nextToken_spec s) rfl handed _ o settled quiet

/-- A scanner that has read nothing yet holds the start of the stream only. -/
theorem Sound.start (text : String) : Sound (ofText text) #[] := by
  -- no key is pending yet
  have none_ : ∀ lk, lk ∉ (ofText text).keys := fun _ => List.not_mem_nil
  refine ⟨⟨?_, ?_, fun lk mem => absurd mem (none_ lk), fun lk mem => absurd mem (none_ lk),
    fun lk mem => absurd mem (none_ lk)⟩, fun lk mem => absurd mem (none_ lk), fun _ => rfl⟩
  · exact inOrder_cons.2 ⟨le_refl _, fun _ mem => absurd mem List.not_mem_nil, inOrder_nil⟩
  · intro t mem
    simp only [ofText, List.nil_append, List.mem_singleton] at mem
    subst mem
    exact le_refl _

end Collect

end Scanner

/-- The tokens of a text stand in the order of the text. -/
theorem scan_inOrder (text : String) : InOrder Token.span (Token.scan text).1 := by
  unfold Token.scan
  split
  · exact inOrder_nil
  · obtain ⟨s, o, -, -⟩ := Scanner.collect_invariant Scanner.Sound
      (fun _ _ _ _ sound handed => sound.handOut handed) _ _ _ (Scanner.Sound.start text)
    exact o.ordered.sublist (List.sublist_append_left _ _)

end StageTree.Yaml
