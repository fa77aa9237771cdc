/-
# Spell rank chains

`SpellMgr::LoadSpellRanks` (`src/server/game/Spells/SpellMgr.cpp`) reads the rows of `spell_ranks`
in the order of `first_spell_id` and `rank`, cuts them into chains, and links the spells of each
chain that it accepts; `GetSpellWithRank` walks along the links.

The first spell of a chain is the one that `first_spell_id` names, which need not be the spell of
rank 1, and a rank that the chain does not have sends the walk over its end: `chains_right_iff` says
when neither comes about.
-/

import Mathlib.Data.List.Nodup

namespace ZerosCore.Spells

open List Option

/-- A row of `spell_ranks`. -/
structure RankRow where
  firstSpellId : ℕ
  spellId : ℕ
  rank : ℕ
deriving DecidableEq

/-- A node of a chain; a pointer to a `SpellInfo` is the id of the spell, or nothing. -/
structure SpellChainNode where
  prev : Option ℕ
  next : Option ℕ
  first : Option ℕ
  last : Option ℕ
  rank : ℕ

abbrev SpellChainMap : Type := ℕ → Option SpellChainNode

def getSpellInfo (store : ℕ → Bool) (id : ℕ) : Option ℕ := if store id then some id else none

def RankRow.spellInfo (store : ℕ → Bool) (row : RankRow) : Option ℕ := getSpellInfo store row.spellId

/-- The loop that checks the spells of a chain. -/
def checkRanks (store : ℕ → Bool) : ℕ → List RankRow → Bool
  | _, [] => true
  | curRank, row :: rows =>
    store row.spellId && row.rank = curRank + 1 && checkRanks store (curRank + 1) rows

/-- The chain of a first spell is inserted: there is such a spell, and two or more proper rows. -/
def acceptChain (store : ℕ → Bool) (lastSpell : ℕ) (rankChain : List RankRow) : Bool :=
  store lastSpell && 2 ≤ rankChain.length && checkRanks store 0 rankChain

/-- The loop that inserts a chain, each node with the spell before it. -/
def insertChain (store : ℕ → Bool) (first last : Option ℕ) :
    ℕ → List RankRow → SpellChainMap → SpellChainMap
  | _, [], m => m
  | prevRank, row :: rows, m =>
    insertChain store first last row.spellId rows <| Function.update m row.spellId <| some
      ⟨getSpellInfo store prevRank, rows.head?.bind (RankRow.spellInfo store), first, last,
        row.rank⟩

/-- The outer loop: the rows of one `first_spell_id` are one chain, and the row with another stays
for the next turn, of which there are no more than rows. -/
def loadChains (store : ℕ → Bool) : ℕ → List RankRow → SpellChainMap → SpellChainMap
  | fuel + 1, row :: rows, m =>
    let rankChain := (row :: rows).takeWhile (·.firstSpellId = row.firstSpellId)
    let m := if acceptChain store row.firstSpellId rankChain then
        insertChain store (getSpellInfo store row.firstSpellId)
          (rankChain.getLast?.bind (RankRow.spellInfo store)) 0 rankChain m
      else m
    loadChains store fuel ((row :: rows).dropWhile (·.firstSpellId = row.firstSpellId)) m
  | _, _, m => m

def loadSpellRanks (store : ℕ → Bool) (rows : List RankRow) : SpellChainMap :=
  loadChains store rows.length rows fun _ => none

/-- What a lookup comes to: a spell, or the use of a neighbour that is not there. -/
inductive Lookup
  | spell (id : ℕ)
  | nullNeighbour
deriving DecidableEq

/-- `GetSpellWithRank`, or nothing if the fuel is used up. -/
def getSpellWithRank (chains : SpellChainMap) : ℕ → ℕ → ℕ → Bool → Option Lookup
  | 0, _, _, _ => none
  | fuel + 1, spellId, rank, strict =>
    match chains spellId with
    | some node =>
      if rank ≠ node.rank then
        match if node.rank < rank then node.next else node.prev with
        | some id => getSpellWithRank chains fuel id rank strict
        | none => some .nullNeighbour
      else some (.spell spellId)
    | none => if strict && 1 < rank then some (.spell 0) else some (.spell spellId)

variable {store : ℕ → Bool} {rows chain pre post : List RankRow} {row : RankRow}
  {m : SpellChainMap} {first last : Option ℕ} {fuel prev curRank f i r s v : ℕ} {strict : Bool}

/-! ### One chain -/

theorem insertChain_of_not_mem (h : s ∉ chain.map RankRow.spellId) :
    insertChain store first last prev chain m s = m s := by
  induction chain generalizing prev m with
  | nil => rfl
  | cons row chain ih =>
    rw [map_cons, mem_cons, not_or] at h
    rw [insertChain, ih h.2, Function.update_of_ne h.1]

theorem insertChain_at (hnodup : ((pre ++ row :: post).map RankRow.spellId).Nodup) :
    insertChain store first last prev (pre ++ row :: post) m row.spellId =
      some ⟨getSpellInfo store ((pre.getLast?.map RankRow.spellId).getD prev),
        post.head?.bind (RankRow.spellInfo store), first, last, row.rank⟩ := by
  induction pre generalizing prev m with
  | nil =>
    have hrow : row.spellId ∉ post.map RankRow.spellId := (nodup_cons.mp hnodup).1
    rw [nil_append, insertChain, insertChain_of_not_mem hrow, Function.update_self]
    rfl
  | cons p pre ih =>
    rw [cons_append, insertChain, ih (nodup_cons.mp hnodup).2, getLast?_cons]
    cases pre.getLast? <;> rfl

theorem checkRanks_get (h : checkRanks store curRank chain = true) (hrow : chain[i]? = some row) :
    store row.spellId = true ∧ row.rank = curRank + i + 1 := by
  induction chain generalizing curRank i with
  | nil => simp at hrow
  | cons head chain ih =>
    simp only [checkRanks, Bool.and_eq_true, decide_eq_true_eq] at h
    cases i with
    | zero =>
      cases hrow
      exact h.1
    | succ i =>
      obtain ⟨hstore, hrank⟩ := ih h.2 hrow
      exact ⟨hstore, by omega⟩

def nodeAt (store : ℕ → Bool) (first : ℕ) (chain : List RankRow) (i : ℕ) :
    Option SpellChainNode :=
  chain[i]?.map fun _ =>
    { prev := if i = 0 then getSpellInfo store 0 else chain[i - 1]?.map RankRow.spellId
      next := chain[i + 1]?.map RankRow.spellId
      first := some first
      last := chain.getLast?.map RankRow.spellId
      rank := i + 1 }

theorem insertChain_get (haccept : acceptChain store f chain = true)
    (hnodup : (chain.map RankRow.spellId).Nodup) (hrow : chain[i]? = some row) :
    insertChain store (getSpellInfo store f) (chain.getLast?.bind (RankRow.spellInfo store)) 0
      chain m row.spellId = nodeAt store f chain i := by
  simp only [acceptChain, Bool.and_eq_true] at haccept
  obtain ⟨⟨hf, -⟩, hcheck⟩ := haccept
  have hinfo : ∀ j : ℕ, chain[j]?.bind (RankRow.spellInfo store) =
      chain[j]?.map RankRow.spellId := by
    intro j
    cases hj : chain[j]? with
    | none => rfl
    | some r => simp [RankRow.spellInfo, getSpellInfo, (checkRanks_get hcheck hj).1]
  obtain ⟨hi, rfl⟩ := List.getElem?_eq_some_iff.mp hrow
  have hsplit : chain.take i ++ chain[i] :: chain.drop (i + 1) = chain := by
    rw [← drop_eq_getElem_cons, take_append_drop]
  have hnode : insertChain store (getSpellInfo store f)
      (chain.getLast?.bind (RankRow.spellInfo store)) 0 _ m _ = _ :=
    insertChain_at (hsplit.symm ▸ hnodup)
  rw [hsplit] at hnode
  have hprev : getSpellInfo store (((chain.take i).getLast?.map RankRow.spellId).getD 0) =
      if i = 0 then getSpellInfo store 0 else chain[i - 1]?.map RankRow.spellId := by
    cases i with
    | zero => rfl
    | succ i =>
      have hget : chain[i]? = some chain[i] := getElem?_eq_getElem (by omega)
      rw [getLast?_take, if_neg (by omega), if_neg (by omega), Nat.add_sub_cancel, ← hinfo, hget]
      rfl
  have hlast : chain.getLast?.bind (RankRow.spellInfo store) =
      chain.getLast?.map RankRow.spellId := by
    rw [getLast?_eq_getElem?]
    exact hinfo _
  rw [hnode, nodeAt, hrow, head?_drop, hinfo, hlast, hprev, (checkRanks_get hcheck hrow).2]
  simp [getSpellInfo, hf]

/-! ### The table -/

/-- The order of the query, with pairwise distinct keys. -/
def Before (a b : RankRow) : Prop :=
  a.firstSpellId < b.firstSpellId ∨ a.firstSpellId = b.firstSpellId ∧ a.rank < b.rank

instance (a b : RankRow) : Decidable (Before a b) := inferInstanceAs (Decidable (_ ∨ _))

/-- The rows of one `first_spell_id`. -/
def chainOf (rows : List RankRow) (f : ℕ) : List RankRow := rows.filter (·.firstSpellId = f)

def Accepted (store : ℕ → Bool) (rows : List RankRow) (f : ℕ) : Prop :=
  acceptChain store f (chainOf rows f) = true

instance (f : ℕ) : Decidable (Accepted store rows f) := inferInstanceAs (Decidable (_ = true))

/-- What the loader makes of a table: the nodes of the chains it accepts. -/
structure Loaded (store : ℕ → Bool) (rows : List RankRow) (m m' : SpellChainMap) : Prop where
  untouched : ∀ s, (∀ row ∈ rows, row.spellId = s → ¬ Accepted store rows row.firstSpellId) →
    m' s = m s
  node : ∀ f i row, Accepted store rows f → (chainOf rows f)[i]? = some row →
    m' row.spellId = nodeAt store f (chainOf rows f) i

theorem span_eq_filter {p : RankRow → Bool} (h : rows.Pairwise fun a b => p b = true → p a = true) :
    rows.takeWhile p = rows.filter p ∧ rows.dropWhile p = rows.filter (!p ·) := by
  induction rows with
  | nil => exact ⟨rfl, rfl⟩
  | cons a rows ih =>
    obtain ⟨ha, h⟩ := pairwise_cons.mp h
    by_cases hp : p a = true
    · simp [hp, ih h]
    have hnone : ∀ b ∈ rows, p b = false := fun b hb =>
      Bool.eq_false_iff.mpr fun hpb => hp (ha b hb hpb)
    rw [takeWhile_cons_of_neg hp, dropWhile_cons_of_neg hp, filter_cons_of_neg hp,
      filter_cons_of_pos (by simpa using hp)]
    refine ⟨(filter_eq_nil_iff.mpr fun b hb => by simp [hnone b hb]).symm, ?_⟩
    rw [filter_eq_self.mpr fun b hb => by simp [hnone b hb]]

/-- One chain is put in front of those that are loaded. -/
theorem Loaded.step {m' : SpellChainMap} (hnodup : (rows.map RankRow.spellId).Nodup)
    (h : Loaded store (rows.filter fun row => !decide (row.firstSpellId = f))
      (if acceptChain store f (chainOf rows f) then insertChain store (getSpellInfo store f)
          ((chainOf rows f).getLast?.bind (RankRow.spellInfo store)) 0 (chainOf rows f) m
      else m) m') : Loaded store rows m m' := by
  have hrest : ∀ f', f' ≠ f →
      chainOf (rows.filter fun row => !decide (row.firstSpellId = f)) f' = chainOf rows f' := by
    intro f' hne
    unfold chainOf
    rw [List.filter_filter]
    refine filter_congr fun row _ => ?_
    grind
  have hself : ¬ Accepted store (rows.filter fun row => !decide (row.firstSpellId = f)) f := by
    have : chainOf (rows.filter fun row => !decide (row.firstSpellId = f)) f = [] := by
      unfold chainOf
      rw [List.filter_filter, filter_eq_nil_iff]
      grind
    simp [Accepted, acceptChain, this]
  have hmem : ∀ row ∈ chainOf rows f, row ∈ rows ∧ row.firstSpellId = f := fun row hrow => by
    simpa [chainOf] using hrow
  constructor
  · intro s hs
    rw [h.untouched s]
    · split_ifs with haccept
      · refine insertChain_of_not_mem fun hspell => ?_
        obtain ⟨row, hrow, rfl⟩ := mem_map.mp hspell
        obtain ⟨hin, rfl⟩ := hmem row hrow
        exact hs row hin rfl haccept
      · rfl
    intro row hrow hspell
    obtain ⟨hin, hne⟩ := mem_filter.mp hrow
    rw [Accepted, hrest _ (by simpa using hne)]
    exact hs row hin hspell
  intro f' i row haccept hrow
  by_cases hf : f' = f
  · subst hf
    obtain ⟨hin, hfirst⟩ := hmem row (mem_of_getElem? hrow)
    rw [h.untouched row.spellId, if_pos (show acceptChain store f' _ = true from haccept)]
    · exact insertChain_get haccept (hnodup.sublist (filter_sublist.map _)) hrow
    intro row' hrow' hspell
    obtain ⟨hin', hne⟩ := mem_filter.mp hrow'
    obtain rfl := inj_on_of_nodup_map hnodup hin' hin hspell
    simp [hfirst] at hne
  have haccept' := haccept
  rw [Accepted, ← hrest f' hf] at haccept'
  rw [← hrest f' hf] at hrow
  rw [h.node f' i row haccept' hrow, hrest f' hf]

theorem loadChains_loaded (hsorted : rows.Pairwise Before)
    (hnodup : (rows.map RankRow.spellId).Nodup) (hfuel : rows.length ≤ fuel) :
    Loaded store rows m (loadChains store fuel rows m) := by
  induction fuel generalizing rows m with
  | zero =>
    obtain rfl := length_eq_zero_iff.mp (Nat.le_zero.mp hfuel)
    exact ⟨fun _ _ => rfl, fun f i row _ hrow => by simp [chainOf] at hrow⟩
  | succ fuel ih =>
    cases rows with
    | nil => exact ⟨fun _ _ => rfl, fun f i row _ hrow => by simp [chainOf] at hrow⟩
    | cons a l =>
      -- the rows of the first id come first, since the ids only grow
      have hprefix : (a :: l).Pairwise fun b c =>
          decide (c.firstSpellId = a.firstSpellId) = true →
            decide (b.firstSpellId = a.firstSpellId) = true := by
        have hle : ∀ b ∈ a :: l, a.firstSpellId ≤ b.firstSpellId := by
          have ha := (pairwise_cons.mp hsorted).1
          grind [Before]
        refine hsorted.imp_of_mem fun hb _ hbefore => ?_
        have := hle _ hb
        grind [Before]
      obtain ⟨htake, hdrop⟩ := span_eq_filter hprefix
      rw [loadChains, htake, hdrop]
      refine Loaded.step hnodup (ih (hsorted.sublist filter_sublist)
        (hnodup.sublist (filter_sublist.map _)) ?_)
      have := length_filter_le (fun row => !decide (row.firstSpellId = a.firstSpellId)) l
      simp only [length_cons] at hfuel
      simp
      omega

/-! ### The places of the chains -/

/-- The row at a place of a chain that is accepted. -/
structure At (store : ℕ → Bool) (rows : List RankRow) (f i : ℕ) (row : RankRow) : Prop where
  accepted : Accepted store rows f
  get : (chainOf rows f)[i]? = some row

/-- What a query gives: the rows in order, and no spell twice. -/
structure Table (rows : List RankRow) : Prop where
  sorted : rows.Pairwise Before
  nodup : (rows.map RankRow.spellId).Nodup

variable {f' i' : ℕ} {row' : RankRow} {n : SpellChainNode}

theorem At.mem (h : At store rows f i row) : row ∈ rows ∧ row.firstSpellId = f := by
  have := mem_of_getElem? h.get
  simpa [chainOf] using this

theorem At.rank (h : At store rows f i row) : row.rank = i + 1 := by
  have haccept := h.accepted
  simp only [Accepted, acceptChain, Bool.and_eq_true] at haccept
  have := (checkRanks_get haccept.2 h.get).2
  omega

theorem At.node (ht : Table rows) (h : At store rows f i row) :
    loadSpellRanks store rows row.spellId = nodeAt store f (chainOf rows f) i :=
  (loadChains_loaded ht.sorted ht.nodup (Nat.le_refl _)).node f i row h.accepted h.get

theorem At.inj (ht : Table rows) (h : At store rows f i row) (h' : At store rows f' i' row')
    (hspell : row.spellId = row'.spellId) : f = f' ∧ i = i' := by
  obtain rfl := inj_on_of_nodup_map ht.nodup h.mem.1 h'.mem.1 hspell
  have := h.rank
  have := h'.rank
  exact ⟨h.mem.2.symm.trans h'.mem.2, by omega⟩

theorem exists_at (hrow : row ∈ rows) (haccept : Accepted store rows row.firstSpellId) :
    ∃ i, At store rows row.firstSpellId i row := by
  obtain ⟨i, hi⟩ := mem_iff_getElem?.mp (show row ∈ chainOf rows row.firstSpellId by
    simpa [chainOf] using hrow)
  exact ⟨i, haccept, hi⟩

theorem exists_at_of_node (ht : Table rows) (h : loadSpellRanks store rows s = some n) :
    ∃ f i row, At store rows f i row ∧ row.spellId = s := by
  by_contra hnone
  have hloaded : Loaded store rows (fun _ => none) _ :=
    loadChains_loaded ht.sorted ht.nodup (Nat.le_refl _)
  have := hloaded.untouched s fun row hrow hspell haccept => hnone (by
      obtain ⟨i, hi⟩ := exists_at hrow haccept
      exact ⟨_, i, row, hi, hspell⟩)
  rw [loadSpellRanks, this] at h
  cases h

/-! ### The walk -/

theorem walk_step (ht : Table rows) (h : At store rows f i row) (hzero : store 0 = false) :
    getSpellWithRank (loadSpellRanks store rows) (fuel + 1) row.spellId r strict =
      if r = i + 1 then some (.spell row.spellId)
      else match if i + 1 < r then (chainOf rows f)[i + 1]?
          else if i = 0 then none else (chainOf rows f)[i - 1]? with
        | some row => getSpellWithRank (loadSpellRanks store rows) fuel row.spellId r strict
        | none => some .nullNeighbour := by
  rw [getSpellWithRank, h.node ht, nodeAt, h.get]
  simp only [Option.map_some, getSpellInfo, hzero]
  by_cases hr : r = i + 1
  · simp [hr]
  simp only [hr, ne_eq, not_false_eq_true, if_true, if_false]
  split_ifs
  · cases (chainOf rows f)[i + 1]? <;> rfl
  · contradiction
  · rfl
  · cases (chainOf rows f)[i - 1]? <;> rfl

theorem walk_sound (ht : Table rows) (h : At store rows f i row) (hzero : store 0 = false)
    (hwalk : getSpellWithRank (loadSpellRanks store rows) fuel row.spellId r strict =
      some (.spell v)) : ∃ j row', At store rows f j row' ∧ r = j + 1 ∧ v = row'.spellId := by
  induction fuel generalizing i row with
  | zero => cases hwalk
  | succ fuel ih =>
    rw [walk_step ht h hzero] at hwalk
    split_ifs at hwalk with hr
    · cases hwalk
      exact ⟨i, row, h, hr, rfl⟩
    · split at hwalk
      · rename_i next hnext
        exact ih ⟨h.accepted, hnext⟩ hwalk
      · cases hwalk
    · cases hwalk
    split at hwalk
    · rename_i next hnext
      exact ih ⟨h.accepted, hnext⟩ hwalk
    · cases hwalk

/-- **A walk to a rank of the chain comes to its spell.** -/
theorem walk_total (ht : Table rows) (h : At store rows f i row) (hzero : store 0 = false)
    (h' : At store rows f i' row') (hfuel : (i - i') + (i' - i) < fuel) :
    getSpellWithRank (loadSpellRanks store rows) fuel row.spellId (i' + 1) strict =
      some (.spell row'.spellId) := by
  induction fuel generalizing i row with
  | zero => omega
  | succ fuel ih =>
    rw [walk_step ht h hzero]
    obtain ⟨hi', -⟩ := List.getElem?_eq_some_iff.mp h'.get
    obtain ⟨hi, -⟩ := List.getElem?_eq_some_iff.mp h.get
    split_ifs with hr hlt hstart
    · obtain rfl : i' = i := by omega
      rw [some.inj (h.get.symm.trans h'.get)]
    · have hget := getElem?_eq_getElem (show i + 1 < (chainOf rows f).length by omega)
      rw [hget]
      exact ih ⟨h.accepted, hget⟩ (by omega)
    · omega
    have hget := getElem?_eq_getElem (show i - 1 < (chainOf rows f).length by omega)
    rw [hget]
    exact ih ⟨h.accepted, hget⟩ (by omega)

/-! ### What is right -/

/-- The chains are linked as they should be. -/
structure Linked (store : ℕ → Bool) (rows : List RankRow) : Prop where
  nodes : ∀ s, (loadSpellRanks store rows s).isSome ↔
    ∃ row ∈ rows, row.spellId = s ∧ Accepted store rows row.firstSpellId
  ranks : ∀ f, Accepted store rows f →
    (chainOf rows f).map RankRow.rank = range' 1 (chainOf rows f).length
  node : ∀ row ∈ rows, Accepted store rows row.firstSpellId → ∃ node,
    loadSpellRanks store rows row.spellId = some node ∧ node.rank = row.rank ∧
      node.first = (chainOf rows row.firstSpellId).head?.map RankRow.spellId ∧
      node.last = (chainOf rows row.firstSpellId).getLast?.map RankRow.spellId
  inverse : ∀ s t, (∃ n, loadSpellRanks store rows s = some n ∧ n.next = some t) ↔
    ∃ n, loadSpellRanks store rows t = some n ∧ n.prev = some s

/-- The chains are linked, and the lookup gives the spell of the rank, if the chain has one. -/
def Right (store : ℕ → Bool) (rows : List RankRow) (s r : ℕ) (strict : Bool) : Prop :=
  Linked store rows ∧ ∃ fuel v,
    getSpellWithRank (loadSpellRanks store rows) fuel s r strict = some (.spell v) ∧
      ∀ row ∈ rows, row.spellId = s → Accepted store rows row.firstSpellId →
        ∀ row' ∈ chainOf rows row.firstSpellId, row'.rank = r → v = row'.spellId

/-- Every chain begins with the spell it is named by, there is no spell 0, and the rank is one of
the chain that the spell is in. -/
structure Fits (store : ℕ → Bool) (rows : List RankRow) (s r : ℕ) : Prop where
  first : ∀ f, Accepted store rows f → (chainOf rows f).head?.map RankRow.spellId = some f
  zero : ∀ f, Accepted store rows f → store 0 = false
  rank : ∀ row ∈ rows, row.spellId = s → Accepted store rows row.firstSpellId →
    1 ≤ r ∧ r ≤ (chainOf rows row.firstSpellId).length

theorem linked_of (ht : Table rows)
    (hfirst : ∀ f, Accepted store rows f → (chainOf rows f).head?.map RankRow.spellId = some f)
    (hzero : ∀ f, Accepted store rows f → store 0 = false) : Linked store rows := by
  constructor
  · intro s
    rw [isSome_iff_exists]
    constructor
    · rintro ⟨n, hn⟩
      obtain ⟨f, i, row, h, rfl⟩ := exists_at_of_node ht hn
      exact ⟨row, h.mem.1, rfl, h.mem.2 ▸ h.accepted⟩
    rintro ⟨row, hrow, rfl, haccept⟩
    obtain ⟨i, h⟩ := exists_at hrow haccept
    rw [h.node ht, nodeAt, h.get]
    exact ⟨_, rfl⟩
  · intro f haccept
    refine ext_getElem (by simp) fun i hi _ => ?_
    rw [length_map] at hi
    have h : At store rows f i _ := ⟨haccept, getElem?_eq_getElem hi⟩
    simp [h.rank, Nat.add_comm]
  · intro row hrow haccept
    obtain ⟨i, h⟩ := exists_at hrow haccept
    rw [h.node ht, nodeAt, h.get]
    exact ⟨_, rfl, h.rank.symm, (hfirst _ haccept).symm, rfl⟩
  intro s t
  constructor
  · rintro ⟨n, hn, hnext⟩
    obtain ⟨f, i, row, h, rfl⟩ := exists_at_of_node ht hn
    rw [h.node ht, nodeAt, h.get] at hn
    cases hn
    obtain ⟨row', hget, rfl⟩ := map_eq_some_iff.mp hnext
    have h' : At store rows f (i + 1) row' := ⟨h.accepted, hget⟩
    rw [h'.node ht, nodeAt, h'.get]
    exact ⟨_, rfl, by simp [h.get]⟩
  rintro ⟨n, hn, hprev⟩
  obtain ⟨f, i, row, h, rfl⟩ := exists_at_of_node ht hn
  rw [h.node ht, nodeAt, h.get] at hn
  cases hn
  cases i with
  | zero => simp [getSpellInfo, hzero f h.accepted] at hprev
  | succ i =>
    obtain ⟨row', hget, rfl⟩ := map_eq_some_iff.mp hprev
    have h' : At store rows f i row' := ⟨h.accepted, hget⟩
    rw [h'.node ht, nodeAt, h'.get]
    exact ⟨_, rfl, by simp [h.get]⟩

/-- **The chains are right just when they fit**: each begins with the spell it is named by, there
is no spell 0 to stand before it, and no rank is asked for that the chain does not have. -/
theorem chains_right_iff (store : ℕ → Bool) (rows : List RankRow) (ht : Table rows) (s r : ℕ)
    (strict : Bool) : Right store rows s r strict ↔ Fits store rows s r := by
  constructor
  · rintro ⟨hlinked, fuel, v, hwalk, -⟩
    have hstart : ∀ f, Accepted store rows f → ∃ row, At store rows f 0 row := by
      intro f haccept
      have hlength := haccept
      simp only [Accepted, acceptChain, Bool.and_eq_true, decide_eq_true_eq] at hlength
      exact ⟨_, haccept, getElem?_eq_getElem (by omega)⟩
    have hzero : ∀ f, Accepted store rows f → store 0 = false := by
      intro f haccept
      obtain ⟨row, h⟩ := hstart f haccept
      by_contra hstore
      have hprev : ∃ n, loadSpellRanks store rows row.spellId = some n ∧ n.prev = some 0 := by
        rw [h.node ht, nodeAt, h.get]
        exact ⟨_, rfl, by simp [getSpellInfo, hstore]⟩
      -- what comes after spell 0 has a rank above 1
      obtain ⟨n, hn, hnext⟩ := (hlinked.inverse 0 row.spellId).mpr hprev
      obtain ⟨f', i', row', h', hspell⟩ := exists_at_of_node ht hn
      rw [← hspell, h'.node ht, nodeAt, h'.get] at hn
      cases hn
      obtain ⟨after, hget, heq⟩ := map_eq_some_iff.mp hnext
      have := (At.inj ht h ⟨h'.accepted, hget⟩ heq.symm).2
      omega
    refine ⟨fun f haccept => ?_, hzero, fun row hrow hspell haccept => ?_⟩
    · obtain ⟨row, h⟩ := hstart f haccept
      obtain ⟨n, hn, -, hfirst, -⟩ := hlinked.node row h.mem.1 (h.mem.2 ▸ haccept)
      rw [h.node ht, nodeAt, h.get] at hn
      cases hn
      rw [h.mem.2] at hfirst
      exact hfirst.symm
    subst hspell
    obtain ⟨i, h⟩ := exists_at hrow haccept
    obtain ⟨j, row', h', rfl, -⟩ := walk_sound ht h (hzero _ haccept) hwalk
    obtain ⟨hj, -⟩ := List.getElem?_eq_some_iff.mp h'.get
    exact ⟨by omega, hj⟩
  rintro ⟨hfirst, hzero, hrank⟩
  refine ⟨linked_of ht hfirst hzero, ?_⟩
  by_cases hs : ∃ row ∈ rows, row.spellId = s ∧ Accepted store rows row.firstSpellId
  · obtain ⟨row, hrow, rfl, haccept⟩ := hs
    obtain ⟨i, h⟩ := exists_at hrow haccept
    obtain ⟨hpos, hle⟩ := hrank row hrow rfl haccept
    have hget := getElem?_eq_getElem (show r - 1 < (chainOf rows row.firstSpellId).length by omega)
    have h' : At store rows row.firstSpellId (r - 1) _ := ⟨haccept, hget⟩
    have hwalk : getSpellWithRank _ _ _ _ strict = _ :=
      walk_total ht h (hzero _ haccept) h' (Nat.lt_succ_self _)
    rw [Nat.sub_add_cancel hpos] at hwalk
    refine ⟨_, _, hwalk, fun row1 hrow1 hspell _ row2 hrow2 hrank2 => ?_⟩
    obtain rfl := inj_on_of_nodup_map ht.nodup hrow1 hrow hspell
    obtain ⟨j, hj⟩ := mem_iff_getElem?.mp hrow2
    have := At.rank ⟨haccept, hj⟩
    obtain rfl : j = r - 1 := by omega
    rw [some.inj (hget.symm.trans hj)]
  have hnone : loadSpellRanks store rows s = none := by
    rw [← Option.not_isSome_iff_eq_none, (linked_of ht hfirst hzero).nodes]
    exact hs
  refine ⟨1, if strict && 1 < r then 0 else s, ?_, fun row hrow hspell haccept =>
    absurd ⟨row, hrow, hspell, haccept⟩ hs⟩
  rw [getSpellWithRank, hnone]
  split_ifs <;> rfl

/-- A spell of two ranks. -/
def pair : List RankRow := [⟨1, 1, 1⟩, ⟨1, 2, 2⟩]

theorem pair_right : Table pair ∧ (Right (· ≠ 0) pair 1 2 true ↔ Fits (· ≠ 0) pair 1 2) :=
  ⟨⟨by decide, by decide⟩, chains_right_iff _ _ ⟨by decide, by decide⟩ 1 2 true⟩

/-- **The third rank of a spell that has two** is looked up over the end of the chain. -/
theorem pair_over_end : Table pair ∧ ¬ Right (· ≠ 0) pair 1 3 true := by
  have ht : Table pair := ⟨by decide, by decide⟩
  refine ⟨ht, fun ⟨_, fuel, v, hwalk, _⟩ => ?_⟩
  have h : At (· ≠ 0) pair 1 0 ⟨1, 1, 1⟩ := ⟨by decide, by decide⟩
  obtain ⟨j, row, h', hj, -⟩ := walk_sound ht h (by decide) hwalk
  obtain rfl : j = 2 := by omega
  cases h'.get

end ZerosCore.Spells
