/-
The cells of a payload are those of the page, in two places: the ones
without a group together, the others under the key of theirs.

There is one group for each key, the groups come in the order in which
their keys first do, and each holds its cells in the order of the page
(`groupCells_eq`). This is the equation that everything else is read
off. It is shown cell by cell, from the end of the list: a cell goes to
the end of the group of its key, and a new key to the end of the groups
(`addToGroup_map`). The keys in the order in which they first come are
the keys without later occurrences, which `List.eraseDups` gives.

For counting, the equation is more than enough; there the cells of both
places are a permutation of those of the page (`perm_groupCells`). And
since cells are numbered in the order of the page, a list with these
cells in the order of their numbers can only be the page's (`cells_eq`):
a payload tells the cells of its page, although it has them in two
places.
-/
import Mathlib.Data.List.Induction
import Prerender.Payload.Basic

namespace Prerender.Payload

variable {key : GroupKey} {cell : Cell} {groups : List (GroupKey × List Cell)}
  {cells : List Cell}

/-- Whether the cells under each key are of its group. -/
def Grouped (groups : List (GroupKey × List Cell)) : Prop :=
  ∀ group ∈ groups, ∀ cell ∈ group.2, cell.group = some group.1

-- ============================================================= one cell

/-- A cell that is added to a group is one cell more. -/
theorem perm_addToGroup (key : GroupKey) (cell : Cell)
    (groups : List (GroupKey × List Cell)) :
    ((addToGroup key cell groups).flatMap Prod.snd).Perm
      (cell :: groups.flatMap Prod.snd) := by
  induction groups with
  | nil => exact List.Perm.refl _
  | cons group rest ih =>
      obtain ⟨k, held⟩ := group
      rw [addToGroup]
      split
      · rw [List.flatMap_cons, List.flatMap_cons, List.append_assoc]
        exact List.perm_middle
      · rw [List.flatMap_cons, List.flatMap_cons]
        exact (List.Perm.append_left held ih).trans List.perm_middle

/-- It is of the group that it is added to. -/
theorem Grouped.addToGroup (h : Grouped groups)
    (hcell : cell.group = some key) :
    Grouped (addToGroup key cell groups) := by
  induction groups with
  | nil =>
      intro group hgroup c hc
      cases List.mem_singleton.1 hgroup
      cases List.mem_singleton.1 hc
      exact hcell
  | cons group rest ih =>
      obtain ⟨k, held⟩ := group
      obtain ⟨hheld, hrest⟩ := List.forall_mem_cons.1 h
      rw [Payload.addToGroup]
      split
      · next heq =>
        refine List.forall_mem_cons.2 ⟨fun c hc => ?_, hrest⟩
        rcases List.mem_append.1 hc with hc | hc
        · exact hheld c hc
        · cases List.mem_singleton.1 hc
          rw [hcell, heq]
      · exact List.forall_mem_cons.2 ⟨hheld, ih hrest⟩

-- ============================================================ all cells

/-- A step of the grouping: the groups after a further cell. -/
def addCell (groups : List (GroupKey × List Cell)) (cell : Cell) :
    List (GroupKey × List Cell) :=
  match cell.group with
  | none => groups
  | some key => Payload.addToGroup key cell groups

/-- The cells under a key are of its group. -/
theorem grouped_groupCells (cells : List Cell) :
    Grouped (groupCells cells) := by
  unfold groupCells
  suffices ∀ groups, Grouped groups → Grouped (cells.foldl addCell groups)
    from this [] nofun
  induction cells with
  | nil => exact fun _ h => h
  | cons cell rest ih =>
      intro groups h
      refine ih _ ?_
      unfold addCell
      cases hgroup : cell.group with
      | none => exact h
      | some key => exact h.addToGroup hgroup

/-- All cells with a group are under some key. -/
theorem perm_groupCells (cells : List Cell) :
    ((groupCells cells).flatMap Prod.snd).Perm
      (cells.filter fun cell => !cell.group.isNone) := by
  unfold groupCells
  suffices ∀ groups, ((cells.foldl addCell groups).flatMap Prod.snd).Perm
      (groups.flatMap Prod.snd ++ cells.filter fun cell => !cell.group.isNone)
        from this []
  induction cells with
  | nil =>
      intro groups
      rw [List.filter_nil, List.append_nil]
      exact List.Perm.refl _
  | cons cell rest ih =>
      intro groups
      refine (ih (addCell groups cell)).trans ?_
      unfold addCell
      cases hgroup : cell.group with
      | none => rw [List.filter_cons_of_neg (by rw [hgroup]; decide)]
      | some key =>
          rw [List.filter_cons_of_pos (by rw [hgroup]; rfl)]
          exact ((perm_addToGroup key cell groups).append_right _).trans
            List.perm_middle.symm

-- =========================================================== key by key

/-- Erasing later occurrences goes on with an item if it is a new one. -/
theorem eraseDups_concat {α : Type} [DecidableEq α] (items : List α) (a : α) :
    (items ++ [a]).eraseDups = if a ∈ items then items.eraseDups
      else items.eraseDups ++ [a] := by
  rw [List.eraseDups_append, List.removeAll]
  by_cases h : a ∈ items
  · rw [if_pos h, List.filter_cons_of_neg (by simp [h]), List.filter_nil,
      List.eraseDups_nil, List.append_nil]
  · rw [if_neg h, List.filter_cons_of_pos (by simp [h]), List.filter_nil]
    rfl

/-- Without later occurrences each item stands once. -/
theorem nodup_eraseDups {α : Type} [DecidableEq α] (items : List α) :
    items.eraseDups.Nodup := by
  induction items using List.reverseRecOn with
  | nil => exact List.nodup_nil
  | append_singleton items a ih =>
      rw [eraseDups_concat]
      split
      · exact ih
      · next hnew =>
        refine List.nodup_append.2
          ⟨ih, List.nodup_cons.2 ⟨List.not_mem_nil, List.nodup_nil⟩, ?_⟩
        rintro b hb c hc rfl
        cases List.mem_singleton.1 hc
        exact hnew (List.mem_eraseDups.1 hb)

/-- A cell goes to the end of the group of its key, and a new key to the end
of the groups. -/
theorem addToGroup_map {keys : List GroupKey} (distinct : keys.Nodup)
    {held : GroupKey → List Cell} (none : key ∉ keys → held key = []) :
    addToGroup key cell (keys.map fun k => (k, held k))
      = (if key ∈ keys then keys else keys ++ [key]).map fun k =>
          (k, held k ++ if k = key then [cell] else []) := by
  induction keys with
  | nil =>
      rw [if_neg List.not_mem_nil, List.nil_append,
        List.map_singleton, if_pos rfl, none List.not_mem_nil]
      rfl
  | cons k rest ih =>
      obtain ⟨hk, hrest⟩ := List.nodup_cons.1 distinct
      rw [List.map_cons, addToGroup]
      by_cases hkey : k = key
      · subst hkey
        rw [if_pos rfl, if_pos (.head _), List.map_cons, if_pos rfl]
        refine congrArg _ (List.map_congr_left fun l hl => ?_)
        have hne : l ≠ k := fun h => hk (h ▸ hl)
        rw [if_neg hne, List.append_nil]
      · have hmem : key ∈ k :: rest ↔ key ∈ rest := by
          rw [List.mem_cons]
          exact or_iff_right (Ne.symm hkey)
        have hcons : (if key ∈ k :: rest then k :: rest else k :: rest ++ [key])
            = k :: if key ∈ rest then rest else rest ++ [key] := by
          by_cases h : key ∈ rest
          · rw [if_pos (hmem.2 h), if_pos h]
          · rw [if_neg fun h' => h (hmem.1 h'), if_neg h, List.cons_append]
        rw [if_neg hkey, ih hrest fun h => none fun h' => h (hmem.1 h'), hcons,
          List.map_cons, if_neg hkey, List.append_nil]

/-- There is one group for each key of the cells, in the order in which the
keys first come, and it holds the cells of its key in their order. -/
theorem groupCells_eq (cells : List Cell) :
    groupCells cells = (cells.filterMap Cell.group).eraseDups.map fun key =>
      (key, cells.filter fun cell => cell.group = some key) := by
  induction cells using List.reverseRecOn with
  | nil => rfl
  | append_singleton cells cell ih =>
      have hstep :
          groupCells (cells ++ [cell]) = addCell (groupCells cells) cell := by
        rw [groupCells, List.foldl_append]
        rfl
      rw [hstep, ih, addCell, List.filterMap_append]
      cases hgroup : cell.group with
      | none => simp [hgroup]
      | some key =>
          have hheld : key ∉ (cells.filterMap Cell.group).eraseDups →
              (cells.filter fun cell => cell.group = some key) = [] := by
            intro hnew
            refine List.filter_eq_nil_iff.2 fun c hc hkey =>
              hnew (List.mem_eraseDups.2 ?_)
            exact List.mem_filterMap.2 ⟨c, hc, of_decide_eq_true hkey⟩
          simp only
          rw [addToGroup_map (nodup_eraseDups _) hheld,
            List.filterMap_cons_some hgroup, List.filterMap_nil,
            eraseDups_concat]
          simp only [List.mem_eraseDups]
          refine List.map_congr_left fun k _ => ?_
          rw [List.filter_append]
          by_cases hk : k = key
          · simp [hgroup, hk]
          · simp [hgroup, hk, Ne.symm hk]

/-- A group holds the cells of its key, and all of them. -/
theorem mem_groupCells {held : List Cell} (h : (key, held) ∈ groupCells cells) :
    held = cells.filter fun cell => cell.group = some key := by
  rw [groupCells_eq] at h
  obtain ⟨k, -, heq⟩ := List.mem_map.1 h
  cases heq
  rfl

/-- A cell of a group is among the cells of the group. -/
theorem exists_mem_groupCells (hcell : cell ∈ cells)
    (hgroup : cell.group = some key) :
    ∃ held, (key, held) ∈ groupCells cells ∧ cell ∈ held := by
  refine ⟨cells.filter fun cell => cell.group = some key, ?_,
    List.mem_filter.2 ⟨hcell, decide_eq_true hgroup⟩⟩
  rw [groupCells_eq]
  exact List.mem_map_of_mem
    (List.mem_eraseDups.2 (List.mem_filterMap.2 ⟨cell, hcell, hgroup⟩))

-- ===================================================== both places together

/-- The cells of a page come in the order of their numbers. -/
def Numbered (cells : List Cell) : Prop :=
  cells.Pairwise fun a b => a.id.number < b.id.number

/-- Cells without a group and cells by group determine the cells of the page. -/
theorem cells_eq {cells cells' : List Cell} (h : Numbered cells)
    (h' : Numbered cells')
    (plain : (cells.filter fun cell => cell.group.isNone)
      = cells'.filter fun cell => cell.group.isNone)
    (grouped : groupCells cells = groupCells cells') : cells = cells' := by
  have hheld : (cells.filter fun cell => !cell.group.isNone).Perm
      (cells'.filter fun cell => !cell.group.isNone) :=
    (perm_groupCells cells).symm.trans (grouped ▸ perm_groupCells cells')
  have hperm : cells.Perm cells' := by
    refine (List.filter_append_perm
      (fun cell => cell.group.isNone) cells).symm.trans ?_
    refine List.Perm.trans ?_
      (List.filter_append_perm (fun cell => cell.group.isNone) cells')
    rw [plain]
    exact hheld.append_left _
  refine List.Perm.eq_of_pairwise (fun a b _ _ hab hba => ?_) h h' hperm
  exact absurd hab (UInt32.lt_asymm hba)

end Prerender.Payload
