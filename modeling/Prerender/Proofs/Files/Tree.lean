/-
Trees as a disk holds them.

The names in a directory of a disk are different, and each names a file.
The model's trees may be otherwise, so this is a property
(`Item.IsProper`); it is kept in every part of a tree
(`Item.IsProper.of_at?`). In such a tree a name tells which of the items
is meant, so that a place holds what one of the items holds behind its
name (`Item.at?_directory_iff`).

A traversal does not go by places. It reads a directory under a path,
and makes the paths of what is inside by putting names behind it. Such a
path has the names as its last parts (`Path.parts_under`), and following
them leads to the place that they make behind that of the directory
(`FileSystem.follow_names`). So what is read under the path is what the
names lead to in the directory (`FileSystem.at?_of_directory_under`),
and the other way round it can be read if the path and the names in it
are not too long (`FileSystem.directory_under`). With this a traversal
of a disk is one of a tree.
-/
import Prerender.Proofs.Files.Frame

namespace Prerender

/-- Where keys are different, a value is looked up exactly if it is there
under its key. -/
theorem lookup_eq_some_iff {κ α : Type} [DecidableEq κ] {entries : List (κ × α)}
    (distinct : (entries.map Prod.fst).Nodup) {key : κ} {value : α} :
    entries.lookup key = some value ↔ (key, value) ∈ entries := by
  induction entries with
  | nil => exact ⟨nofun, nofun⟩
  | cons head rest ih =>
      obtain ⟨k, first⟩ := head
      obtain ⟨hk, hrest⟩ := List.nodup_cons.1 distinct
      rw [lookup_cons_ite, List.mem_cons, Prod.mk.injEq]
      by_cases heq : key = k
      · subst heq
        rw [if_pos rfl, Option.some_inj]
        refine ⟨fun h => Or.inl ⟨rfl, h.symm⟩, ?_⟩
        rintro (⟨-, h⟩ | h)
        · exact h.symm
        · exact absurd (List.mem_map_of_mem h) hk
      · rw [if_neg heq, ih hrest]
        exact ⟨Or.inr, fun h => h.resolve_left fun h => heq h.1⟩

namespace Files

/-- The path that names lead to from a path. -/
def Path.under (path : OsText) (place : Place) : OsText := place.foldl join path

/-- Names behind a path are its last parts. -/
theorem Path.parts_under {place : Place}
    (named : ∀ name ∈ place, IsFileName name) (path : OsText) :
    parts (under path place) = parts path ++ place := by
  induction place generalizing path with
  | nil => exact (List.append_nil _).symm
  | cons name rest ih =>
      obtain ⟨hname, hrest⟩ := List.forall_mem_cons.1 named
      show parts (under (join path name) rest) = _
      rw [ih hrest, parts_join hname, List.append_assoc, List.singleton_append]

theorem Path.isAbsolute_under {place : Place}
    (named : ∀ name ∈ place, IsFileName name) (path : OsText) :
    isAbsolute (under path place) = isAbsolute path := by
  induction place generalizing path with
  | nil => rfl
  | cons name rest ih =>
      obtain ⟨hname, hrest⟩ := List.forall_mem_cons.1 named
      exact (ih hrest _).trans (isAbsolute_join hname path)

/-- Names bring no byte into a path that neither it nor they have, except for
the slashes in between. -/
theorem Path.not_mem_under {byte : UInt8} (apart : byte ≠ separator)
    {place : Place} {path : OsText}
    (h : byte ∉ path.bytes) (names : ∀ name ∈ place, byte ∉ name.bytes) :
    byte ∉ (under path place).bytes := by
  induction place generalizing path with
  | nil => exact h
  | cons name rest ih =>
      obtain ⟨hname, hrest⟩ := List.forall_mem_cons.1 names
      refine ih ?_ hrest
      have hslash : byte ∉ (OsText.ofText "/").bytes := fun hmem =>
        apart (List.mem_singleton.1 hmem)
      unfold join
      split
      · exact hname
      · split <;> simp only [OsText.bytes_append, List.mem_append, not_or]
        · exact ⟨h, hname⟩
        · exact ⟨⟨h, hslash⟩, hname⟩

namespace Item

/-- Whether the names in each directory of a tree name files and are
different. -/
inductive IsProper : Item → Prop
  | file (text : String) : IsProper (.file text)
  | directory {items : List (OsText × Item)}
      (distinct : (items.map Prod.fst).Nodup)
      (named : ∀ entry ∈ items, Path.IsFileName entry.1)
      (proper : ∀ entry ∈ items, IsProper entry.2) :
      IsProper (.directory items)

/-- What is in a directory: itself, and what is in its items behind their
names. -/
theorem at?_directory_iff {items : List (OsText × Item)}
    (distinct : (items.map Prod.fst).Nodup)
    {place : Place} {found : Item} :
    at? place (.directory items) = some found
      ↔ place = [] ∧ found = .directory items
        ∨ ∃ entry ∈ items, ∃ rest, place = entry.1 :: rest
          ∧ at? rest entry.2 = some found := by
  cases place with
  | nil =>
      rw [at?, Option.some_inj]
      refine ⟨fun h => Or.inl ⟨rfl, h.symm⟩, ?_⟩
      rintro (⟨-, h⟩ | ⟨entry, -, rest, h, -⟩)
      · exact h.symm
      · cases h
  | cons name rest =>
      rw [at?, Option.bind_eq_some_iff]
      constructor
      · rintro ⟨item, hitem, hat⟩
        exact Or.inr ⟨(name, item), (lookup_eq_some_iff distinct).1 hitem,
          rest, rfl, hat⟩
      · rintro (⟨h, -⟩ | ⟨⟨_, item⟩, hmem, _, h, hat⟩)
        · cases h
        · cases h
          exact ⟨item, (lookup_eq_some_iff distinct).2 hmem, hat⟩

/-- Only names lead to anything. -/
theorem IsProper.named_of_at? {item found : Item} (h : item.IsProper)
    {place : Place}
    (hat : at? place item = some found) :
    ∀ name ∈ place, Path.IsFileName name := by
  induction h generalizing place with
  | file text =>
      cases place with
      | nil => exact List.forall_mem_nil _
      | cons name rest => cases hat
  | directory distinct named _ ih =>
      rcases (at?_directory_iff distinct).1 hat with
        ⟨rfl, -⟩ | ⟨entry, hmem, rest, rfl, hrest⟩
      · exact List.forall_mem_nil _
      · exact List.forall_mem_cons.2 ⟨named entry hmem, ih entry hmem hrest⟩

/-- The names in a directory are different. -/
theorem IsProper.distinct {items : List (OsText × Item)}
    (h : (Item.directory items).IsProper) : (items.map Prod.fst).Nodup := by
  cases h with
  | directory distinct => exact distinct

/-- A part of a tree is a tree of the same kind. -/
theorem IsProper.of_at? {item found : Item} (h : item.IsProper) {place : Place}
    (hat : at? place item = some found) : found.IsProper := by
  induction h generalizing place with
  | file text =>
      cases place with
      | nil =>
          cases hat
          exact .file text
      | cons name rest => cases hat
  | directory distinct named proper ih =>
      rcases (at?_directory_iff distinct).1 hat with
        ⟨-, rfl⟩ | ⟨entry, hmem, rest, -, hrest⟩
      · exact .directory distinct named proper
      · exact ih entry hmem hrest

end Item
end Files

open Files

namespace FileSystem

variable {fs : FileSystem} {items read : List (OsText × Item)}

/-- A directory is read under a path that leads to it. -/
theorem directory_eq_ok_iff {path : OsText} :
    fs.directory path = .ok items
      ↔ ∃ place, fs.Leads path place
        ∧ fs.root.at? place = some (.directory items) := by
  constructor
  · intro h
    obtain ⟨item, hitem, h⟩ := bind_eq_ok.1 h
    obtain ⟨_, hcheck, hitem⟩ := bind_eq_ok.1 hitem
    obtain ⟨place, hfollow, hitem⟩ := bind_eq_ok.1 hitem
    refine ⟨place, ⟨hcheck, hfollow⟩, ?_⟩
    cases hat : fs.root.at? place with
    | none =>
        rw [hat] at hitem
        cases hitem
    | some there =>
        rw [hat] at hitem
        cases hitem
        cases item with
        | file text => cases h
        | directory items =>
            cases h
            rfl
  · rintro ⟨place, leads, hat⟩
    refine bind_eq_ok.2 ⟨.directory items, ?_, rfl⟩
    refine bind_eq_ok.2 ⟨(), leads.1, bind_eq_ok.2 ⟨place, leads.2, ?_⟩⟩
    rw [hat]

/-- Staying in place at the end of a path leads to nothing else. -/
theorem Leads.follow_parts {path : OsText} {place : Place}
    (leads : fs.Leads path place) :
    fs.follow (fs.start path) (Path.parts path) = .ok place := by
  have hfollow := leads.2
  rw [partsToItem, follow_append] at hfollow
  obtain ⟨mid, hmid, hlast⟩ := bind_eq_ok.1 hfollow
  rw [hmid]
  split at hlast
  · obtain ⟨_, -, hstay⟩ := bind_eq_ok.1 hlast
    rw [if_pos rfl] at hstay
    exact hstay
  · exact hlast

/-- Names that can be followed lead to the place behind which they are put. -/
theorem follow_names {place last names : Place}
    (named : ∀ name ∈ names, Path.IsFileName name)
    (h : fs.follow place names = .ok last) : last = place ++ names := by
  induction names generalizing place with
  | nil =>
      cases h
      exact (List.append_nil _).symm
  | cons name rest ih =>
      obtain ⟨hname, hrest⟩ := List.forall_mem_cons.1 named
      obtain ⟨_, -, h⟩ := bind_eq_ok.1 h
      rw [if_neg hname.ne_dot, if_neg hname.ne_dots] at h
      split at h
      · cases h
      · rw [ih hrest h, List.append_assoc, List.singleton_append]

/-- What is read under a path that names behind the path of a directory make
is what it holds there. -/
theorem at?_of_directory_under {root : OsText} {place : Place}
    (named : ∀ name ∈ place, Path.IsFileName name)
    (there : fs.directory root = .ok items)
    (h : fs.directory (Path.under root place) = .ok read) :
    Item.at? place (.directory items) = some (.directory read) := by
  obtain ⟨top, htop, hitems⟩ := directory_eq_ok_iff.1 there
  obtain ⟨last, hlast, hread⟩ := directory_eq_ok_iff.1 h
  have hstart : fs.start (Path.under root place) = fs.start root := by
    rw [start, start, Path.isAbsolute_under named]
  have hfollow := hlast.follow_parts
  rw [hstart, Path.parts_under named, follow_append, htop.follow_parts]
    at hfollow
  rw [follow_names named hfollow, Item.at?_append, hitems] at hread
  exact hread

/-- Names of directories are followed down from the one that holds them. -/
theorem follow_of_at? {place names : Place} {below : List (OsText × Item)}
    (named : ∀ name ∈ names, Path.IsFileName name)
    (short : ∀ name ∈ names, name.size ≤ nameLimit)
    (there : fs.root.at? place = some (.directory items))
    (hat : Item.at? names (.directory items) = some (.directory below)) :
    fs.follow place names = .ok (place ++ names) := by
  induction names generalizing place items with
  | nil => exact congrArg Except.ok (List.append_nil place).symm
  | cons name rest ih =>
      obtain ⟨hname, hrest⟩ := List.forall_mem_cons.1 named
      obtain ⟨hshort, hshorts⟩ := List.forall_mem_cons.1 short
      rw [Item.at?, Option.bind_eq_some_iff] at hat
      obtain ⟨item, hitem, hat⟩ := hat
      have hplace : fs.root.at? (place ++ [name]) = some item := by
        rw [Item.at?_append, there, Option.bind_some, Item.at?, hitem]
        rfl
      have hdirectory : fs.requireDirectory place = .ok () := by
        rw [requireDirectory, there]
      refine bind_eq_ok.2 ⟨(), hdirectory, ?_⟩
      rw [if_neg hname.ne_dot, if_neg hname.ne_dots,
        if_neg (Nat.not_lt.2 hshort)]
      cases item with
      | directory held =>
          have hfollow := ih hrest hshorts hplace hat
          rw [List.append_assoc, List.singleton_append] at hfollow
          exact hfollow
      | file text =>
          cases rest with
          | nil => cases hat
          | cons next rest => cases hat

/-- A directory below one that is read is read under the path that the names
make, if this is not too long. -/
theorem directory_under {root : OsText} {place : Place}
    {below : List (OsText × Item)}
    (named : ∀ name ∈ place, Path.IsFileName name)
    (taken : ∀ name ∈ place, 0 ∉ name.bytes ∧ name.size ≤ nameLimit)
    (there : fs.directory root = .ok items)
    (hat : Item.at? place (.directory items) = some (.directory below))
    (short : (Path.under root place).size ≤ pathLimit) :
    fs.directory (Path.under root place) = .ok below := by
  obtain ⟨top, htop, hitems⟩ := directory_eq_ok_iff.1 there
  rcases List.eq_nil_or_concat place with rfl | ⟨front, last, rfl⟩
  · cases hat
    exact there
  · -- the path can be used, leads to the place, and the place holds the
    -- directory
    rw [List.concat_eq_append] at *
    obtain ⟨hzero, -, -⟩ := Path.checkPath_eq_ok.1 htop.1
    have hlast := named last (List.mem_append_right _ (.head _))
    have hparts := Path.parts_under named root
    have hunder : Path.under root (front ++ [last])
        = Path.join (Path.under root front) last := by
      rw [Path.under, List.foldl_append]
      rfl
    refine directory_eq_ok_iff.2
      ⟨top ++ (front ++ [last]), ⟨Path.checkPath_eq_ok.2
      ⟨Path.not_mem_under (by decide) hzero fun name hname =>
        (taken name hname).1, ?_, short⟩, ?_⟩, ?_⟩
    · intro hempty
      rw [hempty, Path.parts_empty] at hparts
      exact absurd hparts.symm (by simp)
    · rw [partsToItem, hunder, if_neg (Path.getLast?_join_ne hlast _),
        List.append_nil, ← hunder, hparts, follow_append, start,
        Path.isAbsolute_under named]
      show Except.bind (fs.follow (fs.start root) _) _ = _
      rw [htop.follow_parts]
      exact follow_of_at? named
        (fun name hname => (taken name hname).2) hitems hat
    · rw [Item.at?_append, hitems]
      exact hat

end FileSystem
end Prerender
