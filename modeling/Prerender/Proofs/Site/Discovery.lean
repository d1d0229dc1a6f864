/-
What discovery finds.

The directories at and below a directory form a tree (`tree`), and a
directory that is read is replaced, among those still to read, by the
ones directly in it (`unread_perm`). That is the invariant of the loop,
and says with the order left open that it passes over each directory of
the tree once (`scan_perm`) and is stopped by nothing but a directory
that cannot be read (`scan_isOk_iff`).

Directories are met under paths, and pages are listed under texts. So
there are three ways of telling one directory from another, and two
steps between them:

- by place: the names that lead there, of which each directory has its
  own;
- by path: the path of the root with these names behind it. Its parts
  are the parts of the root and the names (`parts_of_mem_tree`), so two
  directories never have one path (`tree_pairwise`);
- by text: the names behind the root, each as far as it is a text, with
  slashes between. Names that are no texts can come to the same text.
  Apart from these, the text tells the names (`eq_of_joined`).

What is listed is therefore said in terms of places (`Lists`): there is
one entry for each directory with a page file, in the order of the
bytes, and the entries ascend strictly exactly if no two such
directories have names that read the same. That they do if all names are
texts is a consequence (`Lists.strict_of_unicode`), and that they need
not is a small example (`twins_read_alike`).

The loop here carries along what a directory holds, where a disk is
asked for it when its turn comes. `Reads` is the loop as a disk sees it,
and goes alike (`reads_scan`), since what is read under a path in the
tree is what the tree has there (`read_eq_items`). Nothing writes
meanwhile.

What can keep a directory from being read, once its names are such as a
disk takes, is the length of its path (`readable_iff_short`).
-/
import Mathlib.Data.List.Nodup
import Prerender.Proofs.Files.Tree
import Prerender.Proofs.Text.Bytes
import Prerender.Site.Registry

namespace Prerender

open Files

namespace Discovery

-- ========================================================== page files

/-- Whether what is before the last point of a name is `page`. -/
def IsPageName (name : OsText) : Prop :=
  name = "page" ∨ ∃ ending : OsText, point ∉ ending.bytes
    ∧ name = "page." ++ ending

/-- Whether a file among the items of a directory is a page file. -/
def HoldsPageFile (items : List (OsText × Item)) : Prop :=
  ∃ name text, (name, Item.file text) ∈ items ∧ IsPageName name

/-- A name without a point is its own stem. -/
theorem stem_of_no_point {name : List UInt8} (h : point ∉ name) :
    stem name = name := by
  have hdrop : name.reverse.dropWhile (· ≠ point) = [] := by
    rw [← List.append_nil name.reverse, List.dropWhile_append_of_pos]
    · rfl
    · intro c hc
      exact decide_eq_true fun heq => h (heq ▸ List.mem_reverse.1 hc)
  rw [stem, hdrop]

/-- What is behind the last point of a name is taken off with it. -/
theorem dropWhile_reverse {ending : List UInt8} (h : point ∉ ending)
    (front : List UInt8) :
    (front ++ point :: ending).reverse.dropWhile (· ≠ point)
      = point :: front.reverse := by
  rw [List.reverse_append, List.reverse_cons, List.append_assoc,
    List.dropWhile_append_of_pos]
  · rfl
  · intro c hc
    exact decide_eq_true fun heq => h (heq ▸ List.mem_reverse.1 hc)

/-- A point in front of a name does not end its stem. -/
theorem stem_of_point {ending : List UInt8} (h : point ∉ ending)
    (front : List UInt8) :
    stem (front ++ point :: ending)
      = if front = [] then point :: ending else front := by
  rw [stem, dropWhile_reverse h]
  cases hfront : front.reverse with
  | nil =>
      have hnil : front = [] := List.reverse_eq_nil_iff.1 hfront
      rw [if_pos hnil, hnil]
      rfl
  | cons c before =>
      have hne : front ≠ [] := fun hnil => by rw [hnil] at hfront; cases hfront
      rw [if_neg hne, ← List.reverse_reverse front, hfront]

/-- A name with a point has a last one. -/
theorem exists_last_point {name : List UInt8} (h : point ∈ name) :
    ∃ front ending, name = front ++ point :: ending ∧ point ∉ ending := by
  obtain ⟨ending, front, heq, hending⟩ :=
    List.eq_append_cons_of_mem (List.mem_reverse.2 h)
  refine ⟨front.reverse, ending.reverse, ?_, fun hmem =>
    hending (List.mem_reverse.1 hmem)⟩
  rw [← List.reverse_reverse name, heq, List.reverse_append, List.reverse_cons,
    List.append_assoc]
  rfl

/-- Page files are told by their names. -/
theorem isPageFile_iff {name : OsText} :
    isPageFile name = true ↔ IsPageName name := by
  unfold isPageFile IsPageName
  rw [beq_iff_eq]
  by_cases hpoint : point ∈ name.bytes
  · obtain ⟨front, ending, hname, hending⟩ := exists_last_point hpoint
    have hstem : stem name.bytes = pageStem.bytes ↔ front = pageStem.bytes := by
      rw [hname, stem_of_point hending]
      split
      · next hnil =>
        rw [hnil]
        exact ⟨fun h => absurd (List.cons.inj h).1 (by decide), nofun⟩
      · exact Iff.rfl
    rw [hstem]
    constructor
    · intro hfront
      refine Or.inr ⟨⟨ending⟩, hending, ?_⟩
      rw [← OsText.bytes_inj, hname, hfront]
      rfl
    · rintro (rfl | ⟨ending', hending', rfl⟩)
      · exact absurd hpoint (by decide)
      · have hcommon :
            front ++ point :: ending
              = pageStem.bytes ++ point :: ending'.bytes := by
          rw [← hname]
          rfl
        have hdrop := dropWhile_reverse hending front
        rw [hcommon, dropWhile_reverse hending'] at hdrop
        exact (List.reverse_inj.1 (List.cons.inj hdrop).2).symm
  · rw [stem_of_no_point hpoint, OsText.bytes_inj]
    refine ⟨Or.inl, ?_⟩
    rintro (h | ⟨ending, -, rfl⟩)
    · exact h
    · refine absurd ?_ hpoint
      rw [OsText.bytes_append]
      exact List.mem_append_left _ (by decide)

theorem Found.isPage_iff {dir : Found} :
    dir.isPage = true ↔ HoldsPageFile dir.items := by
  unfold isPage HoldsPageFile
  rw [List.any_eq_true]
  constructor
  · rintro ⟨⟨name, item⟩, hmem, h⟩
    cases item with
    | file text => exact ⟨name, text, hmem, isPageFile_iff.1 h⟩
    | directory items => cases h
  · rintro ⟨name, text, hmem, h⟩
    exact ⟨(name, .file text), hmem, isPageFile_iff.2 h⟩

-- ============================================== the tree of directories

mutual

/-- The directories at and below an item that has a path. -/
def tree (path : OsText) : Item → List Found
  | .file _ => []
  | .directory items => ⟨path, items⟩ :: treeOf path items

/-- The directories at and below the items of the directory with a path. -/
def treeOf (path : OsText) : List (OsText × Item) → List Found
  | [] => []
  | (name, item) :: rest => tree (Path.join path name) item ++ treeOf path rest

end

/-- The directories at and below a directory. -/
def Found.tree (dir : Found) : List Found :=
  Discovery.tree dir.path (.directory dir.items)

/-- Below a directory are the trees of its items. -/
theorem treeOf_eq (path : OsText) (items : List (OsText × Item)) :
    treeOf path items
      = items.flatMap fun entry =>
        tree (Path.join path entry.1) entry.2 := by
  induction items with
  | nil => rfl
  | cons head rest ih => rw [treeOf, ih, List.flatMap_cons]

/-- Below a directory are the trees of the directories directly in it. -/
theorem Found.tree_eq (dir : Found) :
    dir.tree = dir :: dir.below.flatMap Found.tree := by
  obtain ⟨path, items⟩ := dir
  show _ :: treeOf path items = _ :: (items.filterMap _).flatMap _
  congr 1
  induction items with
  | nil => rfl
  | cons head rest ih =>
      obtain ⟨name, item⟩ := head
      rw [treeOf, ih]
      cases item <;> rfl

variable {item : Item} {path : OsText} {found : Found}

/-- A directory of the tree is one that names lead to, and the names behind
the path make its path. -/
theorem mem_tree_iff (proper : item.IsProper) :
    found ∈ tree path item
      ↔ ∃ place, item.at? place = some (.directory found.items)
        ∧ found.path = Path.under path place := by
  induction proper generalizing path with
  | file text =>
      refine ⟨nofun, ?_⟩
      rintro ⟨place, hat, -⟩
      cases place <;> cases hat
  | @directory items distinct named proper ih =>
      rw [tree, List.mem_cons, treeOf_eq, List.mem_flatMap]
      constructor
      · rintro (rfl | ⟨entry, hmem, hfound⟩)
        · exact ⟨[], rfl, rfl⟩
        · obtain ⟨place, hat, hpath⟩ := (ih entry hmem).1 hfound
          exact ⟨entry.1 :: place, (Item.at?_directory_iff distinct).2
            (Or.inr ⟨entry, hmem, place, rfl, hat⟩), hpath⟩
      · rintro ⟨place, hat, hpath⟩
        rcases (Item.at?_directory_iff distinct).1 hat with
          ⟨rfl, hitems⟩ | ⟨entry, hmem, rest, rfl, hrest⟩
        · left
          obtain ⟨path', items'⟩ := found
          cases hitems
          cases hpath
          rfl
        · exact Or.inr ⟨entry, hmem, (ih entry hmem).2 ⟨rest, hrest, hpath⟩⟩

/-- The parts of the path of a directory in the tree lead to it. -/
theorem parts_of_mem_tree (proper : item.IsProper)
    (h : found ∈ tree path item) :
    ∃ place, item.at? place = some (.directory found.items)
      ∧ Path.parts found.path = Path.parts path ++ place := by
  obtain ⟨place, hat, hpath⟩ := (mem_tree_iff proper).1 h
  exact ⟨place, hat, hpath ▸ Path.parts_under (proper.named_of_at? hat) path⟩

/-- No two directories of a tree have one path. -/
theorem tree_pairwise (proper : item.IsProper) (path : OsText) :
    (tree path item).Pairwise fun a b =>
      Path.parts a.path ≠ Path.parts b.path := by
  induction proper generalizing path with
  | file text => exact List.Pairwise.nil
  | @directory items distinct named proper ih =>
      -- what is below an item of the directory has its name for the next part
      have hbelow : ∀ entry ∈ items,
          ∀ found ∈ tree (Path.join path entry.1) entry.2,
          ∃ rest, Path.parts found.path
            = Path.parts path ++ entry.1 :: rest := by
        intro entry hmem found hfound
        obtain ⟨rest, -, hparts⟩ := parts_of_mem_tree (proper entry hmem) hfound
        rw [Path.parts_join (named entry hmem), List.append_assoc] at hparts
        exact ⟨rest, hparts⟩
      rw [tree, treeOf_eq, List.pairwise_cons, List.pairwise_flatMap,
        List.forall_mem_flatMap]
      refine ⟨fun entry hmem found hfound heq => ?_,
        fun entry hmem => ih entry hmem _, ?_⟩
      · -- the directory itself has no name behind its path
        obtain ⟨rest, hparts⟩ := hbelow entry hmem found hfound
        have heq : Path.parts path = Path.parts path ++ entry.1 :: rest :=
          heq.trans hparts
        cases List.self_eq_append_right.1 heq
      · -- two items of one directory have different names
        refine (List.pairwise_map.1 distinct).imp_of_mem
          fun ha hb hne x hx y hy heq => ?_
        obtain ⟨rest, hrest⟩ := hbelow _ ha x hx
        obtain ⟨rest', hrest'⟩ := hbelow _ hb y hy
        rw [hrest, hrest'] at heq
        exact hne (List.cons.inj (List.append_cancel_left heq)).1

-- ============================================================ the loop

variable {fs : FileSystem} {root : OsText} {pending : List Found}
  {pages result : List String}

/-- What is still to come: the directories to read and all below them. -/
def unread (pending : List Found) : List Found := pending.flatMap Found.tree

/-- Reading a directory takes it away from what is still to come, and nothing
else. -/
theorem unread_perm (dir : Found) (pending : List Found) :
    (unread (dir :: pending)).Perm
      (dir :: unread (dir.below.reverse ++ pending)) := by
  unfold unread
  rw [List.flatMap_cons, dir.tree_eq, List.cons_append, List.flatMap_append]
  exact ((dir.below.reverse_perm.symm.flatMap_right _).append_right _).cons dir

/-- The paths of the pages among directories. -/
def pagesAmong (root : OsText) (dirs : List Found) : List String :=
  (dirs.filter Found.isPage).map (Found.relative root)

/-- The loop finds the pages among all that was still to come, each directory
counted once. -/
theorem scan_perm (h : scan fs root pending pages = .ok result) :
    result.Perm (pages ++ pagesAmong root (unread pending)) := by
  fun_induction scan fs root pending pages with
  | case1 pages =>
      cases h
      rw [unread, List.flatMap_nil, pagesAmong, List.filter_nil, List.map_nil,
        List.append_nil]
  | case2 dir pending pages e refused => cases h
  | case3 dir pending pages read accepted ih =>
      have hperm :
          (pagesAmong root (dir :: unread (dir.below.reverse ++ pending))).Perm
            (pagesAmong root (unread (dir :: pending))) :=
        ((unread_perm dir pending).symm.filter Found.isPage).map
          (Found.relative root)
      -- the page found now comes before those still to come
      refine (ih h).trans (List.Perm.trans ?_ (hperm.append_left pages))
      unfold pagesAmong
      by_cases hpage : dir.isPage = true
      · rw [dif_pos hpage, List.filter_cons_of_pos hpage, List.append_assoc]
        rfl
      · rw [dif_neg hpage, List.filter_cons_of_neg hpage]

/-- The loop gets through exactly if every directory that is still to come can
be read. -/
theorem scan_isOk_iff :
    (∃ result, scan fs root pending pages = .ok result)
      ↔ ∀ dir ∈ unread pending, ∃ read, fs.directory dir.path = .ok read := by
  fun_induction scan fs root pending pages with
  | case1 pages => exact ⟨fun _ => List.forall_mem_nil _, fun _ => ⟨pages, rfl⟩⟩
  | case2 dir pending pages e refused =>
      refine ⟨?_, fun h => ?_⟩
      · rintro ⟨_, h⟩
        cases h
      · obtain ⟨read, hread⟩ :=
          h dir ((unread_perm dir pending).mem_iff.2 List.mem_cons_self)
        rw [refused] at hread
        cases hread
  | case3 dir pending pages read accepted ih =>
      refine ih.trans ?_
      have hmem : ∀ other, other ∈ unread (dir :: pending)
          ↔ other ∈ dir :: unread (dir.below.reverse ++ pending) :=
        fun other => (unread_perm dir pending).mem_iff
      simp only [hmem, List.forall_mem_cons]
      exact ⟨fun h => ⟨⟨read, accepted⟩, h⟩, fun h => h.2⟩

-- ====================================================== reading anew

variable {items read : List (OsText × Item)}

/-- The loop as it goes about a disk: it knows paths only, and reads each
directory under its path when its turn comes. What it then finds there decides
whether the directory is a page and which paths come next. -/
inductive Reads (fs : FileSystem) (root : OsText) :
    List OsText → List String → Except BuildError (List String) → Prop where
  | done (pages : List String) : Reads fs root [] pages (.ok pages)
  | refused {path : OsText} {e : FileError} (h : fs.directory path = .error e)
      (pending : List OsText) (pages : List String) :
      Reads fs root (path :: pending) pages
        (.error (.undiscovered
          ("Failed to read " ++ path.lossy ++ ": " ++ e.message)))
  | read {path : OsText} {items : List (OsText × Item)} {pending : List OsText}
      {pages : List String} {result : Except BuildError (List String)}
      (h : fs.directory path = .ok items)
      (rest : Reads fs root
        ((Found.below ⟨path, items⟩).reverse.map Found.path ++ pending)
        (if Found.isPage ⟨path, items⟩ then pages
          ++ [Found.relative root ⟨path, items⟩]
          else pages) result) :
      Reads fs root (path :: pending) pages result

/-- What a directory holds decides how the loop goes on. -/
theorem Reads.unique {paths : List OsText}
    {first second : Except BuildError (List String)}
    (h : Reads fs root paths pages first)
    (h' : Reads fs root paths pages second) :
    first = second := by
  induction h with
  | done pages =>
      cases h'
      rfl
  | refused h pending pages =>
      cases h' with
      | refused again => cases h.symm.trans again; rfl
      | read again => cases h.symm.trans again
  | read h rest ih =>
      cases h' with
      | refused again => cases h.symm.trans again
      | read again rest' =>
          cases h.symm.trans again
          exact ih rest'

/-- Whatever is read under the path of a directory that was found is what it
was found with. -/
theorem read_eq_items (proper : (Item.directory items).IsProper)
    (there : fs.directory root = .ok items) {dir : Found}
    (found : dir ∈ tree root (.directory items))
    (h : fs.directory dir.path = .ok read) :
    read = dir.items := by
  obtain ⟨place, hat, hpath⟩ := (mem_tree_iff proper).1 found
  rw [hpath] at h
  have hread := FileSystem.at?_of_directory_under
    (proper.named_of_at? hat) there h
  rw [hat] at hread
  cases hread
  rfl

/-- What is below a directory of a tree is in the tree. -/
theorem mem_tree_of_below (proper : item.IsProper) {dir : Found}
    (h : dir ∈ tree path item)
    (below : found ∈ dir.below) : found ∈ tree path item := by
  obtain ⟨place, hat, hpath⟩ := (mem_tree_iff proper).1 h
  obtain ⟨⟨name, held⟩, hmem, hheld⟩ := List.mem_filterMap.1 below
  cases held with
  | file text => cases hheld
  | directory items =>
      cases hheld
      refine (mem_tree_iff proper).2 ⟨place ++ [name], ?_, ?_⟩
      · rw [Item.at?_append, hat]
        refine (Item.at?_directory_iff (proper.of_at? hat).distinct).2
          (Or.inr ?_)
        exact ⟨(name, .directory items), hmem, [], rfl, rfl⟩
      · rw [hpath, Path.under, Path.under, List.foldl_append]
        rfl

/-- The loop that carries along what directories hold goes as the one that
reads each of them anew. -/
theorem reads_scan (proper : (Item.directory items).IsProper)
    (there : fs.directory root = .ok items)
    (found : ∀ dir ∈ pending, dir ∈ tree root (.directory items)) :
    Reads fs root (pending.map Found.path) pages
      (scan fs root pending pages) := by
  fun_induction scan fs root pending pages with
  | case1 pages => exact .done pages
  | case2 dir pending pages e refused => exact .refused refused _ pages
  | case3 dir pending pages read accepted ih =>
      obtain ⟨hdir, hpending⟩ := List.forall_mem_cons.1 found
      have hitems := read_eq_items proper there hdir accepted
      subst hitems
      refine .read accepted ?_
      have hrest := ih fun other hother => (List.mem_append.1 hother).elim
        (fun hbelow => mem_tree_of_below proper hdir
          (List.mem_reverse.1 hbelow))
        (hpending other)
      rw [List.map_append] at hrest
      exact hrest

/-- The loop that reads, started at the root, has one result, that of `scan`. -/
theorem reads_iff (proper : (Item.directory items).IsProper)
    (there : fs.directory root = .ok items)
    {result : Except BuildError (List String)} :
    Reads fs root [root] [] result
      ↔ result = scan fs root [⟨root, items⟩] [] := by
  have hroot : ∀ dir ∈ [(⟨root, items⟩ : Found)], dir ∈ tree root
    (.directory items) :=
    List.forall_mem_singleton.2 (.head _)
  have hscan : Reads fs root [root] [] _ := reads_scan proper there hroot
  exact ⟨fun h => h.unique hscan, fun h => h ▸ hscan⟩

-- ========================================================= paths as texts

/-- Names that are texts make the path that their texts make. -/
theorem ofText_joined {names : List OsText}
    (unicode : ∀ name ∈ names, name.IsUnicode) :
    OsText.ofText (joined names) = Path.ofParts names := by
  fun_induction joined names with
  | case1 => rfl
  | case2 name =>
      obtain ⟨text, rfl⟩ := List.forall_mem_singleton.1 unicode
      rw [OsText.lossy_ofText, Path.ofParts]
  | case3 name rest hne ih =>
      obtain ⟨⟨text, rfl⟩, hrest⟩ := List.forall_mem_cons.1 unicode
      rw [OsText.ofText_append, OsText.ofText_append, ih hrest,
        OsText.lossy_ofText, Path.ofParts_cons hne]

/-- Names of files that are texts can be told from the text of their path. -/
theorem eq_of_joined {names names' : List OsText}
    (unicode : ∀ name ∈ names, name.IsUnicode)
    (unicode' : ∀ name ∈ names', name.IsUnicode)
    (named : ∀ name ∈ names, Path.IsFileName name)
    (named' : ∀ name ∈ names', Path.IsFileName name)
    (h : joined names = joined names') : names = names' := by
  have hpath : Path.ofParts names = Path.ofParts names' := by
    rw [← ofText_joined unicode, h, ofText_joined unicode']
  rw [← Path.parts_ofParts fun name hname =>
    ⟨(named name hname).ne_nil, (named name hname).single⟩, hpath,
      Path.parts_ofParts fun name hname =>
      ⟨(named' name hname).ne_nil, (named' name hname).single⟩]

-- ========================================================= the result

/-- Whether every directory at and below the one that a path leads to can be
read under its path. -/
def Readable (fs : FileSystem) (root : OsText) (items : List (OsText × Item)) :
    Prop :=
  ∀ place below, Item.at? place (.directory items) = some (.directory below) →
    ∃ read, fs.directory (Path.under root place) = .ok read

/-- Whether names lead to a directory with a page file in it. -/
def IsPagePlace (items : List (OsText × Item)) (place : Place) : Prop :=
  ∃ below, Item.at? place (.directory items) = some (.directory below)
    ∧ HoldsPageFile below

/-- A list of the pages at and below a directory. -/
structure Lists (items : List (OsText × Item)) (pages : List String) :
    Prop where
  /-- The paths are in the order of their bytes. -/
  ordered : pages.Pairwise fun a b => Text.bytes a ≤ Text.bytes b
  /-- There is one for each directory with a page file in it, and no other. -/
  once : ∃ places : List Place, places.Nodup
    ∧ (∀ place, place ∈ places ↔ IsPagePlace items place)
    ∧ pages.Perm (places.map joined)
  /-- None stands there twice unless the paths of two directories read the
  same. -/
  strict_iff : Text.ByteAscending pages
    ↔ ∀ place place', IsPagePlace items place → IsPagePlace items place' →
      joined place = joined place' → place = place'

/-- The directories that have to be readable are those of the tree. -/
theorem readable_iff (proper : (Item.directory items).IsProper) :
    Readable fs root items
      ↔ ∀ dir ∈ tree root (.directory items),
        ∃ read, fs.directory dir.path = .ok read := by
  constructor
  · intro h dir hdir
    obtain ⟨place, hat, hpath⟩ := (mem_tree_iff proper).1 hdir
    exact hpath ▸ h place dir.items hat
  · intro h place below hat
    exact h ⟨Path.under root place, below⟩
      ((mem_tree_iff proper).2 ⟨place, hat, rfl⟩)

/-- Where the names are such as a disk takes, nothing but the length of its
path keeps a directory from being read. -/
theorem readable_iff_short (proper : (Item.directory items).IsProper)
    (there : fs.directory root = .ok items)
    (taken : ∀ place below,
      Item.at? place (.directory items) = some (.directory below) →
      ∀ name ∈ place, 0 ∉ name.bytes ∧ name.size ≤ FileSystem.nameLimit) :
    Readable fs root items
      ↔ ∀ place below,
        Item.at? place (.directory items) = some (.directory below) →
        (Path.under root place).size ≤ FileSystem.pathLimit := by
  constructor
  · intro h place below hat
    obtain ⟨read, hread⟩ := h place below hat
    obtain ⟨_, leads, -⟩ := FileSystem.directory_eq_ok_iff.1 hread
    exact (Path.checkPath_eq_ok.1 leads.1).2.2
  · intro h place below hat
    exact ⟨below, FileSystem.directory_under (proper.named_of_at? hat)
      (taken place below hat)
      there hat (h place below hat)⟩

/-- A directory that can be read is there. -/
theorem exists_of_directory {path : OsText}
    (h : fs.directory path = .ok items) :
    fs.exists? path = .ok true := by
  obtain ⟨item, hitem, -⟩ := FileSystem.bind_eq_ok.1 h
  rw [FileSystem.exists?, hitem]

/-- The places of the pages among directories that were found below a root. -/
def placesAmong (root : OsText) (dirs : List Found) : List Place :=
  (dirs.filter Found.isPage).map fun dir =>
    (Path.parts dir.path).drop (Path.parts root).length

/-- Pages are listed under the texts of their places. -/
theorem pagesAmong_eq (root : OsText) (dirs : List Found) :
    pagesAmong root dirs = (placesAmong root dirs).map joined :=
    (List.map_map ..).symm

/-- The names that the path of a directory of the tree has behind the root are
those that lead there. -/
theorem drop_parts_of_at? (proper : item.IsProper) {place : Place}
    {below : List (OsText × Item)}
    (hat : item.at? place = some (.directory below)) :
    (Path.parts (Path.under path place)).drop (Path.parts path).length
      = place := by
  rw [Path.parts_under (proper.named_of_at? hat), List.drop_left]

/-- The places that are found are those of pages. -/
theorem mem_placesAmong_iff (proper : (Item.directory items).IsProper)
    {place : Place} :
    place ∈ placesAmong root (tree root (.directory items))
      ↔ IsPagePlace items place := by
  unfold placesAmong IsPagePlace
  rw [List.mem_map]
  constructor
  · rintro ⟨found, hfound, rfl⟩
    obtain ⟨hmem, hpage⟩ := List.mem_filter.1 hfound
    obtain ⟨place, hat, hpath⟩ := (mem_tree_iff proper).1 hmem
    rw [hpath, drop_parts_of_at? proper hat]
    exact ⟨found.items, hat, Found.isPage_iff.1 hpage⟩
  · rintro ⟨below, hat, hpage⟩
    refine ⟨⟨Path.under root place, below⟩,
      List.mem_filter.2 ⟨?_, Found.isPage_iff.2 hpage⟩, ?_⟩
    · exact (mem_tree_iff proper).2 ⟨place, hat, rfl⟩
    · exact drop_parts_of_at? proper hat

/-- No place is found twice. -/
theorem nodup_placesAmong (proper : (Item.directory items).IsProper) :
    (placesAmong root (tree root (.directory items))).Nodup := by
  refine List.pairwise_map.2
    (((tree_pairwise proper root).filter _).imp_of_mem ?_)
  intro a b ha hb hne heq
  obtain ⟨place, hat, hpath⟩ := (mem_tree_iff proper).1 (List.mem_filter.1 ha).1
  obtain ⟨place', hat', hpath'⟩ :=
    (mem_tree_iff proper).1 (List.mem_filter.1 hb).1
  rw [hpath, hpath', drop_parts_of_at? proper hat,
    drop_parts_of_at? proper hat'] at heq
  exact hne (by rw [hpath, hpath', heq])

/-- Sorted, the paths of different places ascend strictly unless two of them
are the same text. -/
theorem lists_mergeSort {found : List String} {places : List Place}
    (distinct : places.Nodup)
    (mem : ∀ place, place ∈ places ↔ IsPagePlace items place)
    (perm : found.Perm (places.map joined)) :
    Lists items (found.mergeSort fun a b => decide (a ≤ b)) := by
  have hle : (found.mergeSort fun a b => decide (a ≤ b)).Pairwise fun a b =>
      decide (a ≤ b) = true :=
    List.pairwise_mergeSort (by simpa using fun a b c => String.le_trans)
      (by simpa using String.le_total) found
  have hsorted : (found.mergeSort fun a b => decide (a ≤ b)).Pairwise (· ≤ ·) :=
    hle.imp of_decide_eq_true
  have hperm := (List.mergeSort_perm found fun a b => decide (a ≤ b)).trans perm
  refine ⟨hsorted.imp Text.bytes_le_iff.2, ⟨places, distinct, mem, hperm⟩, ?_⟩
  have hstrict : Text.ByteAscending (found.mergeSort fun a b => decide (a ≤ b))
      ↔ (found.mergeSort fun a b => decide (a ≤ b)).Nodup := by
    rw [Text.byteAscending_iff]
    refine ⟨fun h => h.imp String.ne_of_lt, fun h =>
      (hsorted.and h).imp fun hboth => ?_⟩
    exact String.not_le.1 fun hge => hboth.2 (String.le_antisymm hboth.1 hge)
  rw [hstrict, hperm.nodup_iff, List.nodup_map_iff_inj_on distinct]
  simp only [mem]
  exact ⟨fun h place place' hplace hplace' => h place hplace place' hplace',
    fun h place hplace place' hplace' => h place place' hplace hplace'⟩

theorem pageDirs_eq (there : fs.directory root = .ok items) :
    pageDirs fs root = (scan fs root [⟨root, items⟩] []).map fun pages =>
      pages.mergeSort fun a b => decide (a ≤ b) := by
  rw [pageDirs, exists_of_directory there, there]
  rfl

/-- What the loop finds in ascending order is given as it was found. -/
theorem pageDirs_of_scan {found : List String}
    (there : fs.directory root = .ok items)
    (h : (scan fs root [⟨root, items⟩] []).toOption = some found)
    (ascending : found.Pairwise (· ≤ ·)) :
    (pageDirs fs root).toOption = some found := by
  rw [pageDirs_eq there]
  cases hscan : scan fs root [⟨root, items⟩] [] with
  | error e =>
      rw [hscan] at h
      cases h
  | ok pages =>
      rw [hscan] at h
      cases h
      exact congrArg some
        (List.mergeSort_of_pairwise (ascending.imp decide_eq_true))

/-- Discovery gets through exactly where every directory can be read, and then
lists the pages. -/
theorem pageDirs_spec (proper : (Item.directory items).IsProper)
    (there : fs.directory root = .ok items) :
    ((∃ pages, pageDirs fs root = .ok pages) ↔ Readable fs root items)
      ∧ ∀ pages, pageDirs fs root = .ok pages → Lists items pages := by
  have hunread : unread [⟨root, items⟩] = tree root (.directory items) :=
    List.append_nil _
  rw [pageDirs_eq there, readable_iff proper, ← hunread,
    ← @scan_isOk_iff fs root _ []]
  cases hscan : scan fs root [⟨root, items⟩] [] with
  | error e =>
      refine ⟨⟨?_, ?_⟩, nofun⟩
      · rintro ⟨_, h⟩
        cases h
      · rintro ⟨_, h⟩
        cases h
  | ok found =>
      refine ⟨⟨fun _ => ⟨found, rfl⟩, fun _ => ⟨_, rfl⟩⟩, ?_⟩
      rintro _ ⟨⟩
      have hperm : found.Perm
          ((placesAmong root (tree root (.directory items))).map joined) := by
        rw [← pagesAmong_eq, ← hunread]
        exact scan_perm hscan
      exact lists_mergeSort (nodup_placesAmong proper)
        (fun _ => mem_placesAmong_iff proper) hperm

/-- A list of pages has the paths of the directories with a page file. -/
theorem Lists.mem_iff {pages : List String} (h : Lists items pages)
    {path : String} :
    path ∈ pages ↔ ∃ place, IsPagePlace items place ∧ joined place = path := by
  obtain ⟨places, -, hmem, hperm⟩ := h.once
  rw [hperm.mem_iff, List.mem_map]
  simp only [hmem]

/-- Where the names are texts, no two directories have one path. -/
theorem Lists.strict_of_unicode {pages : List String} (h : Lists items pages)
    (proper : (Item.directory items).IsProper)
    (unicode : ∀ place, IsPagePlace items place →
      ∀ name ∈ place, name.IsUnicode) :
    Text.ByteAscending pages := by
  refine h.strict_iff.2 fun place place' hplace hplace' heq => ?_
  obtain ⟨below, hat, -⟩ := id hplace
  obtain ⟨below', hat', -⟩ := id hplace'
  exact eq_of_joined (unicode place hplace) (unicode place' hplace')
    (proper.named_of_at? hat) (proper.named_of_at? hat') heq

end Discovery

-- ======================================================== the registry

/-- Discovery gives a result exactly where every directory can be read. It is
then a list of the pages at and below the root in the order of their bytes,
with one path for each directory that holds a page file; where the names are
texts, the paths ascend strictly. Of the pages of a registry that looks for
them there, it gives those that were found, each once and in the same order. -/
theorem Registry.discover_finds_each_page {fs : FileSystem} {root : OsText}
    {items : List (OsText × Item)} (proper : (Item.directory items).IsProper)
    (there : fs.directory root = .ok items) :
    ((∃ pages, Discovery.pageDirs fs root = .ok pages)
      ↔ Discovery.Readable fs root items)
      ∧ ∀ pages, Discovery.pageDirs fs root = .ok pages →
        Discovery.Lists items pages
        ∧ ((∀ place, Discovery.IsPagePlace items place →
            ∀ name ∈ place, name.IsUnicode) →
          Text.ByteAscending pages)
        ∧ ∀ registry : Registry, registry.pagesDir = some root →
          ∃ discovered, registry.discover fs = .ok discovered
            ∧ Text.ByteAscending discovered
            ∧ ∀ path, path ∈ discovered ↔ path ∈ registry.paths
              ∧ path ∈ pages := by
  obtain ⟨hreadable, hlists⟩ := Discovery.pageDirs_spec proper there
  refine ⟨hreadable, fun pages hpages => ⟨hlists pages hpages,
    (hlists pages hpages).strict_of_unicode proper, fun registry hdir => ?_⟩⟩
  refine ⟨registry.paths.filter fun path => pages.contains path, ?_, ?_,
    fun path => ?_⟩
  · rw [discover, hdir]
    show (Discovery.pageDirs fs root >>= _) = _
    rw [hpages]
    rfl
  · have hpaths : registry.paths.Pairwise (· < ·) :=
      List.pairwise_map.2 registry.ascending
    exact Text.byteAscending_iff.2 (hpaths.filter _)
  · rw [List.mem_filter, List.contains_iff_mem]

namespace Discovery

/-- Pages with a page at the top, one further down, one under a name that is
no text, and a directory that is only named like a page. -/
def sampleItems : List (OsText × Item) :=
  [("assets", .directory [("logo.svg", .file "")]),
    ("blog", .directory [("page", .directory [("notes.page", .file "")]),
      ("post", .directory [("page.tsx", .file "")])]),
    ("page.ts", .file ""),
    (⟨[0x70, 0xff]⟩, .directory [("page", .file "")])]

/-- The sample pages in a directory `site`. -/
def sampleFiles : FileSystem :=
  ⟨.directory [("site", .directory sampleItems)], []⟩

/-- A registry that knows two pages and looks for them among the sample
files. -/
def sampleRegistry : Registry :=
  let code : PageCode := fun scope => (.text "", scope)
  ((Registry.empty.addPage "gone" code).addPage "blog/post" code).withPagesDir
    "site"

/-- A directory with one file is proper if the file has the name of one. -/
theorem isProper_leaf {name : OsText} (named : Path.IsFileName name)
    (text : String) :
    (Item.directory [(name, .file text)]).IsProper :=
  .directory (List.pairwise_singleton _ _) (List.forall_mem_singleton.2 named)
    (List.forall_mem_singleton.2 (.file text))

/-- The sample pages have such names throughout, none twice. -/
theorem sampleItems_proper : (Item.directory sampleItems).IsProper := by
  have hblog : (Item.directory [("page", .directory [("notes.page", .file "")]),
      ("post", .directory [("page.tsx", .file "")])]).IsProper := by
    refine .directory (by decide) (by decide) ?_
    rw [List.forall_mem_cons, List.forall_mem_singleton]
    exact ⟨isProper_leaf (by decide) _, isProper_leaf (by decide) _⟩
  refine .directory (by decide) (by decide) ?_
  rw [sampleItems, List.forall_mem_cons, List.forall_mem_cons,
    List.forall_mem_cons, List.forall_mem_singleton]
  exact ⟨isProper_leaf (by decide) _, hblog, .file "",
    isProper_leaf (by decide) _⟩

theorem sampleFiles_readable : Readable sampleFiles "site" sampleItems := by
  have hread : ∀ dir ∈ tree "site" (.directory sampleItems),
      (sampleFiles.directory dir.path).toOption.isSome = true := by decide
  refine (readable_iff sampleItems_proper).2 fun dir hdir => ?_
  have h := hread dir hdir
  cases hdirectory : sampleFiles.directory dir.path with
  | error e =>
      rw [hdirectory] at h
      cases h
  | ok read => exact ⟨read, rfl⟩

/-- Three pages are found, and the one of them that the registry knows is
discovered. -/
theorem sampleFiles_discover_each_page :
    (Item.directory sampleItems).IsProper
      ∧ sampleFiles.directory "site" = .ok sampleItems
      ∧ ∃ pages discovered, pageDirs sampleFiles "site" = .ok pages
        ∧ "" ∈ pages ∧ "blog/post" ∈ pages ∧ "p\ufffd" ∈ pages
        ∧ sampleRegistry.discover sampleFiles = .ok discovered
        ∧ "blog/post" ∈ discovered := by
  refine ⟨sampleItems_proper, rfl, ?_⟩
  obtain ⟨hreadable, hfound⟩ :=
    Registry.discover_finds_each_page sampleItems_proper
      (rfl : sampleFiles.directory "site" = _)
  obtain ⟨pages, hpages⟩ := hreadable.2 sampleFiles_readable
  obtain ⟨hlists, -, hregistry⟩ := hfound pages hpages
  obtain ⟨discovered, hdiscovered, -, hmem⟩ := hregistry sampleRegistry rfl
  have htop : "" ∈ pages := hlists.mem_iff.2
    ⟨[], ⟨sampleItems, rfl, "page.ts",
      "", by simp [sampleItems], .inr ⟨"ts", by decide, rfl⟩⟩, rfl⟩
  have hpost : "blog/post" ∈ pages := hlists.mem_iff.2
    ⟨["blog", "post"],
      ⟨_, rfl, "page.tsx", "", .head _, .inr ⟨"tsx", by decide, rfl⟩⟩, by
      decide +kernel⟩
  have hnoText : "p\ufffd" ∈ pages := hlists.mem_iff.2
    ⟨[⟨[0x70, 0xff]⟩],
      ⟨_, rfl, "page", "", .head _, .inl rfl⟩, by decide +kernel⟩
  exact ⟨pages, discovered, hpages, htop, hpost, hnoText, hdiscovered,
    (hmem _).2 ⟨by decide +kernel, hpost⟩⟩

/-- Two pages under names of one byte each, neither of which is a text. -/
def twinItems : List (OsText × Item) :=
  [(⟨[0xfe]⟩, .directory [("page", .file "")]),
    (⟨[0xff]⟩, .directory [("page", .file "")])]

/-- A path of 4093 bytes that leads to a directory `a` by staying in place. -/
def longRoot : OsText :=
  ⟨(List.replicate 2046 [0x2e, separator]).flatten ++ [0x61]⟩

/-- A page and a page below it. -/
def nestedItems : List (OsText × Item) :=
  [("page", .file ""), ("bbb", .directory [("page", .file "")])]

/-- The two pages are found under one path. And seen from a root with a path
that is long enough, a page below it is not found at all: its path is too long
to be read, which stops discovery. -/
theorem twins_read_alike :
    (Item.directory twinItems).IsProper ∧ (Item.directory nestedItems).IsProper
      ∧ (pageDirs ⟨.directory [("site", .directory twinItems)], []⟩
        "site").toOption
        = some ["\ufffd", "\ufffd"]
      ∧ (pageDirs ⟨.directory [("a", .directory nestedItems)], []⟩ "a").toOption
        = some ["", "bbb"]
      ∧ (pageDirs ⟨.directory [("a", .directory nestedItems)], []⟩
        longRoot).toOption = none := by
  have htwins : FileSystem.directory
    ⟨.directory [("site", .directory twinItems)], []⟩ "site"
      = .ok twinItems := rfl
  have hnested : FileSystem.directory
    ⟨.directory [("a", .directory nestedItems)], []⟩ "a"
      = .ok nestedItems := rfl
  refine ⟨.directory (by decide) (by decide) ?_, .directory (by decide)
    (by decide) ?_, pageDirs_of_scan htwins ?_
    (by decide), pageDirs_of_scan hnested ?_ (by decide), by decide +kernel⟩
  · rw [twinItems, List.forall_mem_cons, List.forall_mem_singleton]
    exact ⟨isProper_leaf (by decide) _, isProper_leaf (by decide) _⟩
  · rw [nestedItems, List.forall_mem_cons, List.forall_mem_singleton]
    exact ⟨.file "", isProper_leaf (by decide) _⟩
  · decide +kernel
  · decide +kernel

end Discovery
end Prerender
