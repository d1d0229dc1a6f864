/-
What changing files leaves alone.

A place holds a directory, a file with its text, or nothing
(`Item.kindAt?`), whatever may be inside of a directory. Each change of
a file system is followed as a change of that. Putting something into a
directory changes what stands at its place and below, and nothing else
(`Item.kindAt?_put`); put where no directory was, an item without
anything in it is all that changes (`Item.kindAt?_put_leaf`).

`FileSystem.Keeps` says what is left alone in the end: directories stay
directories, and every file but those at the given places stays as it
is, with its text. It holds of each change and adds up over several, and
no proof about builds looks at a tree again.

A path that could be followed is followed to the same place afterwards
(`Keeps.follow`), since on its way there are directories, which stay. So
what was written by name is what is read under that name
(`FileSystem.writeText_join_ok`), until something is written to its
place.
-/
import Prerender.Proofs.Files.Path
import Prerender.Sorted

namespace Prerender

namespace Files.Item

-- ============================================================== places

/-- What stands at a place, whatever may be inside of it. -/
inductive Kind where
  | directory
  | file (text : String)
deriving DecidableEq

/-- What an item is, without what is inside. -/
def kind : Item → Kind
  | .directory _ => .directory
  | .file text => .file text

/-- What stands at a place of a tree, if anything does. -/
def kindAt? (root : Item) (place : Place) : Option Kind :=
  (root.at? place).map kind

/-- A place may be found in two goes. -/
theorem at?_append (front back : Place) (item : Item) :
    at? (front ++ back) item = (at? front item).bind (at? back) := by
  induction front generalizing item with
  | nil => rfl
  | cons name rest ih =>
      cases item with
      | file text => rfl
      | directory items =>
          rw [List.cons_append, at?, at?]
          cases items.lookup name with
          | none => rfl
          | some child => exact ih child

/-- Only in directories there is anything. -/
theorem kindAt?_append_of_ne {root : Item} {place : Place}
    (h : root.kindAt? place ≠ some .directory)
    {name : OsText} (rest : Place) :
    root.kindAt? (place ++ name :: rest) = none := by
  unfold kindAt? at h ⊢
  rw [at?_append]
  cases hat : root.at? place with
  | none => rfl
  | some item =>
      cases item with
      | file text => rfl
      | directory items => exact absurd (by rw [hat]; rfl) h

/-- Under the name that was set there is what was set, and nothing else
changes. -/
theorem lookup_setNamed (name key : OsText) (item : Item)
    (items : List (OsText × Item)) : (setNamed name item items).lookup key
      = if key = name then some item else items.lookup key := by
  induction items with
  | nil =>
      rw [setNamed, lookup_cons_ite]
  | cons head rest ih =>
      obtain ⟨other, old⟩ := head
      rw [setNamed, lookup_cons_ite]
      by_cases hother : other = name
      · subst hother
        rw [if_pos rfl, lookup_cons_ite]
        split
        · rfl
        · rfl
      · rw [if_neg hother, lookup_cons_ite, ih]
        by_cases hkey : key = other
        · rw [if_pos hkey, if_neg fun h => hother (hkey ▸ h), if_pos hkey]
        · rw [if_neg hkey, if_neg hkey]

/-- What stands where after something is put into a directory: below its place
what it brings, and everywhere else what stood there. -/
theorem kindAt?_put (new : Item) {root : Item} {parent : Place} {name : OsText}
    (inside : root.kindAt? parent = some .directory) (place : Place) :
    (put new root (parent ++ [name])).kindAt? place
      = if parent ++ [name] <+: place then
          new.kindAt? (place.drop (parent.length + 1))
        else root.kindAt? place := by
  -- down to the directory; on the way each one is put back with one of its
  -- items changed
  induction parent generalizing root place with
  | nil =>
      cases root with
      | file text => cases inside
      | directory items =>
          rw [List.nil_append, put, put]
          cases place with
          | nil => rfl
          | cons k rest =>
              unfold kindAt?
              rw [at?, lookup_setNamed, at?]
              by_cases hk : k = name
              · rw [if_pos hk, if_pos (by rw [hk]; exact ⟨rest, rfl⟩)]
                rfl
              · rw [if_neg hk, if_neg fun h =>
                  hk (List.cons_prefix_cons.1 h).1.symm]
  | cons first others ih =>
      cases root with
      | file text => cases inside
      | directory items =>
          cases hchild : items.lookup first with
          | none =>
              unfold kindAt? at inside
              rw [at?, hchild] at inside
              cases inside
          | some child =>
              have hinside : child.kindAt? others = some .directory := by
                unfold kindAt? at inside
                rw [at?, hchild] at inside
                exact inside
              rw [List.cons_append, put, hchild, Option.getD_some]
              cases place with
              | nil => rfl
              | cons k rest =>
                  unfold kindAt?
                  rw [at?, lookup_setNamed, at?]
                  by_cases hk : k = first
                  · subst hk
                    simp only [if_true, hchild, List.cons_prefix_cons, true_and]
                    exact ih hinside rest
                  · rw [if_neg hk, if_neg fun h =>
                      hk (List.cons_prefix_cons.1 h).1.symm]

/-- Something without anything in it, put where no directory was, is all that
changes. -/
theorem kindAt?_put_leaf {new root : Item} {parent : Place} {name : OsText}
    (leaf : ∀ k rest, new.kindAt? (k :: rest) = none)
    (inside : root.kindAt? parent = some .directory)
    (free : root.kindAt? (parent ++ [name]) ≠ some .directory) (place : Place) :
    (put new root (parent ++ [name])).kindAt? place
      = if place = parent ++ [name] then some new.kind
        else root.kindAt? place := by
  rw [kindAt?_put new inside]
  split
  · next hprefix =>
    obtain ⟨rest, rfl⟩ := hprefix
    have hdrop : (parent ++ [name] ++ rest).drop (parent.length + 1)
      = rest := by
      rw [← List.length_singleton, ← List.length_append, List.drop_left]
    rw [hdrop]
    cases rest with
    | nil => rw [List.append_nil, if_pos rfl]; rfl
    | cons k rest =>
        rw [if_neg (by simp), leaf, kindAt?_append_of_ne free]
  · next hprefix =>
    rw [if_neg]
    rintro rfl
    exact hprefix (List.prefix_refl _)

end Files.Item

open Files

namespace FileSystem

variable {fs fs' fs'' : FileSystem}

/-- What stands at a place of a file system. -/
def kindAt? (fs : FileSystem) (place : Place) : Option Item.Kind :=
  fs.root.kindAt? place

/-- A sequence gives a result exactly when its steps do. -/
theorem bind_eq_ok {α β : Type} {x : Except FileError α}
    {f : α → Except FileError β} {b : β} :
    (x >>= f) = .ok b ↔ ∃ a, x = .ok a ∧ f a = .ok b := by
  cases x with
  | error e => exact ⟨nofun, fun h => nomatch h⟩
  | ok a =>
      constructor
      · intro h
        exact ⟨a, rfl, h⟩
      · intro h
        obtain ⟨_, heq, h⟩ := h
        cases heq
        exact h

/-- The check passes exactly where there is a directory. -/
theorem requireDirectory_eq_ok {place : Place} :
    fs.requireDirectory place = .ok ()
      ↔ fs.kindAt? place = some .directory := by
  unfold requireDirectory kindAt? Item.kindAt?
  cases fs.root.at? place with
  | none => exact ⟨nofun, nofun⟩
  | some item =>
      cases item with
      | file text => exact ⟨nofun, nofun⟩
      | directory items => exact ⟨fun _ => rfl, fun _ => rfl⟩

-- ====================================================== what is left alone

/-- `fs'` comes of `fs` by changes that touch no file but those at the given
places. -/
structure Keeps (touched : Place → Prop) (fs fs' : FileSystem) : Prop where
  workingDirectory : fs'.workingDirectory = fs.workingDirectory
  directories : ∀ place, fs.kindAt? place = some .directory →
    fs'.kindAt? place = some .directory
  files : ∀ place, ¬ touched place → ∀ text,
    fs'.kindAt? place = some (.file text) ↔ fs.kindAt? place = some (.file text)

variable {touched : Place → Prop} {parent : Place} {name : OsText}

/-- Where nothing changes everything is kept. -/
theorem Keeps.refl (touched : Place → Prop) (fs : FileSystem) :
    Keeps touched fs fs :=
  ⟨rfl, fun _ h => h, fun _ _ _ => Iff.rfl⟩

/-- What two changes keep is kept by both after one another. -/
theorem Keeps.trans (first : Keeps touched fs fs')
    (second : Keeps touched fs' fs'') :
    Keeps touched fs fs'' where
  workingDirectory := second.workingDirectory.trans first.workingDirectory
  directories place h := second.directories place (first.directories place h)
  files place h text := (second.files place h text).trans
    (first.files place h text)

/-- The places may be more than those that are touched. -/
theorem Keeps.mono {more : Place → Prop} (h : Keeps touched fs fs')
    (sub : ∀ place, touched place → more place) : Keeps more fs fs' where
  workingDirectory := h.workingDirectory
  directories := h.directories
  files place hplace := h.files place fun htouched =>
    hplace (sub place htouched)

/-- A file in the place of anything but a directory is all that changes. -/
theorem kindAt?_put_file (text : String)
    (inside : fs.kindAt? parent = some .directory)
    (free : fs.kindAt? (parent ++ [name]) ≠ some .directory) (place : Place) :
    kindAt? { fs with
      root := Item.put (.file text) fs.root (parent ++ [name]) } place
      = if place = parent ++ [name] then some (.file text)
        else fs.kindAt? place :=
  Item.kindAt?_put_leaf (fun _ _ => rfl) inside free place

/-- So a file that is put touches its own place only. -/
theorem keeps_put_file (text : String)
    (inside : fs.kindAt? parent = some .directory)
    (free : fs.kindAt? (parent ++ [name]) ≠ some .directory) :
    Keeps (· = parent ++ [name]) fs
      { fs with root := Item.put (.file text) fs.root (parent ++ [name]) } := by
  have hput := kindAt?_put_file text inside free
  refine ⟨rfl, fun place hplace => ?_, fun place hplace text' => ?_⟩
  · rw [hput, if_neg]
    · exact hplace
    · rintro rfl
      exact free hplace
  · rw [hput, if_neg hplace]

-- =========================================================== following paths

/-- A path is followed to the same place where directories are kept. -/
theorem Keeps.follow (keeps : Keeps touched fs fs') {place last : Place}
    {parts : List OsText}
    (h : fs.follow place parts = .ok last) :
    fs'.follow place parts = .ok last := by
  induction parts generalizing place with
  | nil => exact h
  | cons part rest ih =>
      rw [FileSystem.follow, bind_eq_ok] at h ⊢
      obtain ⟨_, hdir, h⟩ := h
      have hkept := keeps.directories place (requireDirectory_eq_ok.1 hdir)
      refine ⟨(), requireDirectory_eq_ok.2 hkept, ?_⟩
      split at h
      · next hdot =>
        rw [if_pos hdot]
        exact ih h
      · next hdot =>
        rw [if_neg hdot]
        split at h
        · next hup =>
          rw [if_pos hup]
          exact ih h
        · next hup =>
          rw [if_neg hup]
          split at h
          · cases h
          · next hlength =>
            rw [if_neg hlength]
            exact ih h

/-- Parts may be followed in two goes. -/
theorem follow_append (fs : FileSystem) (place : Place)
    (front back : List OsText) :
    fs.follow place (front ++ back)
      = (fs.follow place front).bind fun mid => fs.follow mid back := by
  induction front generalizing place with
  | nil => rfl
  | cons part rest ih =>
      rw [List.cons_append, FileSystem.follow, FileSystem.follow]
      cases fs.requireDirectory place with
      | error e => rfl
      | ok u =>
          show (if part = "." then _ else _)
            = (if part = "." then _ else _ : Except _ _).bind _
          split
          · exact ih place
          · split
            · exact ih _
            · split
              · rfl
              · exact ih _

-- =============================================================== changing

/-- The place of a directory above is that of a directory. -/
theorem parentPlace_ok {path : OsText} {parent : Place}
    (h : fs.parentPlace path = .ok parent) :
    fs.follow (fs.start path) (Path.parts path).dropLast = .ok parent
      ∧ fs.kindAt? parent = some .directory := by
  obtain ⟨place, hfollow, h⟩ := bind_eq_ok.1 h
  obtain ⟨_, hdir, h⟩ := bind_eq_ok.1 h
  cases h
  exact ⟨hfollow, requireDirectory_eq_ok.1 hdir⟩

/-- A file comes where no directory was, in a directory. -/
theorem writeText_ok {path : OsText} {text : String}
    (h : fs.writeText path text = .ok fs') :
    ∃ parent name, checkPath path = .ok ()
      ∧ fs.follow (fs.start path) (Path.parts path).dropLast = .ok parent
      ∧ lastName? path = some name ∧ ¬ nameLimit < name.size
      ∧ fs.kindAt? parent = some .directory
        ∧ fs.kindAt? (parent ++ [name]) ≠ some .directory
      ∧ fs' = { fs with
        root := Item.put (.file text) fs.root (parent ++ [name]) } := by
  obtain ⟨_, hcheck, h⟩ := bind_eq_ok.1 h
  obtain ⟨parent, hparent, h⟩ := bind_eq_ok.1 h
  obtain ⟨hfollow, hdir⟩ := parentPlace_ok hparent
  cases hname : lastName? path with
  | none =>
      rw [hname] at h
      cases h
  | some name =>
      rw [hname] at h
      simp only at h
      split at h
      · cases h
      · next hlength =>
        split at h
        · cases h
        · next hat =>
          cases h
          refine ⟨parent, name, hcheck, hfollow, rfl, hlength, hdir,
            fun hkind => ?_, rfl⟩
          obtain ⟨item, hplace, hitem⟩ := Option.map_eq_some_iff.1 hkind
          cases item with
          | file old => cases hitem
          | directory items => exact hat items hplace

-- =============================================================== reading

/-- A path that leads to a place. -/
def Leads (fs : FileSystem) (path : OsText) (place : Place) : Prop :=
  checkPath path = .ok ()
    ∧ fs.follow (fs.start path) (partsToItem path) = .ok place

/-- What is read is the text at the place that the path leads to. -/
theorem Leads.readText {path : OsText} {text : String} {place : Place}
    (leads : fs.Leads path place)
    (h : fs.kindAt? place = some (.file text)) :
    fs.readText path = .ok text := by
  obtain ⟨item, hat, hitem⟩ := Option.map_eq_some_iff.1 h
  cases item with
  | directory items => cases hitem
  | file old =>
      cases hitem
      refine bind_eq_ok.2 ⟨.file text, ?_, rfl⟩
      refine bind_eq_ok.2 ⟨(), leads.1, bind_eq_ok.2 ⟨place, leads.2, ?_⟩⟩
      rw [hat]

theorem Keeps.start (keeps : Keeps touched fs fs') (path : OsText) :
    fs'.start path = fs.start path := by
  unfold FileSystem.start
  rw [keeps.workingDirectory]

theorem Keeps.leads (keeps : Keeps touched fs fs') {path : OsText}
    {place : Place} (h : fs.Leads path place) : fs'.Leads path place := by
  refine ⟨h.1, ?_⟩
  rw [keeps.start]
  exact keeps.follow h.2

/-- A file that is written by name is put in the directory that the path
before it leads to. -/
theorem writeText_named {dir name : OsText} {text : String}
    (named : Path.IsFileName name)
    (h : fs.writeText (Path.join dir name) text = .ok fs') :
    ∃ parent, checkPath (Path.join dir name) = .ok ()
      ∧ fs.follow (fs.start dir) (Path.parts dir) = .ok parent
        ∧ ¬ nameLimit < name.size
      ∧ fs.kindAt? parent = some .directory
        ∧ fs.kindAt? (parent ++ [name]) ≠ some .directory
      ∧ fs' = { fs with
        root := Item.put (.file text) fs.root (parent ++ [name]) } := by
  obtain ⟨parent, last, hcheck, hfollow, hlast, hrest⟩ := writeText_ok h
  rw [start, Path.isAbsolute_join named, Path.parts_join named,
    List.dropLast_concat] at hfollow
  rw [lastName?, Path.parts_join named, List.getLast?_concat] at hlast
  have hname : name = last := Option.some.inj
    ((if_neg (not_or.2 ⟨named.ne_dot, named.ne_dots⟩)).symm.trans hlast)
  subst hname
  exact ⟨parent, hcheck, hfollow, hrest⟩

/-- Writing a file by name into a directory touches its place only, and the
path leads there with the text. -/
theorem writeText_join_ok {dir name : OsText} {text : String}
    (named : Path.IsFileName name)
    (h : fs.writeText (Path.join dir name) text = .ok fs') :
    ∃ parent, fs.follow (fs.start dir) (Path.parts dir) = .ok parent
      ∧ fs'.Leads (Path.join dir name) (parent ++ [name])
      ∧ fs'.kindAt? (parent ++ [name]) = some (.file text)
      ∧ Keeps (· = parent ++ [name]) fs fs' := by
  obtain ⟨parent, hcheck, hfollow, hlength, hdir, hfree, rfl⟩ :=
    writeText_named named h
  have hkeeps := keeps_put_file text hdir hfree
  refine ⟨parent, hfollow, ⟨hcheck, ?_⟩, ?_, hkeeps⟩
  · have hstart : fs.start (Path.join dir name) = fs.start dir := by
      unfold start
      rw [Path.isAbsolute_join named]
    rw [hkeeps.start, hstart, partsToItem,
      if_neg (Path.getLast?_join_ne named dir), List.append_nil,
      Path.parts_join named, follow_append, hkeeps.follow hfollow]
    show FileSystem.follow _ parent [name] = _
    rw [FileSystem.follow, requireDirectory_eq_ok.2
      (hkeeps.directories parent hdir)]
    show (if name = "." then _ else _) = _
    rw [if_neg named.ne_dot, if_neg named.ne_dots, if_neg hlength]
    rfl
  · exact (kindAt?_put_file text hdir hfree _).trans (if_pos rfl)

end FileSystem
end Prerender
