/-
Discovery of pages. A directory is a page if a file directly in it is named
`page`, whatever its ending; its path is the way to it from the root of the
pages, which itself is the empty path.
-/
import Prerender.Site.Error

namespace Prerender.Discovery

open Files

/-- The point in a file name. -/
def point : UInt8 := 0x2e

/-- The stem of a file name: what is before its last point, or the whole name
if nothing is. -/
def stem (name : List UInt8) : List UInt8 :=
  match name.reverse.dropWhile (· ≠ point) with
  | _ :: byte :: before => (byte :: before).reverse
  | _ => name

/-- The stem of the files that mark pages. -/
def pageStem : OsText := "page"

/-- Whether a file name marks its directory as a page. -/
def isPageFile (name : OsText) : Bool := stem name.bytes == pageStem.bytes

/-- Names read as texts, with a slash between each two. -/
def joined : List OsText → String
  | [] => ""
  | [name] => name.lossy
  | name :: rest => name.lossy ++ "/" ++ joined rest

/-- A directory that was found: its path, and what is in it. -/
structure Found where
  path : OsText
  items : List (OsText × Item)

namespace Found

/-- Whether a file in the directory marks it as a page. -/
def isPage (dir : Found) : Bool :=
  dir.items.any fun (name, item) => !item.isDirectory && isPageFile name

/-- An item of the directory, if it is a directory itself. -/
def below? (dir : Found) : OsText × Item → Option Found
  | (name, .directory items) => some ⟨Path.join dir.path name, items⟩
  | (_, .file _) => none

/-- The directories directly in the directory. -/
def below (dir : Found) : List Found := dir.items.filterMap dir.below?

/-- The path of the directory as it is seen from `root`, as a text. -/
def relative (root : OsText) (dir : Found) : String :=
  joined ((Path.parts dir.path).drop (Path.parts root).length)

end Found

/-- How much there is still to read. -/
noncomputable def unreadSize : List Found → Nat
  | [] => 0
  | dir :: pending => sizeOf dir.items + unreadSize pending

theorem unreadSize_append (front back : List Found) :
    unreadSize (front ++ back) = unreadSize front + unreadSize back := by
  induction front with
  | nil => exact (Nat.zero_add _).symm
  | cons dir rest ih =>
      rw [List.cons_append, unreadSize, unreadSize, ih, Nat.add_assoc]

theorem unreadSize_reverse (pending : List Found) :
    unreadSize pending.reverse = unreadSize pending := by
  induction pending with
  | nil => rfl
  | cons dir rest ih =>
      rw [List.reverse_cons, unreadSize_append, ih, unreadSize,
        unreadSize, unreadSize, Nat.add_zero, Nat.add_comm]

/-- There is less in the directories that are directly in a directory than in
itself. -/
theorem unreadSize_below_lt (dir : Found) :
    unreadSize dir.below < sizeOf dir.items := by
  obtain ⟨path, items⟩ := dir
  show unreadSize (items.filterMap _) < sizeOf items
  induction items with
  | nil => exact Nat.zero_lt_one
  | cons entry rest ih =>
      obtain ⟨name, item⟩ := entry
      cases item with
      | file text =>
          show unreadSize (rest.filterMap _) < _
          rw [List.cons.sizeOf_spec]
          exact Nat.lt_add_left _ ih
      | directory items =>
          show sizeOf items + unreadSize (rest.filterMap _) < _
          rw [List.cons.sizeOf_spec, Prod.mk.sizeOf_spec,
            Item.directory.sizeOf_spec]
          exact Nat.add_lt_add_of_le_of_lt (by omega) ih

/-- Reads the directories that are found and not yet read, the last one first,
and those in them as they turn up; the paths of the pages among them go behind
`pages`. Nothing changes meanwhile: a directory that can be read under its
path holds what it held when it was found. -/
def scan (fs : FileSystem) (root : OsText) :
    List Found → List String → Except BuildError (List String)
  | [], pages => .ok pages
  | dir :: pending, pages =>
      match fs.directory dir.path with
      | .error e =>
          .error (.undiscovered ("Failed to read " ++ dir.path.lossy ++ ": "
            ++ e.message))
      | .ok _ =>
          scan fs root (dir.below.reverse ++ pending)
            (if dir.isPage then pages ++ [dir.relative root] else pages)
termination_by pending => unreadSize pending
decreasing_by
  rw [unreadSize_append, unreadSize_reverse]
  exact Nat.add_lt_add_right (unreadSize_below_lt dir) _

/-- The paths of the pages below `root`, in ascending order; none if it is not
there. -/
def pageDirs (fs : FileSystem) (root : OsText) :
    Except BuildError (List String) :=
  match fs.exists? root with
  | .error e =>
      .error (.undiscovered
        ("Failed to access " ++ root.lossy ++ ": " ++ e.message))
  | .ok false => .ok []
  | .ok true =>
      match fs.directory root with
      | .error e =>
          .error (.undiscovered
            ("Failed to read " ++ root.lossy ++ ": " ++ e.message))
      | .ok items => do
          let pages ← scan fs root [⟨root, items⟩] []
          return pages.mergeSort fun a b => decide (a ≤ b)

end Prerender.Discovery
