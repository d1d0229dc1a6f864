/-
Paths taken apart.

A path is bytes, and its parts are what stands between slashes, without
the empty pieces. Three kinds of facts are needed about them.

1. Putting paths together. A relative path behind a path adds its parts
   and changes neither where the path starts nor the parts in front
   (`Path.parts_join_of_relative`, `Path.isAbsolute_join_of_relative`);
   a name is one more part (`Path.parts_join`). An absolute path in the
   same place would leave nothing of what is in front, which is why so
   much here asks for relative ones.
2. The directories above a path, which are made before it is. Each has
   some of the first parts of the path (`Path.exists_of_mem_ancestors`),
   starts where the path does, and can be used if the path can, since it
   is no longer (`Path.checkPath_upTo`). Parts that stay in place are
   left out of these paths, except for one in front; what is left are
   the meaningful ones (`Path.meaningful`).
3. Paths as texts. Where a path starts, and whether it ends in a slash,
   can be told from the text that it was given as, for a slash is a byte
   of its own.

A name of a file is a part that leads to something new
(`Path.IsFileName`). It is the only kind of path behind which the last
part is certain to be a file; everything that is shown of writing files
asks for one.
-/
import Prerender.Files.System
import Prerender.Proofs.Text.OsText

namespace Prerender.Files

/-- There is at least one piece, if only an empty one. -/
theorem splitSlashes_ne_nil (cs : List UInt8) : splitSlashes cs ≠ [] := by
  cases cs with
  | nil => nofun
  | cons c rest =>
      rw [splitSlashes]
      split
      · nofun
      · split <;> nofun

/-- Pieces before a slash and pieces behind it. -/
theorem splitSlashes_append_slash (front back : List UInt8) :
    splitSlashes (front ++ separator :: back) = splitSlashes front
      ++ splitSlashes back := by
  induction front with
  | nil => rfl
  | cons c rest ih =>
      rw [List.cons_append, splitSlashes, splitSlashes, ih]
      by_cases hc : c = separator
      · rw [if_pos hc, if_pos hc, List.cons_append]
      · rw [if_neg hc, if_neg hc]
        cases hpieces : splitSlashes rest with
        | nil => exact absurd hpieces (splitSlashes_ne_nil rest)
        | cons piece pieces => rfl

theorem splitSlashes_of_not_mem {cs : List UInt8} (h : separator ∉ cs) :
    splitSlashes cs = [cs] := by
  induction cs with
  | nil => rfl
  | cons c rest ih =>
      rw [List.mem_cons, not_or] at h
      rw [splitSlashes, if_neg (Ne.symm h.1), ih h.2]

/-- Pieces hold no slash. -/
theorem not_mem_of_mem_splitSlashes {cs piece : List UInt8}
    (h : piece ∈ splitSlashes cs) :
    separator ∉ piece := by
  induction cs generalizing piece with
  | nil =>
      cases List.mem_singleton.1 h
      exact List.not_mem_nil
  | cons c rest ih =>
      rw [splitSlashes] at h
      split at h
      · rcases List.mem_cons.1 h with rfl | h
        · exact List.not_mem_nil
        · exact ih h
      · next hc =>
        cases hpieces : splitSlashes rest with
        | nil => exact absurd hpieces (splitSlashes_ne_nil rest)
        | cons first pieces =>
            rw [hpieces] at h ih
            rcases List.mem_cons.1 h with rfl | h
            · rw [List.mem_cons, not_or]
              exact ⟨Ne.symm hc, ih (.head _)⟩
            · exact ih (.tail _ h)

namespace Path

/-- Whether a text names a file by itself: it is a single part and does not
stand for a directory. -/
structure IsFileName (name : OsText) : Prop where
  ne_nil : name.bytes ≠ []
  single : separator ∉ name.bytes
  ne_dot : name ≠ "."
  ne_dots : name ≠ ".."

instance (name : OsText) : Decidable (IsFileName name) :=
  decidable_of_iff (name.bytes ≠ [] ∧ separator ∉ name.bytes ∧ name ≠ "."
    ∧ name ≠ "..")
    ⟨fun ⟨ne, single, dot, dots⟩ => ⟨ne, single, dot, dots⟩,
      fun h => ⟨h.ne_nil, h.single, h.ne_dot, h.ne_dots⟩⟩

variable {name : OsText}

/-- What is not empty and holds no slash is one part. -/
theorem parts_of_single (ne : name.bytes ≠ [])
    (single : separator ∉ name.bytes) :
    parts name = [name] := by
  rw [parts, splitSlashes_of_not_mem single, List.filter_cons_of_pos,
    List.filter_nil, List.map_singleton, ]
  rw [Bool.not_eq_true', List.isEmpty_eq_false_iff]
  exact ne

theorem IsFileName.parts_eq (h : IsFileName name) : parts name = [name] :=
  parts_of_single h.ne_nil h.single

/-- Parts are not empty and have no slash in them. -/
theorem single_of_mem_parts {path part : OsText} (h : part ∈ parts path) :
    part.bytes ≠ [] ∧ separator ∉ part.bytes := by
  obtain ⟨piece, hpiece, rfl⟩ := List.mem_map.1 h
  obtain ⟨hmem, hne⟩ := List.mem_filter.1 hpiece
  refine ⟨?_, not_mem_of_mem_splitSlashes hmem⟩
  rintro rfl
  cases hne

/-- Without a slash a path is relative. -/
theorem not_isAbsolute_of_single (single : separator ∉ name.bytes) :
    isAbsolute name = false := by
  unfold isAbsolute
  cases hlist : name.bytes with
  | nil => rfl
  | cons c rest =>
      rw [List.head?_cons, beq_eq_false_iff_ne]
      rintro heq
      cases heq
      exact single (by rw [hlist]; exact .head _)

theorem IsFileName.not_isAbsolute (h : IsFileName name) :
    isAbsolute name = false :=
  not_isAbsolute_of_single h.single

/-- The parts of two texts with a slash in between. -/
theorem parts_append_slash (front back : OsText) :
    parts (front ++ "/" ++ back) = parts front ++ parts back := by
  rw [parts, OsText.bytes_append, OsText.bytes_append, List.append_assoc]
  show List.map _
    (List.filter _ (splitSlashes (front.bytes ++ separator :: back.bytes))) = _
  rw [splitSlashes_append_slash, List.filter_append, List.map_append]
  rfl

/-- A path that ends in a slash is one in front of a slash. -/
theorem exists_eq_append_slash {path : OsText}
    (h : path.bytes.getLast? = some separator) :
    ∃ front, path = front ++ "/" := by
  obtain ⟨cs, hcs⟩ := List.getLast?_eq_some_iff.1 h
  refine ⟨OsText.mk cs, ?_⟩
  rw [← OsText.bytes_inj, OsText.bytes_append, hcs]
  rfl

theorem parts_empty : parts "" = [] := by decide

/-- A relative path behind a path adds its parts. -/
theorem parts_join_of_relative (h : isAbsolute name = false) (dir : OsText) :
    parts (join dir name) = parts dir ++ parts name := by
  rw [join, h, Bool.false_or]
  by_cases hdir : dir.isEmpty = true
  · rw [if_pos hdir, OsText.isEmpty_iff.1 hdir, parts_empty, List.nil_append]
  · rw [if_neg hdir]
    by_cases hlast : dir.bytes.getLast? = some separator
    · obtain ⟨front, rfl⟩ := exists_eq_append_slash hlast
      have hfront := parts_append_slash front ""
      rw [OsText.append_empty, parts_empty, List.append_nil] at hfront
      rw [if_pos hlast, parts_append_slash, hfront]
    · rw [if_neg hlast, parts_append_slash]

/-- A name behind a path is one more part. -/
theorem parts_join (h : IsFileName name) (dir : OsText) :
    parts (join dir name) = parts dir ++ [name] := by
  rw [parts_join_of_relative h.not_isAbsolute, h.parts_eq]

/-- Where a path starts is decided by its beginning. -/
theorem isAbsolute_append {front : OsText} (ne : front.isEmpty = false)
    (back : OsText) :
    isAbsolute (front ++ back) = isAbsolute front := by
  unfold isAbsolute
  rw [OsText.bytes_append]
  cases hlist : front.bytes with
  | nil =>
      rw [OsText.bytes_eq_nil_iff.1 hlist] at ne
      cases ne
  | cons c rest => rfl

/-- A relative path behind a path does not change where it starts. -/
theorem isAbsolute_join_of_relative (h : isAbsolute name = false)
    (dir : OsText) :
    isAbsolute (join dir name) = isAbsolute dir := by
  rw [join, h, Bool.false_or]
  cases hdir : dir.isEmpty with
  | true =>
      rw [if_pos rfl, OsText.isEmpty_iff.1 hdir, h]
      rfl
  | false =>
      rw [if_neg Bool.false_ne_true]
      split
      · exact isAbsolute_append hdir name
      · rw [OsText.append_assoc]
        exact isAbsolute_append hdir _

/-- A name behind a path does not change where it starts. -/
theorem isAbsolute_join (h : IsFileName name) (dir : OsText) :
    isAbsolute (join dir name) = isAbsolute dir :=
    isAbsolute_join_of_relative h.not_isAbsolute dir

/-- Behind a path every relative one comes behind the same text. -/
theorem exists_join_eq (dir : OsText) :
    ∃ front, ∀ {path : OsText}, isAbsolute path = false →
      join dir path = front ++ path := by
  by_cases hdir : dir.isEmpty = true
  · refine ⟨"", fun hrelative => ?_⟩
    rw [join, hrelative, Bool.false_or, if_pos hdir, OsText.empty_append]
  · by_cases hlast : dir.bytes.getLast? = some separator
    · refine ⟨dir, fun hrelative => ?_⟩
      rw [join, hrelative, Bool.false_or, if_neg hdir, if_pos hlast]
    · refine ⟨dir ++ "/", fun hrelative => ?_⟩
      rw [join, hrelative, Bool.false_or, if_neg hdir, if_neg hlast]

/-- How a path ends is decided by its end. -/
theorem getLast?_append_ne {path : OsText} (ne : path ≠ "")
    (unended : path.bytes.getLast? ≠ some separator) (front : OsText) :
    (front ++ path).bytes.getLast? ≠ some separator := by
  rw [OsText.bytes_append, List.getLast?_append]
  cases hlast : path.bytes.getLast? with
  | none =>
      exact absurd
        (OsText.bytes_eq_nil_iff.1 (List.getLast?_eq_none_iff.1 hlast)) ne
  | some c =>
      rw [Option.some_or, ← hlast]
      exact unended

/-- Behind a name a path does not end in a slash. -/
theorem getLast?_join_ne (h : IsFileName name) (dir : OsText) :
    (join dir name).bytes.getLast? ≠ some separator := by
  obtain ⟨front, hfront⟩ := exists_join_eq dir
  rw [hfront h.not_isAbsolute]
  refine getLast?_append_ne
    (fun hempty => h.ne_nil (OsText.bytes_eq_nil_iff.2 hempty)) ?_ front
  exact fun hlast => h.single (List.mem_of_getLast? hlast)

/-- A name behind a relative path behind a path: it does not matter which are
put together first. -/
theorem join_join (named : IsFileName name) {path : OsText} (ne : path ≠ "")
    (relative : isAbsolute path = false)
    (unended : path.bytes.getLast? ≠ some separator) (dir : OsText) :
    join (join dir path) name = join dir (path ++ "/" ++ name) := by
  obtain ⟨front, hfront⟩ := exists_join_eq dir
  have hbehind : isAbsolute (path ++ "/" ++ name) = false := by
    rw [OsText.append_assoc,
      isAbsolute_append (OsText.isEmpty_eq_false_iff.2 ne), relative]
  have hne : (front ++ path).isEmpty = false :=
    OsText.isEmpty_eq_false_iff.2 fun hempty =>
      ne (OsText.append_eq_empty_iff.1 hempty).2
  rw [hfront relative, hfront hbehind, join, named.not_isAbsolute, hne,
    if_neg (by decide), if_neg (getLast?_append_ne ne unended front)]
  simp only [OsText.append_assoc]

-- ========================================================= paths as texts

/-- A text is an absolute path if it begins with a slash. -/
theorem isAbsolute_ofText {text : String} :
    isAbsolute text = true ↔ text.toList.head? = some '/' := by
  rw [isAbsolute, beq_iff_eq]
  exact OsText.head?_ofText (by decide : '/'.val.toNat < 0x80)

/-- A text ends in a slash as a path if it does as a text. -/
theorem getLast?_ofText {text : String} :
    (OsText.ofText text).bytes.getLast? = some separator
      ↔ text.toList.getLast? = some '/' :=
  OsText.getLast?_ofText (by decide : '/'.val.toNat < 0x80)

-- ======================================================== parts in a row

/-- Parts in a row are the first one, a slash and the others. -/
theorem ofParts_cons {rest : List OsText} (ne : rest ≠ []) (part : OsText) :
    ofParts (part :: rest) = part ++ "/" ++ ofParts rest := by
  cases rest with
  | nil => exact absurd rfl ne
  | cons next rest => rfl

/-- All pieces of a path in a row, the empty ones too, are the path. -/
theorem ofParts_splitSlashes (cs : List UInt8) :
    ofParts ((splitSlashes cs).map OsText.mk) = OsText.mk cs := by
  induction cs with
  | nil => rfl
  | cons c rest ih =>
      rw [splitSlashes]
      cases hpieces : splitSlashes rest with
      | nil => exact absurd hpieces (splitSlashes_ne_nil rest)
      | cons piece pieces =>
          rw [hpieces] at ih
          by_cases hc : c = separator
          · rw [if_pos hc, List.map_cons, ofParts_cons (by nofun), ih, hc,
              ← OsText.bytes_inj]
            rfl
          · rw [if_neg hc, List.map_cons]
            cases pieces with
            | nil =>
                have hpiece : OsText.mk piece = OsText.mk rest := ih
                have hlist : piece = rest := congrArg OsText.bytes hpiece
                rw [hlist]
                rfl
            | cons next pieces =>
                rw [List.map_cons, ofParts_cons (by nofun)] at ih
                rw [ofParts_cons (by nofun), ← OsText.bytes_inj]
                have hlist := congrArg OsText.bytes ih
                simpa using hlist

/-- Parts in a row are the parts of the path that they make. -/
theorem parts_ofParts {parts : List OsText}
    (h : ∀ part ∈ parts, part.bytes ≠ [] ∧ separator ∉ part.bytes) :
    Path.parts (ofParts parts) = parts := by
  induction parts with
  | nil => rfl
  | cons part rest ih =>
      obtain ⟨⟨hne, hsingle⟩, hrest⟩ := List.forall_mem_cons.1 h
      cases rest with
      | nil => exact parts_of_single hne hsingle
      | cons next rest =>
          rw [ofParts_cons (by nofun), parts_append_slash,
            parts_of_single hne hsingle, ih hrest]
          rfl

/-- Leaving out parts leaves out characters. -/
theorem ofParts_sublist {parts more : List OsText} (h : parts.Sublist more) :
    (ofParts parts).bytes.Sublist (ofParts more).bytes
      ∧ (ofParts parts).size ≤ (ofParts more).size := by
  have hcons : ∀ part rest, part.bytes.Sublist (ofParts (part :: rest)).bytes
      ∧ part.size ≤ (ofParts (part :: rest)).size
      ∧ (ofParts rest).bytes.Sublist (ofParts (part :: rest)).bytes
      ∧ (ofParts rest).size ≤ (ofParts (part :: rest)).size := by
    intro part rest
    -- with nothing behind it a part brings no slash
    by_cases hnil : rest = []
    · subst hnil
      exact ⟨List.Sublist.refl _, Nat.le_refl _, List.nil_sublist _,
        Nat.zero_le _⟩
    · simp only [ofParts_cons hnil, OsText.bytes_append, OsText.size_append]
      refine ⟨?_, by omega, List.sublist_append_right _ _, by omega⟩
      rw [List.append_assoc]
      exact List.sublist_append_left _ _
  induction h with
  | slnil => exact ⟨List.Sublist.refl _, Nat.le_refl _⟩
  | cons part _ ih =>
      obtain ⟨-, -, hchars, hsize⟩ := hcons part _
      exact ⟨ih.1.trans hchars, Nat.le_trans ih.2 hsize⟩
  | @cons_cons parts more part h ih =>
      by_cases hnil : parts = []
      · obtain ⟨hchars, hsize, -, -⟩ := hcons part more
        rw [hnil]
        exact ⟨hchars, hsize⟩
      · have hmore : more ≠ [] := fun heq => hnil (List.sublist_nil.1 (heq ▸ h))
        simp only [ofParts_cons hnil, ofParts_cons hmore, OsText.bytes_append,
          OsText.size_append]
        exact ⟨(List.Sublist.refl _).append ih.1, by omega⟩

-- ===================================================== directories above

/-- The parts of a path without those that stay in place, except for one in
front. -/
def meaningful (path : OsText) : List OsText :=
  match parts path with
  | [] => []
  | first :: rest => first :: rest.filter isMove

/-- The path of the directory that the first parts of a path lead to. -/
def upTo (path : OsText) (n : Nat) : OsText :=
  (if isAbsolute path then "/" else "") ++ ofParts ((meaningful path).take n)

/-- The paths of the directories above the first `n` parts of a path, nearest
first. -/
def above (path : OsText) (n : Nat) : List OsText :=
  ((List.range n).drop 1).reverse.map (upTo path)

/-- The directories above are those of all parts. -/
theorem ancestors_eq (path : OsText) :
    ancestors path = above path (meaningful path).length := rfl

/-- Of the directories above the nearest comes first. -/
theorem above_succ (path : OsText) {n : Nat} (h : 1 ≤ n) :
    above path (n + 1) = upTo path n :: above path n := by
  rw [above, List.range_succ, List.drop_append_of_le_length
    (by rwa [List.length_range]), List.reverse_append]
  rfl

/-- The directories above a path have some of its parts, but not all. -/
theorem exists_of_mem_ancestors {path directory : OsText}
    (h : directory ∈ ancestors path) :
    ∃ n, 0 < n ∧ n < (meaningful path).length ∧ directory = upTo path n := by
  rw [ancestors_eq] at h
  obtain ⟨n, hn, rfl⟩ := List.mem_map.1 h
  have hdrop := List.mem_reverse.1 hn
  refine ⟨n, ?_, List.mem_range.1 (List.mem_of_mem_drop hdrop), rfl⟩
  cases hlength : (meaningful path).length with
  | zero =>
      rw [hlength] at hdrop
      cases hdrop
  | succ m =>
      rw [hlength, List.range_succ_eq_map] at hdrop
      obtain ⟨k, -, rfl⟩ := List.mem_map.1 hdrop
      exact Nat.succ_pos k

/-- The meaningful parts are parts, in their order. -/
theorem meaningful_sublist (path : OsText) :
    (meaningful path).Sublist (parts path) := by
  unfold meaningful
  cases parts path with
  | nil => exact List.Sublist.slnil
  | cons first rest => exact List.filter_sublist.cons_cons first

/-- A part that stays in place is left out. -/
theorem filter_cons_dot (parts : List OsText) :
    (OsText.ofText "." :: parts).filter isMove = parts.filter isMove :=
    List.filter_cons_of_neg (by decide)

theorem filter_cons_of_ne {part : OsText} (h : part ≠ ".")
    (parts : List OsText) :
    (part :: parts).filter isMove = part :: parts.filter isMove := by
  rw [List.filter_cons_of_pos]
  exact bne_iff_ne.2 h

/-- Apart from those that stay in place all parts are meaningful. -/
theorem filter_meaningful (path : OsText) :
    (meaningful path).filter isMove = (parts path).filter isMove := by
  unfold meaningful
  cases parts path with
  | nil => rfl
  | cons first rest =>
      rw [List.filter_cons, List.filter_cons, List.filter_filter]; simp

/-- A path that does not end by staying in place has its last part among the
meaningful ones. -/
theorem exists_meaningful {path last : OsText} {raw : List OsText}
    (h : parts path = raw ++ [last])
    (moves : last ≠ ".") : ∃ front, meaningful path = front ++ [last]
      ∧ raw.filter isMove = front.filter isMove := by
  have hlast : [last].filter isMove = [last] := filter_cons_of_ne moves []
  unfold meaningful
  rw [h]
  cases raw with
  | nil => exact ⟨[], rfl, rfl⟩
  | cons first rest =>
      refine ⟨first :: rest.filter isMove, ?_, ?_⟩
      · simp only [List.cons_append, List.filter_append, hlast]
      · rw [List.filter_cons, List.filter_cons, List.filter_filter]
        simp

/-- The path of a directory above is the row of its parts, behind an empty one
if it is absolute. -/
theorem upTo_eq {path : OsText} {n : Nat} (ne : (meaningful path).take n ≠ []) :
    upTo path n
      = ofParts ((if isAbsolute path then [OsText.ofText ""] else [])
        ++ (meaningful path).take n) := by
  unfold upTo
  split
  · rw [List.singleton_append, ofParts_cons ne]
    rfl
  · rw [List.nil_append, OsText.empty_append]

/-- That row is part of the row of all pieces of the path. -/
theorem upTo_sublist (path : OsText) (n : Nat) :
    ((if isAbsolute path then [OsText.ofText ""] else [])
      ++ (meaningful path).take n).Sublist
      ((splitSlashes path.bytes).map OsText.mk) := by
  have hparts : ((meaningful path).take n).Sublist (parts path) :=
    (List.take_sublist n _).trans (meaningful_sublist path)
  cases habsolute : isAbsolute path with
  | false =>
      rw [if_neg Bool.false_ne_true, List.nil_append]
      exact hparts.trans (List.filter_sublist.map _)
  | true =>
      rw [if_pos rfl]
      unfold parts at hparts
      unfold isAbsolute at habsolute
      cases hlist : path.bytes with
      | nil =>
          rw [hlist] at habsolute
          cases habsolute
      | cons c rest =>
          rw [hlist] at habsolute hparts
          have hslash : c = separator :=
            Option.some.inj (beq_iff_eq.1 habsolute)
          rw [splitSlashes, if_pos hslash] at hparts ⊢
          rw [List.filter_cons_of_neg (by decide)] at hparts
          have hrest : ((meaningful path).take n).Sublist
            ((splitSlashes rest).map OsText.mk) :=
            hparts.trans (List.filter_sublist.map _)
          exact hrest.cons_cons (OsText.ofText "")

theorem single_of_mem_meaningful {path part : OsText} {n : Nat}
    (h : part ∈ (meaningful path).take n) :
    part.bytes ≠ [] ∧ separator ∉ part.bytes :=
  single_of_mem_parts
    ((meaningful_sublist path).subset (List.mem_of_mem_take h))

/-- The path of a directory above has the parts that it was made of. -/
theorem parts_upTo (path : OsText) (n : Nat) :
    parts (upTo path n) = (meaningful path).take n := by
  have hparts := parts_ofParts fun part (h : part ∈ (meaningful path).take n) =>
    single_of_mem_meaningful h
  unfold upTo
  split
  · have hslash := parts_append_slash "" (ofParts ((meaningful path).take n))
    rw [hparts] at hslash
    exact hslash
  · rw [OsText.empty_append, hparts]

/-- It starts where the path does. -/
theorem isAbsolute_upTo {path : OsText} {n : Nat}
    (ne : (meaningful path).take n ≠ []) :
    isAbsolute (upTo path n) = isAbsolute path := by
  unfold upTo
  cases isAbsolute path with
  | true => exact isAbsolute_append (by decide) _
  | false =>
      rw [if_neg Bool.false_ne_true, OsText.empty_append]
      cases hparts : (meaningful path).take n with
      | nil => exact absurd hparts ne
      | cons part rest =>
          have hmem : part ∈ (meaningful path).take n :=
            hparts ▸ List.mem_cons_self
          obtain ⟨hne, hsingle⟩ := single_of_mem_meaningful hmem
          have hrelative := not_isAbsolute_of_single hsingle
          by_cases hrest : rest = []
          · subst hrest
            exact hrelative
          · have hpart : part.isEmpty = false :=
              OsText.isEmpty_eq_false_iff.2 fun h =>
                hne (OsText.bytes_eq_nil_iff.2 h)
            rw [ofParts_cons hrest, OsText.append_assoc,
              isAbsolute_append hpart, hrelative]

/-- A path can be used if it has no zero in it, is not empty and is not too
long. -/
theorem checkPath_eq_ok {path : OsText} : FileSystem.checkPath path = .ok ()
    ↔ 0 ∉ path.bytes ∧ path ≠ "" ∧ path.size ≤ FileSystem.pathLimit := by
  rw [FileSystem.checkPath, List.contains_eq_mem]
  by_cases hzero : 0 ∈ path.bytes
  · simp [hzero]
  · cases hempty : path.isEmpty with
    | true => simp [OsText.isEmpty_iff.1 hempty, OsText.bytes_empty]
    | false =>
        have hne := OsText.isEmpty_eq_false_iff.1 hempty
        by_cases hlong : FileSystem.pathLimit < path.size
        · simp [hzero, hne, hlong]
        · simp [hzero, hne, hlong, Nat.not_lt.1 hlong]

/-- The path of a directory above can be used if the path itself can. -/
theorem checkPath_upTo {path : OsText} {n : Nat}
    (h : FileSystem.checkPath path = .ok ())
    (ne : (meaningful path).take n ≠ []) :
    FileSystem.checkPath (upTo path n) = .ok () := by
  obtain ⟨hzero, -, hlong⟩ := checkPath_eq_ok.1 h
  have hparts := parts_upTo path n
  have hsub := upTo_sublist path n
  have hpath : ofParts ((splitSlashes path.bytes).map OsText.mk) = path := by
    rw [ofParts_splitSlashes, ]
  obtain ⟨hchars, hsize⟩ := ofParts_sublist hsub
  rw [hpath, ← upTo_eq ne] at hchars hsize
  refine checkPath_eq_ok.2
    ⟨fun hmem => hzero (hchars.subset hmem), fun parts_empty => ?_,
      Nat.le_trans hsize hlong⟩
  rw [parts_empty] at hparts
  exact ne hparts.symm

end Path
end Prerender.Files
