/-
Where paths lead, and what is in the way.

A part of a path leads from one place to the next: down to a name, up,
or nowhere (`Place.walk`). Where a path leads is a matter of its parts
alone; whether it can be followed there depends on what stands on the
way. A directory is reached exactly when there is one at every place on
the way and no name is too long (`FileSystem.reach_eq_ok`).

Where it is not reached there are two kinds of reasons. What is missing
can be made. What cannot be helped is a name that is too long, or a file
where a directory would have to be (`FileSystem.hurdle?`). From a
directory on, what is not reached is missing or behind a hurdle
(`FileSystem.reach_error`). A hurdle depends on nothing but the files on
the way (`FileSystem.hurdle?_congr`), so that it stays what it is while
directories are made.

On a way that leads downwards only, places are passed once and in order
(`Place.prefix_or_prefix_of_down`), and a file that stops it stops it
wherever it stands. On a way that leads up again this may be otherwise:
`..` behind a directory that is missing does not get back up.
-/
import Prerender.Proofs.Files.Frame

namespace Prerender

open Files

-- =============================================================== places

namespace Files.Place

/-- The place that a part of a path leads to. -/
def step (place : Place) (part : OsText) : Place :=
  if part = "." then place else if part = ".." then place.dropLast
    else place ++ [part]

/-- The place that the parts of a path lead to. -/
def walk (place : Place) (parts : List OsText) : Place := parts.foldl step place

/-- Whether the parts of a path lead over a place. -/
def OnWay (place : Place) (parts : List OsText) (passed : Place) : Prop :=
  ∃ front, front <+: parts ∧ walk place front = passed

variable {place passed : Place} {part : OsText} {parts front back : List OsText}

theorem walk_append (place : Place) (front back : List OsText) :
    walk place (front ++ back) = walk (walk place front) back :=
    List.foldl_append

/-- Names lead downwards. -/
theorem walk_of_names (h : ∀ part ∈ parts, part ≠ "." ∧ part ≠ "..")
    (place : Place) :
    walk place parts = place ++ parts := by
  induction parts generalizing place with
  | nil => exact (List.append_nil place).symm
  | cons part rest ih =>
      obtain ⟨⟨hdot, hdots⟩, hrest⟩ := List.forall_mem_cons.1 h
      show walk (step place part) rest = _
      rw [ih hrest, step, if_neg hdot, if_neg hdots, List.append_assoc,
        List.singleton_append]

/-- A way leads over the place where it begins. -/
theorem onWay_start (place : Place) (parts : List OsText) :
    OnWay place parts place :=
  ⟨[], List.nil_prefix, rfl⟩

/-- It leads over the place where it ends. -/
theorem onWay_end (place : Place) (parts : List OsText) :
    OnWay place parts (walk place parts) :=
  ⟨parts, List.prefix_rfl, rfl⟩

/-- Without parts it leads over no other place. -/
theorem onWay_nil : OnWay place [] passed ↔ passed = place := by
  constructor
  · rintro ⟨front, hfront, rfl⟩
    rw [List.prefix_nil.1 hfront]
    rfl
  · rintro rfl
    exact onWay_start _ _

/-- A part more in front brings one place more. -/
theorem onWay_cons :
    OnWay place (part :: parts) passed
      ↔ passed = place ∨ OnWay (step place part) parts passed := by
  constructor
  · rintro ⟨front, hfront, rfl⟩
    cases front with
    | nil => exact Or.inl rfl
    | cons first rest =>
        obtain ⟨rfl, hrest⟩ := List.cons_prefix_cons.1 hfront
        exact Or.inr ⟨rest, hrest, rfl⟩
  · rintro (rfl | ⟨front, hfront, rfl⟩)
    · exact onWay_start _ _
    · exact ⟨part :: front, List.cons_prefix_cons.2 ⟨rfl, hfront⟩, rfl⟩

/-- The places on a way are those on its first piece and those on the rest. -/
theorem onWay_append :
    OnWay place (front ++ back) passed
      ↔ OnWay place front passed ∨ OnWay (walk place front) back passed := by
  induction front generalizing place with
  | nil =>
      refine ⟨Or.inr, ?_⟩
      rintro (h | h)
      · rw [onWay_nil.1 h]
        exact onWay_start _ _
      · exact h
  | cons part rest ih =>
      rw [List.cons_append, onWay_cons, onWay_cons, ih, or_assoc]
      rfl

/-- Parts that stay in place lead over no further places. -/
theorem onWay_filter : OnWay place (parts.filter Path.isMove) passed
    ↔ OnWay place parts passed := by
  induction parts generalizing place with
  | nil => rfl
  | cons part rest ih =>
      by_cases h : part = "."
      · subst h
        rw [Path.filter_cons_dot, ih, onWay_cons]
        refine ⟨Or.inr, ?_⟩
        rintro (rfl | hway)
        · exact onWay_start _ _
        · exact hway
      · rw [Path.filter_cons_of_ne h, onWay_cons, onWay_cons, ih]

/-- Parts that do not lead up stay below the place where they begin. -/
theorem prefix_walk (down : ∀ part ∈ parts, part ≠ "..") (place : Place) :
    place <+: walk place parts := by
  induction parts generalizing place with
  | nil => exact List.prefix_rfl
  | cons part rest ih =>
      obtain ⟨hpart, hrest⟩ := List.forall_mem_cons.1 down
      refine List.IsPrefix.trans ?_ (ih hrest (step place part))
      rw [step, if_neg hpart]
      split
      · exact List.prefix_rfl
      · exact List.prefix_append _ _

/-- Of two places on a way that only leads downwards one is above the other. -/
theorem prefix_or_prefix_of_down (down : ∀ part ∈ parts, part ≠ "..")
    {other : Place}
    (h : OnWay place parts passed) (h' : OnWay place parts other) :
    passed <+: other ∨ other <+: passed := by
  have hfurther : ∀ {front back : List OsText}, front ++ back <+: parts →
      walk place front <+: walk place (front ++ back) := by
    intro front back hparts
    rw [walk_append]
    exact prefix_walk (fun part hmem =>
      down part (hparts.subset (List.mem_append_right _ hmem))) _
  obtain ⟨front, hfront, rfl⟩ := h
  obtain ⟨front', hfront', rfl⟩ := h'
  rcases List.prefix_or_prefix_of_prefix hfront hfront' with
    ⟨back, rfl⟩ | ⟨back, rfl⟩
  · exact Or.inl (hfurther hfront')
  · exact Or.inr (hfurther hfront)

theorem OnWay.append (h : OnWay place front passed) (back : List OsText) :
    OnWay place (front ++ back) passed := onWay_append.2 (Or.inl h)

end Files.Place

namespace FileSystem

open Files.Place (step walk OnWay)

variable {fs fs' : FileSystem} {place : Place} {part : OsText}
  {parts front back : List OsText}

/-- The place that a path leads to, whether it can be followed there or not. -/
def placeOf (fs : FileSystem) (path : OsText) : Place :=
  walk (fs.start path) (Path.parts path)

/-- The text of the file at a place, if there is one. -/
def textAt? (fs : FileSystem) (place : Place) : Option String :=
  match fs.kindAt? place with
  | some (.file text) => some text
  | _ => none

/-- A text at a place is that of a file. -/
theorem textAt?_eq_some {text : String} :
    fs.textAt? place = some text ↔ fs.kindAt? place = some (.file text) := by
  unfold textAt?
  cases fs.kindAt? place with
  | none => exact ⟨nofun, nofun⟩
  | some kind =>
      cases kind with
      | directory => exact ⟨nofun, nofun⟩
      | file text' => simp

-- ============================================================= reaching

/-- Follows parts to a directory. -/
def reach (fs : FileSystem) (place : Place) (parts : List OsText) :
    Except FileError Place := do
  let last ← fs.follow place parts
  fs.requireDirectory last
  return last

/-- Without parts a directory is reached where there is one. -/
theorem reach_nil :
    fs.reach place [] = (fs.requireDirectory place).map fun _ => place := rfl

/-- A part is followed from a directory, unless it is too long. -/
theorem reach_cons : fs.reach place (part :: parts) = (do
    fs.requireDirectory place
    if nameLimit < part.size then .error .nameTooLong
    else fs.reach (step place part) parts) := by
  have hdot : ¬ nameLimit < (OsText.ofText ".").size := by decide
  have hdots : ¬ nameLimit < (OsText.ofText "..").size := by decide
  rw [reach, follow]
  cases fs.requireDirectory place with
  | error e => rfl
  | ok u =>
      show Except.bind (if part = "." then _ else _) _ = if _ then _ else _
      by_cases h : part = "."
      · subst h
        rw [if_pos rfl, if_neg hdot]
        rfl
      · by_cases h' : part = ".."
        · subst h'
          rw [if_neg h, if_pos rfl, if_neg hdots]
          rfl
        · rw [if_neg h, if_neg h', step, if_neg h, if_neg h']
          by_cases hlong : nameLimit < part.size
          · rw [if_pos hlong, if_pos hlong]
            rfl
          · rw [if_neg hlong, if_neg hlong]
            rfl

/-- The check passes where there is a directory. -/
theorem requireDirectory_of_kind (h : fs.kindAt? place = some .directory) :
    fs.requireDirectory place = .ok () := requireDirectory_eq_ok.2 h

theorem reach_of_error {e : FileError}
    (h : fs.requireDirectory place = .error e)
    (parts : List OsText) : fs.reach place parts = .error e := by
  cases parts with
  | nil => rw [reach_nil, h]; rfl
  | cons part rest => rw [reach_cons, h]; rfl

/-- In a directory only the length of the next part matters. -/
theorem reach_cons_of_kind (h : fs.kindAt? place = some .directory)
    (part : OsText) (parts : List OsText) : fs.reach place (part :: parts)
      = if nameLimit < part.size then .error .nameTooLong
        else fs.reach (step place part) parts := by
  rw [reach_cons, requireDirectory_of_kind h]
  rfl

/-- A way may be gone in two goes. -/
theorem reach_append (fs : FileSystem) (place : Place)
    (front back : List OsText) :
    fs.reach place (front ++ back)
      = (fs.reach place front).bind fun mid => fs.reach mid back := by
  induction front generalizing place with
  | nil =>
      rw [List.nil_append, reach_nil]
      cases h : fs.requireDirectory place with
      | error e => exact reach_of_error h back
      | ok u => rfl
  | cons part rest ih =>
      rw [List.cons_append, reach_cons, reach_cons]
      cases fs.requireDirectory place with
      | error e => rfl
      | ok u =>
          show (if _ then _ else _) = Except.bind (if _ then _ else _) _
          split
          · rfl
          · exact ih _

/-- Parts that stay in place make no difference. -/
theorem reach_filter (fs : FileSystem) (place : Place) (parts : List OsText) :
    fs.reach place (parts.filter Path.isMove) = fs.reach place parts := by
  induction parts generalizing place with
  | nil => rfl
  | cons part rest ih =>
      by_cases h : part = "."
      · subst h
        rw [Path.filter_cons_dot, ih]
        cases hdir : fs.requireDirectory place with
        | error e => rw [reach_of_error hdir, reach_of_error hdir]
        | ok u =>
            have hshort : ¬ nameLimit < (OsText.ofText ".").size := by decide
            rw [reach_cons_of_kind (requireDirectory_eq_ok.1 hdir),
              if_neg hshort]
            rfl
      · rw [Path.filter_cons_of_ne h, reach_cons, reach_cons]
        simp only [ih]

/-- A directory is reached over directories by names of which none is too
long. -/
theorem reach_eq_ok {last : Place} :
    fs.reach place parts = .ok last
      ↔ last = walk place parts
        ∧ (∀ passed, OnWay place parts passed →
          fs.kindAt? passed = some .directory)
        ∧ ∀ part ∈ parts, ¬ nameLimit < part.size := by
  induction parts generalizing place with
  | nil =>
      rw [reach_nil]
      cases hdir : fs.requireDirectory place with
      | error e =>
          refine ⟨nofun, fun ⟨_, hway, _⟩ => ?_⟩
          rw [requireDirectory_of_kind (hway place (Place.onWay_start _ _))]
            at hdir
          cases hdir
      | ok u =>
          constructor
          · intro h
            cases h
            exact ⟨rfl, fun _ h =>
              Place.onWay_nil.1 h ▸ requireDirectory_eq_ok.1 hdir, nofun⟩
          · rintro ⟨rfl, -, -⟩
            rfl
  -- the first place has to be a directory before its part is looked at
  | cons part rest ih =>
      cases hdir : fs.requireDirectory place with
      | error e =>
          rw [reach_of_error hdir]
          refine ⟨nofun, fun ⟨_, hway, _⟩ => ?_⟩
          rw [requireDirectory_of_kind (hway place (Place.onWay_start _ _))]
            at hdir
          cases hdir
      | ok u =>
          have hkind := requireDirectory_eq_ok.1 hdir
          rw [reach_cons_of_kind hkind, List.forall_mem_cons]
          by_cases hlong : nameLimit < part.size
          · rw [if_pos hlong]
            exact ⟨nofun, fun ⟨_, _, hshort, _⟩ => absurd hlong hshort⟩
          · rw [if_neg hlong, ih]
            constructor
            · rintro ⟨rfl, hway, hshort⟩
              refine ⟨rfl, fun passed h => ?_, hlong, hshort⟩
              rcases Place.onWay_cons.1 h with rfl | h
              · exact hkind
              · exact hway passed h
            · rintro ⟨rfl, hway, -, hshort⟩
              exact ⟨rfl, fun passed h =>
                hway passed (Place.onWay_cons.2 (Or.inr h)), hshort⟩

/-- Where reaching fails, so does reaching anything beyond. -/
theorem reach_append_error {e : FileError} (h : fs.reach place front = .error e)
    (back : List OsText) : fs.reach place (front ++ back) = .error e := by
  rw [reach_append, h]
  rfl

/-- What the check says depends on what stands there. -/
theorem requireDirectory_eq (fs : FileSystem) (place : Place) :
    fs.requireDirectory place = match fs.kindAt? place with
      | none => .error .notFound
      | some (.file _) => .error .notDirectory
      | some .directory => .ok () := by
  unfold requireDirectory kindAt? Item.kindAt?
  cases fs.root.at? place with
  | none => rfl
  | some item => cases item <;> rfl

/-- A file in the way stays in the way where files and directories are kept. -/
theorem reach_notDirectory_mono
    (h : fs.reach place parts = .error .notDirectory)
    (directories : ∀ passed, OnWay place parts passed →
      fs.kindAt? passed = some .directory →
      fs'.kindAt? passed = some .directory)
    (files : ∀ passed text, fs.kindAt? passed = some (.file text) →
      OnWay place parts passed →
      fs'.kindAt? passed = some (.file text)) :
    fs'.reach place parts = .error .notDirectory := by
  induction parts generalizing place with
  | nil =>
      rw [reach_nil, requireDirectory_eq] at h
      cases hkind : fs.kindAt? place with
      | none => rw [hkind] at h; cases h
      | some kind =>
          cases kind with
          | directory => rw [hkind] at h; cases h
          | file text =>
              rw [reach_nil, requireDirectory_eq, files place text hkind
                (Place.onWay_start _ _)]
              rfl
  | cons part rest ih =>
      cases hkind : fs.kindAt? place with
      | none =>
          rw [reach_of_error (by rw [requireDirectory_eq, hkind])] at h
          cases h
      | some kind =>
          cases kind with
          -- the file is met here, and is there afterwards
          | file text =>
              refine reach_of_error ?_ _
              rw [requireDirectory_eq, files place text hkind
                (Place.onWay_start _ _)]
          | directory =>
              rw [reach_cons_of_kind hkind] at h
              rw [reach_cons_of_kind
                (directories place (Place.onWay_start _ _) hkind)]
              split at h
              · cases h
              · next hshort =>
                rw [if_neg hshort]
                exact ih h (fun passed hway =>
                  directories passed (Place.onWay_cons.2 (Or.inr hway)))
                  fun passed text hfile hway =>
                    files passed text hfile (Place.onWay_cons.2 (Or.inr hway))

-- ============================================================== hurdles

/-- What keeps the missing directories of a path from being made: the first
name that is too long, or the first file in the place of a directory. -/
def hurdle? (fs : FileSystem) : Place → List OsText → Option FileError
  | _, [] => none
  | place, part :: rest =>
      if nameLimit < part.size then some .nameTooLong
      else
        match fs.textAt? (step place part) with
        | some _ => some .notDirectory
        | none => fs.hurdle? (step place part) rest

/-- The first hurdle of a way is the first one of its first piece, or else
that of the rest. -/
theorem hurdle?_append (fs : FileSystem) (place : Place)
    (front back : List OsText) :
    fs.hurdle? place (front ++ back)
      = (fs.hurdle? place front).or (fs.hurdle? (walk place front) back) := by
  induction front generalizing place with
  | nil => rfl
  | cons part rest ih =>
      rw [List.cons_append, hurdle?, hurdle?]
      split
      · rfl
      · cases fs.textAt? (step place part) with
        | some text => rfl
        | none => exact ih _

/-- Hurdles are a matter of the files on the way. -/
theorem hurdle?_congr (h : ∀ passed, OnWay place parts passed →
    fs'.textAt? passed = fs.textAt? passed) :
    fs'.hurdle? place parts = fs.hurdle? place parts := by
  induction parts generalizing place with
  | nil => rfl
  | cons part rest ih =>
      have hrest : ∀ passed, OnWay (step place part) rest passed → _ :=
        fun passed hway => h passed (Place.onWay_cons.2 (Or.inr hway))
      rw [hurdle?, hurdle?, hrest _ (Place.onWay_start _ _), ih hrest]

/-- There are two kinds of hurdles: a part that is too long, and a file on the
way. -/
theorem hurdle?_cases {e : FileError} (h : fs.hurdle? place parts = some e) :
    (e = .nameTooLong ∧ ∃ part ∈ parts, nameLimit < part.size)
      ∨ e = .notDirectory ∧ ∃ passed text, OnWay place parts passed
        ∧ fs.kindAt? passed = some (.file text) := by
  induction parts generalizing place with
  | nil => cases h
  | cons part rest ih =>
      rw [hurdle?] at h
      split at h
      · next hlong =>
          exact Or.inl ⟨(Option.some.inj h).symm, part, .head _, hlong⟩
      · cases htext : fs.textAt? (step place part) with
        | some text =>
            rw [htext] at h
            refine Or.inr ⟨(Option.some.inj h).symm, step place part, text, ?_,
              textAt?_eq_some.1 htext⟩
            exact Place.onWay_cons.2 (Or.inr (Place.onWay_start _ _))
        | none =>
            rw [htext] at h
            rcases ih h with ⟨he, long, hmem, hlong⟩ | ⟨he, passed, text,
              hway, hfile⟩
            · exact Or.inl ⟨he, long, .tail _ hmem, hlong⟩
            · exact Or.inr
                ⟨he, passed, text, Place.onWay_cons.2 (Or.inr hway), hfile⟩

/-- From a directory on, what is not reached is missing or behind a hurdle. -/
theorem reach_error (hstart : fs.kindAt? place = some .directory)
    {e : FileError}
    (h : fs.reach place parts = .error e) :
    e = .notFound ∨ fs.hurdle? place parts = some e := by
  induction parts generalizing place with
  | nil =>
      rw [reach_nil, requireDirectory_of_kind hstart] at h
      cases h
  | cons part rest ih =>
      rw [reach_cons_of_kind hstart] at h
      rw [hurdle?]
      split at h
      · next hlong =>
        cases h
        exact Or.inr (if_pos hlong)
      · next hshort =>
        rw [if_neg hshort, textAt?]
        cases hkind : fs.kindAt? (step place part) with
        | none =>
            rw [reach_of_error (by rw [requireDirectory_eq, hkind])] at h
            cases h
            exact Or.inl rfl
        | some kind =>
            cases kind with
            | directory => exact ih hkind h
            | file text =>
                rw [reach_of_error (by rw [requireDirectory_eq, hkind])] at h
                cases h
                exact Or.inr rfl

/-- What is reached has no hurdle in front of it. -/
theorem hurdle?_of_reach {last : Place} (h : fs.reach place parts = .ok last) :
    fs.hurdle? place parts = none := by
  obtain ⟨-, hway, hshort⟩ := reach_eq_ok.1 h
  cases hhurdle : fs.hurdle? place parts with
  | none => rfl
  | some e =>
      rcases hurdle?_cases hhurdle with
        ⟨-, part, hmem, hlong⟩ | ⟨-, passed, text, hpassed, hfile⟩
      · exact absurd hlong (hshort part hmem)
      · rw [hway passed hpassed] at hfile
        cases hfile

/-- What has something below it is a directory. -/
theorem kindAt?_of_below {name : OsText} {rest : Place} {kind : Item.Kind}
    (h : fs.kindAt? (place ++ name :: rest) = some kind) :
    fs.kindAt? place = some .directory := by
  by_cases hplace : fs.kindAt? place = some .directory
  · exact hplace
  · rw [kindAt?, Item.kindAt?_append_of_ne hplace rest] at h
    cases h

/-- A path that goes downwards only and is stopped by a file is stopped by it
wherever the file is. -/
theorem reach_notDirectory_of_file (hstart : fs.kindAt? place = some .directory)
    (down : ∀ part ∈ parts, part ≠ "..")
    (h : fs.reach place parts = .error .notDirectory)
    (files : ∀ passed text, fs.kindAt? passed = some (.file text) →
      OnWay place parts passed →
      fs'.kindAt? passed = some (.file text)) :
    fs'.reach place parts = .error .notDirectory := by
  have hhurdle := (reach_error hstart h).resolve_left nofun
  obtain ⟨file, text, hway, hfile⟩ :=
    (hurdle?_cases hhurdle).elim (fun ⟨he, _⟩ => by cases he) And.right
  have hfile' := files file text hfile hway
  -- a directory on the way is above the file, since below it there is nothing
  refine reach_notDirectory_mono h (fun passed hpassed hdir => ?_) files
  rcases Place.prefix_or_prefix_of_down down hpassed hway with
    ⟨rest, rfl⟩ | ⟨rest, rfl⟩
  · cases rest with
    | nil =>
        rw [List.append_nil, hdir] at hfile
        cases hfile
    | cons name rest => exact kindAt?_of_below hfile'
  · cases rest with
    | nil =>
        rw [List.append_nil, hfile] at hdir
        cases hdir
    | cons name rest =>
        rw [kindAt?_of_below hdir] at hfile
        cases hfile

end FileSystem
end Prerender
