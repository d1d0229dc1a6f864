/-
Stored paths.

What a registry stores has the parts of the written path with either
separator read as `/` (`PagePath.parts_stored`), so that code that is
registered under different spellings of a path comes to one page. But it
is not always relative and without `/` at its ends. A backslash at an
end is turned into `/` only after the ends were stripped, and so it
stays (`PagePath.isTidy_stored_iff`). Paths without backslashes are
stored as they should be (`PagePath.isTidy_stored`).

The address of a page is a `/` and its stored path, with the exception
of the root. It determines the stored path if that is tidy
(`PagePath.IsTidy.eq_of_url`), which a path that begins with `/` need
not be.

Stripping is a matter of lists of characters, and is done there first:
what is stripped stood at the ends, what is left begins and ends with
another character, and stripping again changes nothing.
-/
import Mathlib.Data.List.DropRight
import Prerender.Proofs.Files.Path
import Prerender.Site.PagePath

namespace Prerender

open Files

-- ========================================================= stripped texts

namespace Text

variable {p : Char → Bool} {cs : List Char}

/-- Trimming the end is what the library calls so. -/
theorem dropEndWhile_eq (p : Char → Bool) (cs : List Char) :
    dropEndWhile p cs = cs.rdropWhile p := rfl

/-- Whether the characters neither begin nor end with one that satisfies `p`. -/
def IsStripped (p : Char → Bool) (cs : List Char) : Prop :=
  cs.head?.any p = false ∧ cs.getLast?.any p = false

/-- What is left begins with another character. -/
theorem head?_dropWhile_any (p : Char → Bool) (cs : List Char) :
    (cs.dropWhile p).head?.any p = false := by
  induction cs with
  | nil => rfl
  | cons c rest ih =>
      rw [List.dropWhile_cons]
      cases hc : p c with
      | true => exact ih
      | false => exact hc

theorem getLast?_rdropWhile_any (p : Char → Bool) (cs : List Char) :
    (cs.rdropWhile p).getLast?.any p = false := by
  rw [List.rdropWhile, List.getLast?_reverse]
  exact head?_dropWhile_any p cs.reverse

/-- A text and a beginning of it begin alike. -/
theorem head?_prefix_eq {ds : List Char} (h : ds <+: cs) (ne : ds ≠ []) :
    ds.head? = cs.head? := by
  obtain ⟨rest, rfl⟩ := h
  cases ds with
  | nil => exact absurd rfl ne
  | cons c ds => rfl

/-- What was stripped is stripped. -/
theorem isStripped_stripChars (p : Char → Bool) (cs : List Char) :
    IsStripped p (stripChars p cs) := by
  rw [stripChars, dropEndWhile_eq]
  refine ⟨?_, getLast?_rdropWhile_any p _⟩
  by_cases hnil : (cs.dropWhile p).rdropWhile p = []
  · rw [hnil]
    rfl
  · rw [head?_prefix_eq (List.rdropWhile_prefix p _) hnil]
    exact head?_dropWhile_any p cs

/-- Nothing is trimmed from an end that has another character. -/
theorem dropEndWhile_of_last (h : cs.getLast?.any p = false) :
    dropEndWhile p cs = cs := by
  rw [dropEndWhile_eq, List.rdropWhile_eq_self_iff]
  intro hne
  rw [List.getLast?_eq_some_getLast hne, Option.any_some] at h
  rw [h]
  exact Bool.false_ne_true

/-- What is stripped stays as it is. -/
theorem IsStripped.stripChars_eq (h : IsStripped p cs) :
    stripChars p cs = cs := by
  have hfront : cs.dropWhile p = cs := by
    cases cs with
    | nil => rfl
    | cons c rest =>
        rw [List.dropWhile_cons,
        if_neg (by rw [show p c = false from h.1]; nofun)]
  rw [stripChars, hfront, dropEndWhile_of_last h.2]

/-- What is stripped from a text stood at its ends. -/
theorem exists_eq_stripChars (p : Char → Bool) (cs : List Char) :
    ∃ pre post, cs = pre ++ (stripChars p cs ++ post) ∧ (∀ c ∈ pre, p c = true)
      ∧ ∀ c ∈ post, p c = true := by
  refine ⟨cs.takeWhile p, (cs.dropWhile p).rtakeWhile p, ?_, fun c hc =>
    List.mem_takeWhile_imp hc, fun c hc => List.mem_rtakeWhile_imp hc⟩
  rw [stripChars, dropEndWhile_eq, List.rdropWhile_append_rtakeWhile,
    List.takeWhile_append_dropWhile]

theorem stripChars_subset (p : Char → Bool) (cs : List Char) :
    stripChars p cs ⊆ cs := by
  obtain ⟨pre, post, heq, -⟩ := exists_eq_stripChars p cs
  intro c hc
  rw [heq]
  exact List.mem_append_right _ (List.mem_append_left _ hc)

end Text

-- ====================================================== parts of a path

namespace Files.Path

/-- Slashes in front of a path and behind it add no parts. -/
theorem parts_of_slashes {pre post cs : List Char} (hpre : ∀ c ∈ pre, c = '/')
    (hpost : ∀ c ∈ post, c = '/') :
    parts (String.ofList (pre ++ (cs ++ post))) = parts (String.ofList cs) := by
  -- for every text in front, since a slash behind `cs` comes to stand in
  -- front of the next one
  have hbehind : ∀ cs : List Char,
      parts (String.ofList (cs ++ post)) = parts (String.ofList cs) := by
    clear cs
    induction post with
    | nil =>
        intro cs
        rw [List.append_nil]
    | cons c post ih =>
        obtain ⟨rfl, hrest⟩ := List.forall_mem_cons.1 hpost
        intro cs
        have hslash := parts_append_slash (String.ofList cs) ""
        rw [parts_empty, List.append_nil, OsText.append_empty] at hslash
        rw [List.append_cons, ih hrest, ← hslash, String.ofList_append,
          OsText.ofText_append]
  induction pre with
  | nil => exact hbehind cs
  | cons c pre ih =>
      obtain ⟨rfl, hrest⟩ := List.forall_mem_cons.1 hpre
      have hslash := parts_append_slash "" (String.ofList (pre ++ (cs ++ post)))
      rw [parts_empty, List.nil_append, ih hrest, OsText.empty_append] at hslash
      rw [← hslash, List.cons_append, OsText.ofText_ofList_cons]

end Files.Path

-- ========================================================== stored paths

namespace PagePath

variable {path page page' : String}

/-- A separator as it is stored. -/
def slash (c : Char) : Char := if c = '\x5c' then '/' else c

/-- The path with `/` for either separator. -/
def slashed (path : String) : String := String.ofList (path.toList.map slash)

/-- The characters of a path without `/` at either end. -/
def bare (path : String) : List Char := Text.stripChars (· == '/') path.toList

/-- A path is stored without `/` at its ends, and then with `/` for
separators. -/
theorem toList_stored (path : String) :
    (stored path).toList = (bare path).map slash :=
  String.toList_ofList

theorem slash_ne (c : Char) : slash c ≠ '\x5c' := by
  unfold slash
  split
  · decide
  · next hc => exact hc

theorem any_eq_slash {c : Option Char} :
    c.any (· == '/') = false ↔ c ≠ some '/' := by
  cases c with
  | none => exact iff_of_true rfl nofun
  | some c => rw [Option.any_some, beq_eq_false_iff_ne, Ne, Ne, Option.some_inj]

/-- What is stored as `/` without being one was a backslash. -/
theorem map_slash_eq {c : Option Char} (h : c.any (· == '/') = false) :
    c.map slash = some '/' ↔ c = some '\x5c' := by
  cases c with
  | none => exact iff_of_false nofun nofun
  | some c =>
      rw [any_eq_slash, Ne, Option.some_inj] at h
      rw [Option.map_some, Option.some_inj, Option.some_inj]
      unfold slash
      split
      · next hc => exact iff_of_true rfl hc
      · next hc => exact iff_of_false h hc

/-- A stored path has the parts of the written one. -/
theorem parts_stored (path : String) :
    Path.parts (stored path) = Path.parts (slashed path) := by
  obtain ⟨pre, post, heq, hpre, hpost⟩ :=
    Text.exists_eq_stripChars (· == '/') path.toList
  have hkept : ∀ {cs : List Char}, (∀ c ∈ cs, (c == '/') = true) →
    ∀ c ∈ cs.map slash, c = '/' := by
    intro cs hcs c hc
    obtain ⟨d, hd, rfl⟩ := List.mem_map.1 hc
    rw [beq_iff_eq.1 (hcs d hd)]
    rfl
  rw [slashed, heq, List.map_append, List.map_append,
    Path.parts_of_slashes (hkept hpre) (hkept hpost)]
  rfl

/-- A stored path begins with `/` where the written one begins with a
backslash behind slashes. -/
theorem head?_stored (path : String) :
    (stored path).toList.head? = some '/'
      ↔ (bare path).head? = some '\x5c' := by
  rw [toList_stored, List.head?_map]
  exact map_slash_eq (Text.isStripped_stripChars (· == '/') path.toList).1

/-- A stored path ends with `/` where the written one ends with a backslash
before slashes. -/
theorem getLast?_stored (path : String) :
    (stored path).toList.getLast? = some '/'
      ↔ (bare path).getLast? = some '\x5c' := by
  rw [toList_stored, List.getLast?_map]
  exact map_slash_eq (Text.isStripped_stripChars (· == '/') path.toList).2

theorem isAbsolute_stored (path : String) :
    Path.isAbsolute (stored path) = true ↔ (bare path).head? = some '\x5c' := by
  rw [Path.isAbsolute_ofText, head?_stored]

theorem not_mem_stored (path : String) : '\x5c' ∉ (stored path).toList := by
  rw [toList_stored]
  intro hmem
  obtain ⟨c, -, hc⟩ := List.mem_map.1 hmem
  exact slash_ne c hc

-- ============================================================= tidy paths

/-- A path as a registry means to store it: relative, without a separator at
its end or a backslash anywhere, and stored again as it is. -/
structure IsTidy (page : String) : Prop where
  relative : page.toList.head? ≠ some '/'
  unended : page.toList.getLast? ≠ some '/'
  slashed : '\x5c' ∉ page.toList
  again : stored page = page

/-- Stripping a path without backslashes brings none. -/
theorem not_mem_bare (h : '\x5c' ∉ path.toList) : '\x5c' ∉ bare path :=
  fun hmem => h (Text.stripChars_subset _ _ hmem)

/-- Without backslashes only the ends change. -/
theorem toList_stored_of_not_mem (h : '\x5c' ∉ path.toList) :
    (stored path).toList = bare path := by
  rw [toList_stored]
  refine (List.map_congr_left fun c hc => ?_).trans (List.map_id _)
  refine if_neg ?_
  rintro rfl
  exact not_mem_bare h hc

/-- A path without backslashes, and without `/` at its ends, is stored as it
is. -/
theorem isTidy_of_not_mem (relative : page.toList.head? ≠ some '/')
    (unended : page.toList.getLast? ≠ some '/')
    (slashed : '\x5c' ∉ page.toList) : IsTidy page := by
  have hstripped : Text.IsStripped (· == '/') page.toList :=
    ⟨any_eq_slash.2 relative, any_eq_slash.2 unended⟩
  refine ⟨relative, unended, slashed, ?_⟩
  rw [← String.toList_inj, toList_stored_of_not_mem slashed]
  exact hstripped.stripChars_eq

/-- What is stored is as it should be, unless there is a backslash at an end
of the written path, be it before or behind slashes. -/
theorem isTidy_stored_iff (path : String) :
    IsTidy (stored path)
      ↔ (bare path).head? ≠ some '\x5c'
        ∧ (bare path).getLast? ≠ some '\x5c' := by
  rw [Ne, Ne, ← head?_stored, ← getLast?_stored]
  constructor
  · intro h
    exact ⟨h.relative, h.unended⟩
  · rintro ⟨hrelative, hunended⟩
    exact isTidy_of_not_mem hrelative hunended (not_mem_stored path)

/-- A path without backslashes is stored as it should be. -/
theorem isTidy_stored (h : '\x5c' ∉ path.toList) : IsTidy (stored path) := by
  refine (isTidy_stored_iff path).2 ⟨fun hfront => ?_, fun hback => ?_⟩
  · exact not_mem_bare h (List.mem_of_head? hfront)
  · exact not_mem_bare h (List.mem_of_getLast? hback)

/-- The address of a tidy path is the path behind a `/`, so it tells the
path. -/
theorem IsTidy.url_eq (h : IsTidy page) : url page = "/" ++ page :=
  by rw [url, h.again]

theorem IsTidy.eq_of_url (h : IsTidy page) (h' : IsTidy page')
    (heq : url page = url page') :
    page = page' := by
  rw [h.url_eq, h'.url_eq] at heq
  exact String.append_right_inj _ |>.1 heq

end PagePath
end Prerender
