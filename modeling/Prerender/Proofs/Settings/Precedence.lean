/-
Which of several sources has the say.

Sources of different ranks come in one order only, however they are
given, so there is one outcome (`Source.ranked_congr`). Laying fails
with the first source in that order that does not load
(`Source.overlayAll_eq_error`), which is the lowest one. If all of them
load, the source of highest rank that touches a path decides what is
there: those above leave the path as it is
(`Source.exists_overlayAll_append`), and what those below had there is
covered (`Json.heldAlike_overlay`).

To touch a path is to have a value there or on the way to it. A source
that has a value on the way, and no object, bars the way: what lower
sources have further on is gone, and a higher source that has an object
there starts anew. This is why a path is decided by the highest source
that touches it and not by the highest one that has a value there
(`Source.samples_merge_by_rank`).

The sources on either side of a given one are told by their ranks alone
(`Source.mem_sides_iff`), so the statements are about sources in
whatever order they are given and never mention the order in which they
are laid. That the data of each is in order is asked for, as members are
found by name only then; what text is read as always is.
-/
import Prerender.Proofs.Json.Path

namespace Prerender.Source

open Json (at? HeldAlike)

variable {sources before after : List Source} {source : Source}
  {base layer : Json} {e : SettingsError}

-- ================================================================ ranks

/-- No two of the sources have one rank. -/
abbrev RanksDiffer (sources : List Source) : Prop :=
  (sources.map priority).Nodup

/-- Ranking sources loses none and adds none. -/
theorem ranked_perm (sources : List Source) : (ranked sources).Perm sources :=
  List.mergeSort_perm ..

/-- Sources of different ranks come in the order of their ranks. -/
theorem ranked_pairwise (distinct : RanksDiffer sources) :
    (ranked sources).Pairwise fun a b => a.priority < b.priority := by
  have hsorted : (ranked sources).Pairwise fun a b =>
    a.priority ≤ b.priority := by
    have h : (ranked sources).Pairwise fun a b =>
      decide (a.priority ≤ b.priority) = true :=
      List.pairwise_mergeSort (by simpa using fun a b c => Nat.le_trans)
        (by simpa using fun a b => Nat.le_total ..) sources
    exact h.imp of_decide_eq_true
  have hdistinct : ((ranked sources).map priority).Nodup :=
    ((ranked_perm sources).map priority).nodup_iff.2 distinct
  exact (hsorted.and (List.pairwise_map.1 hdistinct)).imp fun h =>
    Nat.lt_of_le_of_ne h.1 h.2

/-- However sources of different ranks are given, they are laid in one order. -/
theorem ranked_congr (distinct : RanksDiffer sources) {others : List Source}
    (h : others.Perm sources) :
    ranked others = ranked sources := by
  have hothers : RanksDiffer others := (h.map priority).nodup_iff.2 distinct
  refine List.Perm.eq_of_pairwise ?_ (ranked_pairwise hothers)
    (ranked_pairwise distinct)
    ((ranked_perm others).trans (h.trans (ranked_perm sources).symm))
  exact fun a b _ _ hab hba => absurd hab (Nat.lt_asymm hba)

/-- In front of a source are the sources of lower rank, behind it those of
higher rank. -/
theorem mem_sides_iff (distinct : RanksDiffer sources)
    (h : ranked sources = before ++ source :: after) (other : Source) :
    (other ∈ before ↔ other ∈ sources ∧ other.priority < source.priority)
      ∧ (other ∈ after ↔ other ∈ sources
        ∧ source.priority < other.priority) := by
  have hmem : other ∈ ranked sources ↔ other ∈ sources :=
    (ranked_perm sources).mem_iff
  have hpairwise := ranked_pairwise distinct
  rw [h] at hmem hpairwise
  obtain ⟨-, hrest, hacross⟩ := List.pairwise_append.1 hpairwise
  obtain ⟨hbehind, -⟩ := List.pairwise_cons.1 hrest
  have hfront : other ∈ before → other.priority < source.priority :=
    fun hother => hacross other hother source List.mem_cons_self
  have hback : other ∈ after → source.priority < other.priority := hbehind other
  rw [← hmem, List.mem_append, List.mem_cons]
  constructor
  · refine ⟨fun hother => ⟨Or.inl hother, hfront hother⟩, ?_⟩
    rintro ⟨hother | rfl | hother, hlower⟩
    · exact hother
    · exact absurd hlower (Nat.lt_irrefl _)
    · exact absurd hlower (Nat.lt_asymm (hback hother))
  · refine ⟨fun hother => ⟨Or.inr (Or.inr hother), hback hother⟩, ?_⟩
    rintro ⟨hother | rfl | hother, hhigher⟩
    · exact absurd hhigher (Nat.lt_asymm (hfront hother))
    · exact absurd hhigher (Nat.lt_irrefl _)
    · exact hother

-- =============================================================== laying

/-- A source that loads is laid over the base, and the rest over both. -/
theorem overlayAll_cons_ok (h : source.layer = .ok layer) (base : Json)
    (rest : List Source) :
    overlayAll base (source :: rest)
      = overlayAll (base.overlay layer) rest := by
  rw [overlayAll, h]
  rfl

theorem overlayAll_cons_error (h : source.layer = .error e) (base : Json)
    (rest : List Source) :
    overlayAll base (source :: rest) = .error e := by
  rw [overlayAll, h]
  rfl

/-- Whether the data that the source gives is in order. -/
def GivesOrdered (source : Source) : Prop :=
  ∀ layer, source.layer = .ok layer → layer.IsOrdered

/-- Whether the source leaves a path to others. -/
def Spares (source : Source) (path : List String) : Prop :=
  ∀ layer, source.layer = .ok layer → ¬ layer.Touches path

/-- Sources that load are laid before those that follow, and what they spare
stays as it is. -/
theorem exists_overlayAll_append
    (loads : ∀ source ∈ before, ∃ layer, source.layer = .ok layer)
    (ordered : ∀ source ∈ before, source.GivesOrdered) (base : Json) :
    ∃ mid, (∀ rest, overlayAll base (before ++ rest) = overlayAll mid rest)
      ∧ ∀ path, (∀ source ∈ before, source.Spares path) →
        mid.at? path = base.at? path := by
  induction before generalizing base with
  | nil => exact ⟨base, fun _ => rfl, fun _ _ => rfl⟩
  | cons source rest ih =>
      obtain ⟨⟨layer, hlayer⟩, hrest⟩ := List.forall_mem_cons.1 loads
      obtain ⟨hordered, hordereds⟩ := List.forall_mem_cons.1 ordered
      obtain ⟨mid, hmid, hspared⟩ := ih hrest hordereds (base.overlay layer)
      refine ⟨mid, fun more => ?_, fun path hspares => ?_⟩
      · rw [List.cons_append, overlayAll_cons_ok hlayer, hmid]
      · obtain ⟨hspare, hspares⟩ := List.forall_mem_cons.1 hspares
        rw [hspared path hspares,
          Json.at?_overlay_of_untouched (hordered layer hlayer)
          (hspare layer hlayer)]

/-- Laying fails with the first source that does not load. -/
theorem overlayAll_eq_error :
    overlayAll base sources = .error e
      ↔ ∃ before source after, sources = before ++ source :: after
        ∧ (∀ other ∈ before, ∃ layer, other.layer = .ok layer)
        ∧ source.layer = .error e := by
  induction sources generalizing base with
  | nil => exact ⟨nofun, by
      rintro ⟨before, _, _, h, -⟩; cases before <;> cases h⟩
  | cons first rest ih =>
      -- a first source that does not load is the one; one that loads is in
      -- front of it
      cases hfirst : first.layer with
      | error e' =>
          rw [overlayAll_cons_error hfirst]
          constructor
          · intro h
            cases h
            exact ⟨[], first, rest, rfl, nofun, hfirst⟩
          · rintro ⟨before, source, after, hsplit, hbefore, hsource⟩
            cases before with
            | nil =>
                cases hsplit
                rw [hfirst] at hsource
                cases hsource
                rfl
            | cons other before =>
                cases hsplit
                obtain ⟨layer, hlayer⟩ := hbefore first List.mem_cons_self
                rw [hfirst] at hlayer
                cases hlayer
      | ok layer =>
          rw [overlayAll_cons_ok hfirst, ih]
          constructor
          · rintro ⟨before, source, after, rfl, hbefore, hsource⟩
            exact ⟨first :: before, source, after, rfl,
              List.forall_mem_cons.2 ⟨⟨layer, hfirst⟩, hbefore⟩, hsource⟩
          · rintro ⟨before, source, after, hsplit, hbefore, hsource⟩
            cases before with
            | nil =>
                cases hsplit
                rw [hfirst] at hsource
                cases hsource
            | cons other before =>
                cases hsplit
                exact ⟨before, source, after, rfl,
                  (List.forall_mem_cons.1 hbefore).2, hsource⟩

/-- The error of sources of different ranks is that of the lowest one that
does not load. -/
theorem merge_eq_error (distinct : RanksDiffer sources) :
    merge sources = .error e
      ↔ ∃ source ∈ sources, source.layer = .error e
        ∧ ∀ other ∈ sources, other.priority < source.priority →
          ∃ layer, other.layer = .ok layer := by
  have hmem : ∀ source, source ∈ ranked sources ↔ source ∈ sources :=
    fun _ => (ranked_perm sources).mem_iff
  rw [merge, overlayAll_eq_error]
  constructor
  · rintro ⟨before, source, after, hsplit, hbefore, hsource⟩
    refine ⟨source, (hmem source).1 ?_, hsource, fun other hother hlower =>
      hbefore other ?_⟩
    · rw [hsplit]
      exact List.mem_append_right _ List.mem_cons_self
    · exact (mem_sides_iff distinct hsplit other).1.2 ⟨hother, hlower⟩
  · rintro ⟨source, hsource, herror, hlower⟩
    obtain ⟨before, after, hsplit⟩ :=
      List.append_of_mem ((hmem source).2 hsource)
    refine ⟨before, source, after, hsplit, fun other hother => ?_, herror⟩
    obtain ⟨hgiven, hrank⟩ := (mem_sides_iff distinct hsplit other).1.1 hother
    exact hlower other hgiven hrank

/-- If all sources load, what the highest one that touches a path has there is
there, but that an object may have more members. -/
theorem heldAlike_merge (distinct : RanksDiffer sources)
    (ordered : ∀ source ∈ sources, source.GivesOrdered) {merged : Json}
    (h : merge sources = .ok merged)
    (loads : ∀ source ∈ sources, ∃ layer, source.layer = .ok layer)
    (hsource : source ∈ sources) (hlayer : source.layer = .ok layer)
    {path : List String} (touched : layer.Touches path)
    (spared : ∀ other ∈ sources, source.priority < other.priority →
      other.Spares path) :
    HeldAlike (merged.at? path) (layer.at? path) := by
  obtain ⟨before, after, hsplit⟩ :=
    List.append_of_mem ((ranked_perm sources).mem_iff.2 hsource)
  have hbefore : ∀ other ∈ before, other ∈ sources :=
    fun other hother => ((mem_sides_iff distinct hsplit other).1.1 hother).1
  have hafter : ∀ other ∈ after, other ∈ sources :=
    fun other hother => ((mem_sides_iff distinct hsplit other).2.1 hother).1
  have hspared : ∀ other ∈ after, other.Spares path := fun other hother =>
    spared other (hafter other hother)
      ((mem_sides_iff distinct hsplit other).2.1 hother).2
  -- whatever is below, the source is laid over it, and what is above spares
  -- the path
  obtain ⟨mid, hmid, -⟩ := exists_overlayAll_append
    (fun other hother => loads other (hbefore other hother))
    (fun other hother => ordered other (hbefore other hother)) (.obj [])
  obtain ⟨last, hlast, hstays⟩ := exists_overlayAll_append
    (fun other hother => loads other (hafter other hother))
    (fun other hother => ordered other (hafter other hother))
    (mid.overlay layer)
  have hend := hlast []
  rw [List.append_nil] at hend
  rw [merge, hsplit, hmid, overlayAll_cons_ok hlayer, hend] at h
  cases h
  rw [hstays path hspared]
  exact Json.heldAlike_overlay (ordered source hsource layer hlayer) touched mid

/-- If all sources load, they give a value that has nothing where they all
spare the path. -/
theorem exists_merge_eq_ok (ordered : ∀ source ∈ sources, source.GivesOrdered)
    (loads : ∀ source ∈ sources, ∃ layer, source.layer = .ok layer) :
    ∃ merged, merge sources = .ok merged
      ∧ ∀ path, path ≠ [] → (∀ source ∈ sources, source.Spares path) →
        merged.at? path = none := by
  have hmem : ∀ source ∈ ranked sources, source ∈ sources :=
    fun _ => (ranked_perm sources).mem_iff.1
  obtain ⟨merged, hmerged, hstays⟩ := exists_overlayAll_append
    (fun source hsource => loads source (hmem source hsource))
    (fun source hsource => ordered source (hmem source hsource)) (.obj [])
  have hend := hmerged []
  rw [List.append_nil] at hend
  refine ⟨merged, hend, fun path hne hspares => ?_⟩
  rw [hstays path fun source hsource => hspares source (hmem source hsource)]
  cases path with
  | nil => exact absurd rfl hne
  | cons name path => rfl

/-- Sources of different ranks, whose data is in order, have one outcome in
whatever order they are given: the error of the lowest one that does not load,
or a value where at every path the highest source that touches it decides.
Where that has a value that is no object, this value is there; where it bars
the way, nothing; where it has an object, an object; and there is nothing
where no source touches the path. -/
theorem merge_by_rank (distinct : RanksDiffer sources)
    (ordered : ∀ source ∈ sources, source.GivesOrdered) :
    (∀ others, others.Perm sources → merge others = merge sources)
      ∧ (∀ e, merge sources = .error e
        ↔ ∃ source ∈ sources, source.layer = .error e
          ∧ ∀ other ∈ sources, other.priority < source.priority →
            ∃ layer, other.layer = .ok layer)
      ∧ ((∀ source ∈ sources, ∃ layer, source.layer = .ok layer) →
        ∃ merged, merge sources = .ok merged ∧ ∀ path, path ≠ [] →
          (∀ source ∈ sources, ∀ layer, source.layer = .ok layer →
            layer.Touches path →
            (∀ other ∈ sources, source.priority < other.priority →
              other.Spares path) →
            (∀ value, layer.at? path = some value → value.isObject = false →
              merged.at? path = some value)
            ∧ (layer.Bars path → merged.at? path = none)
            ∧ ∀ value, layer.at? path = some value → value.isObject = true →
              ∃ held, merged.at? path = some held ∧ held.isObject = true)
          ∧ ((∀ source ∈ sources, source.Spares path) →
            merged.at? path = none)) := by
  refine ⟨fun others h => ?_, fun e => merge_eq_error distinct, fun loads => ?_⟩
  · rw [merge, merge, ranked_congr distinct h]
  obtain ⟨merged, hmerged, hspared⟩ := exists_merge_eq_ok ordered loads
  refine ⟨merged, hmerged, fun path hne => ⟨?_, hspared path hne⟩⟩
  intro source hsource layer hlayer touched spared
  have halike :=
    heldAlike_merge distinct ordered hmerged loads hsource hlayer touched spared
  refine ⟨fun value hvalue hplain => ?_, fun hbars => ?_,
    fun value hvalue hobject => ?_⟩
  · rw [hvalue] at halike
    exact halike.of_not_object hplain
  · rw [hbars.at?_eq_none] at halike
    exact halike.of_none
  · rw [hvalue] at halike
    exact halike.of_object hobject

/-- A source of a rank that gives two members. -/
def sample (rank : Nat) (a k : Json) : Source :=
  ⟨rank, "sample", .ok ⟨[("a", a), ("k", k)], (by decide : ["a", "k"].Nodup)⟩⟩

/-- Data in order makes a source that gives data in order. -/
theorem givesOrdered_sample (rank : Nat) {a k : Json} (ha : a.IsOrdered)
    (hk : k.IsOrdered) :
    (sample rank a k).GivesOrdered := by
  intro layer h
  cases h
  exact .object (List.forall_mem_cons.2 ⟨ha, List.forall_mem_singleton.2 hk⟩)

/-- Three sources, the highest first. The one in the middle has a number at
`a`, where the others have objects. -/
def samples : List Source :=
  [sample 100 (.object [("c", .int 2)]) (.int 7),
    sample 10 (.object [("b", .int 1)]) .null,
    sample 50 (.int 5) (.object [("y", .int 3)])]

/-- The number in the middle bars the way to `a.b`, which only the lowest
source has, although in the end there is an object at `a`, that of the
highest. -/
theorem samples_merge_by_rank :
    RanksDiffer samples ∧ (∀ source ∈ samples, source.GivesOrdered)
      ∧ merge samples.reverse = merge samples
      ∧ ∃ merged, merge samples = .ok merged ∧ merged.at? ["a", "b"] = none
        ∧ merged.at? ["a", "c"] = some (.int 2) ∧ merged.at? ["z"] = none
        ∧ ∃ held, merged.at? ["a"] = some held ∧ held.isObject = true := by
  have hobject : ∀ name n, (Json.object [(name, .int n)]).IsOrdered :=
    fun _ _ => .object (List.forall_mem_singleton.2 .int)
  have distinct : RanksDiffer samples := by decide
  have ordered : ∀ source ∈ samples, source.GivesOrdered :=
    List.forall_mem_cons.2 ⟨givesOrdered_sample 100 (hobject "c" 2) .int,
      List.forall_mem_cons.2 ⟨givesOrdered_sample 10 (hobject "b" 1) .null,
      List.forall_mem_singleton.2
        (givesOrdered_sample 50 .int (hobject "y" 3))⟩⟩
  have loads : ∀ source ∈ samples, ∃ layer, source.layer = .ok layer :=
    List.forall_mem_cons.2 ⟨⟨_, rfl⟩, List.forall_mem_cons.2 ⟨⟨_, rfl⟩,
      List.forall_mem_singleton.2 ⟨_, rfl⟩⟩⟩
  have hmiddle : ∀ other ∈ samples, 50 < other.priority →
    other.Spares ["a", "b"] :=
    List.forall_mem_cons.2 ⟨fun _ layer h => by cases h; decide,
      List.forall_mem_cons.2 ⟨fun h => absurd h (by decide),
      List.forall_mem_singleton.2 fun h => absurd h (by decide)⟩⟩
  have hhighest : ∀ path, ∀ other ∈ samples, 100 < other.priority →
    other.Spares path :=
    fun _ => List.forall_mem_cons.2 ⟨fun h => absurd h (by decide),
      List.forall_mem_cons.2 ⟨fun h => absurd h (by decide),
      List.forall_mem_singleton.2 fun h => absurd h (by decide)⟩⟩
  have hnone : ∀ source ∈ samples, source.Spares ["z"] :=
    List.forall_mem_cons.2 ⟨fun layer h => by cases h; decide,
      List.forall_mem_cons.2 ⟨fun layer h => by cases h; decide,
      List.forall_mem_singleton.2 fun layer h => by cases h; decide⟩⟩
  obtain ⟨hperm, -, hmerge⟩ := merge_by_rank distinct ordered
  obtain ⟨merged, hmerged, hpaths⟩ := hmerge loads
  obtain ⟨-, hbarred, -⟩ := (hpaths ["a", "b"] (List.cons_ne_nil _ _)).1 _
    (.tail _ (.tail _ (.head _))) _ rfl (by decide) hmiddle
  obtain ⟨hleaf, -, -⟩ := (hpaths ["a", "c"] (List.cons_ne_nil _ _)).1 _
    (.head _) _ rfl (by decide) (hhighest _)
  obtain ⟨-, -, hheld⟩ := (hpaths ["a"] (List.cons_ne_nil _ _)).1 _
    (.head _) _ rfl (by decide) (hhighest _)
  exact ⟨distinct, ordered, hperm _ samples.reverse_perm, merged, hmerged,
    hbarred ⟨["a"], ["b"], .int 5, rfl, List.cons_ne_nil _ _, rfl, rfl⟩,
    hleaf _ rfl rfl,
    (hpaths ["z"] (List.cons_ne_nil _ _)).2 hnone, hheld _ rfl rfl⟩

end Prerender.Source
