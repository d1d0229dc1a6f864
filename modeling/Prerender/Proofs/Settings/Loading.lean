/-
Two ways to the settings of a site.

The one is the settings file with the environment laid over its data,
read once (`Settings.load`). The other is the settings of the file,
written as data again under the environment and read a second time
(`Settings.apply` after `Settings.ofFile`). The data of the file need
not look like what settings are written as: it may have further members,
a list in the place of a record or an object in the place of a name. It
is in order, though (`Toml.isOrdered_ofText?`), and it gives the same
settings, and for the layer on top nothing else counts
(`Settings.ofLayers_overlay_variables`). So the two ways agree for every
file that gives settings and every environment, in the settings as in
the error (`Settings.load_eq_apply`).

The second way writes settings as data, which fails for a path that is
no text. It does not fail here: settings that were read from a text have
paths that are texts (`Settings.isUnicode_of_settings`).
-/
import Prerender.Proofs.Settings.Variables
import Prerender.Proofs.Toml.Ordered

namespace Prerender

-- ======================================================= the data of a file

/-- What is so of all values that a map is made of is so of all its values. -/
theorem OrderedMap.forall_mem_ofList {α : Type} {p : α → Prop}
    {entries : List (String × α)}
    (h : ∀ entry ∈ entries, p entry.2) :
    ∀ entry ∈ (ofList entries).entries, p entry.2 := by
  suffices ∀ m : OrderedMap α,
    (∀ name value, m.get? name = some value → p value) →
      ∀ name value,
        (entries.foldl (fun m entry => m.insert entry.1 entry.2) m).get? name
        = some value → p value by
    intro entry hentry
    exact this .empty (by simp [get?, empty]) entry.1 entry.2
      (get?_eq_some_iff.2 hentry)
  induction entries with
  | nil => exact fun _ hm => hm
  | cons head rest ih =>
      obtain ⟨hhead, hrest⟩ := List.forall_mem_cons.1 h
      intro m hm
      refine ih hrest _ fun name value hget => ?_
      rw [get?_insert] at hget
      split at hget
      · cases hget
        exact hhead
      · exact hm name value hget

namespace Settings

variable {fs : FileSystem} {path : OsText} {text : String}

/-- The data of a settings file is in order. -/
theorem isOrdered_ofToml {members : OrderedMap Json}
    (h : ofToml text = .ok members) :
    (Json.object members.entries).IsOrdered := by
  unfold ofToml at h
  split at h
  · next found hfound =>
    cases h
    exact .object (OrderedMap.forall_mem_ofList (Toml.isOrdered_ofText? hfound))
  · cases h

/-- A settings file that can be read is there, and gives the members of its
text. -/
theorem load_tomlFile (h : readFile fs path = .ok text) :
    (tomlFile fs path).load = ofToml text := by
  have hitem : ∃ item, fs.item path = .ok item := by
    unfold readFile FileSystem.readText at h
    cases hitem : fs.item path with
    | ok item => exact ⟨item, rfl⟩
    | error e =>
        rw [hitem] at h
        cases h
  obtain ⟨item, hitem⟩ := hitem
  unfold tomlFile
  simp only [hitem, h]
  rfl

/-- What a settings file that gives settings holds. -/
theorem ofFile_eq_ok {settings : Settings} (h : ofFile fs path = .ok settings) :
    ∃ members : OrderedMap Json, (tomlFile fs path).load = .ok members
      ∧ (Json.object members.entries).IsOrdered
      ∧ Decode.settings (Json.object members.entries) = .ok settings := by
  unfold ofFile at h
  cases hread : readFile fs path with
  | error e =>
      rw [hread] at h
      cases h
  | ok text =>
      rw [hread] at h
      replace h : ofTomlText text = .ok settings := h
      unfold ofTomlText at h
      cases htoml : ofToml text with
      | error e =>
          rw [htoml] at h
          cases h
      | ok members =>
          rw [htoml] at h
          replace h : ofLayers (Json.object members.entries) = .ok settings := h
          refine ⟨members, (load_tomlFile hread).trans htoml,
            isOrdered_ofToml htoml, ?_⟩
          unfold ofLayers at h
          split at h
          · next found hfound =>
            cases h
            exact hfound
          · cases h

-- ============================================================ two ways

/-- Data that is laid over an empty object is in order as before and gives the
same settings. -/
theorem laid_over_nothing {members : List (String × Json)} {settings : Settings}
    (ordered : (Json.obj members).IsOrdered)
    (reads : Decode.settings (.obj members) = .ok settings) :
    (Json.obj (Json.overlayMembers [] members)).IsOrdered
      ∧ Decode.settings (.obj (Json.overlayMembers [] members))
        = .ok settings := by
  have hlaid : (Json.obj (Json.overlayMembers [] members)).IsOrdered :=
    Json.IsOrdered.overlayMembers
      (.obj .nil (List.forall_mem_nil _)) ordered.each
  refine ⟨hlaid, (Decode.settings_obj_eq_ok_iff hlaid).2 fun field => ?_⟩
  have hfield := (Decode.settings_obj_eq_ok_iff ordered).1 reads field
  rw [Json.lookup_overlayMembers ordered.ascending.nodup]
  cases hheld : members.lookup field.member with
  | none => rwa [hheld] at hfield
  | some value => rwa [hheld] at hfield

/-- The file and the variables are laid in this order. -/
theorem ranked_sources (fs : FileSystem) (path : OsText) (lead : String)
    (vars : List (String × String)) :
    Source.ranked [tomlFile fs path, variableSource lead vars]
      = [tomlFile fs path, variableSource lead vars] := by
  refine List.mergeSort_of_pairwise ?_
  simp [tomlFile, variableSource]

/-- A settings file that gives settings is loaded under the environment as
what the environment makes of those settings, or fails as this fails: whether
the variables are laid over the data of the file or over the settings written
as data again is the same. -/
theorem load_eq_apply {settings : Settings} (h : ofFile fs path = .ok settings)
    (environment : List (String × String)) :
    load fs path environment
      = settings.apply (variableSource defaultLead environment) := by
  obtain ⟨members, hfile, hordered, hreads⟩ := ofFile_eq_ok h
  obtain ⟨hlaid, hreads'⟩ := laid_over_nothing hordered hreads
  have hlayer : (tomlFile fs path).layer
      = .ok (Json.object members.entries) := by
    rw [Source.layer, hfile]
    rfl
  calc load fs path environment
      = (do
          let base := Json.obj
            (Json.overlayMembers [] (Sorted.ofList members.entries))
          ofLayers (base.overlay
            (← (variableSource defaultLead environment).layer))) := by
        rw [load, Source.merge, ranked_sources]
        simp only [Source.overlayAll]
        rw [hlayer, Json.object, ← Json.overlay_obj]
        cases (variableSource defaultLead environment).layer <;> rfl
    _ = settings.apply (variableSource defaultLead environment) := by
        rw [ofLayers_overlay_variables hlaid hreads']
        exact (apply_of_isUnicode
          (isUnicode_of_settings hordered hreads) defaultLead
          environment).symm

/-- A settings file that looks little like settings written as data: with a
member that is no setting, a list in the place of the logging record and an
object in the place of the environment. -/
def sampleFile : FileSystem where
  root := .directory [("site.toml", .file
    "minify = false\nextra = 1\nlogging = ['warn']\nenvironment = \x7b development = nan \x7d\n")]
  workingDirectory := []

/-- Loaded under two variables it gives its settings with the two of them set
anew. -/
theorem sampleFile_load_eq_apply : ∃ settings,
    ofFile sampleFile "site.toml" = .ok settings
      ∧ let vars :=
        [("ELEGANCE_Log_Level", "DEBUG"), ("ELEGANCE_MINIFY", " Yes ")]
        load sampleFile "site.toml" vars
            = settings.apply (variableSource defaultLead vars)
          ∧ (load sampleFile "site.toml" vars).toOption
            = some { defaults with
              environment := .development, logLevel := "debug" } := by
  have hread : (ofFile sampleFile "site.toml").toOption
      = some { defaults with
        minify := false, environment := .development, logLevel := "warn" } := by
    decide +kernel
  cases hfile : ofFile sampleFile "site.toml" with
  | error e =>
      rw [hfile] at hread
      cases hread
  | ok settings =>
      rw [hfile] at hread
      obtain rfl := Option.some.inj hread
      refine ⟨_, rfl, load_eq_apply hfile _, ?_⟩
      rw [load_eq_apply hfile]
      decide +kernel

end Settings
end Prerender
