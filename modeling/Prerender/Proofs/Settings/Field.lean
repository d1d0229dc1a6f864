/-
The settings one by one.

A field has the member of the settings object that it is read from, how
it is read and written as data, and its place in the record; every field
is read by the same rule, which is why nothing below goes through the
seven of them more than once. A setting that is added is one more
constructor, with one line in each table, and no more cases in any proof
but those that fall to `rfl`.

`Decode.settingsFrom_eq_ok_iff` turns reading an object, member after
member, into one equation for each field: a field is read from its
member, or keeps the value from before where the member is not there.
From it come

1. what it takes to override settings in data
   (`Decode.settings_overlay`): whatever the data under a layer looks
   like, if it can be read at all, what the layer sets is read in its
   place;
2. the round trip: settings that are written as data are read again as
   they were (`Settings.settings_object_fields`).

Writing is partial. A path need not be a text, and then there is no data
for it: `Settings.toJson` fails exactly if one of the two paths is none
(`Settings.toJson_of_isUnicode`, `Settings.toJson_of_not_isUnicode`).
Settings that were read have paths that are texts
(`Settings.isUnicode_of_settings`), so failing is a matter of settings
that were put together otherwise.
-/
import Prerender.Proofs.Json.Overlay
import Prerender.Proofs.Text.OsText

namespace Prerender

namespace Settings

/-- One of the settings. -/
inductive Field where
  | pagesDir | outputDir | writesHtml | environment | minify
      | clientScript | logLevel
deriving DecidableEq

namespace Field

/-- What the setting is. -/
abbrev Value : Field → Type
  | pagesDir | outputDir => OsText
  | clientScript | logLevel => String
  | writesHtml | minify => Bool
  | environment => Environment

/-- The member of the settings object that the setting is read from. -/
def member : Field → String
  | pagesDir => "pages_dir"
  | outputDir => "output_dir"
  | writesHtml => "write_to_html"
  | environment => "environment"
  | minify => "minify"
  | clientScript => "client_script"
  | logLevel => "logging"

/-- All settings, in the order of their declaration. -/
def all : List Field :=
  [pagesDir, outputDir, writesHtml, environment, minify, clientScript, logLevel]

/-- The setting among all. -/
def get : (field : Field) → Settings → field.Value
  | pagesDir => Settings.pagesDir
  | outputDir => Settings.outputDir
  | writesHtml => Settings.writesHtml
  | environment => Settings.environment
  | minify => Settings.minify
  | clientScript => Settings.clientScript
  | logLevel => Settings.logLevel

/-- The settings with this one set. -/
def set : (field : Field) → field.Value → Settings → Settings
  | pagesDir, v, s => { s with pagesDir := v }
  | outputDir, v, s => { s with outputDir := v }
  | writesHtml, v, s => { s with writesHtml := v }
  | environment, v, s => { s with environment := v }
  | minify, v, s => { s with minify := v }
  | clientScript, v, s => { s with clientScript := v }
  | logLevel, v, s => { s with logLevel := v }

/-- The setting that its member gives. -/
def read : (field : Field) → Json → Decoded field.Value
  | pagesDir | outputDir => Decode.path
  | writesHtml | minify => Decode.bool
  | environment => Decode.environment
  | clientScript => Decode.string
  | logLevel => Decode.logging

/-- The setting as the value of its member, for a path as far as it is a
text. -/
def toJson : (field : Field) → field.Value → Json
  | pagesDir | outputDir => fun path => .str path.lossy
  | clientScript => .str
  | writesHtml | minify => .bool
  | environment => fun environment => .str environment.name
  | logLevel => fun level => .obj [("level", .str level)]

/-- Whether the setting can be written as data: a path has to be a text. -/
def IsWritable : (field : Field) → field.Value → Prop
  | pagesDir | outputDir => OsText.IsUnicode
  | writesHtml | minify => fun _ => True
  | environment => fun _ => True
  | clientScript | logLevel => fun _ => True

/-- The setting that its member gives, or `otherwise` where it is not there. -/
def readOr (field : Field) (otherwise : field.Value) :
    Option Json → Decoded field.Value
  | none => .ok otherwise
  | some value => field.read value

-- ======================================================== fields apart

/-- No two fields are read from one member. -/
theorem member_inj {field other : Field} (h : field.member = other.member) :
    field = other := by
  cases field <;> cases other <;> first | rfl | exact absurd h (by decide)

@[simp] theorem get_set (field : Field) (v : field.Value) (s : Settings) :
    field.get (field.set v s) = v := by
  cases field <;> rfl

theorem get_set_of_ne {field other : Field} (h : other ≠ field)
    (v : field.Value) (s : Settings) :
    other.get (field.set v s) = other.get s := by
  cases field <;> cases other <;> first | rfl | exact absurd rfl h

/-- Settings that agree in every field are the same. -/
theorem ext {s s' : Settings}
    (h : ∀ field : Field, field.get s = field.get s') : s = s' := by
  cases s
  cases s'
  cases h pagesDir
  cases h outputDir
  cases h writesHtml
  cases h environment
  cases h minify
  cases h clientScript
  cases h logLevel
  rfl

-- ====================================================== read and written

/-- A setting is read as it was written. -/
theorem read_toJson {field : Field} {v : field.Value} (h : field.IsWritable v) :
    field.read (field.toJson v) = .ok v := by
  cases field with
  | pagesDir | outputDir =>
      obtain ⟨text, rfl⟩ := h
      show Decode.path (.str (OsText.ofText text).lossy) = _
      rw [OsText.lossy_ofText, Decode.path]
  | environment => cases v <;> rfl
  | _ => rfl

/-- A path that was read is a text. -/
theorem isWritable_of_read {field : Field} {v : field.Value} {value : Json}
    (h : field.read value = .ok v) : field.IsWritable v := by
  cases field with
  | pagesDir | outputDir =>
      cases value with
      | str text =>
          cases h
          exact OsText.isUnicode_ofText text
      | _ => cases h
  | _ => trivial

/-- The defaults can be written, paths and all. -/
theorem isWritable_defaults (field : Field) :
    field.IsWritable (field.get Settings.defaults) := by
  cases field with
  | pagesDir => exact OsText.isUnicode_ofText "pages"
  | outputDir => exact OsText.isUnicode_ofText "dist"
  | _ => trivial

/-- What a field is written as is in order. -/
theorem isOrdered_toJson (field : Field) (v : field.Value) :
    (field.toJson v).IsOrdered := by
  cases field with
  | logLevel =>
      exact .obj (List.pairwise_singleton _ _)
        (List.forall_mem_singleton.2 .str)
  | writesHtml | minify => exact .bool
  | _ => exact .str

end Field
end Settings

open Settings (Field)

namespace Decode

/-- A member that a field is read from sets this field. -/
theorem setting_member (settings : Settings) (field : Field) (value : Json) :
    setting settings field.member value
      = do return field.set (← field.read value) settings := by
  cases field <;> rfl

/-- A member that no field is read from sets nothing. -/
theorem setting_of_ne {name : String} (h : ∀ field : Field, field.member ≠ name)
    (settings : Settings) (value : Json) :
    setting settings name value = .ok settings := by
  unfold setting
  split
  · exact absurd rfl (h .pagesDir)
  · exact absurd rfl (h .outputDir)
  · exact absurd rfl (h .writesHtml)
  · exact absurd rfl (h .environment)
  · exact absurd rfl (h .minify)
  · exact absurd rfl (h .clientScript)
  · exact absurd rfl (h .logLevel)
  · rfl

/-- Members give settings exactly if each field is read from its member, or is
that of `base` where the member is not there. -/
theorem settingsFrom_eq_ok_iff {members : List (String × Json)}
    (distinct : (members.map Prod.fst).Nodup) {base settings : Settings} :
    settingsFrom base members = .ok settings
      ↔ ∀ field : Field,
          field.readOr (field.get base) (members.lookup field.member)
            = .ok (field.get settings) := by
  induction members generalizing base with
  | nil =>
      constructor
      · intro h
        cases h
        exact fun field => rfl
      · intro h
        rw [settingsFrom, Field.ext fun field => Except.ok.inj (h field)]
  | cons head rest ih =>
      obtain ⟨name, value⟩ := head
      obtain ⟨hname, hrest⟩ := List.nodup_cons.1 distinct
      rw [settingsFrom]
      by_cases hfield : ∃ field : Field, field.member = name
      · obtain ⟨field, rfl⟩ := hfield
        rw [setting_member]
        -- no later member sets this field again
        have hlater : rest.lookup field.member = none :=
          lookup_eq_none_of_not_mem hname
        cases hread : field.read value with
        | error e =>
            refine ⟨nofun, fun h => ?_⟩
            have hown := h field
            rw [lookup_cons_ite, if_pos rfl, Field.readOr, hread] at hown
            cases hown
        | ok v =>
            show settingsFrom (field.set v base) rest = .ok settings ↔ _
            rw [ih hrest]
            refine forall_congr' fun other => ?_
            rw [lookup_cons_ite]
            by_cases heq : other = field
            · subst heq
              rw [if_pos rfl, hlater, Field.readOr, Field.readOr,
                Field.get_set, hread]
            · rw [if_neg fun h => heq (Field.member_inj h),
                Field.get_set_of_ne heq]
      · -- a member that is no setting is passed by
        have hne : ∀ field : Field, field.member ≠ name := fun field heq =>
          hfield ⟨field, heq⟩
        rw [setting_of_ne hne]
        show settingsFrom base rest = .ok settings ↔ _
        rw [ih hrest]
        refine forall_congr' fun field => ?_
        rw [lookup_cons_ite, if_neg (hne field)]

-- ============================================================= logging

/-- Of the members of the logging record only the level counts. -/
theorem loggingMembers_eq {members : List (String × Json)}
    (distinct : (members.map Prod.fst).Nodup) (level : String) :
    loggingMembers level members
      = match members.lookup "level" with
        | none => .ok level
        | some value => string value := by
  induction members generalizing level with
  | nil => rfl
  | cons head rest ih =>
      obtain ⟨name, value⟩ := head
      obtain ⟨hname, hrest⟩ := List.nodup_cons.1 distinct
      rw [loggingMembers, lookup_cons_ite]
      by_cases heq : name = "level"
      · subst heq
        rw [if_pos rfl, if_pos rfl]
        cases hread : string value with
        | error e => exact hread.symm
        | ok found =>
            show loggingMembers found rest = _
            rw [ih hrest, lookup_eq_none_of_not_mem hname]
            exact hread.symm
      · rw [if_neg heq, if_neg (Ne.symm heq), ih hrest]

end Decode

-- =========================================================== overriding

/-- A setting that is laid over data is read, whatever is under it. -/
theorem Settings.Field.read_overlay {field : Field} {v : field.Value}
    (writable : field.IsWritable v) {under : Json} (ordered : under.IsOrdered) :
    field.read (under.overlay (field.toJson v)) = .ok v := by
  cases field with
  -- the only setting that is laid over member by member
  | logLevel =>
      show Decode.logging (under.overlay (.obj [("level", .str v)])) = .ok v
      cases under with
      | obj members =>
          have hlevel : Json.overlayOn (members.lookup "level") (.str v)
            = .str v := by
            unfold Json.overlayOn
            cases members.lookup "level" with
            | none => rfl
            | some under => exact Json.overlay_of_ne_obj under (by simp)
          rw [Json.overlay_obj, Json.overlayMembers_cons, hlevel,
            Json.overlayMembers, Decode.logging,
            Decode.loggingMembers_eq (ordered.insert .str).ascending.nodup,
            Sorted.lookup_insert, if_pos rfl]
          rfl
      | _ =>
          rw [Json.overlay_on_ne_obj (by simp)]
          rfl
  | _ =>
      rw [Json.overlay_of_ne_obj under (by simp [toJson])]
      exact Settings.Field.read_toJson writable

namespace Decode

variable {base layer : List (String × Json)} {settings settings' : Settings}

/-- From an object each field is read from its member, or is that of the
defaults. -/
theorem settings_obj_eq_ok_iff (ordered : (Json.obj base).IsOrdered) :
    Decode.settings (.obj base) = .ok settings
      ↔ ∀ field : Field,
        field.readOr (field.get Settings.defaults) (base.lookup field.member)
          = .ok (field.get settings) :=
  settingsFrom_eq_ok_iff ordered.ascending.nodup

/-- Data that gives settings gives, under a layer, those settings with what
the layer sets in their place. -/
theorem settings_overlay (hbase : (Json.obj base).IsOrdered)
    (hlayer : (Json.obj layer).IsOrdered)
    (reads : Decode.settings (.obj base) = .ok settings)
    (sets : ∀ field : Field, ∃ v? : Option field.Value,
      (∀ v ∈ v?, field.IsWritable v)
      ∧ layer.lookup field.member = v?.map field.toJson
      ∧ field.get settings' = v?.getD (field.get settings)) :
    Decode.settings ((Json.obj base).overlay (.obj layer)) = .ok settings' := by
  have hlaid := hbase.overlay hlayer
  rw [Json.overlay_obj] at hlaid ⊢
  refine (settings_obj_eq_ok_iff hlaid).2 fun field => ?_
  obtain ⟨v?, hwritable, hset, hget⟩ := sets field
  rw [Json.lookup_overlayMembers hlayer.ascending.nodup, hset, hget]
  cases v? with
  | none => exact (settings_obj_eq_ok_iff hbase).1 reads field
  | some v =>
      show field.read
        (Json.overlayOn (base.lookup field.member) (field.toJson v)) = .ok v
      unfold Json.overlayOn
      cases hunder : base.lookup field.member with
      | none => exact Field.read_toJson (hwritable v rfl)
      | some under =>
          exact Field.read_overlay (hwritable v rfl) (hbase.of_lookup hunder)

end Decode

namespace Settings

-- ========================================================== round trip

/-- Whether both paths among the settings are texts. -/
def IsUnicode (settings : Settings) : Prop :=
  settings.pagesDir.IsUnicode ∧ settings.outputDir.IsUnicode

instance (settings : Settings) : Decidable settings.IsUnicode :=
  inferInstanceAs (Decidable (_ ∧ _))

/-- The paths are the only settings that cannot always be written. -/
theorem isWritable_get_iff {settings : Settings} :
    (∀ field : Field, field.IsWritable (field.get settings))
      ↔ settings.IsUnicode := by
  constructor
  · intro h
    exact ⟨h .pagesDir, h .outputDir⟩
  · rintro ⟨hpages, houtput⟩ field
    cases field with
    | pagesDir => exact hpages
    | outputDir => exact houtput
    | _ => trivial

/-- The fields by name, each written as data. -/
def fields (settings : Settings) : List (String × Json) :=
  Field.all.map fun field => (field.member, field.toJson (field.get settings))

/-- Settings with paths that are texts are written field by field. -/
theorem toJson_of_isUnicode {settings : Settings} (h : settings.IsUnicode) :
    settings.toJson = .ok (.object settings.fields) := by
  obtain ⟨⟨pages, hpages⟩, output, houtput⟩ := h
  have hmembers : settings.members? = some settings.fields := by
    rw [members?, OsText.text?_eq_some_iff.2 hpages,
      OsText.text?_eq_some_iff.2 houtput]
    show some _ = some (Field.all.map _)
    have hpages' : settings.pagesDir.lossy = pages := by
      rw [hpages, OsText.lossy_ofText]
    have houtput' : settings.outputDir.lossy = output := by
      rw [houtput, OsText.lossy_ofText]
    rw [← hpages', ← houtput']
    rfl
  rw [toJson, hmembers]

/-- Settings with any other path are not written at all. -/
theorem toJson_of_not_isUnicode {settings : Settings}
    (h : ¬ settings.IsUnicode) :
    settings.toJson = .error .notUnicode := by
  have hmembers : settings.members? = none := by
    rw [members?]
    cases hpages : settings.pagesDir.text? with
    | none => rfl
    | some pages =>
        cases houtput : settings.outputDir.text? with
        | none => rfl
        | some output =>
            exact absurd ⟨⟨pages, OsText.text?_eq_some_iff.1 hpages⟩, output,
              OsText.text?_eq_some_iff.1 houtput⟩ h
  rw [toJson, hmembers]

/-- Settings written as data are in order. -/
theorem isOrdered_fields (settings : Settings) :
    (Json.object settings.fields).IsOrdered :=
  .object (List.forall_mem_map.2 fun field _ => field.isOrdered_toJson _)

theorem lookup_fields (settings : Settings) (field : Field) :
    settings.fields.lookup field.member
      = some (field.toJson (field.get settings)) := by
  cases field <;> rfl

/-- Settings that are written as data are read again as they were. -/
theorem settings_object_fields {settings : Settings} (h : settings.IsUnicode) :
    Decode.settings (Json.object settings.fields) = .ok settings := by
  have hnames : (settings.fields.map Prod.fst).Nodup := by
    show (Field.all.map Field.member).Nodup
    decide
  refine (Decode.settings_obj_eq_ok_iff settings.isOrdered_fields).2
    fun field => ?_
  rw [Sorted.lookup_ofList hnames, lookup_fields]
  exact Field.read_toJson (isWritable_get_iff.2 h field)

/-- Settings that were read from data in order have paths that are texts. -/
theorem isUnicode_of_settings {members : List (String × Json)}
    {settings : Settings} (ordered : (Json.obj members).IsOrdered)
    (reads : Decode.settings (.obj members) = .ok settings) :
    settings.IsUnicode := by
  refine isWritable_get_iff.1 fun field => ?_
  have hfield := (Decode.settings_obj_eq_ok_iff ordered).1 reads field
  cases hheld : members.lookup field.member with
  | none =>
      rw [hheld] at hfield
      rw [← Except.ok.inj hfield]
      exact field.isWritable_defaults
  | some value =>
      rw [hheld] at hfield
      exact Field.isWritable_of_read hfield

end Settings
end Prerender
