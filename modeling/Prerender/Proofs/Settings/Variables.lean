/-
Overriding settings by variables of the environment.

A variable names a setting by a lead and the name of the setting in
letters of either case; what its value means depends on the setting
alone. Of several variables for one setting the last one counts, and all
others are left alone. A variable offends if it names a setting for
which its value means nothing, and the first one that does is the error,
even where a later one for the same setting means something.

The walk over the variables is followed by one lemma for a variable that
does not offend (`membersOfVariables_step`), which names a setting or
does not, and two for the whole list (`membersOfVariables_ok`,
`membersOfVariables_error`). What a variable does to the members is said
of each setting by itself (`SetBy`), so that the seven settings are one
case. Whatever data the variables are then laid over, it reads as before
but for the settings that they name (`ofLayers_overlay_variables`).

`apply_variables` is about settings that are in hand and not about data.
There is one more way to fail then: the settings are written as data
first, which cannot be done with a path that is no text
(`apply_of_not_isUnicode`). That is an error without a variable in it,
and comes first whatever the variables are.

Names are as good as compared in ASCII: there are letters beyond it that
some take for letters of another case, and they name no setting
(`Field.lowercase_eq_variableName_iff`).
-/
import Mathlib.Data.List.Basic
import Prerender.Proofs.Settings.Field
import Prerender.Proofs.Text.Case

namespace Prerender.Settings

-- =============================================================== naming

/-- The name of a variable without its lead is what stands behind the lead. -/
theorem withoutLead?_eq_some_iff {lead varName name : String} :
    withoutLead? lead varName = some name ↔ varName = lead ++ name := by
  unfold withoutLead?
  rw [Option.map_eq_some_iff, ← String.toList_inj, String.toList_append]
  constructor
  · rintro ⟨rest, hrest, rfl⟩
    rw [String.toList_ofList]
    exact (List.isPrefixOf?_eq_some_iff_append_eq.1 hrest).symm
  · intro h
    exact ⟨name.toList, List.isPrefixOf?_eq_some_iff_append_eq.2 h.symm,
      String.ofList_toList⟩

namespace Field

/-- The name by which variables name the setting. -/
def variableName : Field → String
  | pagesDir => "pages_dir"
  | outputDir => "output_dir"
  | writesHtml => "write_to_html"
  | environment => "environment"
  | minify => "minify"
  | clientScript => "client_script"
  | logLevel => "log_level"

/-- Whether a variable names the setting: it is the lead and, in letters of
either case, the name of the setting. -/
def IsNamedBy (field : Field) (lead varName : String) : Prop :=
  ∃ name, varName = lead ++ name ∧ name.toLower = field.variableName

theorem variableName_inj {field other : Field}
    (h : field.variableName = other.variableName) :
    field = other := by
  cases field <;> cases other <;> first | rfl | exact absurd h (by decide)

/-- No letter beyond ASCII becomes one of a name of a setting. -/
theorem lowercase_eq_variableName_iff (field : Field) {name : String} :
    Text.lowercase name = field.variableName
      ↔ name.toLower = field.variableName := by
  refine Text.lowercase_eq_iff ?_
  cases field <;> simp [variableName]

/-- Whether a variable names a setting is found by taking its lead away. -/
theorem isNamedBy_iff {field : Field} {lead varName : String} :
    field.IsNamedBy lead varName
      ↔ ((withoutLead? lead varName).any fun name =>
          Text.lowercase name == field.variableName) = true := by
  rw [Option.any_eq_true]
  refine exists_congr fun name => ?_
  rw [withoutLead?_eq_some_iff, beq_iff_eq, lowercase_eq_variableName_iff]

instance (field : Field) (lead varName : String) :
    Decidable (field.IsNamedBy lead varName) :=
  decidable_of_iff _ isNamedBy_iff.symm

/-- A variable names one setting at most. -/
theorem eq_of_isNamedBy {field other : Field} {lead varName : String}
    (h : field.IsNamedBy lead varName) (h' : other.IsNamedBy lead varName) :
    field = other := by
  obtain ⟨name, rfl, hname⟩ := h
  obtain ⟨name', heq, hname'⟩ := h'
  rw [(String.append_right_inj lead).1 heq] at hname
  exact variableName_inj (hname.symm.trans hname')

-- ============================================================== meaning

/-- What the value of a variable means for the setting that it names, if it
means anything. -/
def meaning? : (field : Field) → String → Option field.Value
  | pagesDir | outputDir => fun value => some (OsText.ofText value)
  | clientScript => some
  | writesHtml | minify => boolOfSpelling?
  | environment => environmentOfSpelling?
  | logLevel => fun value => some (Text.lowercase value)

/-- The value of a variable is a text, so the path that it means is one. -/
theorem isWritable_of_meaning? {field : Field} {value : String}
    {v : field.Value}
    (h : field.meaning? value = some v) : field.IsWritable v := by
  cases field with
  | pagesDir | outputDir =>
      cases h
      exact OsText.isUnicode_ofText value
  | _ => trivial

/-- The value of the last variable that names the setting. -/
def lastValue? (field : Field) (lead : String) (vars : List (String × String)) :
    Option String :=
  (vars.filter fun v => field.IsNamedBy lead v.1).getLast?.map Prod.snd

/-- What the last variable that names the setting sets it to. -/
def override? (field : Field) (lead : String) (vars : List (String × String)) :
    Option field.Value :=
  (field.lastValue? lead vars).bind field.meaning?

theorem isWritable_of_override? {field : Field} {lead : String}
    {vars : List (String × String)} {v : field.Value}
    (h : field.override? lead vars = some v) : field.IsWritable v := by
  obtain ⟨value, -, hvalue⟩ := Option.bind_eq_some_iff.1 h
  exact isWritable_of_meaning? hvalue

end Field

/-- Whether a variable names a setting that is a boolean or the environment,
and its value, without blanks at the ends and in small letters, is none of the
accepted spellings. -/
def Offends (lead : String) (v : String × String) : Prop :=
  (Field.writesHtml.IsNamedBy lead v.1 ∨ Field.minify.IsNamedBy lead v.1)
      ∧ Text.lowercase (Text.trim v.2)
          ∉ ["true", "1", "yes", "on", "false", "0", "no", "off"]
    ∨ Field.environment.IsNamedBy lead v.1
      ∧ Text.lowercase (Text.trim v.2)
        ∉ ["production", "prod", "development", "dev"]

instance (lead : String) (v : String × String) : Decidable (Offends lead v) :=
  inferInstanceAs (Decidable (_ ∨ _))

theorem boolOfSpelling?_eq_none_iff {value : String} :
    boolOfSpelling? value = none
      ↔ Text.lowercase (Text.trim value)
          ∉ ["true", "1", "yes", "on", "false", "0", "no", "off"] := by
  unfold boolOfSpelling?
  grind

theorem environmentOfSpelling?_eq_none_iff {value : String} :
    environmentOfSpelling? value = none
      ↔ Text.lowercase (Text.trim value)
        ∉ ["production", "prod", "development", "dev"] := by
  unfold environmentOfSpelling?
  grind

/-- A variable offends exactly if it names a setting for which its value means
nothing. -/
theorem offends_iff {lead : String} {v : String × String} :
    Offends lead v ↔ ∃ field : Field, field.IsNamedBy lead v.1
      ∧ field.meaning? v.2 = none := by
  unfold Offends
  rw [← boolOfSpelling?_eq_none_iff, ← environmentOfSpelling?_eq_none_iff]
  constructor
  · rintro (⟨hnamed | hnamed, hvalue⟩ | ⟨hnamed, hvalue⟩)
    · exact ⟨.writesHtml, hnamed, hvalue⟩
    · exact ⟨.minify, hnamed, hvalue⟩
    · exact ⟨.environment, hnamed, hvalue⟩
  · rintro ⟨field, hnamed, hvalue⟩
    cases field with
    | writesHtml => exact Or.inl ⟨Or.inl hnamed, hvalue⟩
    | minify => exact Or.inl ⟨Or.inr hnamed, hvalue⟩
    | environment => exact Or.inr ⟨hnamed, hvalue⟩
    | _ => cases hvalue

-- ============================================================= the walk

/-- A variable that names a setting sets its member, or its value is the
error. -/
theorem memberOfVariable_of_named {field : Field} {name : String}
    (h : Text.lowercase name = field.variableName) (varName value : String) :
    memberOfVariable varName name value
      = match field.meaning? value with
        | some v => .ok (some (field.member, field.toJson v))
        | none => .error (.invalidValue varName value) := by
  unfold memberOfVariable
  rw [h]
  cases field with
  | writesHtml | minify =>
      simp only [Field.variableName, Field.meaning?]
      cases boolOfSpelling? value <;> rfl
  | environment =>
      simp only [Field.variableName, Field.meaning?]
      cases environmentOfSpelling? value <;> rfl
  | pagesDir | outputDir =>
      simp only [Field.variableName, Field.meaning?, Field.toJson,
        OsText.lossy_ofText]
      rfl
  | _ => rfl

/-- Any other variable sets nothing. -/
theorem memberOfVariable_of_unnamed {name : String}
    (h : ∀ field : Field, Text.lowercase name ≠ field.variableName)
    (varName value : String) :
    memberOfVariable varName name value = .ok none := by
  unfold memberOfVariable
  split
  · next heq => exact absurd heq (h .outputDir)
  · next heq => exact absurd heq (h .pagesDir)
  · next heq => exact absurd heq (h .clientScript)
  · next heq => exact absurd heq (h .writesHtml)
  · next heq => exact absurd heq (h .minify)
  · next heq => exact absurd heq (h .environment)
  · next heq => exact absurd heq (h .logLevel)
  · rfl

variable {lead varName value : String} {vars : List (String × String)}

/-- A variable that names a setting sets it, or ends the walk. -/
theorem membersOfVariables_cons_named {field : Field}
    (h : field.IsNamedBy lead varName) (members : OrderedMap Json) :
    membersOfVariables lead members ((varName, value) :: vars)
      = match field.meaning? value with
        | some v => membersOfVariables lead
            (members.insert field.member (field.toJson v)) vars
        | none => .error (.invalidValue varName value) := by
  obtain ⟨name, hlead, hname⟩ := h
  rw [membersOfVariables, withoutLead?_eq_some_iff.2 hlead]
  simp only []
  rw [memberOfVariable_of_named (field.lowercase_eq_variableName_iff.2 hname)]
  cases field.meaning? value <;> rfl

/-- One that names none is passed by. -/
theorem membersOfVariables_cons_unnamed
    (h : ∀ field : Field, ¬ field.IsNamedBy lead varName)
    (members : OrderedMap Json) :
    membersOfVariables lead members ((varName, value) :: vars)
      = membersOfVariables lead members vars := by
  rw [membersOfVariables]
  cases hname : withoutLead? lead varName with
  | none => rfl
  | some name =>
      have hunnamed : ∀ field :
        Field, Text.lowercase name ≠ field.variableName :=
        fun field heq => h field ⟨name, withoutLead?_eq_some_iff.1 hname,
          field.lowercase_eq_variableName_iff.1 heq⟩
      simp only []
      rw [memberOfVariable_of_unnamed hunnamed]
      rfl

-- ============================================================= the last

namespace Field

variable {field : Field}

/-- A first variable that names the setting is the last one if no other does.
-/
theorem lastValue?_cons_named (h : field.IsNamedBy lead varName) :
    field.lastValue? lead ((varName, value) :: vars)
      = some ((field.lastValue? lead vars).getD value) := by
  unfold lastValue?
  rw [List.filter_cons_of_pos (by simpa using h), List.getLast?_cons]
  cases (vars.filter fun v => field.IsNamedBy lead v.1).getLast? <;> rfl

theorem lastValue?_cons_of_not (h : ¬ field.IsNamedBy lead varName) :
    field.lastValue? lead ((varName, value) :: vars)
      = field.lastValue? lead vars := by
  unfold lastValue?
  rw [List.filter_cons_of_neg (by simpa using h)]

/-- Where no variable offends, the last value that there is means something. -/
theorem override?_isSome (fine : ∀ v ∈ vars, ¬ Offends lead v)
    (h : field.lastValue? lead vars = some value) :
    (field.override? lead vars).isSome = true := by
  obtain ⟨⟨varName, _⟩, hlast, rfl⟩ := Option.map_eq_some_iff.1 h
  obtain ⟨hmem, hnamed⟩ := List.mem_filter.1 (List.mem_of_getLast? hlast)
  rw [override?, h, Option.bind_some, Option.isSome_iff_ne_none]
  exact fun hnone =>
    fine _ hmem (offends_iff.2 ⟨field, of_decide_eq_true hnamed, hnone⟩)

/-- A first variable that names the setting counts if none behind it does. -/
theorem override?_cons_named {v : field.Value}
    (h : field.IsNamedBy lead varName)
    (fine : ∀ v ∈ vars, ¬ Offends lead v)
    (means : field.meaning? value = some v) :
    field.override? lead ((varName, value) :: vars)
      = some ((field.override? lead vars).getD v) := by
  rw [override?, lastValue?_cons_named h, Option.bind_some]
  cases hlast : field.lastValue? lead vars with
  | none =>
      rw [override?, hlast]
      exact means
  | some last =>
      obtain ⟨w, hw⟩ := Option.isSome_iff_exists.1 (override?_isSome fine hlast)
      have hmeans : field.meaning? last = some w := by
        rwa [override?, hlast, Option.bind_some] at hw
      rw [hw]
      exact hmeans

/-- A first variable that does not name the setting is no matter. -/
theorem override?_cons_of_not (h : ¬ field.IsNamedBy lead varName) :
    field.override? lead ((varName, value) :: vars)
      = field.override? lead vars := by
  rw [override?, lastValue?_cons_of_not h, override?]

end Field

-- ======================================================== all variables

/-- Whether members are those from before with what variables set in their
place. -/
structure SetBy (lead : String) (vars : List (String × String))
    (before after : OrderedMap Json) :
    Prop where
  set : ∀ field : Field, after.get? field.member
    = ((field.override? lead vars).map field.toJson).or
      (before.get? field.member)
  others : ∀ name, (∀ field : Field, field.member ≠ name) →
    after.get? name = before.get? name

namespace SetBy

variable {after : OrderedMap Json}

/-- What variables alone set is looked up in the object of their members. -/
theorem lookup_object (h : SetBy lead vars .empty after) (field : Field) :
    (Sorted.ofList after.entries).lookup field.member
      = (field.override? lead vars).map field.toJson := by
  rw [Sorted.lookup_ofList after.distinct]
  exact (h.set field).trans (Option.or_none ..)

/-- The object of the members that variables alone set is in order. -/
theorem isOrdered (h : SetBy lead vars .empty after) :
    (Json.object after.entries).IsOrdered := by
  refine .object fun member hmember => ?_
  have hheld := OrderedMap.get?_eq_some_iff.2 hmember
  by_cases hfield : ∃ field : Field, field.member = member.1
  · obtain ⟨field, hname⟩ := hfield
    rw [← hname, h.set, show OrderedMap.empty.get? field.member = none from rfl,
      Option.or_none, Option.map_eq_some_iff] at hheld
    obtain ⟨v, -, hv⟩ := hheld
    rw [← hv]
    exact field.isOrdered_toJson v
  · rw [h.others _ fun field h => hfield ⟨field, h⟩] at hheld
    cases hheld

end SetBy

/-- A variable that does not offend is worked off, and sets what it sets
unless one behind it does. -/
theorem membersOfVariables_step (members : OrderedMap Json)
    {v : String × String} (fine : ¬ Offends lead v) :
    ∃ next, (∀ vars, membersOfVariables lead members (v :: vars)
        = membersOfVariables lead next vars)
      ∧ ∀ vars, (∀ w ∈ vars, ¬ Offends lead w) →
        ∀ after, SetBy lead vars next after →
        SetBy lead (v :: vars) members after := by
  obtain ⟨varName, value⟩ := v
  by_cases hfield : ∃ field : Field, field.IsNamedBy lead varName
  · obtain ⟨field, hnamed⟩ := hfield
    cases hmeans : field.meaning? value with
    | none => exact absurd (offends_iff.2 ⟨field, hnamed, hmeans⟩) fine
    | some v =>
        refine ⟨members.insert field.member (field.toJson v), fun vars => ?_,
          fun vars hrest after hafter =>
          ⟨fun other => ?_, fun name hname => ?_⟩⟩
        · rw [membersOfVariables_cons_named hnamed, hmeans]
        · -- a later variable for the same setting takes the place of this one
          rw [hafter.set, OrderedMap.get?_insert]
          by_cases heq : other = field
          · subst heq
            rw [if_pos rfl, Field.override?_cons_named hnamed hrest hmeans]
            cases other.override? lead vars <;> rfl
          · have hnot : ¬ other.IsNamedBy lead varName :=
              fun h => heq (Field.eq_of_isNamedBy h hnamed)
            rw [if_neg fun h => heq (Field.member_inj h),
              Field.override?_cons_of_not hnot]
        · rw [hafter.others name hname, OrderedMap.get?_insert,
            if_neg (hname field).symm]
  · have hunnamed : ∀ field : Field, ¬ field.IsNamedBy lead varName :=
      fun field h => hfield ⟨field, h⟩
    refine ⟨members,
      fun vars => membersOfVariables_cons_unnamed hunnamed members,
      fun vars _ after hafter => ⟨fun field => ?_, hafter.others⟩⟩
    rw [hafter.set, Field.override?_cons_of_not (hunnamed field)]

/-- Where no variable offends, the last one for each setting counts. -/
theorem membersOfVariables_ok (members : OrderedMap Json)
    (fine : ∀ v ∈ vars, ¬ Offends lead v) :
    ∃ after, membersOfVariables lead members vars = .ok after
      ∧ SetBy lead vars members after := by
  induction vars generalizing members with
  | nil => exact ⟨members, rfl, fun _ => rfl, fun _ _ => rfl⟩
  | cons v vars ih =>
      obtain ⟨hv, hvars⟩ := List.forall_mem_cons.1 fine
      obtain ⟨next, hstep, hset⟩ := membersOfVariables_step members hv
      obtain ⟨after, hrun, hafter⟩ := ih next hvars
      exact ⟨after, (hstep vars).trans hrun, hset vars hvars after hafter⟩

/-- The first variable that offends is the error. -/
theorem membersOfVariables_error (members : OrderedMap Json)
    (first : vars.find? (fun v => Offends lead v) = some (varName, value)) :
    membersOfVariables lead members vars
      = .error (.invalidValue varName value) := by
  induction vars generalizing members with
  | nil => cases first
  | cons v vars ih =>
      rw [List.find?_cons] at first
      by_cases hoffends : Offends lead v
      · rw [decide_eq_true hoffends] at first
        cases first
        obtain ⟨field, hnamed, hnone⟩ := offends_iff.1 hoffends
        rw [membersOfVariables_cons_named hnamed, hnone]
      · rw [decide_eq_false hoffends] at first
        obtain ⟨next, hstep, -⟩ := membersOfVariables_step members hoffends
        exact (hstep vars).trans (ih next first)

-- =========================================================== overriding

/-- The settings with what variables set in their place. -/
def overriddenBy (settings : Settings) (lead : String)
    (vars : List (String × String)) :
    Settings where
  pagesDir := (Field.pagesDir.override? lead vars).getD settings.pagesDir
  outputDir := (Field.outputDir.override? lead vars).getD settings.outputDir
  writesHtml := (Field.writesHtml.override? lead vars).getD settings.writesHtml
  environment :=
    (Field.environment.override? lead vars).getD settings.environment
  minify := (Field.minify.override? lead vars).getD settings.minify
  clientScript :=
    (Field.clientScript.override? lead vars).getD settings.clientScript
  logLevel := (Field.logLevel.override? lead vars).getD settings.logLevel

/-- Each setting is what the variables make it, or as before. -/
theorem Field.get_overriddenBy (field : Field) (settings : Settings)
    (lead : String) (vars : List (String × String)) :
    field.get (settings.overriddenBy lead vars)
      = (field.override? lead vars).getD (field.get settings) := by
  cases field <;> rfl

/-- Variables laid over data that gives settings: the first variable that
offends is the error, and if none does, the data gives those settings with
what the variables set in their place. -/
theorem ofLayers_overlay_variables {base : List (String × Json)}
    {settings : Settings}
    (ordered : (Json.obj base).IsOrdered)
    (reads : Decode.settings (.obj base) = .ok settings)
    (lead : String) (vars : List (String × String)) :
    (do ofLayers ((Json.obj base).overlay (← (variableSource lead vars).layer)))
      = match vars.find? fun v => Offends lead v with
        | some (varName, value) => .error (.invalidValue varName value)
        | none => .ok (settings.overriddenBy lead vars) := by
  unfold Source.layer variableSource
  cases hfind : vars.find? fun v => Offends lead v with
  | some first =>
      simp only []
      rw [membersOfVariables_error .empty hfind]
      rfl
  | none =>
      have hfine : ∀ v ∈ vars, ¬ Offends lead v := by
        simpa using List.find?_eq_none.1 hfind
      obtain ⟨members, hrun, hset⟩ := membersOfVariables_ok .empty hfine
      simp only []
      rw [hrun]
      show ofLayers
        ((Json.obj base).overlay (.obj (Sorted.ofList members.entries))) = _
      rw [ofLayers,
        Decode.settings_overlay ordered hset.isOrdered reads fun field =>
        ⟨field.override? lead vars, fun v hv =>
          Field.isWritable_of_override? hv, hset.lookup_object field,
            field.get_overriddenBy settings lead vars⟩]

/-- Variables laid over settings with paths that are texts. -/
theorem apply_of_isUnicode {settings : Settings} (h : settings.IsUnicode)
    (lead : String) (vars : List (String × String)) :
    settings.apply (variableSource lead vars)
      = match vars.find? fun v => Offends lead v with
        | some (varName, value) => .error (.invalidValue varName value)
        | none => .ok (settings.overriddenBy lead vars) := by
  rw [apply, toJson_of_isUnicode h]
  exact ofLayers_overlay_variables settings.isOrdered_fields
    (settings_object_fields h) lead vars

/-- Settings with any other path cannot be overridden. -/
theorem apply_of_not_isUnicode {settings : Settings} (h : ¬ settings.IsUnicode)
    (source : Source) : settings.apply source = .error .notUnicode := by
  rw [apply, toJson_of_not_isUnicode h]
  rfl

/-- Overriding settings by variables fails exactly if a path among the settings
is no text or a variable offends. In the first case the error is the same
whatever the variables are, since the settings are written as data before the
variables are looked at. In the second one it names the first variable that
offends, with its value as it stands. Otherwise each setting is what the value
of the last variable that names it means, and as before where no variable
names it. -/
theorem apply_variables (settings : Settings) (lead : String)
    (vars : List (String × String)) :
    ((∃ e, settings.apply (variableSource lead vars) = .error e)
        ↔ ¬ settings.IsUnicode ∨ ∃ v ∈ vars, Offends lead v)
      ∧ settings.apply (variableSource lead vars)
        = if settings.IsUnicode then
            match vars.find? fun v => Offends lead v with
            | some (varName, value) => .error (.invalidValue varName value)
            | none => .ok (settings.overriddenBy lead vars)
          else .error .notUnicode := by
  by_cases hunicode : settings.IsUnicode
  · have happly := apply_of_isUnicode hunicode lead vars
    rw [if_pos hunicode]
    refine ⟨?_, happly⟩
    rw [happly]
    cases hfind : vars.find? fun v => Offends lead v with
    | some first =>
        have hoffends := List.find?_some hfind
        exact ⟨fun _ => Or.inr ⟨first, List.mem_of_find?_eq_some hfind,
          of_decide_eq_true hoffends⟩, fun _ => ⟨_, rfl⟩⟩
    | none =>
        refine ⟨nofun, ?_⟩
        rintro (hnot | ⟨v, hmem, hoffends⟩)
        · exact absurd hunicode hnot
        · exact absurd (decide_eq_true hoffends)
            (List.find?_eq_none.1 hfind v hmem)
  · have happly := apply_of_not_isUnicode hunicode (variableSource lead vars)
    rw [if_neg hunicode]
    exact ⟨⟨fun _ => Or.inl hunicode, fun _ => ⟨_, happly⟩⟩, happly⟩

/-- The lead has to be there as it stands, the name behind it in letters of
either case. -/
example :
    (defaults.apply
      (variableSource "SITE_"
        [("SITE_log_LEVEL", "Warn"), ("SITE_MINIFY", "off"),
        ("site_minify", "maybe"), ("SITE_Minify", " ON ")])).toOption
      = some { defaults with logLevel := "warn" } := by decide +kernel

/-- Settings whose output goes to a directory with a byte in its name that no
text has. -/
def unreadableSettings : Settings := { defaults with outputDir := ⟨[0xff]⟩ }

/-- They cannot be overridden at all, even by no variable. And where they can,
a name that is that of a setting only for who takes a long s for an s of
another case names no setting. -/
theorem apply_strays :
    unreadableSettings.apply (variableSource defaultLead [])
      = .error .notUnicode
      ∧ (¬ ∃ v ∈ ([] : List (String × String)), Offends defaultLead v)
      ∧ (defaults.apply
        (variableSource defaultLead
          [("ELEGANCE_PAGE\u017f_DIR", "x")])).toOption
        = some defaults := by
  refine ⟨apply_of_not_isUnicode ?_ _, nofun, by decide +kernel⟩
  decide +kernel

end Prerender.Settings
