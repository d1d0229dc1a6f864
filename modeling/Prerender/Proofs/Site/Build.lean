/-
A page build in stages.

What is written first is made without a look at files: the page is
loaded, its trees are resolved in one pass, the page before its
metadata, and the document is rendered (`Builder.prepare`). Then come
the first write, the payload, and the second write
(`Builder.buildPage_eq`). This is the form that all that follows about
pages and sites is proved in, and three kinds of facts come from it:

1. Whatever holds of the steps of a build holds of the build
   (`Build.Closed.buildPage`). A property of steps is closed if it holds
   of those that change nothing and of steps in sequence; what the files
   before and after have in common is such a property
   (`Build.closed_of_preorder`), and so is not to look at files at all
   (`Build.closed_silent`).
2. A build that fails has got to one of its four stages
   (`Builder.buildPage_error`), and one that succeeds leaves two files
   with the texts that were made (`Builder.buildPage_ok`).
3. In the mode of documents and with the plain collaborators these texts
   are determined by the two trees of the page
   (`Builder.buildPage_html`).

The collaborators, which load, render, transform and make documents, are
taken as they come. Only the last of the three says what they are.

A site is a row of page builds, and the files after one of them do not
depend on what has been reported so far
(`Builder.buildPages_cons_files`), so that statements about sites are
inductions over pages with the files alone.
-/
import Prerender.Proofs.Files.Directories
import Prerender.Proofs.Steps
import Prerender.Site.Builder

namespace Prerender

open Files

-- ============================================================= artifacts

namespace Builder

variable {fs mid fs' : FileSystem}

/-- How writing an artifact goes: its directory is made first, and then its
text is written. -/
theorem writeArtifact_eq (dir name : OsText) (text : String) (fs : FileSystem) :
    writeArtifact dir name text fs
      = match FileStep.makeDirectories dir fs with
        | .error e mid => .error (.unwritten dir e) mid
        | .ok _ mid =>
            match mid.writeText (Path.join dir name) text with
            | .error e => .error (.unwritten (Path.join dir name) e) mid
            | .ok fs' => .ok ⟨⟩ fs' := by
  show EStateM.bind (onFiles dir (FileStep.makeDirectories dir)) _ fs = _
  unfold EStateM.bind onFiles
  cases FileStep.makeDirectories dir fs with
  | error e mid => rfl
  | ok a mid =>
      unfold FileStep.writeText FileStep.change
      dsimp only
      cases mid.writeText (Path.join dir name) text <;> rfl

/-- Writing an artifact is writing its text after changes that touch no file. -/
theorem writeArtifact_ok {dir name : OsText} {text : String}
    (h : writeArtifact dir name text fs = .ok ⟨⟩ fs') :
    ∃ mid, FileSystem.Keeps (fun _ => False) fs mid
      ∧ mid.writeText (Path.join dir name) text = .ok fs' := by
  have hmakes := FileStep.makes_makeDirectories dir fs
  unfold FileStep.after at hmakes
  rw [writeArtifact_eq] at h
  cases hdirs : FileStep.makeDirectories dir fs with
  | error e mid =>
      rw [hdirs] at h
      cases h
  | ok a mid =>
      rw [hdirs] at h hmakes
      refine ⟨mid, FileSystem.Makes.keeps hmakes, ?_⟩
      dsimp only at h
      cases htext : mid.writeText (Path.join dir name) text with
      | error e =>
          rw [htext] at h
          cases h
      | ok after =>
          rw [htext] at h
          cases h
          rfl

/-- Writing an artifact fails for a path that cannot be written and for
nothing else. -/
theorem writeArtifact_error {dir name : OsText} {text : String} {e : BuildError}
    (h : writeArtifact dir name text fs = .error e fs') :
    ∃ path reason, e = .unwritten path reason := by
  rw [writeArtifact_eq] at h
  split at h
  · cases h
    exact ⟨_, _, rfl⟩
  · split at h
    · cases h
      exact ⟨_, _, rfl⟩
    · cases h

/-- Of two files written to a directory one after the other, both are there. -/
theorem readText_of_writeArtifacts {dir first second : OsText}
    {text text' : String}
    (hfirst : Path.IsFileName first) (hsecond : Path.IsFileName second)
    (apart : first ≠ second)
    (before : writeArtifact dir first text fs = .ok ⟨⟩ mid)
    (after : writeArtifact dir second text' mid = .ok ⟨⟩ fs') :
    fs'.readText (Path.join dir first) = .ok text
      ∧ fs'.readText (Path.join dir second) = .ok text' := by
  obtain ⟨fs₁, -, hwrite₁⟩ := writeArtifact_ok before
  obtain ⟨fs₂, hdirs, hwrite₂⟩ := writeArtifact_ok after
  obtain ⟨parent, hfollow₁, hleads₁, hfile₁, hkeeps₁⟩ :=
    FileSystem.writeText_join_ok hfirst hwrite₁
  obtain ⟨parent', hfollow₂, hleads₂, hfile₂, hkeeps₂⟩ :=
    FileSystem.writeText_join_ok hsecond hwrite₂
  -- the second file goes to the directory of the first, which is still where
  -- it was
  have hsame : parent' = parent := by
    have hmoved := hdirs.follow (hkeeps₁.follow hfollow₁)
    rw [hdirs.start, hkeeps₁.start, hmoved] at hfollow₂
    cases hfollow₂
    rfl
  subst hsame
  refine ⟨?_, hleads₂.readText hfile₂⟩
  refine (hkeeps₂.leads (hdirs.leads hleads₁)).readText ?_
  have hplace : parent' ++ [first] ≠ parent' ++ [second] := by
    intro heq
    exact apart (List.singleton_inj.1 (List.append_cancel_left heq))
  exact (hkeeps₂.files _ hplace text).2
    ((hdirs.files _ not_false text).2 hfile₁)

/-- The files that pages are written to. -/
def artifactFiles : List OsText := [documentFile, treeFile, Html.payloadFile]

theorem isFileName_of_mem {name : OsText} (h : name ∈ artifactFiles) :
    Path.IsFileName name := by
  have hall : ∀ name ∈ artifactFiles, Path.IsFileName name := by decide
  exact hall name h

-- ================================================================ stages

/-- The file that a page build writes first: the document, or the tree as
data. -/
def firstFile (builder : Builder) : OsText :=
  if builder.settings.writesHtml then documentFile else treeFile

/-- What a page build does before it writes. It makes the text of the first
file; scope and pass are then as the payload lists them. -/
def prepare (builder : Builder) (path : String) :
    Build (String × Scope × Pass) := do
  let (loaded, scope) ← builder.loadPage path
  let (tree, pass) ← resolveIn path loaded.tree .fresh
  if builder.settings.writesHtml then
    let (metadata, scope) := loaded.metadata scope
    let (metadata, pass) ← resolveIn path metadata pass
    let text ← builder.document path tree metadata
    return (text, scope, pass)
  else
    return (tree.toJson.pretty, scope, pass)

/-- The payload of a page with the given scope and pass. -/
def pagePayload (path : String) (scope : Scope) (pass : Pass) : Payload :=
  .ofPage (PagePath.url path) scope.cells pass.bindings scope.hooks

/-- The first file of a page is one of these. -/
theorem firstFile_mem (builder : Builder) :
    builder.firstFile ∈ artifactFiles := by
  unfold firstFile
  split <;> decide

theorem firstFile_ne (builder : Builder) :
    builder.firstFile ≠ Html.payloadFile := by
  unfold firstFile
  split <;> decide

/-- The files that a page build writes, in order. -/
def pageFiles (builder : Builder) : List OsText :=
  [builder.firstFile, Html.payloadFile]

/-- What a page build writes to is one of these. -/
theorem artifact_of_mem {builder : Builder} {name : OsText}
    (h : name ∈ builder.pageFiles) :
    name ∈ artifactFiles := by
  rcases List.mem_cons.1 h with rfl | h
  · exact builder.firstFile_mem
  · cases List.mem_singleton.1 h
    decide

/-- A page build is a preparation and two writes. -/
theorem buildPage_eq (builder : Builder) (path : String) :
    builder.buildPage path = (do
      let (text, scope, pass) ← builder.prepare path
      writeArtifact (builder.outputDir path) builder.firstFile text
      builder.writePayload path scope pass) := by
  unfold buildPage prepare writeTree firstFile
  rw [bind_assoc]
  refine bind_congr fun ⟨loaded, scope⟩ => ?_
  rw [bind_assoc]
  refine bind_congr fun ⟨tree, pass⟩ => ?_
  cases builder.settings.writesHtml with
  | true => simp only [if_true, bind_assoc, pure_bind]
  | false => simp only [Bool.false_eq_true, if_false, bind_assoc, pure_bind]

end Builder

-- ======================================================= steps in general

/-- A property of build steps that holds of steps in sequence if it holds of
each of them, and of those that change nothing. -/
structure Build.Closed (P : {α : Type} → Build α → Prop) : Prop where
  ok : ∀ {α : Type} (a : α), P (pure a : Build α)
  fail : ∀ {α : Type} (e : BuildError), P (throw e : Build α)
  bind : ∀ {α β : Type} {x : Build α} {f : α → Build β}, P x →
    (∀ a, P (f a)) → P (x >>= f)

namespace Build.Closed

open Builder

variable {P : {α : Type} → Build α → Prop} {builder : Builder} {path : String}

theorem resolveIn (h : Closed P) (tree : Node) (pass : Pass) :
    P (Builder.resolveIn path tree pass) := by
  unfold Builder.resolveIn
  cases tree.resolve pass with
  | ok tree pass => exact h.ok _
  | error e pass => exact h.fail _

theorem rendered (h : Closed P) (result : Except Reasons String) :
    P (Builder.rendered path result) := by
  cases result with
  | ok html => exact h.ok _
  | error reasons => exact h.fail _

theorem document (h : Closed P) (tree metadata : Node) :
    P (builder.document path tree metadata) :=
  h.bind (h.rendered _) fun _ => h.bind (h.rendered _) fun _ =>
    h.bind (h.rendered _) fun _ => h.ok _

theorem prepare (h : Closed P) : P (builder.prepare path) := by
  unfold Builder.prepare loadPage
  refine h.bind ?_ ?_
  · split
    · exact h.ok _
    · exact h.fail _
  · rintro ⟨loaded, scope⟩
    refine h.bind (h.resolveIn _ _) ?_
    rintro ⟨tree, pass⟩
    dsimp only
    split
    · refine h.bind (h.resolveIn _ _) ?_
      rintro ⟨metadata, pass⟩
      exact h.bind (h.document _ _) fun text => h.ok _
    · exact h.ok _

/-- What holds of the writes of a page build holds of the build. -/
theorem buildPage (h : Closed P) (writes : ∀ name ∈ builder.pageFiles, ∀ text,
    P (writeArtifact (builder.outputDir path) name text)) :
    P (builder.buildPage path) := by
  rw [buildPage_eq]
  refine h.bind h.prepare ?_
  rintro ⟨text, scope, pass⟩
  refine h.bind (writes _ (.head _) text) fun _ => ?_
  unfold Builder.writePayload transformed
  refine h.bind ?_ fun code =>
    h.bind (writes _ (.tail _ (.head _)) code) fun _ => h.ok _
  split
  · exact h.ok _
  · exact h.fail _

end Build.Closed

/-- What holds of the files before and after a step holds of steps in sequence
if it is reflexive and transitive. -/
theorem Build.closed_of_preorder (R : FileSystem → FileSystem → Prop)
    (refl : ∀ fs, R fs fs)
    (trans : ∀ {fs mid fs'}, R fs mid → R mid fs' → R fs fs') :
    Build.Closed fun step => ∀ fs, R fs (Steps.state (step fs)) where
  ok _ := refl
  fail _ := refl
  bind {_ _ x f} hx hf fs := by
    have hfirst := hx fs
    rw [Steps.state_bind]
    cases hrun : x fs with
    | error e mid =>
        rw [hrun] at hfirst
        exact hfirst
    | ok a mid =>
        rw [hrun] at hfirst
        exact trans hfirst (hf a mid)

/-- Whether a step neither looks at files nor changes them. -/
def Build.Silent {α : Type} (step : Build α) : Prop :=
  (∃ a, ∀ fs, step fs = .ok a fs) ∨ ∃ e, ∀ fs, step fs = .error e fs

/-- A silent step leaves the files when it gives a result. -/
theorem Build.Silent.ok {α : Type} {step : Build α} {fs fs' : FileSystem}
    {a : α} (h : step.Silent) (hrun : step fs = .ok a fs') : fs' = fs := by
  rcases h with ⟨b, hb⟩ | ⟨e, he⟩
  · rw [hb] at hrun
    cases hrun
    rfl
  · rw [he] at hrun
    cases hrun

theorem Build.Silent.error {α : Type} {step : Build α} {fs fs' : FileSystem}
    {e : BuildError}
    (h : step.Silent) (hrun : step fs = .error e fs') : fs' = fs := by
  rcases h with ⟨b, hb⟩ | ⟨e', he⟩
  · rw [hb] at hrun
    cases hrun
  · rw [he] at hrun
    cases hrun
    rfl

/-- Silent steps in sequence are silent. -/
theorem Build.closed_silent : Build.Closed fun step => step.Silent where
  ok a := Or.inl ⟨a, fun _ => rfl⟩
  fail e := Or.inr ⟨e, fun _ => rfl⟩
  bind {_ _ x f} hx hf := by
    rcases hx with ⟨a, ha⟩ | ⟨e, he⟩
    · rcases hf a with ⟨b, hb⟩ | ⟨e, he⟩
      · exact Or.inl ⟨b, fun fs => Steps.bind_eq_ok.2 ⟨a, fs, ha fs, hb fs⟩⟩
      · exact Or.inr
          ⟨e, fun fs => Steps.bind_eq_error.2 (Or.inr ⟨a, fs, ha fs, he fs⟩)⟩
    · exact Or.inr ⟨e, fun fs => Steps.bind_eq_error.2 (Or.inl (he fs))⟩

-- ========================================================== whole builds

namespace Builder

variable {fs mid fs' : FileSystem} {builder : Builder} {path : String}

/-- The second half of a build: the payload is transformed, and then written. -/
theorem writePayload_eq (builder : Builder) (path : String) (scope : Scope)
    (pass : Pass) (fs : FileSystem) :
    builder.writePayload path scope pass fs
      = match builder.transform (pagePayload path scope pass).code
          builder.settings.scriptOptions with
        | .error reasons => .error (.untransformed path reasons.text) fs
        | .ok code =>
            match writeArtifact (builder.outputDir path) Html.payloadFile
              code fs with
            | .error e mid => .error e mid
            | .ok _ mid =>
                .ok ⟨(pagePayload path scope pass).needsReload⟩ mid := by
  unfold writePayload pagePayload
  show EStateM.bind (transformed path _) _ fs = _
  unfold EStateM.bind transformed
  cases builder.transform _ builder.settings.scriptOptions with
  | error reasons => rfl
  | ok code =>
      show EStateM.bind (writeArtifact _ _ code) _ fs = _
      unfold EStateM.bind
      dsimp only
      cases writeArtifact
        (builder.outputDir path) Html.payloadFile code fs <;> rfl

/-- A preparation goes alike whatever the files, and leaves them as they are. -/
theorem silent_prepare (builder : Builder) (path : String) :
    (builder.prepare path).Silent :=
  Build.closed_silent.prepare

/-- How far a build has got that fails: its preparation failed, or the first
write, or the transformation of the payload, or the second write. -/
theorem buildPage_error {e : BuildError}
    (h : builder.buildPage path fs = .error e fs') :
    builder.prepare path fs = .error e fs ∧ fs' = fs
      ∨ ∃ text scope pass, builder.prepare path fs = .ok (text, scope, pass) fs
        ∧ (writeArtifact (builder.outputDir path) builder.firstFile text fs
            = .error e fs'
          ∨ ∃ mid,
            writeArtifact (builder.outputDir path) builder.firstFile text fs
              = .ok ⟨⟩ mid
            ∧ ((∃ reasons, builder.transform (pagePayload path scope pass).code
                  builder.settings.scriptOptions = .error reasons
                ∧ e = .untransformed path reasons.text ∧ fs' = mid)
              ∨ ∃ code, builder.transform (pagePayload path scope pass).code
                  builder.settings.scriptOptions = .ok code
                ∧ writeArtifact
                  (builder.outputDir path) Html.payloadFile code mid
                  = .error e fs')) := by
  rw [buildPage_eq] at h
  rcases Steps.bind_eq_error.1 h with hprepare | ⟨⟨text, scope, pass⟩, last,
    hprepare, hwrites⟩
  · obtain rfl := (builder.silent_prepare path).error hprepare
    exact Or.inl ⟨hprepare, rfl⟩
  · obtain rfl := (builder.silent_prepare path).ok hprepare
    refine Or.inr ⟨text, scope, pass, hprepare, ?_⟩
    rcases Steps.bind_eq_error.1 hwrites with
      hfirst | ⟨_, mid, hfirst, hpayload⟩
    · exact Or.inl hfirst
    · refine Or.inr ⟨mid, hfirst, ?_⟩
      rw [writePayload_eq] at hpayload
      split at hpayload
      · next reasons htransform =>
        cases hpayload
        exact Or.inl ⟨reasons, htransform, rfl, rfl⟩
      · next code htransform =>
        refine Or.inr ⟨code, htransform, ?_⟩
        split at hpayload
        · next hsecond =>
          cases hpayload
          exact hsecond
        · cases hpayload

/-- What a build leaves that succeeds. The first file of the page holds the
text that was prepared, and the other one the transformed code of the
payload. -/
structure Leaves (builder : Builder) (path text : String) (scope : Scope)
    (pass : Pass) (code : String) (fs : FileSystem) : Prop where
  first : fs.readText (Path.join (builder.outputDir path) builder.firstFile)
    = .ok text
  made : builder.transform (pagePayload path scope pass).code
    builder.settings.scriptOptions = .ok code
  payload : fs.readText (Path.join (builder.outputDir path) Html.payloadFile)
    = .ok code

/-- A build that succeeds has written both files with what was made for them. -/
theorem buildPage_ok {result : BuildResult}
    (h : builder.buildPage path fs = .ok result fs') :
    ∃ text scope pass code, builder.prepare path fs = .ok (text, scope, pass) fs
      ∧ builder.Leaves path text scope pass code fs'
      ∧ result = ⟨(pagePayload path scope pass).needsReload⟩ := by
  rw [buildPage_eq] at h
  obtain ⟨⟨text, scope, pass⟩, last, hprepare, hwrites⟩ := Steps.bind_eq_ok.1 h
  obtain ⟨_, mid, hfirst, hpayload⟩ := Steps.bind_eq_ok.1 hwrites
  obtain rfl := (builder.silent_prepare path).ok hprepare
  rw [writePayload_eq] at hpayload
  split at hpayload
  · cases hpayload
  · next code htransform =>
    split at hpayload
    · cases hpayload
    · next hsecond =>
      cases hpayload
      obtain ⟨htext, hcode⟩ :=
        readText_of_writeArtifacts (isFileName_of_mem builder.firstFile_mem)
        (isFileName_of_mem (by decide)) builder.firstFile_ne hfirst hsecond
      exact ⟨text, scope, pass, code, hprepare, ⟨htext, htransform, hcode⟩, rfl⟩

/-- A build that was prepared, and whose payload can be transformed, succeeds
unless a write fails. -/
theorem buildPage_of_prepare {text code : String} {scope : Scope} {pass : Pass}
    (hprepare : builder.prepare path fs = .ok (text, scope, pass) fs)
    (hcode : builder.transform (pagePayload path scope pass).code
      builder.settings.scriptOptions = .ok code) :
    (∃ result fs', builder.buildPage path fs = .ok result fs'
        ∧ builder.Leaves path text scope pass code fs')
      ∨ ∃ dir reason fs',
        builder.buildPage path fs = .error (.unwritten dir reason) fs' := by
  cases hbuild : builder.buildPage path fs with
  | ok result fs' =>
      obtain ⟨text', scope', pass', code', hprepare', hleaves, -⟩ :=
        buildPage_ok hbuild
      cases hprepare.symm.trans hprepare'
      cases hcode.symm.trans hleaves.made
      exact Or.inl ⟨result, fs', rfl, hleaves⟩
  | error e fs' =>
      have hunwritten : ∃ dir reason, e = .unwritten dir reason := by
        rcases buildPage_error hbuild with
          ⟨herror, -⟩ | ⟨_, _, _, hprepare', hwrites⟩
        · rw [hprepare] at herror
          cases herror
        · cases hprepare.symm.trans hprepare'
          rcases hwrites with hwrite | ⟨mid, -,
            ⟨reasons, herror, -⟩ | ⟨_, -, hwrite⟩⟩
          · exact writeArtifact_error hwrite
          · rw [hcode] at herror
            cases herror
          · exact writeArtifact_error hwrite
      obtain ⟨dir, reason, rfl⟩ := hunwritten
      exact Or.inr ⟨dir, reason, fs', rfl⟩

-- ================================================================= sites

/-- Pages are built one after the other. -/
theorem buildPages_append (builder : Builder) (report : BuildReport)
    (fs : FileSystem)
    (front back : List String) :
    builder.buildPages report fs (front ++ back)
      = builder.buildPages (builder.buildPages report fs front).1
          (builder.buildPages report fs front).2 back := by
  induction front generalizing report fs with
  | nil => rfl
  | cons page rest ih =>
      rw [List.cons_append, buildPages, buildPages]
      cases builder.buildPage page fs with
      | ok result fs => exact ih _ fs
      | error e fs => exact ih _ fs

/-- The files after a build do not depend on the report that it is added to. -/
theorem buildPages_cons_files (builder : Builder) (report : BuildReport)
    (fs : FileSystem)
    (page : String) (rest : List String) :
    ∃ report', builder.buildPages report fs (page :: rest)
      = builder.buildPages report'
        (Steps.state (builder.buildPage page fs)) rest := by
  rw [buildPages]
  cases builder.buildPage page fs with
  | ok result fs => exact ⟨_, rfl⟩
  | error e fs => exact ⟨_, rfl⟩

-- ========================================================== preparations

/-- A tree that resolves leaves the files as they are. -/
theorem resolveIn_ok {page : String} {tree out : Node} {pass pass' : Pass}
    (h : resolveIn page tree pass fs = .ok (out, pass') fs') :
    tree.resolve pass = .ok out pass' ∧ fs' = fs := by
  unfold resolveIn at h
  cases hrun : tree.resolve pass with
  | ok out pass' =>
      rw [hrun] at h
      cases h
      exact ⟨rfl, rfl⟩
  | error e pass' =>
      rw [hrun] at h
      cases h

theorem loadPage_ok {loaded : LoadedPage × Scope}
    (h : builder.loadPage path fs = .ok loaded fs') :
    builder.loader.load path .empty = .ok loaded ∧ fs' = fs := by
  unfold loadPage at h
  cases hrun : builder.loader.load path .empty with
  | ok loaded =>
      rw [hrun] at h
      cases h
      exact ⟨rfl, rfl⟩
  | error e =>
      rw [hrun] at h
      cases h

/-- Preparing a document resolves both trees in one pass, the page first, and
renders them. -/
theorem prepare_document_ok {text : String} {scope' : Scope} {pass' : Pass}
    (html : builder.settings.writesHtml = true)
    (h : builder.prepare path fs = .ok (text, scope', pass') fs') :
    ∃ loaded scope tree pass metadata,
      builder.loader.load path .empty = .ok (loaded, scope)
      ∧ loaded.tree.resolve .fresh = .ok tree pass
      ∧ (loaded.metadata scope).1.resolve pass = .ok metadata pass'
      ∧ scope' = (loaded.metadata scope).2
      ∧ builder.document path tree metadata fs = .ok text fs' := by
  obtain ⟨⟨loaded, scope⟩, fs₀, hload, htrees⟩ := Steps.bind_eq_ok.1 h
  obtain ⟨⟨tree, pass⟩, fs₁, htree, hdocuments⟩ := Steps.bind_eq_ok.1 htrees
  obtain ⟨hloaded, rfl⟩ := loadPage_ok hload
  obtain ⟨hresolve, rfl⟩ := resolveIn_ok htree
  dsimp only at hdocuments
  rw [if_pos html] at hdocuments
  obtain ⟨⟨metadata, last⟩, fs₂, hmetadata, htexts⟩ :=
    Steps.bind_eq_ok.1 hdocuments
  obtain ⟨document, fs₃, hdocument, hreturn⟩ := Steps.bind_eq_ok.1 htexts
  obtain ⟨hresolve', rfl⟩ := resolveIn_ok hmetadata
  cases hreturn
  exact ⟨loaded, scope, tree, pass, metadata, hloaded, hresolve, hresolve',
    rfl, hdocument⟩

/-- Preparing data resolves the tree of the page and nothing else. -/
theorem prepare_data (builder : Builder) {loaded : LoadedPage} {scope : Scope}
    {tree : Node} {pass : Pass} (data : builder.settings.writesHtml = false)
    (hload : builder.loader.load path .empty = .ok (loaded, scope))
    (htree : loaded.tree.resolve .fresh = .ok tree pass) (fs : FileSystem) :
    builder.prepare path fs = .ok (tree.toJson.pretty, scope, pass) fs := by
  have hloaded : builder.loadPage path fs = .ok (loaded, scope) fs := by
    unfold loadPage
    rw [hload]
    rfl
  have hresolved :
      resolveIn path loaded.tree .fresh fs = .ok (tree, pass) fs := by
    unfold resolveIn
    rw [htree]
    rfl
  refine Steps.bind_eq_ok.2
    ⟨_, fs, hloaded, Steps.bind_eq_ok.2 ⟨_, fs, hresolved, ?_⟩⟩
  dsimp only
  rw [data, if_neg Bool.false_ne_true]
  rfl

theorem rendered_ok {page html : String} {result : Except Reasons String}
    (h : rendered page result fs = .ok html fs') : result = .ok html := by
  cases result with
  | ok html' =>
      cases h
      rfl
  | error reasons => cases h

/-- A document ends with what the tree of the page is rendered to. -/
theorem document_ok {text : String} {tree metadata : Node}
    (h : builder.document path tree metadata fs = .ok text fs') :
    ∃ opening body, builder.render (Html.bodyElement tree)
        (Path.join builder.settings.pagesDir path) = .ok body
      ∧ text = opening ++ body ++ Html.documentEnd := by
  obtain ⟨head, _, -, h⟩ := Steps.bind_eq_ok.1 h
  obtain ⟨body, _, hbody, h⟩ := Steps.bind_eq_ok.1 h
  obtain ⟨opening, _, -, h⟩ := Steps.bind_eq_ok.1 h
  cases h
  exact ⟨opening, body, rendered_ok hbody, rfl⟩

/-- The document of a page with the plain collaborators. -/
def plainDocument (settings : Settings) (path : String) (tree metadata : Node) :
    String :=
  Html.openDocument settings.clientScript
      ⟨PagePath.url path, Html.render (Html.headContent metadata), true⟩
    ++ Html.render (Html.bodyElement tree) ++ Html.documentEnd

/-- The text of a payload with the plain collaborators. -/
def plainPayload (settings : Settings) (payload : Payload) : String :=
  if settings.scriptOptions.minify then Script.minify payload.code
  else payload.code

/-- What a page build leaves behind that writes documents: both trees were
resolved in one pass, the page first, and the files of the document and the
payload hold what comes of them. -/
theorem buildPage_html {loader : Loader} {settings : Settings} {path : String}
    {result : BuildResult} (html : settings.writesHtml = true)
    (h : (standard loader settings).buildPage path fs = .ok result fs') :
    ∃ loaded scope tree pass metadata pass',
      loader.load path .empty = .ok (loaded, scope)
      ∧ loaded.tree.resolve .fresh = .ok tree pass
      ∧ (loaded.metadata scope).1.resolve pass = .ok metadata pass'
      ∧ fs'.readText
        (Path.join ((standard loader settings).outputDir path) documentFile)
        = .ok (plainDocument settings path tree metadata)
      ∧ fs'.readText
        (Path.join ((standard loader settings).outputDir path) Html.payloadFile)
        = .ok (plainPayload settings
          (.ofPage (PagePath.url path) (loaded.metadata scope).2.cells
            pass'.bindings (loaded.metadata scope).2.hooks)) := by
  obtain ⟨text, scope', pass', code, hprepare, ⟨hfirst, hcode, hsecond⟩, -⟩ :=
    buildPage_ok h
  obtain ⟨loaded, scope, tree, pass, metadata, hload, htree, hmetadata, rfl,
    hdocument⟩ :=
    prepare_document_ok html hprepare
  have hname : (standard loader settings).firstFile = documentFile :=
    if_pos html
  rw [hname] at hfirst
  cases hdocument
  cases hcode
  exact ⟨loaded, scope, tree, pass, metadata, pass', hload, htree, hmetadata,
    hfirst, hsecond⟩

end Builder

-- ============================================================== registries

namespace Registry

/-- What is discovered are stored pages, in the order of their paths. -/
theorem discover_sublist {registry : Registry} {fs : FileSystem}
    {pages : List String}
    (found : registry.discover fs = .ok pages) :
    pages.Sublist registry.paths := by
  unfold discover at found
  cases hdir : registry.pagesDir with
  | none =>
      rw [hdir] at found
      cases found
      exact List.Sublist.refl _
  | some dir =>
      rw [hdir] at found
      dsimp only at found
      cases hfound : Discovery.pageDirs fs dir with
      | error e =>
          rw [hfound] at found
          cases found
      | ok dirs =>
          rw [hfound] at found
          cases found
          exact List.filter_sublist

end Registry
end Prerender
