/-
Pages as documents and as data.

Both modes of a build resolve the tree of the page in the same way. For
a document the metadata runs after that, in the same scope and the same
pass, and what it does to these is to add: page code has nothing but its
operations to act on a scope (`PageCode.Operates.continues`), and
resolving notes bindings behind those that are there
(`Node.resolve_notes`). So what clients are given for the tree of a page
does not depend on the mode (`Builder.modes_agree`): the cells, the
bindings and the hooks of the data come first in those of the document,
and where the metadata adds none the payloads are the same text.

Two things are asked for, and neither can be left out
(`Registry.forgetfulSite_disagrees`):

- Metadata acts on its scope by operations. Page code is a function of a
  scope here, and one that puts an empty scope in the place of the one
  it is given takes away what the tree has put in.
- For the build as data to succeed, its own payload has to be accepted.
  A transformer sees the whole text, and need not accept a part of a
  payload because it accepts all of it.

Nothing is asked of the files that the build as data starts from. It can
fail in a write, and in nothing else.
-/
import Prerender.Proofs.Reactive.Session
import Prerender.Proofs.Resolve.Failure
import Prerender.Proofs.Site.Build

namespace Prerender

open Files

-- ========================================================= what is added

/-- `later` has the cells and the hooks of `scope`, and possibly further ones
behind them. -/
structure Scope.Continues (scope later : Scope) : Prop where
  cells : scope.cells <+: later.cells
  hooks : scope.hooks <+: later.hooks

namespace Scope.Continues

variable {scope mid later : Scope}

theorem refl (scope : Scope) : scope.Continues scope :=
  ⟨List.prefix_rfl, List.prefix_rfl⟩

/-- What is added comes behind what was added before. -/
theorem trans (first : scope.Continues mid) (second : mid.Continues later) :
    scope.Continues later :=
  ⟨first.cells.trans second.cells, first.hooks.trans second.hooks⟩

end Scope.Continues

namespace Session

/-- One operation adds at most a cell or a hook. -/
theorem continues_perform (session : Session) (op : Operation) :
    session.scope.Continues (session.perform op).scope := by
  cases op with
  | addState value group => exact ⟨List.prefix_append _ _, List.prefix_rfl⟩
  | addListener source dependencies =>
      exact ⟨List.prefix_append _ _, List.prefix_rfl⟩
  | observe cells update => exact .refl _
  | reference value => exact .refl _
  | addHook source dependencies =>
      exact ⟨List.prefix_rfl, List.prefix_append _ _⟩
  | addGroupHook source key => exact ⟨List.prefix_rfl, List.prefix_append _ _⟩

/-- Any number of operations add cells and hooks. -/
theorem continues_run (session : Session) (ops : List Operation) :
    session.scope.Continues (ops.foldl perform session).scope := by
  induction ops generalizing session with
  | nil => exact .refl _
  | cons op rest ih =>
      exact (session.continues_perform op).trans (ih (session.perform op))

end Session

/-- Whether code acts on its scope by operations only. -/
def PageCode.Operates (code : PageCode) : Prop :=
  ∀ scope, ∃ ops : List Operation,
    (code scope).2 = (ops.foldl Session.perform ⟨scope, []⟩).scope

/-- Code that acts by operations adds cells and hooks. -/
theorem PageCode.Operates.continues {code : PageCode} (h : code.Operates)
    (scope : Scope) :
    scope.Continues (code scope).2 := by
  obtain ⟨ops, hops⟩ := h scope
  rw [hops]
  exact Session.continues_run ⟨scope, []⟩ ops

/-- A resolved tree has left the bindings of the options that were visited,
behind those from before. -/
theorem Node.resolve_notes {node out : Node} {pass pass' : Pass}
    (h : node.resolve pass = .ok out pass') :
    pass.Notes (node.visited.flatMap Element.written) pass' := by
  have hforget : Element.workAll node.visited pass = .ok ⟨⟩ pass' := by
    rw [← node.forget_resolve]
    exact Resolve.bind_eq_ok.2 ⟨out, pass', h, rfl⟩
  have hwalk := @Element.workAll_offence node.visited pass
  rw [hforget] at hwalk
  exact hwalk.2

/-- What is noted comes behind what was noted before. -/
theorem Pass.Notes.continues {pass pass' : Pass}
    {options : List (String × OptionValue)}
    (h : pass.Notes options pass') : pass.bindings <+: pass'.bindings := by
  obtain ⟨new, hnew, -⟩ := h
  exact ⟨new, hnew.symm⟩

/-- Where no visited option is reactive, no binding is added. -/
theorem Node.resolve_bindings_of_plain {node out : Node} {pass pass' : Pass}
    (h : node.resolve pass = .ok out pass')
    (plain : ∀ e ∈ node.visited, e.isReactive = false) :
    pass'.bindings = pass.bindings := by
  refine (Node.resolve_notes h).bindings_eq_iff.2 fun option hoption => ?_
  obtain ⟨e, he, hwritten⟩ := List.mem_flatMap.1 hoption
  have hplain := List.any_eq_false.1 (plain e he) option hwritten
  cases hvalue : option.2 with
  | literal data => rfl
  | reactive value =>
      rw [hvalue] at hplain
      exact absurd rfl hplain

-- ============================================================= two modes

/-- What is loaded runs the metadata that was registered. -/
theorem Registry.metadata_of_load {registry : Registry} {path : String}
    {scope scope' : Scope}
    {loaded : LoadedPage}
    (h : registry.load path scope = .ok (loaded, scope')) :
    (registry.exports path).metadata = some loaded.metadata := by
  unfold Registry.load at h
  split at h
  · cases h
  · cases h
  · next page metadata hexports =>
    rw [hexports]
    cases h
    rfl

namespace Builder

/-- The builder with the other settings as they are. -/
def inMode (builder : Builder) (html : Bool) : Builder :=
  { builder with settings := { builder.settings with writesHtml := html } }

/-- Let the document of a page of a registry be built, whose metadata acts on
its scope by operations only. Then the tree that it shows is the one that the
page is written with as data, and there the payload has the same cells,
bindings and hooks up to those that the metadata adds behind them. Where it
adds none, the payloads are the same text. As data the build succeeds too, if
the transformer accepts the payload as it is then, whatever files there are,
unless one cannot be written. -/
theorem modes_agree {registry : Registry} {builder : Builder} {path : String}
    {fs fs' : FileSystem} {result : BuildResult}
    (hloader : builder.loader = registry.loader)
    (operates : ∀ code, (registry.exports path).metadata = some code →
      code.Operates)
    (h : (builder.inMode true).buildPage path fs = .ok result fs') :
    ∃ loaded scope tree pass metadata pass' document opening body code,
      registry.load path .empty = .ok (loaded, scope)
      ∧ loaded.tree.resolve .fresh = .ok tree pass
      ∧ (loaded.metadata scope).1.resolve pass = .ok metadata pass'
      ∧ (builder.inMode true).Leaves path document
        (loaded.metadata scope).2 pass' code fs'
      ∧ builder.render (Html.bodyElement tree)
          (Path.join builder.settings.pagesDir path) = .ok body
      ∧ document = opening ++ body ++ Html.documentEnd
      ∧ scope.cells <+: (loaded.metadata scope).2.cells
      ∧ pass.bindings <+: pass'.bindings
      ∧ scope.hooks <+: (loaded.metadata scope).2.hooks
      ∧ ((loaded.metadata scope).2.cells = scope.cells →
          (loaded.metadata scope).2.hooks = scope.hooks →
          (∀ e ∈ (loaded.metadata scope).1.visited, e.isReactive = false) →
          builder.transform (pagePayload path scope pass).code
            builder.settings.scriptOptions = .ok code)
      ∧ ∀ code₀, builder.transform (pagePayload path scope pass).code
          builder.settings.scriptOptions = .ok code₀ →
        ∀ fs₀, (∃ result₀ fs₁,
            (builder.inMode false).buildPage path fs₀ = .ok result₀ fs₁
            ∧ (builder.inMode false).Leaves path tree.toJson.pretty scope
              pass code₀ fs₁)
          ∨ ∃ dir reason fs₁,
            (builder.inMode false).buildPage path fs₀
              = .error (.unwritten dir reason) fs₁ := by
  obtain ⟨document, scope', pass', code, hprepare, hleaves, -⟩ := buildPage_ok h
  obtain ⟨loaded, scope, tree, pass, metadata, hload, htree, hmetadata, rfl,
    hdocument⟩ := prepare_document_ok rfl hprepare
  obtain ⟨opening, body, hbody, htext⟩ := document_ok hdocument
  have hregistry : registry.load path .empty = .ok (loaded, scope) := by
    have hloaded : builder.loader.load path .empty = .ok (loaded, scope) :=
      hload
    rw [hloader] at hloaded
    exact hloaded
  have hgrows :=
    (operates loaded.metadata (Registry.metadata_of_load hregistry)).continues
      scope
  have hnotes := (Node.resolve_notes hmetadata).continues
  refine ⟨loaded, scope, tree, pass, metadata, pass', document,
    opening, body, code, hregistry, htree, hmetadata, hleaves, hbody, htext,
    hgrows.cells, hnotes, hgrows.hooks, fun hcells hhooks hplain => ?_,
    fun code₀ hcode₀ fs₀ => ?_⟩
  · -- where nothing was added, the document has the payload that the data has
    have hsame : pagePayload path (loaded.metadata scope).2 pass'
        = pagePayload path scope pass := by
      rw [pagePayload, hcells, hhooks,
        Node.resolve_bindings_of_plain hmetadata hplain]
      rfl
    have hmade := hleaves.made
    rw [hsame] at hmade
    exact hmade
  · -- as data the same tree is prepared, and the metadata does not run
    have hdata : (builder.inMode false).prepare path fs₀
        = .ok (tree.toJson.pretty, scope, pass) fs₀ :=
      prepare_data (builder.inMode false) rfl hload htree fs₀
    exact buildPage_of_prepare hdata hcode₀

/-- What is written of the payload of a page in the root of a site, in a mode,
from no files at all. -/
def payloadIn? (builder : Builder) (html : Bool) : Option String :=
  match (builder.inMode html).buildPage "" ⟨.directory [], []⟩ with
  | .ok _ fs => (fs.readText "dist/page_data.js").toOption
  | .error _ _ => none

end Builder

namespace Registry

/-- Code of a page whose tree follows a cell. -/
def cellPage : PageCode := fun scope =>
  let (a, scope) := scope.addState (.str "a") none
  (.element ⟨"p", .options (.ofList [("title", .reactive (.state a))]),
    some []⟩, scope)

/-- Code of metadata with a cell, a hook that receives it and a title that
follows it. -/
def cellMetadata : PageCode := fun scope =>
  let (b, scope) := scope.addState (.str "b") none
  (.element ⟨"meta", .options (.ofList [("title", .reactive (.state b))]),
    none⟩, scope.addHook "f" [b.toRef])

/-- It adds a cell and a hook, each by its operation. -/
theorem cellMetadata_operates : cellMetadata.Operates := fun scope =>
  ⟨[.addState (.str "b") none, .addHook "f" [⟨⟨scope.nextId⟩, none⟩]], rfl⟩

/-- A site of one page with a cell in its tree and one in its metadata. -/
def titledSite : Registry :=
  (Registry.empty.addPage "" cellPage).addMetadata "" cellMetadata

/-- As a document the page has a second cell, a second binding and a hook, and
what clients are given besides is what they are given with it as data. -/
theorem titledSite_agrees :
    ∃ (loaded : LoadedPage) (scope : Scope) (pass pass' : Pass)
      (fs' fs₁ : FileSystem),
      titledSite.load "" .empty = .ok (loaded, scope)
      ∧ scope.cells <+: (loaded.metadata scope).2.cells
      ∧ pass.bindings <+: pass'.bindings
      ∧ scope.cells.length = 1 ∧ (loaded.metadata scope).2.cells.length = 2
      ∧ scope.hooks = [] ∧ (loaded.metadata scope).2.hooks.length = 1
      ∧ fs'.readText "dist/page_data.js"
        = .ok (Builder.pagePayload "" (loaded.metadata scope).2 pass').code
      ∧ fs₁.readText "dist/page_data.js"
        = .ok (Builder.pagePayload "" scope pass).code := by
  let builder : Builder :=
    { Builder.standard titledSite.loader .defaults with
      transform := fun code _ => .ok code }
  have hok : Steps.isOk ((builder.inMode true).buildPage "" ⟨.directory [], []⟩)
    = true := by
    decide +kernel
  have hok₀ : Steps.isOk
    ((builder.inMode false).buildPage "" ⟨.directory [], []⟩) = true := by
    decide +kernel
  obtain ⟨result, fs', hbuild⟩ := Steps.exists_of_isOk hok
  have hmetadata : (titledSite.exports "").metadata = some cellMetadata := rfl
  have hoperates : ∀ code, (titledSite.exports "").metadata = some code →
    code.Operates := by
    intro code hcode
    cases hmetadata.symm.trans hcode
    exact cellMetadata_operates
  obtain ⟨loaded, scope, tree, pass, metadata, pass', document, opening, body,
    code, hload, htree, -, hleaves, -, -, hcells, hbindings, -, -, hdata⟩ :=
    Builder.modes_agree (rfl : builder.loader = _) hoperates hbuild
  obtain rfl := Except.ok.inj hleaves.made
  rcases hdata _ rfl ⟨.directory [], []⟩ with ⟨result₀, fs₁, hbuild₀, hleaves₀⟩
    | ⟨dir, reason, fs₁, herror⟩
  · refine ⟨loaded, scope, pass, pass', fs', fs₁, hload, hcells, hbindings, ?_⟩
    cases hload
    exact ⟨rfl, rfl, rfl, rfl, hleaves.payload, hleaves₀.payload⟩
  · rw [herror] at hok₀
    cases hok₀

/-- The record of the title that follows the cell of the tree. -/
def titleEntry : String :=
  "soa:[\x7bkey:0,attribute:\x22title\x22,id:0,value:\x22a\x22\x7d],\x7d;"

/-- The payload of the tree alone. -/
def treeCode : String :=
  "pd[\x22/\x22]=\x7bstate:[\x7bid:0,value:\x22\x5c\x22a\x5c\x22\x22\x7d],"
    ++ titleEntry

/-- A site of one page whose metadata puts an empty scope in the place of the
one it is given. -/
def forgetfulSite : Registry :=
  (Registry.empty.addPage "" cellPage).addMetadata "" fun _ =>
    (.text "b", .empty)

/-- A builder whose transformer refuses the payload of the tree alone. -/
def pickyBuilder : Builder :=
  { Builder.standard titledSite.loader .defaults with
    transform := fun code _ =>
      if code = treeCode then .error ["refused"] else .ok code }

/-- Where the scope is replaced, the cell of the tree is lost to the document
and not to the data, which have the same tree. And where the payload of the
tree is refused, the document is built, since its payload has more in it, and
the data are not. -/
theorem forgetfulSite_disagrees :
    (Builder.standard forgetfulSite.loader .defaults).payloadIn? true
        = some ("pd[\x22/\x22]=\x7b" ++ titleEntry)
      ∧ (Builder.standard forgetfulSite.loader .defaults).payloadIn? false
        = some treeCode
      ∧ ¬ (cellPage .empty).2.cells <+: Scope.empty.cells
      ∧ (pickyBuilder.payloadIn? true).isSome
      ∧ pickyBuilder.payloadIn? false = none := by
  refine ⟨?_, ?_, ?_, ?_, ?_⟩
  · decide +kernel
  · decide +kernel
  · exact fun h => absurd h.length_le (by decide)
  · decide +kernel
  · decide +kernel

end Registry
end Prerender
