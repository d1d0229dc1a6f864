/-
Every key that the client is given is in the document.

The bindings of page and metadata are numbered in one pass, and the two
trees take different ways into one document tree (`Html.documentTree`),
of which the document is the HTML (`Html.plainDocument_eq`). So what is
asked of the written text is asked of a tree, through the tokenizer that
reads the text back (`Html.read_render`), and then of the two trees that
were resolved:

1. tags with a key in the document are those in its two trees
   (`Html.countP_documentTree`), as the scripts and the three elements
   around them have no options under `key`;
2. tags with a key in a resolved tree are its elements with the key
   (`Node.countP_shown_resolve`), if no part of the tree loses one;
3. elements with a key are counted by the numbering, which gives each
   number to one element (`Numbering.countP_showsKey_of_mem`).

There is one way to lose a key between the trees and the document. A
`head` that the metadata has at its root gives its children to the
document and nothing of itself, so a binding of it names an element that
is not there (`Html.droppedKey?`). Parts of the written trees that lose
keys are ruled out beforehand (`Node.IsPublic`): elements that never
have content but are given some, options that are named `key` by the
author or read so once they are written, and markup, which is put into
the document as it is. The small sites at the end are such as these.
-/
import Mathlib.Data.List.Nodup
import Prerender.Proofs.Html.Safety
import Prerender.Proofs.Html.Shown
import Prerender.Proofs.Site.Build

namespace Prerender

-- ======================================================== the document tree

namespace Html

/-- The element that loads a script once the document is read. -/
def scriptElement (url : String) : Element :=
  ⟨"script", .options
    (.ofList [("src", .literal (.str url)), ("defer", .literal (.bool true))]),
    some []⟩

/-- Its HTML is the tag of the script. -/
theorem render_scriptElement (url : String) :
    renderElement (scriptElement url) = scriptTag url := by
  have hattributes : attributesText
    [("src", .literal (.str url)), ("defer", .literal (.bool true))]
      = " " ++ "src" ++ "=\x22" ++ escape url ++ "\x22" ++ (" defer" ++ "") :=
        rfl
  show "<" ++ "script" ++ attributesText [("src", .literal (.str url)),
    ("defer", .literal (.bool true))] ++ ">" ++ "" ++ "</"
    ++ "script" ++ ">" = _
  rw [hattributes, scriptTag]
  have hfront : "<script src=\x22" = "<"
    ++ ("script" ++ (" " ++ ("src" ++ "=\x22"))) := rfl
  have hback : "\x22 defer></script>"
      = "\x22" ++ (" defer" ++ (">" ++ ("</" ++ ("script" ++ ">")))) := rfl
  rw [hfront, hback]
  simp only [String.append_assoc, String.append_empty]

/-- The tree of a whole document. -/
def documentTree (clientScript payloadScript : String) (tree metadata : Node) :
    Node :=
  .element ⟨"html", .options .empty, some [
    .element ⟨"head", .options .empty, some [headContent metadata,
      .element (scriptElement clientScript),
      .element (scriptElement payloadScript)]⟩,
    bodyElement tree]⟩

/-- An element without options around its content. -/
theorem renderElement_bare {tag : String}
    (content : voidTags.contains tag = false) (children : List Node) :
    renderElement ⟨tag, .options .empty, some children⟩
      = "<" ++ tag ++ ">" ++ renderAll children ++ "</" ++ tag ++ ">" := by
  rw [renderElement, content, if_neg Bool.false_ne_true, openingText]
  show "<" ++ tag ++ "" ++ ">" ++ _ ++ _ ++ _ ++ _ = _
  rw [String.append_empty]

/-- A document is the HTML of its tree. -/
theorem plainDocument_eq (settings : Settings) (path : String)
    (tree metadata : Node) :
    Builder.plainDocument settings path tree metadata
      = "<!DOCTYPE html>" ++ render (documentTree settings.clientScript
          (HeadContext.payloadUrl
            ⟨PagePath.url path, render (headContent metadata), true⟩)
          tree metadata) := by
  have hhtml : voidTags.contains "html" = false := by decide
  have hhead : voidTags.contains "head" = false := by decide
  have hbegin : "<!DOCTYPE html><html><head>"
      = "<!DOCTYPE html>"
        ++ ("<" ++ ("html" ++ (">" ++ ("<" ++ ("head" ++ ">"))))) := by
    simp only [String.reduceAppend]
  have hmiddle : "</head>" = "</" ++ ("head" ++ ">") := rfl
  have hend : "</html>" = "</" ++ ("html" ++ ">") := rfl
  rw [documentTree, render, renderElement_bare hhtml, renderAll, renderAll,
    renderAll, render, renderElement_bare hhead, renderAll, renderAll,
    renderAll, renderAll, render, render, render_scriptElement,
    render_scriptElement]
  show "<!DOCTYPE html><html><head>" ++ render (headContent metadata)
    ++ scriptTag settings.clientScript ++ scriptTag (HeadContext.payloadUrl _)
      ++ "</head>"
    ++ render (bodyElement tree) ++ "</html>" = _
  rw [hbegin, hmiddle, hend]
  simp only [String.append_assoc, String.append_empty]

variable {tree metadata : Node}

/-- What a document shows of readable metadata is readable. -/
theorem isReadable_headContent (h : ∀ part ∈ metadata.parts, part.IsReadable) :
    ∀ part ∈ (headContent metadata).parts, part.IsReadable := by
  unfold headContent
  split
  · next slot children =>
    rw [Node.parts, Element.parts, List.forall_mem_cons, List.forall_mem_append]
      at h
    rw [Node.parts, List.forall_mem_cons]
    cases children with
    | none => exact ⟨trivial, nofun⟩
    | some children => exact ⟨trivial, h.2.2⟩
  · exact h

theorem isReadable_bodyElement (h : ∀ part ∈ tree.parts, part.IsReadable) :
    ∀ part ∈ (bodyElement tree).parts, part.IsReadable := by
  unfold bodyElement
  split
  · exact h
  · rw [Node.parts, List.forall_mem_cons]
    have hbody : isName "body" = true := by decide
    refine ⟨⟨hbody, nofun⟩, ?_⟩
    rw [Element.parts, Slot.parts, List.nil_append, Node.childParts,
      Node.rowParts, Node.rowParts, List.append_nil]
    exact h

theorem isReadable_documentTree (hpage : ∀ part ∈ tree.parts, part.IsReadable)
    (hmetadata : ∀ part ∈ metadata.parts, part.IsReadable)
    (clientScript payloadScript : String) :
    ∀ part ∈ (documentTree clientScript payloadScript tree metadata).parts,
      part.IsReadable := by
  have hhtml : isName "html" = true := by decide
  have hhead : isName "head" = true := by decide
  have hname : isName "script" = true := by decide
  have hsrc : isName "src" = true := by decide
  have hdefer : isName "defer" = true := by decide
  have hscript : ∀ url, ∀ part ∈ (Node.element (scriptElement url)).parts,
    part.IsReadable := by
    intro url
    refine List.forall_mem_cons.2 ⟨⟨hname, ?_⟩, List.forall_mem_nil _⟩
    show ∀ option ∈ [("src", OptionValue.literal (.str url)),
      ("defer", .literal (.bool true))], _
    exact List.forall_mem_cons.2 ⟨hsrc, List.forall_mem_singleton.2 hdefer⟩
  have hcontent : ∀ part ∈ Node.rowParts
    [headContent metadata, .element (scriptElement clientScript),
      .element (scriptElement payloadScript)], part.IsReadable := by
    simp only [Node.rowParts, List.forall_mem_append]
    exact ⟨isReadable_headContent hmetadata, hscript _, hscript _,
      List.forall_mem_nil _⟩
  refine List.forall_mem_cons.2 ⟨⟨hhtml, List.forall_mem_nil _⟩, ?_⟩
  rw [Element.parts, Slot.parts, List.nil_append, Node.childParts,
    Node.rowParts, Node.rowParts, Node.rowParts, List.append_nil,
    List.forall_mem_append, Node.parts, List.forall_mem_cons]
  exact ⟨⟨⟨hhead, List.forall_mem_nil _⟩, hcontent⟩,
    isReadable_bodyElement hpage⟩

-- ============================================================ counting keys

/-- The key that gets lost on the way into the document: that of a `head` at
the root of the metadata, which only gives its children. -/
def droppedKey? : Node → Option ElementKey
  | .element e => if e.tag = "head" then e.key? else none
  | _ => none

/-- The tags of the head with a key are those of the metadata, unless it is
lost. -/
theorem countP_headContent {key : ElementKey}
    (kept : droppedKey? metadata ≠ some key)
    (steady : ∀ e ∈ metadata.elements,
      showsKey key e = decide (e.key? = some key)) :
    (headContent metadata).shown.countP (showsKey key)
      = metadata.shown.countP (showsKey key) := by
  unfold headContent
  split
  · next slot children =>
    have hroot : ¬ showsKey key ⟨"head", slot, children⟩ = true := by
      rw [steady _ (by rw [Node.elements, Element.elements]; exact .head _),
        decide_eq_true_iff]
      exact kept
    cases children with
    | none => exact (List.countP_cons_of_neg hroot).symm
    | some children =>
        show (Node.rowShown children).countP _
          = (_ :: Node.rowShown children).countP _
        rw [List.countP_cons_of_neg hroot]
  · rfl

/-- The tags of the body with a key are those of the tree. -/
theorem countP_bodyElement (key : ElementKey) :
    (bodyElement tree).shown.countP (showsKey key)
      = tree.shown.countP (showsKey key) := by
  unfold bodyElement
  split
  · rfl
  · show (_ :: (tree.shown ++ [])).countP _ = _
    rw [List.append_nil, List.countP_cons_of_neg]
    rw [showsKey_of_keyOption?_eq_none rfl]
    exact Bool.false_ne_true

/-- The tags with a key in a document are those in its two trees. -/
theorem countP_documentTree {key : ElementKey}
    (clientScript payloadScript : String) :
    (documentTree clientScript payloadScript tree metadata).shown.countP
        (showsKey key)
      = (headContent metadata).shown.countP (showsKey key)
        + tree.shown.countP (showsKey key) := by
  have hbare : ∀ e : Element, e.keyOption? = none →
    ¬ showsKey key e = true := by
    intro e he
    rw [showsKey_of_keyOption?_eq_none he]
    exact Bool.false_ne_true
  show (_ :: ((_
    :: (_ ++ ([scriptElement clientScript]
      ++ ([scriptElement payloadScript] ++ []))))
    ++ (_ ++ []))).countP _ = _
  rw [List.countP_cons_of_neg (hbare _ rfl), List.countP_append,
    List.countP_cons_of_neg (hbare _ rfl), List.countP_append, List.append_nil,
    List.append_nil, countP_bodyElement]
  rfl

end Html

-- =========================================================== numbered keys

namespace Numbering

variable {n m : Nat} {es os : List Element} {new : List Binding}

/-- The keys are the numbers in document order; beyond the room for keys they
start over. -/
theorem filterMap_key? (h : Numbering n es os new m) :
    os.filterMap Element.key?
      = (List.range' n (m - n)).map ElementKey.ofNat := by
  induction h with
  | nil =>
      rw [Nat.sub_self]
      rfl
  | plain _ _ bare _ ih =>
      rw [List.filterMap_cons_none (by rw [Element.key?, bare]; rfl), ih]
  | @reactive n m e o es os new _ _ keyed rest ih =>
      have hlast := rest.last_eq
      rw [List.filterMap_cons_some (Element.key?_eq_some_of_toOption keyed), ih,
        show m - n = m - (n + 1) + 1 by omega, List.range'_succ, List.map_cons]

/-- The document shows the key of each element and no other on it. -/
theorem showsKey_eq (h : Numbering n es os new m) (key : ElementKey) :
    ∀ o ∈ os, Html.showsKey key o = decide (o.key? = some key) := by
  induction h with
  | nil => nofun
  | plain _ _ bare _ ih =>
      refine List.forall_mem_cons.2 ⟨?_, ih⟩
      rw [Html.showsKey_of_keyOption?_eq_none bare, Element.key?, bare]
      rfl
  | reactive _ _ keyed _ ih =>
      refine List.forall_mem_cons.2 ⟨?_, ih⟩
      rw [Html.showsKey_of_keyOption?_eq_some keyed,
        Element.key?_eq_some_of_toOption keyed]
      simp only [Option.some.injEq]

/-- A key is shown as often as it is given. -/
theorem countP_showsKey (h : Numbering n es os new m) (key : ElementKey) :
    os.countP (Html.showsKey key) = (os.filterMap Element.key?).count key := by
  rw [List.count, List.countP_filterMap]
  refine List.countP_congr fun o ho => ?_
  rw [h.showsKey_eq key o ho]
  cases o.key? <;> simp

/-- The key of each binding is shown; once, if there is room for all keys. -/
theorem countP_showsKey_of_mem (h : Numbering n es os new m) {b : Binding}
    (hb : b ∈ new) :
    0 < os.countP (Html.showsKey b.key)
      ∧ (m ≤ UInt32.size → os.countP (Html.showsKey b.key) = 1) := by
  have hmem : b.key ∈ os.filterMap Element.key? := by
    obtain ⟨i, e, o, -, ho, hkey, -⟩ := h.left_by b hb
    exact List.mem_filterMap.2
      ⟨o, List.mem_of_getElem? ho, Element.key?_eq_some_of_toOption hkey⟩
  rw [h.countP_showsKey]
  refine ⟨List.count_pos_iff.2 hmem, fun room => ?_⟩
  refine List.count_eq_one_of_mem ?_ hmem
  rw [h.filterMap_key?]
  refine List.Nodup.map_on (fun i hi j hj heq => ?_) List.nodup_range'
  have hi := List.mem_range'_1.1 hi
  have hj := List.mem_range'_1.1 hj
  have hnumbers := congrArg (fun key : ElementKey => key.number.toNat) heq
  rwa [ElementKey.toNat_ofNat (by omega), ElementKey.toNat_ofNat (by omega)]
    at hnumbers

end Numbering

-- ==================================================================== pages

/-- The document shows each key on as many elements of a resolved tree as have
it. -/
theorem Node.countP_shown_resolve {node out : Node} {pass pass' : Pass}
    (loses : ∀ part ∈ node.parts, part.LosesNoKey)
    (h : node.resolve pass = .ok out pass') (key : ElementKey) :
    out.shown.countP (Html.showsKey key)
      = out.elements.countP (Html.showsKey key) := by
  have hkeyed : ∀ e : Element, (Html.showsKey key e && e.isKeyed)
    = Html.showsKey key e := by
    intro e
    cases hentry : e.keyOption? with
    | none => rw [Html.showsKey_of_keyOption?_eq_none hentry, Bool.false_and]
    | some value =>
        rw [Element.isKeyed, hentry, Option.isSome_some, Bool.and_true]
  have hcount : ∀ es : List Element,
      (es.filter Element.isKeyed).countP (Html.showsKey key)
        = es.countP (Html.showsKey key) := by
    intro es
    rw [List.countP_filter]
    exact List.countP_congr fun e _ => by rw [hkeyed]
  rw [← hcount, Node.filter_shown_resolve loses h, hcount]

/-- The keys of all records. -/
def Payload.keys (payload : Payload) : List ElementKey :=
  payload.states.map StateRecord.key ++ payload.observers.map ObserverRecord.key

/-- Every record has the key of a binding. -/
theorem Payload.mem_keys_ofPage {url : String} {cells : List Cell}
    {bindings : List Binding}
    {hooks : List LoadHook} {key : ElementKey}
    (h : key ∈ (ofPage url cells bindings hooks).keys) :
    ∃ b ∈ bindings, b.key = key := by
  rcases List.mem_append.1 h with h | h
  · obtain ⟨record, hrecord, rfl⟩ := List.mem_map.1 h
    obtain ⟨⟨bkey, name, source⟩, hb, hrecord⟩ := List.mem_filterMap.1 hrecord
    refine ⟨_, hb, ?_⟩
    cases source <;> cases hrecord
    rfl
  · obtain ⟨record, hrecord, rfl⟩ := List.mem_map.1 h
    obtain ⟨⟨bkey, name, source⟩, hb, hrecord⟩ := List.mem_filterMap.1 hrecord
    refine ⟨_, hb, ?_⟩
    cases source <;> cases hrecord
    rfl

/-- Whether a part of a tree is published as it is: it reads back, sets no
markup, and loses no key. -/
structure Node.IsPublic (part : Node) : Prop where
  readable : part.IsReadable
  plain : part.setsMarkup = false
  losesNoKey : part.LosesNoKey

instance : DecidablePred Node.IsPublic := fun _ =>
  decidable_of_iff (_ ∧ _ ∧ _)
    ⟨fun h => ⟨h.1, h.2.1, h.2.2⟩, fun h => ⟨h.1, h.2, h.3⟩⟩

open Files Html in
/-- Every key that the payload of a built page names is in its document,
except the one of a `head` at the root of the metadata; and it is there once,
if there are not more keys than numbers for them. -/
theorem Builder.buildPage_shows_keys {loader : Loader} {settings : Settings}
    {path : String}
    {fs fs' : FileSystem} {result : BuildResult} {loaded : LoadedPage}
    {scope : Scope}
    (html : settings.writesHtml = true)
    (loads : loader.load path .empty = .ok (loaded, scope))
    (page : ∀ part ∈ loaded.tree.parts, part.IsPublic)
    (metadata : ∀ part ∈ (loaded.metadata scope).1.parts, part.IsPublic)
    (h : (standard loader settings).buildPage path fs = .ok result fs') :
    ∃ tree pass head pass' document all payload,
      loaded.tree.resolve .fresh = .ok tree pass
      ∧ (loaded.metadata scope).1.resolve pass = .ok head pass'
      ∧ payload = .ofPage (PagePath.url path)
        (loaded.metadata scope).2.cells pass'.bindings
        (loaded.metadata scope).2.hooks
      ∧ fs'.readText
        (Path.join ((standard loader settings).outputDir path) payloadFile)
        = .ok (plainPayload settings payload)
      ∧ fs'.readText
        (Path.join ((standard loader settings).outputDir path) documentFile)
        = .ok ("<!DOCTYPE html>" ++ document)
      ∧ Html.read document = some all
      ∧ ∀ key ∈ payload.keys, droppedKey? head ≠ some key →
          0 < keyCount key all
          ∧ (loaded.tree.visited.countP Element.isReactive
                + (loaded.metadata scope).1.visited.countP Element.isReactive
              ≤ UInt32.size →
            keyCount key all = 1) := by
  obtain ⟨_, _, tree, pass, head, pass', hload, htree, hhead, hdocument,
    hpayload⟩ := buildPage_html html h
  rw [loads] at hload
  cases hload
  rw [plainDocument_eq] at hdocument
  -- the document is read back as the events of its tree
  have hreadable := isReadable_documentTree
    (Node.isReadable_resolve
      (fun part hpart => ⟨(page part hpart).1, (page part hpart).2⟩) htree)
    (Node.isReadable_resolve
      (fun part hpart => ⟨(metadata part hpart).1, (metadata part hpart).2⟩)
      hhead)
  refine ⟨tree, pass, head, pass', _, _, _, htree, hhead, rfl,
    hpayload, hdocument, read_render (hreadable _ _), fun key hkey hkept => ?_⟩
  -- one numbering runs through both trees
  have hrun := (Node.resolve_workedOff htree).append
    (Node.resolve_workedOff hhead)
  have hfresh : Pass.fresh.nextKey = UInt32.ofNat 0 := rfl
  have havoids : ∀ e ∈ loaded.tree.visited ++ (loaded.metadata scope).1.visited,
    e.AvoidsKey := by
    refine List.forall_mem_append.2 ⟨fun e he => ?_, fun e he => ?_⟩
    · exact (page _ (Node.mem_parts_of_mem_visited he)).losesNoKey.1
    · exact (metadata _ (Node.mem_parts_of_mem_visited he)).losesNoKey.1
  obtain ⟨new, m, hnew, -, hnumbering⟩ := hrun.numbering havoids hfresh
  obtain ⟨b, hb, rfl⟩ := Payload.mem_keys_ofPage hkey
  rw [hnew] at hb
  have hcount := hnumbering.countP_showsKey_of_mem hb
  have hlast := hnumbering.last_eq
  rw [Nat.zero_add, List.countP_append] at hlast
  rw [← hlast]
  -- the tags with the key in the document are the elements with it in the two
  -- trees
  have hshown : ∀ script,
      keyCount b.key (mergeTexts (events
          (documentTree settings.clientScript script tree head)))
        = (tree.elements ++ head.elements).countP (showsKey b.key) := by
    intro script
    rw [keyCount_events, countP_documentTree, countP_headContent hkept,
      List.countP_append,
      Node.countP_shown_resolve
        (fun part hpart => (page part hpart).losesNoKey) htree,
      Node.countP_shown_resolve
        (fun part hpart => (metadata part hpart).losesNoKey) hhead,
      Nat.add_comm]
    exact fun e he => hnumbering.showsKey_eq b.key e
      (List.mem_append_right _ he)
  rw [hshown]
  exact hcount

/-- A site of one page: a list whose first entry stands in the place of the
options, an image, and a title in the metadata. Each of the three follows a
cell. -/
def Registry.sampleSite : Registry :=
  let page : PageCode := fun scope =>
    let (a, scope) := scope.addState (.str "a") none
    let entry : Element :=
      ⟨"li", .options (.ofList [("title", .reactive (.state a))]), some []⟩
    let image : Element :=
      ⟨"img", .options (.ofList [("alt", .reactive (.state a))]), none⟩
    (.element ⟨"ul", .child (.element entry), some [.element image]⟩, scope)
  let metadata : PageCode := fun scope =>
    let (b, scope) := scope.addState (.str "b") none
    (.element ⟨"title",
      .options (.ofList [("innerText", .reactive (.state b))]), some []⟩, scope)
  (Registry.empty.addPage "" page).addMetadata "" metadata

/-- Its three keys are in the document, each once. -/
theorem Registry.sampleSite_shows_keys : ∃ result fs' all payload,
    (Builder.standard sampleSite.loader .defaults).buildPage ""
        ⟨.directory [], []⟩ = .ok result fs'
      ∧ (∃ document,
        fs'.readText "dist/index.html" = .ok ("<!DOCTYPE html>" ++ document)
        ∧ Html.read document = some all)
      ∧ fs'.readText "dist/page_data.js"
        = .ok (Builder.plainPayload .defaults payload)
      ∧ payload.keys = [⟨0⟩, ⟨1⟩, ⟨2⟩]
      ∧ ∀ key ∈ payload.keys, Html.keyCount key all = 1 := by
  have hok : Steps.isOk
    ((Builder.standard sampleSite.loader .defaults).buildPage ""
      ⟨.directory [], []⟩) = true := by decide +kernel
  obtain ⟨result, fs', hbuild⟩ := Steps.exists_of_isOk hok
  obtain ⟨tree, pass, head, pass', document, all, payload, htree, hhead, rfl,
    hscript, hdocument, hread, hkeys⟩ := Builder.buildPage_shows_keys rfl rfl
    (by decide) (by decide) hbuild
  cases htree
  cases hhead
  refine ⟨result, fs', all, _, hbuild, ⟨document, hdocument, hread⟩,
    hscript, rfl, fun key hkey => ?_⟩
  exact (hkeys key hkey nofun).2 (by decide)

/-- A site whose metadata is a `head` with an option that follows a cell. -/
def Registry.headSite : Registry :=
  let metadata : PageCode := fun scope =>
    let (b, scope) := scope.addState (.str "b") none
    (.element ⟨"head", .options (.ofList [("title", .reactive (.state b))]),
      some []⟩, scope)
  (Registry.empty.addPage "" fun scope => (.text "a", scope)).addMetadata ""
    metadata

/-- A site with an element that never has content and an element in the place
of its options. -/
def Registry.breakSite : Registry :=
  let page : PageCode := fun scope =>
    let (b, scope) := scope.addState (.str "b") none
    let inner : Element :=
      ⟨"i", .options (.ofList [("title", .reactive (.state b))]), some []⟩
    (.element ⟨"br", .child (.element inner), none⟩, scope)
  (Registry.empty.addPage "" page).addMetadata "" fun scope =>
    (.text "a", scope)

/-- A site with an option whose name is `key` behind a blank. -/
def Registry.blankSite : Registry :=
  let page : PageCode := fun scope =>
    let (b, scope) := scope.addState (.str "b") none
    let inner : Element :=
      ⟨"b", .options (.ofList [(" key", .literal (.str "0"))]), some []⟩
    (.element ⟨"li", .options (.ofList [("title", .reactive (.state b))]),
      some [.element inner]⟩, scope)
  (Registry.empty.addPage "" page).addMetadata "" fun scope =>
    (.text "a", scope)

/-- The files that a site of one page is built to, if that works. -/
def Registry.output? (site : Registry) : Option (List (String × String)) :=
  match (Builder.standard site.loader .defaults).buildPage ""
    ⟨.directory [], []⟩ with
  | .ok _ fs => some (fs.files.map fun (path, text) => (path.lossy, text))
  | .error _ _ => none

/-- A payload with the record of a title that follows a cell, under key 0. -/
def Payload.titleCode : String :=
  "pd[\x22/\x22]=\x7bstate:[\x7bid:0,value:\x22\x5c\x22b\x5c\x22\x22\x7d],"
    ++ "soa:[\x7bkey:0,attribute:\x22title\x22,id:0,value:\x22b\x22\x7d],\x7d;"

open Html in
/-- Each of the three sites has a record under key 0 in its payload. The first
two documents have no element with this key, and the third has two. -/
theorem Registry.headSite_misses_key :
    headSite.output? = some [
        ("dist/index.html",
          openDocument "/client.js" ⟨"/", "", true⟩ ++ "<body>a</body>"
            ++ documentEnd),
        ("dist/page_data.js", Payload.titleCode)]
      ∧ breakSite.output? = some [
        ("dist/index.html",
          openDocument "/client.js" ⟨"/", "a", true⟩ ++ "<body><br /></body>"
            ++ documentEnd),
        ("dist/page_data.js", Payload.titleCode)]
      ∧ blankSite.output? = some [
        ("dist/index.html",
          openDocument "/client.js" ⟨"/", "a", true⟩
            ++ "<body><li key=\x220\x22 title=\x22b\x22><b  key=\x220\x22></b></li></body>"
            ++ documentEnd),
        ("dist/page_data.js", Payload.titleCode)] := by
  refine ⟨?_, ?_, ?_⟩
  · decide +kernel
  · decide +kernel
  · decide +kernel

end Prerender
