/-
One page under four names.

There is the address of a page, the address in its document that the
payload is loaded from, the place of the file there, and the key of the
payload on the client. Each is computed from the stored path by itself,
at a different end of the program, and they name one page
(`Registry.buildPage_addresses`). If they did not, a page would come up
and stay dead: its script would not be found, or would put its data
under a key that nobody asks for.

A path without backslashes is stored tidily: relative and without a `/`
at its end (`PagePath.isTidy_stored`). From that follows each of the
four:

1. the payload is loaded from `/` and the path of the payload seen from
   the root of the site (`Html.payloadUrl_of_tidy`);
2. written into a tag this address is read from it again, and the tag
   ends where it should (`Html.decode_escape`);
3. the same path leads from the directory of all pages to the file that
   was written (`Builder.join_payloadPath`);
4. the file begins with an entry under the address of the page
   (`Builder.exists_plainPayload_eq`), minified or not.

That different pages have different addresses comes last. It is a
statement about tidy paths and not about files.
-/
import Prerender.Proofs.Html.Reader
import Prerender.Proofs.Payload.Minified
import Prerender.Proofs.Site.Isolation
import Prerender.Proofs.Site.PagePath

namespace Prerender

open Files

-- ============================================================ the payload

namespace Payload

/-- The code of a payload begins with the entry of its page in the
dictionary. -/
theorem exists_code_eq (payload : Payload) :
    ∃ rest, payload.code = "pd[" ++ Json.quoted payload.url ++ rest := by
  have hopening : dictionary ++ "[" = "pd[" := by decide
  rw [code, hopening]
  simp only [String.append_assoc]
  exact ⟨_, rfl⟩

end Payload

/-- What is written of a payload begins with the entry of its page, minified
or not. -/
theorem Builder.exists_plainPayload_eq (settings : Settings)
    (payload : Payload) :
    ∃ rest, plainPayload settings payload
      = "pd[" ++ Json.quoted payload.url ++ rest := by
  unfold plainPayload
  split
  · rw [Payload.minify_code]
    exact Payload.exists_code_eq (payload.mapSource Script.mergeBreaks)
  · exact Payload.exists_code_eq payload

-- =========================================================== the document

namespace Html

/-- Where the payload of a page is, seen from the root of the site. -/
def payloadPath (page : String) : String :=
  if page = "" then payloadFile else page ++ "/" ++ payloadFile

/-- The payload is loaded from its path. -/
theorem payloadUrl_of_tidy {page : String} (tidy : PagePath.IsTidy page)
    (head : String) :
    HeadContext.payloadUrl ⟨PagePath.url page, head, true⟩
      = "/" ++ payloadPath page := by
  have hslash : Text.dropEndWhile (· == '/') "/".toList = [] := by decide
  rw [tidy.url_eq, payloadPath, HeadContext.payloadUrl]
  by_cases hroot : page = ""
  · rw [hroot, if_pos rfl, String.append_empty, hslash]
    rfl
  · have hlast : ("/" ++ page).toList.getLast?.any (· == '/') = false := by
      rw [PagePath.any_eq_slash, Ne, ← Path.getLast?_ofText,
        OsText.ofText_append]
      exact Path.getLast?_append_ne (mt OsText.ofText_inj.1 hroot)
        (mt Path.getLast?_ofText.1 tidy.unended) "/"
    rw [if_neg hroot, Text.dropEndWhile_of_last hlast, String.ofList_toList]
    simp only [String.append_assoc]

/-- Without its last segment the address of the payload is that of its page. -/
theorem payloadPath_cases {page : String} (tidy : PagePath.IsTidy page) :
    page = "" ∧ PagePath.url page = "/" ∧ payloadPath page = payloadFile
      ∨ page ≠ ""
        ∧ "/" ++ payloadPath page
          = PagePath.url page ++ "/" ++ payloadFile := by
  rw [tidy.url_eq, payloadPath]
  by_cases hroot : page = ""
  · rw [hroot, if_pos rfl]
    exact Or.inl ⟨rfl, rfl, rfl⟩
  · rw [if_neg hroot]
    refine Or.inr ⟨hroot, ?_⟩
    simp only [String.append_assoc]

/-- A document begins with its head, in which the scripts come last. -/
theorem openDocument_eq (clientScript pageUrl head : String) :
    openDocument clientScript ⟨pageUrl, head, true⟩
      = "<!DOCTYPE html><html><head>" ++ head ++ scriptTag clientScript
        ++ scriptTag (HeadContext.payloadUrl ⟨pageUrl, head, true⟩)
        ++ "</head>" := rfl

/-- An address written into a tag is read from it again, and does not end the
tag. -/
theorem decode_escape (url : String) :
    decode (escape url).toList = url.toList ∧ '\x22' ∉ (escape url).toList := by
  rw [toList_escape]
  exact ⟨decode_escapeChars url.toList, fun hmem =>
    (ne_of_mem_escapeChars hmem).2 rfl⟩

end Html

/-- The file of a payload is where its path leads from the directory of all
pages. -/
theorem Builder.join_payloadPath (builder : Builder) {page : String}
    (tidy : PagePath.IsTidy page) :
    Path.join builder.settings.outputDir (Html.payloadPath page)
      = Path.join (builder.outputDir page) Html.payloadFile := by
  have hnamed : Path.IsFileName Html.payloadFile :=
    isFileName_of_mem (by decide)
  unfold Html.payloadPath outputDir
  by_cases hroot : page = ""
  · rw [hroot]
    rfl
  · have hempty : page.isEmpty = false := String.isEmpty_eq_false_iff.2 hroot
    have hrelative : Path.isAbsolute page = false :=
      Bool.eq_false_iff.2 (mt Path.isAbsolute_ofText.1 tidy.relative)
    rw [if_neg hroot, hempty, if_neg Bool.false_ne_true,
      Path.join_join hnamed (mt OsText.ofText_inj.1 hroot) hrelative
        (mt Path.getLast?_ofText.1 tidy.unended),
      OsText.ofText_append, OsText.ofText_append]

-- ========================================================= the same page

/-- The trees of a page as a build of it resolves them. -/
def Builder.Trees (builder : Builder) (page : String) (tree metadata : Node) :
    Prop :=
  ∃ loaded scope pass pass',
    builder.loader.load page .empty = .ok (loaded, scope)
    ∧ loaded.tree.resolve .fresh = .ok tree pass
    ∧ (loaded.metadata scope).1.resolve pass = .ok metadata pass'

/-- A page that was built as a document has in it, behind the script of the
client, a tag for a script at the address `/` and `r`. The file that `r` leads
to from the directory of all pages is the one that the build wrote the payload
to, and what is written there begins with an entry for the address of the
page. That is the address of the script without its last segment, and no other
stored path has it. -/
theorem Registry.buildPage_addresses (registry : Registry) (settings : Settings)
    {path : String}
    {fs fs' : FileSystem} {result : BuildResult} (plain : '\x5c' ∉ path.toList)
    (html : settings.writesHtml = true)
    (h : (registry.builder settings).buildPage (PagePath.stored path) fs
      = .ok result fs') :
    ∃ tree metadata, ∃ written r rest : String,
      (registry.builder settings).Trees (PagePath.stored path) tree metadata
      ∧ fs'.readText
        (Path.join
          ((registry.builder settings).outputDir (PagePath.stored path))
          Builder.documentFile)
        = .ok ("<!DOCTYPE html><html><head>"
          ++ Html.render (Html.headContent metadata)
          ++ Html.scriptTag settings.clientScript
          ++ ("<script src=\x22" ++ written ++ "\x22 defer></script>")
          ++ "</head>"
          ++ Html.render (Html.bodyElement tree) ++ "</html>")
      ∧ '\x22' ∉ written.toList ∧ Html.decode written.toList = '/' :: r.toList
      ∧ Path.join settings.outputDir r
        = Path.join
          ((registry.builder settings).outputDir (PagePath.stored path))
          Html.payloadFile
      ∧ fs'.readText (Path.join settings.outputDir r)
        = .ok ("pd[" ++ Json.quoted (PagePath.url (PagePath.stored path))
          ++ rest)
      ∧ (PagePath.stored path = "" ∧ PagePath.url (PagePath.stored path) = "/"
        ∧ r = Html.payloadFile
        ∨ PagePath.stored path ≠ ""
          ∧ "/" ++ r
            = PagePath.url (PagePath.stored path) ++ "/" ++ Html.payloadFile)
      ∧ ∀ path', '\x5c' ∉ path'.toList →
        PagePath.stored path' ≠ PagePath.stored path →
        PagePath.url (PagePath.stored path')
          ≠ PagePath.url (PagePath.stored path) := by
  have htidy := PagePath.isTidy_stored plain
  obtain ⟨loaded, scope, tree, pass, metadata, pass', hload, htree, hmetadata,
    hdocument, hpayload⟩ := Builder.buildPage_html html h
  obtain ⟨hdecode, hquote⟩ :=
    Html.decode_escape ("/" ++ Html.payloadPath (PagePath.stored path))
  have hplace := (registry.builder settings).join_payloadPath htidy
  obtain ⟨rest, hcode⟩ : ∃ rest, Builder.plainPayload settings (.ofPage
      (PagePath.url (PagePath.stored path))
      (loaded.metadata scope).2.cells pass'.bindings
      (loaded.metadata scope).2.hooks)
      = "pd[" ++ Json.quoted (PagePath.url (PagePath.stored path)) ++ rest :=
    Builder.exists_plainPayload_eq settings _
  refine ⟨tree, metadata, _, Html.payloadPath (PagePath.stored path), rest,
    ⟨loaded, scope, pass, pass', hload, htree, hmetadata⟩, ?_, hquote,
    ?_, hplace, ?_, Html.payloadPath_cases htidy,
    fun path' plain' apart heq => ?_⟩
  · refine hdocument.trans (congrArg Except.ok ?_)
    rw [Builder.plainDocument, Html.openDocument_eq,
      Html.payloadUrl_of_tidy htidy]
    rfl
  · rw [hdecode, String.toList_append]
    rfl
  · exact (congrArg fs'.readText hplace).trans
      (hpayload.trans (congrArg Except.ok hcode))
  · exact apart ((PagePath.isTidy_stored plain').eq_of_url htidy heq)

/-- A site of one page of plain text under a path with slashes around it and
twice within, and a character that markup reads specially. -/
def Registry.odditySite : Registry :=
  let code : PageCode := fun scope => (.text "a", scope)
  (Registry.empty.addPage "/q&a//new/" code).addMetadata "q&a//new" code

/-- Its document loads the payload from where it is written, under the key of
the page. -/
theorem Registry.odditySite_addresses : ∃ result fs' head written body rest,
    (odditySite.builder .defaults).buildPage
        (PagePath.stored "/q&a//new/") ⟨.directory [], []⟩
      = .ok result fs'
      ∧ fs'.readText "dist/q&a//new/index.html"
        = .ok ("<!DOCTYPE html><html><head>" ++ head
          ++ Html.scriptTag "/client.js"
          ++ ("<script src=\x22" ++ written ++ "\x22 defer></script>")
          ++ "</head>" ++ body ++ "</html>")
      ∧ Html.decode written.toList = "/q&a//new/page_data.js".toList
      ∧ fs'.readText "dist/q&a//new/page_data.js"
        = .ok ("pd[" ++ "\x22/q&a//new\x22" ++ rest) := by
  have hok : Steps.isOk
    ((odditySite.builder .defaults).buildPage (PagePath.stored "/q&a//new/")
      ⟨.directory [], []⟩) = true := by decide +kernel
  have hurl : PagePath.url (PagePath.stored "/q&a//new/") = "/q&a//new" := by
    decide +kernel
  obtain ⟨result, fs', hbuild⟩ := Steps.exists_of_isOk hok
  obtain ⟨tree, metadata, written, r, rest, -, hdocument, -, hwritten, -,
    hpayload, hlast, -⟩ :=
    buildPage_addresses odditySite .defaults (by decide +kernel) rfl hbuild
  have hr : r = "q&a//new/page_data.js" := by
    rcases hlast with ⟨hroot, -⟩ | ⟨-, hlast⟩
    · exact absurd hroot (by decide +kernel)
    · rw [hurl] at hlast
      exact (String.append_right_inj "/").1 hlast
  rw [hurl] at hpayload
  subst hr
  exact ⟨result, fs', _, written, _, rest, hbuild, hdocument,
    hwritten, hpayload⟩

end Prerender
