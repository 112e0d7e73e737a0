import Letterhead.Proofs.Pdf.Words
import Letterhead.Proofs.Template.Forms

/-!
The content of a form that is made of a page with many content streams. The data of the streams follow
each other in it with nothing between them, so it has the words of all of them, one after the other,
just if no stream ends within a word where the next one begins within one.
-/

namespace Letterhead

open Pdf (Object ObjectId Dictionary Document Bytes ascii Separate wordsOf)

namespace Pdf.Document

variable {document : Document}

theorem follow_direct {object : Object} (direct : object.asReference? = none) (steps : Nat) :
    document.follow steps object = .ok object := by
  cases steps <;> cases object <;> first | rfl | cases direct

-- References that lead to an array pass through no stream.
theorem contentIds_of_follow {steps : Nat} {contents : Object} {items : List Object}
    (leads : document.follow steps contents = .ok (.array items)) :
    document.contentIds steps contents = items.filterMap Object.asReference? := by
  induction steps generalizing contents with
  | zero =>
    cases contents with
    | reference id =>
      rw [follow] at leads
      split at leads <;> cases leads
    | _ => cases leads <;> rfl
  | succ steps ih =>
    cases contents with
    | reference id =>
      rw [follow] at leads
      split at leads
      · cases leads
      · rename_i object found
        rw [contentIds, found, ← ih leads]
        cases object with
        | stream entries data => cases (follow_direct rfl steps).symm.trans leads
        | _ => rfl
    | _ => cases leads <;> rfl

/-- A stream without filters, with these data. -/
def HoldsPlain (document : Document) (id : ObjectId) (data : Bytes) : Prop :=
  ∃ entries, document.lookup id = .ok (.stream entries data) ∧
    Dictionary.get? entries (ascii "Filter") = none

theorem HoldsPlain.contentOf {id : ObjectId} {data : Bytes} (holds : document.HoldsPlain id data) :
    document.contentOf id = data := by
  obtain ⟨entries, found, plain⟩ := holds
  have bare : decoded? entries data = none := by
    rw [decoded?, filters?, plain]
    split <;> rfl
  rw [Document.contentOf, found]
  simp [streamData, bare]

/-- The content of the page is in streams without filters, which an array lists. -/
def HasStreams (document : Document) (page : ObjectId) (streams : List Bytes) : Prop :=
  ∃ node contents ids, document.dictionary? page = some node ∧
    Dictionary.get? node (ascii "Contents") = some contents ∧
    document.follow (referenceLimit - 1) contents = .ok (.array (ids.map .reference)) ∧
    List.Forall₂ document.HoldsPlain ids streams

theorem HasStreams.pageContent {page : ObjectId} {streams : List Bytes}
    (has : document.HasStreams page streams) : document.pageContent page = streams.flatten := by
  obtain ⟨node, contents, ids, found, entry, leads, hold⟩ := has
  have listed : (ids.map Object.reference).filterMap Object.asReference? = ids := by
    rw [List.filterMap_map]
    exact List.filterMap_some
  have ids : document.pageContent page = ids.flatMap document.contentOf := by
    simp only [Document.pageContent, found, Option.bind_some, entry, contentIds_of_follow leads, listed]
  rw [ids]
  clear * - hold
  induction hold with
  | nil => rfl
  | cons here _ ih => rw [List.flatMap_cons, here.contentOf, ih, List.flatten_cons]

end Pdf.Document

namespace Template

/-- The form of a page with many content streams has the words of all of them in order, none missing
and none made of two, exactly if no two words touch where one stream ends and another begins; and no
letter of any word is lost or moved in any case. -/
theorem keeps_words_that_do_not_touch (template : Template) (page : Nat) (id : ObjectId)
    (named : template.pageId? page = some id) (streams : List Bytes)
    (has : template.document.HasStreams id streams) (before after : Import) (form : ObjectId)
    (imported : template.importForm page before = (.ok form, after)) :
    ∃ entries data, after.target.get? form = some (.stream entries data) ∧
      (wordsOf data = streams.flatMap wordsOf ↔ Separate streams) ∧
      (wordsOf data).flatten = (streams.flatMap wordsOf).flatten := by
  obtain ⟨-, -, found, same, -, there⟩ := importForm_succeeds imported
  obtain rfl := Option.some.inj (same.symm.trans named)
  rw [Template.form, has.pageContent] at there
  exact ⟨_, streams.flatten, there, Pdf.wordsOf_flatten_eq_iff streams,
    Pdf.flatten_wordsOf_flatten streams⟩

/-- A template of one page with its content in two streams. -/
def inTwoStreams (first second : String) : Template :=
  let stream (text : String) : Object := .ofStream [] (ascii text)
  let page := Object.dictionary <| Dictionary.ofList
    [("Type", .ofName "Page"), ("Parent", .reference ⟨2, 0⟩),
      ("Contents", .array [.reference ⟨4, 0⟩, .reference ⟨5, 0⟩])]
  let tree := Object.dictionary <| Dictionary.ofList
    [("Type", .ofName "Pages"), ("Kids", .array [.reference ⟨3, 0⟩])]
  let catalog := Object.dictionary <| Dictionary.ofList
    [("Type", .ofName "Catalog"), ("Pages", .reference ⟨2, 0⟩)]
  let objects := [(⟨1, 0⟩, catalog), (⟨2, 0⟩, tree), (⟨3, 0⟩, page), (⟨4, 0⟩, stream first),
    (⟨5, 0⟩, stream second)]
  let trailer := Dictionary.ofList [("Root", .reference ⟨1, 0⟩)]
  .ofDocument (objects.foldl (fun document entry => document.insert entry.1 entry.2) { trailer })

theorem inTwoStreams_hasStreams (first second : String) :
    (inTwoStreams first second).pageId? 1 = some ⟨3, 0⟩ ∧
      (inTwoStreams first second).document.HasStreams ⟨3, 0⟩ [ascii first, ascii second] :=
  ⟨rfl, _, _, [⟨4, 0⟩, ⟨5, 0⟩], rfl, rfl, rfl, .cons ⟨_, rfl, rfl⟩ (.cons ⟨_, rfl, rfl⟩ .nil)⟩

theorem spaced_streams_keep_words :
    let template := inTwoStreams "q 2 w " "0 g Q"
    template.document.HasStreams ⟨3, 0⟩ [ascii "q 2 w ", ascii "0 g Q"] ∧
    (template.importForm 1 ⟨{}, {}⟩).1 = .ok ⟨1, 0⟩ ∧
    ∃ entries data,
      (template.importForm 1 ⟨{}, {}⟩).2.target.get? ⟨1, 0⟩ = some (.stream entries data) ∧
      wordsOf data = ["q", "2", "w", "0", "g", "Q"].map ascii := by
  intro template
  obtain ⟨named, has⟩ := inTwoStreams_hasStreams "q 2 w " "0 g Q"
  have made : (template.importForm 1 ⟨{}, {}⟩).1 = .ok ⟨1, 0⟩ := by decide +kernel
  have separate : Separate [ascii "q 2 w ", ascii "0 g Q"] := by decide
  obtain ⟨entries, data, there, kept, -⟩ := keeps_words_that_do_not_touch template 1 ⟨3, 0⟩ named _ has
    ⟨{}, {}⟩ _ ⟨1, 0⟩ (Prod.ext made rfl)
  exact ⟨has, made, entries, data, there, (kept.mpr separate).trans (by decide)⟩

/-- The operator that ends the first stream and the one that begins the second become one word. -/
theorem bare_streams_fuse_words :
    let template := inTwoStreams "q" "Q"
    template.document.HasStreams ⟨3, 0⟩ [ascii "q", ascii "Q"] ∧
    (template.importForm 1 ⟨{}, {}⟩).1 = .ok ⟨1, 0⟩ ∧
    ∃ entries data,
      (template.importForm 1 ⟨{}, {}⟩).2.target.get? ⟨1, 0⟩ = some (.stream entries data) ∧
      wordsOf data = [ascii "qQ"] ∧
      [ascii "q", ascii "Q"].flatMap wordsOf = [ascii "q", ascii "Q"] :=
  ⟨(inTwoStreams_hasStreams "q" "Q").2, by decide +kernel, _, _, rfl, by decide, by decide⟩

end Template

end Letterhead
