import EntitySchema.Proofs.Sdl.Accepted
import EntitySchema.Proofs.Sdl.Definitions
import EntitySchema.Proofs.UpdateInput.Synthesized

/-! # Schema text and documents

Printing a document and parsing its text gives the document again, also when Update inputs have
been added to it. -/
namespace EntitySchema.Sdl.Document

/-- A parsed document with a definition, and its extension by Update inputs, are what their texts
stand for, unless an argument of a directive holds a floating-point number or a string with a
control character that is no tab and no line end. -/
theorem parse?_text_of_parse? {text : String} {document : Document}
    (h : Document.parse? text = some document) (hne : document.definitions ≠ [])
    (hplain : document.Plain) :
    Document.parse? document.text = some document ∧
      ∀ extended, UpdateInput.extend document = .ok extended →
        Document.parse? extended.text = some extended := by
  have hwell : document.WellFormed := wellFormed_of_parse? h
  refine ⟨parse?_text hwell hplain hne, fun extended hextend => ?_⟩
  obtain ⟨hwell', hplain'⟩ := UpdateInput.wellFormed_of_extend hwell hplain hextend
  obtain ⟨inputs, hinputs⟩ := UpdateInput.definitions_of_extend hextend
  refine parse?_text hwell' hplain' ?_
  rw [hinputs]
  exact List.append_ne_nil_of_left_ne_nil hne _

/-- An extension with arguments of many kinds, with few separators, and an empty enum. -/
theorem parse?_text_of_orders :
    let text := "extend type Order@rootEntity@roles(read:[\"a\\n\" -3,\x7bk:null\x7d])\x7b" ++
      "notes:[String!]!,total:Int@calcMutations(operators:[ADD])\x7denum Unit"
    ∃ document extended : Document, Document.parse? text = some document ∧
      UpdateInput.extend document = .ok extended ∧
      Document.parse? document.text = some document ∧
      Document.parse? extended.text = some extended := by
  intro text
  have hchecked : (Document.parse? text).any (fun document =>
      !document.definitions.isEmpty && decide document.Plain &&
        (UpdateInput.extend document).isOk) = true := by
    decide +kernel
  obtain ⟨document, hparse, hdocument⟩ := (Option.any_eq_true _ _).1 hchecked
  simp only [Bool.and_eq_true, decide_eq_true_eq, Bool.not_eq_true'] at hdocument
  obtain ⟨⟨hnonempty, hplain⟩, hok⟩ := hdocument
  have hne : document.definitions ≠ [] := List.isEmpty_eq_false_iff.1 hnonempty
  obtain ⟨hdocument, hextended⟩ := parse?_text_of_parse? hparse hne hplain
  cases hextend : UpdateInput.extend document with
  | error problem =>
    rw [hextend] at hok
    cases hok
  | ok extended => exact ⟨document, extended, hparse, hextend, hdocument, hextended _ hextend⟩

end EntitySchema.Sdl.Document
