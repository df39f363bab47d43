import EntitySchema.CreateInput.Shape
import EntitySchema.Sdl.Document

/-!
The Create inputs that an input nests, directly or through others, and their schema text.
-/

namespace EntitySchema

namespace Reachable

def unmarked (model : Model) (marked : List String) : List ObjectType :=
  model.types.filter (Names.createInput ·.name ∉ marked)

theorem unmarked_lt {model : Model} {marked : List String} {id : TypeId} {input : CreateInput}
    (hinput : model.createInput? id = some input) (hnew : input.name ∉ marked) :
    (unmarked model (input.name :: marked)).length < (unmarked model marked).length := by
  obtain ⟨type, htype, rfl⟩ := Option.map_eq_some_iff.1 hinput
  have hmem : type ∈ unmarked model marked :=
    List.mem_filter.2 ⟨List.mem_of_getElem? htype, decide_eq_true hnew⟩
  have hsplit : unmarked model (Names.createInput type.name :: marked) =
      (unmarked model marked).filter (Names.createInput ·.name ≠ Names.createInput type.name) := by
    simp only [unmarked, List.filter_filter]
    congr 1
    funext other
    simp
  change (unmarked model (Names.createInput type.name :: marked)).length < _
  rw [hsplit]
  exact List.length_filter_lt_length_iff_exists.2 ⟨type, hmem, by simp⟩

/-- The inputs on a stack, the nested ones of each before the rest of the stack. An input is marked
by its name when it is taken off the stack, and passed over from then on. -/
def visit (model : Model) (marked : List String) : List TypeId → List CreateInput
  | [] => []
  | id :: stack =>
    match _hinput : model.createInput? id with
    | none => visit model marked stack
    | some input =>
      if _h : input.name ∈ marked then visit model marked stack
      else
        input :: visit model (input.name :: marked) (input.nested.map (·.target) ++ stack)
termination_by stack => ((unmarked model marked).length, stack.length)
decreasing_by
  · exact Prod.Lex.right _ (by simp)
  · exact Prod.Lex.right _ (by simp)
  · exact Prod.Lex.left _ _ (unmarked_lt _hinput _h)

end Reachable

namespace Model

/-- The Create inputs reachable from that of an object type, it first, in the order of a walk that
goes into each field before the next one. -/
def reachableInputs (model : Model) (id : TypeId) : List CreateInput :=
  Reachable.visit model [] [id]

def createInputDocument (model : Model) (id : TypeId) : Sdl.Document :=
  { definitions := (model.reachableInputs id).map fun input => .input input.toTypeDef }

end Model

end EntitySchema
