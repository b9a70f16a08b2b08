import CameraPipeline.Table

/-!
The parameter store: one text per key, listed in the order of the keys.
-/

namespace CameraPipeline

abbrev Params := Table String String

namespace Params

/-- Splits `video.0:width` at its first colon into section and name, both non-empty. -/
def splitKey (key : String) : Option (String × String) :=
  let cs := key.toList
  let before := cs.takeWhile (· != ':')
  match cs.dropWhile (· != ':') with
  | _ :: name =>
    if before.isEmpty || name.isEmpty then none
    else some (String.ofList before, String.ofList name)
  | [] => none

/-- Gives `key` the text that stood under it before, or none. -/
def restore (p : Params) (key : String) : Option String → Params
  | some text => p.insert key text
  | none => p.erase key

/-- Restoring what stood under a key undoes an insertion there. -/
theorem restore_insert (p : Params) (key value : String) :
    restore (p.insert key value) key (p.get? key) = p := by
  refine Table.ext_get? fun k => ?_
  cases h : p.get? key with
  | none =>
      rw [restore, Table.get?_erase]
      split
      · subst k
        exact h.symm
      · exact Table.get?_insert_of_ne p value ‹_›
  | some text =>
      rw [restore, Table.insert_insert, Table.get?_insert]
      split
      · subst k
        exact h.symm
      · rfl

end Params
end CameraPipeline
