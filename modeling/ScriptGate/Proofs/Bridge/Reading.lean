import ScriptGate.Bridge
import ScriptGate.Proofs.Json.Values

/-!
# Reading values of a guest

What `members` makes of entries, apart from how their values are read: first the values of all
entries whose keys have a text are read, in their order, then the members are set one by one.
-/

namespace ScriptGate.Bridge

open Lua (Value)

variable {es : List (Value × Value)}

@[simp] theorem keyText?_text (s : String) : keyText? (.text s) = some s := by
  rw [Value.text, keyText?, Utf8.lossy_ofString]

/-- The entries whose keys have a text, under that text. -/
def named (entries : List (Value × Value)) : List (String × Value) :=
  entries.filterMap fun e => (keyText? e.1).map (·, e.2)

theorem named_cons (e : Value × Value) (es : List (Value × Value)) :
    named (e :: es) = match keyText? e.1 with
      | some k => (k, e.2) :: named es
      | none => named es := by
  rw [named, List.filterMap_cons]
  cases keyText? e.1 <;> rfl

theorem members_eq (convert : Value → Except Fault Json) (es : List (Value × Value)) :
    members convert es =
      return Json.ofPairs (← (named es).mapM fun m => return (m.1, ← convert m.2)) := by
  suffices general : ∀ pending, es.foldlM (fun ms e =>
      match keyText? e.1 with
      | some k => do return Json.insert k (← convert e.2) ms
      | none => .ok ms) pending =
        (return ((← (named es).mapM fun m => return (m.1, ← convert m.2)).foldl
          (fun ms p => Json.insert p.1 p.2 ms) pending) : Except Fault _) from general []
  induction es with
  | nil => exact fun _ => rfl
  | cons e rest ih =>
    intro pending
    rw [List.foldlM_cons, named_cons]
    cases keyText? e.1 with
    | none => exact ih pending
    | some k =>
      rw [List.mapM_cons]
      cases convert e.2 with
      | error fault => rfl
      | ok v =>
        refine (ih (Json.insert k v pending)).trans ?_
        cases (named rest).mapM fun m => (return (m.1, ← convert m.2) : Except Fault _) <;> rfl

end ScriptGate.Bridge
