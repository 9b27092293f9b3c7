/-!
What follows a fixed opening, for characters and for bytes.
-/

set_option autoImplicit false

namespace MultimediaMessaging.Text

def after? {α : Type} [DecidableEq α] : (opening list : List α) → Option (List α)
  | [], list => some list
  | _ :: _, [] => none
  | p :: opening, a :: list => if p = a then after? opening list else none

theorem after?_eq_some_iff {α : Type} [DecidableEq α] {opening list rest : List α} :
    after? opening list = some rest ↔ list = opening ++ rest := by
  induction opening generalizing list with
  | nil => simp [after?, eq_comm]
  | cons p opening ih =>
    cases list with
    | nil => simp [after?]
    | cons a list => by_cases h : p = a <;> simp [after?, h, ih, eq_comm]

@[simp] theorem after?_append {α : Type} [DecidableEq α] (opening rest : List α) :
    after? opening (opening ++ rest) = some rest := after?_eq_some_iff.2 rfl

end MultimediaMessaging.Text
