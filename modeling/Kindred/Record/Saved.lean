import Kindred.Json.Reader
import Kindred.Record.Check

/-!
# Saved records

Records are saved as JSON text.

- `ofSaved`: the record that a text holds, or all complaints about it.
-/

namespace Kindred.Record

/-- The record that a text holds. A text that is no JSON is one complaint about the whole. -/
def ofSaved (model : String) (check : Check α) (text : String) :
    List String × Except Rejection α :=
  match Json.read .record text with
  | .ok d => validate model true check d
  | .error _ => ([], .error ⟨model, true, [⟨[], .notJson⟩]⟩)

end Kindred.Record
