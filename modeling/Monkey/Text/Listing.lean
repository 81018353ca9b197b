/-!
# Listings

Several texts written as one, separated by a comma and a space.
-/

namespace Monkey.Text

/-- The texts in order, with `", "` between neighbours. -/
def commaSeparated : List String → String
  | [] => ""
  | [text] => text
  | text :: texts => text ++ ", " ++ commaSeparated texts

@[simp]
theorem commaSeparated_cons_cons (first second : String) (texts : List String) :
    commaSeparated (first :: second :: texts) =
      first ++ ", " ++ commaSeparated (second :: texts) := rfl

end Monkey.Text
