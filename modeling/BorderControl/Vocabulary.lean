/-!
# Closed vocabularies

Statuses, codes and decisions are types with finitely many members, each with the word
that stands for it in data (`Vocabulary.word`). `Vocabulary.ofWord?` finds the member a
word stands for; words are compared letter by letter.
-/

namespace BorderControl

class Vocabulary (α : Type) where
  members : List α
  word : α → String

/-- The member with the word `s`. -/
def Vocabulary.ofWord? {α : Type} [Vocabulary α] (s : String) : Option α :=
  Vocabulary.members.find? fun a : α => Vocabulary.word a == s

end BorderControl
