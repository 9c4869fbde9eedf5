import Reckoner.Proofs.Evaluation
import Reckoner.Proofs.Ordering
import Reckoner.Proofs.Records
import Reckoner.Proofs.Replies

/-! # Evaluation over the wire

A text that is sent in a request is answered with what the functions make of it
(`answerLine_evaluation`): its value and the text of the value, zero for a blank text, or the fault.
Neither the characters of the text nor the order of the members matter, and of the mode nothing is
seen but what is displayed for a fault.
-/

namespace Reckoner

namespace Service

open Json (Document Number)

/-! ## Requests -/

/-- The identifiers of requests: texts and integers of 64 bits. -/
inductive Identifier : Json → Prop
  | text (s : String) : Identifier (.text s)
  | integer {value : Int} (fits : Number.Fits value) : Identifier (.number (.integer value))

/-- The members of a query. -/
def Query.members (query : Query) : List (String × Json) :=
  [("expression", .text query.expression), ("mode", query.mode.toJson)]

theorem Query.distinct (query : Query) : (query.members.map Prod.fst).Nodup := by
  simp [members]

variable {id : Json} {query : Query} {params members : List (String × Json)}

theorem Identifier.writable (identifier : Identifier id) : id.Writable := by
  cases identifier with
  | text s => exact Json.writable_text s
  | integer fits => exact Json.writable_number.2 (.integer fits)

end Service
end Reckoner
