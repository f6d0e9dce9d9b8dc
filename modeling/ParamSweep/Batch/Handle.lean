import ParamSweep.Error
import ParamSweep.Pattern.Reader

/-!
The identifier that the scheduler gives to a submitted batch: a text without blanks, and not empty.
-/

namespace ParamSweep

/-- Whether a text can identify a batch. -/
def isBatchId (id : String) : Bool := id ≠ "" && !id.toList.any Text.isBlank

/-- The identifier of a batch. -/
structure BatchHandle where
  id : String
  isId : isBatchId id = true := by decide

namespace BatchHandle

instance : DecidableEq BatchHandle := fun a b =>
  if h : a.id = b.id then
    isTrue (by cases a; cases b; cases h; rfl)
  else isFalse fun h' => h (congrArg BatchHandle.id h')

/-- The handle of an identifier with or without blanks around it. -/
def ofText (text : String) : Except Cause BatchHandle :=
  if h : isBatchId (Text.trimmed text) = true then .ok ⟨Text.trimmed text, h⟩
  else .error (.invalidBatchId text)

/-- The handle that the scheduler's answer to a submission names: the first group of a pattern. -/
def ofSubmission (pattern answer : String) : Except Error BatchHandle :=
  match Pattern.read? pattern with
  | none => .error (.configuration (.invalidSubmitPattern pattern))
  | some (regex, groups) =>
    if groups < 1 then .error (.configuration (.submitPatternWithoutGroup pattern))
    else
      match regex.capture? 1 answer with
      | some (some id) => (ofText id).mapError Error.configuration
      | _ => .error (.unparsedSubmission answer)

end BatchHandle

end ParamSweep
