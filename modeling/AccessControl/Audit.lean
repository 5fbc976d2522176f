import AccessControl.Value.Flatten
import AccessControl.Value.Text

/-!
# Records of decisions

Every decision leaves one record.  It says which question was asked, about which resource and
for whom, how it was answered and why.  What else it holds depends on the question: the action
of a permission check, the relationship of a relationship check, the action and the id of the
instance for a decision about an instance, the levels found for a level query.  A request that
is turned away before any question is asked leaves a record without a subject.
-/

namespace AccessControl

/-- How a question was answered. -/
inductive Verdict
  | allow
  | deny
  deriving DecidableEq, Repr

namespace Verdict

/-- The answer as it is written. -/
def label : Verdict → String
  | allow => "allow"
  | deny => "deny"

/-- The answer that a truth value stands for. -/
def ofBool (b : Bool) : Verdict :=
  if b then allow else deny

@[simp] theorem ofBool_true : ofBool true = allow := rfl

@[simp] theorem ofBool_false : ofBool false = deny := rfl

end Verdict

/-- The question that a record answers, with what the record keeps of it. -/
inductive Subject
  /-- No question: the request was turned away. -/
  | request
  /-- Is the action granted at all? -/
  | permission (action : Value)
  /-- Is the relationship held? -/
  | relationship (relationship : Value)
  /-- May the action be applied to the instance with this id? -/
  | instanceOf (action resourceId : Value)
  /-- Through which levels is the action granted? -/
  | levels (action : Value) (levels : Option (List Value))

namespace Subject

/-- The name of the question. -/
def method : Subject → String
  | request => "intercept"
  | permission _ => "has_permission"
  | relationship _ => "can_be"
  | instanceOf _ _ => "can"
  | levels _ _ => "get_access_level"

/-- The kind of record that the question leaves. -/
def recordName : Subject → String
  | request => "AuditLog"
  | permission _ => "PermissionAuditLog"
  | relationship _ => "RelationshipAuditLog"
  | instanceOf _ _ => "ResourceActionAuditLog"
  | levels _ _ => "AccessLevelAuditLog"

/-- The fields that only this question has. -/
def fields : Subject → List (String × Value)
  | request => []
  | permission action => [("action", action)]
  | relationship r => [("relationship", r)]
  | instanceOf action id => [("action", action), ("resource_id", id)]
  | levels action found =>
    [("action", action), ("access_levels", (found.map Value.list).getD .null)]

end Subject

/-- The record of one decision. -/
structure Audit where
  subject : Subject
  resource : Value
  userId : Value
  result : Verdict
  message : Value

namespace Audit

/-- The decision was an allowance. -/
def allowed (a : Audit) : Bool :=
  a.result == .allow

/-- The fields of the record, in the order in which they are written. -/
def fields (a : Audit) : List (String × Value) :=
  [("method", .text a.subject.method), ("resource", a.resource), ("user_id", a.userId),
    ("result", .text a.result.label), ("message", a.message)] ++ a.subject.fields

/-- The record as a value that a function may look into. -/
def toValue (a : Audit) : Value :=
  .record (.audit a.subject.recordName) a.fields

/-- The record as it is written: a map, also where a field holds a record. -/
def toMap (a : Audit) : List (Value × Value) :=
  Value.flattenFields a.fields

end Audit

end AccessControl
