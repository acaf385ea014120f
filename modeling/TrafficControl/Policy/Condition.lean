import TrafficControl.Json.Codec
import TrafficControl.Text.Match

/-!
# Conditions

A `Condition` is a predicate on one attribute of a request. Which attribute it is, its kind and key
say; `Condition.test` compares the values that the request has for it.
-/

namespace TrafficControl

/-- How the values of a request compare with those of a condition. -/
inductive Comparison where
  | equal
  | notEqual
  | among
  | notAmong
  | beginning
deriving DecidableEq, Inhabited

/-- The comparison as a document writes it. -/
def Comparison.codec : Codec Comparison :=
  .enumeration [(equal, "EQUAL"), (notEqual, "NOT_EQUAL"), (among, "IN"), (notAmong, "NOT_IN"),
    (beginning, "PREFIX")]

/-- A predicate on one attribute of a request. -/
structure Condition where
  /-- The kind of the attribute, such as a header or a query parameter. -/
  kind : String
  /-- The name of the attribute within its kind. -/
  key : String
  comparison : Comparison := .equal
  values : List String := []
deriving DecidableEq, Inhabited

namespace Condition

/-- The condition as a document writes it. -/
def codec : Codec Condition :=
  (Codec.record (.cons (.required "type" .string) (.cons (.required "key" .string)
    (.cons (.defaulted "opType" Comparison.codec .equal)
    (.one (.defaulted "values" (.list .string) [])))))).imap
    (fun (kind, key, comparison, values) => { kind, key, comparison, values })
    (fun c => (c.kind, c.key, c.comparison, c.values))

/-- Whether the values `actual` of a request satisfy the condition. One of them has to be a value of
the condition, or begin with one; for the negated comparisons, none may be one. -/
def test (c : Condition) (actual : List String) : Bool :=
  match c.comparison with
  | .equal | .among => actual.any fun a => c.values.contains a
  | .notEqual | .notAmong => !actual.any fun a => c.values.contains a
  | .beginning => actual.any fun a => c.values.any fun v => Text.beginsWith v a

end Condition

end TrafficControl
