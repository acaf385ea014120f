import TrafficControl.Routing.Invocation

/-!
# Filters

A decision about an invocation is made by filters that run one after the other. Each may change the
invocation and then says how to go on : to the next filter, to a good end, or to a fault
(`Verdict`). Filters also share a state of type `σ`, which outlives the invocation.
-/

namespace TrafficControl

/-- How to go on after a filter. -/
inductive Verdict where
  /-- To the next filter. -/
  | proceed
  /-- To the end, without a fault. -/
  | finish
  /-- To the end, with a fault. -/
  | fault (f : Fault)
deriving DecidableEq

/-- A step in deciding about an invocation. -/
structure Filter (σ : Type) where
  name : String
  apply : σ → Invocation → Verdict × σ × Invocation

namespace Filter

variable {σ : Type}

/-- A filter that does not touch the shared state. -/
def ofInvocation (name : String) (apply : Invocation → Verdict × Invocation) : Filter σ where
  name
  apply s i :=
    let (v, i) := apply i
    (v, s, i)

/-- A filter that only changes the invocation. -/
def ofUpdate (name : String) (update : Invocation → Invocation) : Filter σ :=
  ofInvocation name fun i => (.proceed, update i)

/-- Run filters in turn. The result is the fault with which they ended, if they did. -/
def run : List (Filter σ) → σ → Invocation → Option Fault × σ × Invocation
  | [], s, i => (none, s, i)
  | f :: fs, s, i =>
    match f.apply s i with
    | (.proceed, s, i) => run fs s i
    | (.finish, s, i) => (none, s, i)
    | (.fault e, s, i) => (some e, s, i)

end Filter

/-- End with a fault that was put on the invocation. -/
def Verdict.ofFault (r : Fault × Invocation) : Verdict × Invocation := (.fault r.1, r.2)

end TrafficControl
