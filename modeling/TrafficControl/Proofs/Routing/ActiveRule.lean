import TrafficControl.Routing.Invocation

/-!
# The active unit rule

A bundle may have live policies for single unit rules. The one that is meant to apply to a call is
that of its active rule, the one by which the call is routed (`Invocation.FollowsRule`). But rule
and policy are settled one after the other : the policy is chosen by the rule that the request
names, and where it names none the rule is then taken from the policy of the bundle. The policy is
not chosen again, so a rule that comes from the bundle is active without the policy that the bundle
has for it (`not_followsRule`). `Invocation.followsRule_resolve_iff` says that nothing else goes wrong.
-/

namespace TrafficControl

/-- A policy for a rule takes the place of the common one, unless it is the same. -/
theorem Bundle.livePolicy?_eq_live_iff {b : Bundle} {id : String} :
    b.livePolicy? (some id) = b.live ↔ ∀ p, b.ruleLive.find? id = some p → b.live = some p := by
  rw [livePolicy?, Option.bind_some]
  cases b.ruleLive.find? id with
  | none => simp
  | some p => simp [eq_comm]

namespace LiveFacts

variable {m : LiveFacts} {bundle : Option Bundle}

/-- A request that names no rule has none until it is settled. -/
theorem rule?_of_unnamed (h : m.ruleId = none) : m.rule? = none := by
  cases hspace : m.space <;> simp [rule?, h, hspace]

/-- The rule that a request names stays its rule, or it has none. -/
theorem rule?_settle_of_named {id : String} (h : m.ruleId = some id) :
    (m.settle bundle).rule? = m.rule? := by
  have hruleId : (m.settle bundle).ruleId = m.ruleId := by simp [settle, h]
  rw [rule?, hruleId]
  rfl

end LiveFacts

namespace Invocation

/-- The live policy of the active rule. -/
def rulePolicy? (i : Invocation) : Option LivePolicy :=
  i.service.bundle?.bind (·.livePolicy? (i.live.rule?.map (·.id)))

/-- Whether the live policy in effect is that of the active rule, and with it the unit policy and
the write protection. -/
structure FollowsRule (i : Invocation) : Prop where
  livePolicy : i.service.livePolicy? = i.rulePolicy?
  unitPolicy : i.service.unitPolicy = (i.rulePolicy?.map (·.unitPolicy)).getD .none
  isWrite : i.service.isWrite = (i.request.write || i.rulePolicy?.any (·.writeProtect))

variable {context : Context} {s : Snapshot} {r : Request} {es : List Endpoint}
  {ls : List RequestListener}

/-- Everything follows the rule if the live policy does. -/
theorem followsRule_resolve_iff_livePolicy :
    (resolve context s r es ls).FollowsRule ↔
      (resolve context s r es ls).service.livePolicy? =
        (resolve context s r es ls).rulePolicy? := by
  refine ⟨FollowsRule.livePolicy, fun h => ⟨h, ?_, ?_⟩⟩
  · rw [← h, ServiceFacts.unitPolicy]
    cases (resolve context s r es ls).service.livePolicy? <;> rfl
  · rw [← h, ServiceFacts.isWrite]
    rfl

/-- The live policy in effect is that of the active rule if the request names the rule. If the rule
comes from the bundle, a policy that the bundle has for it must be the common one. -/
theorem followsRule_resolve_iff :
    (resolve context s r es ls).FollowsRule ↔
      ∀ bundle rule policy, nonEmpty? (r.header? Header.unitRule) = none →
        (resolve context s r es ls).service.bundle? = some bundle →
        (resolve context s r es ls).live.rule? = some rule →
        bundle.ruleLive.find? rule.id = some policy → bundle.live = some policy := by
  rw [followsRule_resolve_iff_livePolicy]
  let facts := LiveFacts.resolve r s context.application
  let service := (ServiceFacts.resolve r s).withRule facts.rule?
  let settled := facts.settle service.bundle?
  have hruleId : facts.ruleId = nonEmpty? (r.header? Header.unitRule) := rfl
  change service.bundle?.bind (·.livePolicy? (facts.rule?.map (·.id))) =
      service.bundle?.bind (·.livePolicy? (settled.rule?.map (·.id))) ↔
    ∀ bundle rule policy, _ → service.bundle? = some bundle → settled.rule? = some rule → _
  rw [← hruleId]
  cases hnamed : facts.ruleId with
  | some id =>
    have hrule : settled.rule? = facts.rule? := LiveFacts.rule?_settle_of_named hnamed
    simp [hrule]
  | none =>
    have hrule : facts.rule? = none := LiveFacts.rule?_of_unnamed hnamed
    rw [hrule]
    cases service.bundle? with
    | none => simp
    | some bundle =>
      cases settled.rule? with
      | none => simp
      | some rule =>
        have hiff : bundle.livePolicy? (some rule.id) = bundle.live ↔ _ :=
          Bundle.livePolicy?_eq_live_iff
        refine (eq_comm.trans hiff).trans ⟨?_, fun h policy => h bundle rule policy rfl rfl rfl⟩
        rintro h _ _ policy - hbundle hrule
        obtain rfl := Option.some.inj hbundle
        obtain rfl := Option.some.inj hrule
        exact h policy

end Invocation

namespace CenterRule

/-- A service of a rule, under which it is called in the center unit. -/
def service : Service where
  name := "orders"
  bundle := some
    { live := some { rule := some "users" }
      ruleLive := .ofList [("users", { unitPolicy := .center, writeProtect := true })] }

/-- Two units and the rule. -/
def space : LiveSpace where
  id := "live"
  spec :=
    { units := [{ code := "west" }, { code := "east" }]
      rules := [{ id := "users" }]
      center := some "west" }

def snapshot : Snapshot := .ofDocument { liveSpaces := [space], services := [service] }

def context : Context := { application := { location := { liveSpace := some "live" } } }

/-- A call that names no rule. -/
def call : Invocation := .resolve context snapshot { service := "orders" } [] []

end CenterRule

open CenterRule in
/-- The rule that comes from the bundle is active, but the policy for it is not in effect. -/
theorem not_followsRule : ¬call.FollowsRule := by
  intro h
  have hunit : call.service.unitPolicy = .unit := rfl
  have hmeant : call.rulePolicy?.map (·.unitPolicy) = some .center := rfl
  exact absurd (hunit.symm.trans (h.unitPolicy.trans (by rw [hmeant]))) (by decide)

end TrafficControl
