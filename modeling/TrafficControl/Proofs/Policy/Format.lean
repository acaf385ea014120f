import TrafficControl.Policy.Document
import TrafficControl.Proofs.Json.Edits

/-!
# The format of policy documents

Every document whose floating-point numbers are finite is read back from what is written for it, and
what is read does not change when records of the document are edited in a way that does not show
(`Document.reads_and_ignoresEdits`). The first part goes through the types of the document one by
one, from the leaves up; the second one holds of every codec.
-/

namespace TrafficControl

/-! ## Names out of fixed sets -/

theorem AccessMode.reads_codec (m : AccessMode) : codec.Reads m :=
  .enumeration (by decide) (by cases m <;> decide)

theorem MissingVariable.reads_codec (m : MissingVariable) : codec.Reads m :=
  .enumeration (by decide) (by cases m <;> decide)

theorem Comparison.reads_codec (c : Comparison) : codec.Reads c :=
  .enumeration (by decide) (by cases c <;> decide)

theorem BreakLevel.reads_codec (l : BreakLevel) : codec.Reads l :=
  .enumeration (by decide) (by cases l <;> decide)

theorem WindowKind.reads_codec (k : WindowKind) : codec.Reads k :=
  .enumeration (by decide) (by cases k <;> decide)

theorem LaneFallback.reads_codec (f : LaneFallback) : codec.Reads f :=
  .enumeration (by decide) (by cases f <;> decide)

theorem UnitPolicy.reads_codec (p : UnitPolicy) : codec.Reads p :=
  .enumeration (by decide) (by cases p <;> decide)

theorem Balancing.reads_codec (b : Balancing) : codec.Reads b :=
  .enumeration (by decide) (by cases b <;> decide)

/-! ## Spaces and clusters -/

theorem reads_optionalText (o : Option String) : Codec.string.option.Reads o :=
  .option (fun _ _ => .string _) fun _ => nofun

theorem reads_texts (ss : List String) : Codec.string.list.Reads ss := .list fun _ _ => .string _

theorem Cell.reads_codec (c : Cell) : codec.Reads c :=
  .imap (.record (by decide) (.cons (.string c.code) (.cons (reads_optionalText c.name)
    (.one c.accessMode.reads_codec)))) rfl

theorem LiveUnit.reads_codec (u : LiveUnit) : codec.Reads u :=
  .imap (.record (by decide) (.cons (.string u.code) (.cons (reads_optionalText u.name)
    (.cons u.accessMode.reads_codec (.one (.list fun c _ => c.reads_codec)))))) rfl

theorem SlotRange.reads_codec (r : SlotRange) : codec.Reads r :=
  .imap (.record (by decide) (.cons (.word64 r.first) (.one (.word64 r.last)))) rfl

theorem UnitRoute.reads_codec (r : UnitRoute) : codec.Reads r :=
  .imap (.record (by decide) (.cons (.string r.unit) (.cons (reads_texts r.allows)
    (.one (.list fun s _ => s.reads_codec))))) rfl

theorem UnitRule.reads_codec (r : UnitRule) : codec.Reads r :=
  .imap (.record (by decide) (.cons (.string r.id) (.cons (reads_optionalText r.name)
    (.cons (.word64 r.modulo) (.cons r.missingVariable.reads_codec
    (.one (.list fun t _ => t.reads_codec))))))) rfl

theorem UnitHost.reads_codec (h : UnitHost) : codec.Reads h :=
  .imap (.record (by decide) (.cons (.string h.host) (.one (.string h.unit)))) rfl

theorem LiveHost.reads_codec (h : LiveHost) : codec.Reads h :=
  .imap (.record (by decide) (.cons (.string h.host)
    (.one (.list fun u _ => u.reads_codec)))) rfl

theorem LiveSpec.reads_codec (s : LiveSpec) : codec.Reads s :=
  .imap (.record (by decide) (.cons (.list fun u _ => u.reads_codec)
    (.cons (.list fun r _ => r.reads_codec) (.cons (.list fun h _ => h.reads_codec)
    (.one (reads_optionalText s.center)))))) rfl

theorem LiveSpace.reads_codec (s : LiveSpace) : codec.Reads s :=
  .imap (.record (by decide) (.cons (.string s.id) (.cons (reads_optionalText s.name)
    (.one s.spec.reads_codec)))) rfl

theorem Lane.reads_codec (l : Lane) : codec.Reads l :=
  .imap (.record (by decide) (.cons (.string l.code) (.cons (reads_optionalText l.name)
    (.one (.bool l.isDefault))))) rfl

theorem LaneHost.reads_codec (h : LaneHost) : codec.Reads h :=
  .imap (.record (by decide) (.one (.string h.host))) rfl

theorem LaneSpace.reads_codec (s : LaneSpace) : codec.Reads s :=
  .imap (.record (by decide) (.cons (.string s.id) (.cons (.bool s.isDefault)
    (.cons (.list fun l _ => l.reads_codec) (.one (.list fun h _ => h.reads_codec)))))) rfl

theorem Database.reads_codec (d : Database) : codec.Reads d :=
  .imap (.record (by decide) (.cons (.string d.name) (.cons (reads_texts d.addresses)
    (.one d.accessMode.reads_codec)))) rfl

/-! ## Bundles and services -/

theorem Condition.reads_codec (c : Condition) : codec.Reads c :=
  .imap (.record (by decide) (.cons (.string c.kind) (.cons (.string c.key)
    (.cons c.comparison.reads_codec (.one (reads_texts c.values)))))) rfl

theorem RateWindow.reads_codec (w : RateWindow) : codec.Reads w :=
  .imap (.record (by decide) (.cons (.word32 w.threshold) (.one (.word64 w.millis)))) rfl

theorem RatePolicy.reads_codec {p : RatePolicy} (h : p.burstSeconds.isFinite = true) :
    codec.Reads p :=
  .imap (.record (by decide) (.cons (.string p.name) (.cons (.word64 p.version)
    (.cons (.list fun w _ => w.reads_codec) (.cons (.word64 p.maxWaitMillis)
    (.cons (.double h) (.one (.list fun c _ => c.reads_codec)))))))) rfl

theorem Degrade.reads_codec (d : Degrade) : codec.Reads d :=
  .imap (.record (by decide) (.cons (.word16 d.responseCode)
    (.cons (reads_optionalText d.contentType) (.cons (reads_optionalText d.responseBody)
    (.one (.table fun _ _ => .string _)))))) rfl

/-- Whether the rates of a policy are finite. -/
structure BreakPolicy.IsFinite (p : BreakPolicy) : Prop where
  failureRate : p.failureRate.isFinite = true
  slowRate : p.slowRate.isFinite = true

theorem BreakPolicy.reads_codec {p : BreakPolicy} (h : p.IsFinite) : codec.Reads p :=
  .imap (.record (by decide) (.cons (.string p.name) (.cons (.word64 p.version)
    (.cons p.level.reads_codec (.cons p.windowKind.reads_codec (.cons (.word32 p.windowSize)
    (.cons (.word32 p.minimumCalls) (.cons (.single h.failureRate) (.cons (.single h.slowRate)
    (.cons (.word64 p.slowMillis) (.cons (.word64 p.waitMillis) (.cons (.word32 p.trialCalls)
    (.cons (reads_texts p.recordErrors) (.cons (reads_texts p.ignoreErrors)
    (.one (.option (fun d _ => d.reads_codec) fun _ => nofun)))))))))))))))) rfl

theorem LanePolicy.reads_codec (p : LanePolicy) : codec.Reads p :=
  .imap (.record (by decide) (.cons (.string p.space) (.cons (.table fun _ _ => .string _)
    (.cons p.fallback.reads_codec (.one (reads_optionalText p.fallbackLane)))))) rfl

theorem LivePolicy.reads_codec (p : LivePolicy) : codec.Reads p :=
  .imap (.record (by decide) (.cons p.unitPolicy.reads_codec (.cons (.bool p.writeProtect)
    (.one (reads_optionalText p.rule))))) rfl

theorem BalancePolicy.reads_codec (p : BalancePolicy) : codec.Reads p :=
  .imap (.record (by decide) (.one p.balancing.reads_codec)) rfl

theorem RetryPolicy.reads_codec (p : RetryPolicy) : codec.Reads p :=
  .imap (.record (by decide) (.cons (.word32 p.retries) (.cons (.word64 p.intervalMillis)
    (.one (reads_texts p.errorCodes))))) rfl

/-- Whether the floating-point numbers of a bundle are finite. -/
structure Bundle.IsFinite (b : Bundle) : Prop where
  breaks : ∀ p ∈ b.breaks, p.IsFinite
  rates : ∀ p ∈ b.rates, p.burstSeconds.isFinite = true

theorem Bundle.reads_codec {b : Bundle} (h : b.IsFinite) : codec.Reads b :=
  .imap (.record (by decide) (.cons (reads_optionalText b.id)
    (.cons (.option (fun p _ => p.reads_codec) fun _ => nofun)
    (.cons (.table fun p _ => p.2.reads_codec) (.cons (.list fun p _ => p.reads_codec)
    (.cons (.list fun p hp => BreakPolicy.reads_codec (h.breaks p hp))
    (.cons (.list fun p hp => RatePolicy.reads_codec (h.rates p hp))
    (.cons (.option (fun p _ => p.reads_codec) fun _ => nofun)
    (.one (.option (fun p _ => p.reads_codec) fun _ => nofun)))))))))) rfl

theorem reads_optionalBundle {o : Option Bundle} (h : ∀ b ∈ o, b.IsFinite) :
    Bundle.codec.option.Reads o :=
  .option (fun b hb => Bundle.reads_codec (h b hb)) fun _ => nofun

theorem ServiceMethod.reads_codec {m : ServiceMethod} (h : ∀ b ∈ m.bundle, b.IsFinite) :
    codec.Reads m :=
  .imap (.record (by decide) (.cons (.string m.name) (.one (reads_optionalBundle h)))) rfl

theorem ServicePath.reads_codec {p : ServicePath} (h : ∀ b ∈ p.bundles, b.IsFinite) :
    codec.Reads p := by
  have hown : ∀ b ∈ p.bundle, b.IsFinite := fun b hb =>
    h b (List.mem_append_left _ (Option.mem_toList.2 hb))
  have hmethods : ∀ m ∈ p.methods, ∀ b ∈ m.bundle, b.IsFinite := fun m hm b hb =>
    h b (List.mem_append_right _ (List.mem_filterMap.2 ⟨m, hm, hb⟩))
  exact .imap (.record (by decide) (.cons (.string p.path) (.cons (reads_optionalBundle hown)
    (.one (.list fun m hm => ServiceMethod.reads_codec (hmethods m hm)))))) rfl

theorem Service.reads_codec {s : Service} (h : ∀ b ∈ s.bundles, b.IsFinite) : codec.Reads s := by
  have hown : ∀ b ∈ s.bundle, b.IsFinite := fun b hb =>
    h b (List.mem_append_left _ (Option.mem_toList.2 hb))
  have hpaths : ∀ p ∈ s.paths, ∀ b ∈ p.bundles, b.IsFinite := fun p hp b hb =>
    h b (List.mem_append_right _ (List.mem_flatMap.2 ⟨p, hp, hb⟩))
  exact .imap (.record (by decide) (.cons (.string s.name) (.cons (reads_optionalBundle hown)
    (.cons (.list fun p hp => ServicePath.reads_codec (hpaths p hp))
    (.one (reads_texts s.owners)))))) rfl

/-! ## Documents -/

namespace Document

/-- Whether the floating-point numbers of a document are finite. -/
def IsFinite (d : Document) : Prop := ∀ s ∈ d.services, ∀ b ∈ s.bundles, b.IsFinite

theorem reads_codec {d : Document} (h : d.IsFinite) : codec.Reads d :=
  .imap (.record (by decide) (.cons (.list fun s _ => s.reads_codec)
    (.cons (.list fun s _ => s.reads_codec) (.cons (.list fun s hs => Service.reads_codec (h s hs))
    (.one (.list fun d _ => d.reads_codec)))))) rfl

/-- A document whose floating-point numbers are finite is read back, and edits of its records that
do not show are not seen by any reader. -/
theorem reads_and_ignoresEdits :
    (∀ d : Document, d.IsFinite → codec.decode (codec.encode d) = some d) ∧
      ∀ j j' : Json, Relation.ReflTransGen codec.Edit j j' → codec.decode j' = codec.decode j :=
  ⟨fun _ => reads_codec, fun _ _ => Codec.decode_eq_of_edits⟩

end Document

/-! ## A document and its edits -/

namespace Edited

def policy : BreakPolicy := { name := "slow", failureRate := 12.5 }

def document : Document where
  services := [{ name := "orders", bundle := some { breaks := [policy] } }]

theorem isFinite_document : document.IsFinite := by
  intro s hs b hb
  obtain rfl := List.mem_singleton.1 hs
  obtain rfl := List.mem_singleton.1 hb
  refine ⟨fun p hp => ?_, nofun⟩
  obtain rfl := List.mem_singleton.1 hp
  exact ⟨by decide, by decide⟩

/-- A document with one policy, which is given as a record of the members given. -/
def around (members : List (Option String × Json)) : Json :=
  .record [(some "laneSpaces", .list []), (some "services", .list [.record [
    (some "name", .string "orders"),
    (some "policy", .record [(some "circuitBreakPolicies", .list [.record members])])]])]

theorem edit_around {members members' : List (Option String × Json)}
    (h : BreakPolicy.codec.Edit (.record members) (.record members')) :
    Document.codec.Edit (around members) (around members') := by
  have hbundle : Bundle.codec.Edit
      (.record [(some "circuitBreakPolicies", .list [.record members])])
      (.record [(some "circuitBreakPolicies", .list [.record members'])]) :=
    .imap (@Codec.Edit.member _ _ _ _ _ [] [] _ _
      (.tail (by decide) (.tail (by decide) (.tail (by decide) (.tail (by decide)
        (.head (by decide))))))
      (@Codec.Edit.item _ _ [] [] _ _ h))
  have hservice : Service.codec.Edit
      (.record [(some "name", .string "orders"),
        (some "policy", .record [(some "circuitBreakPolicies", .list [.record members])])])
      (.record [(some "name", .string "orders"),
        (some "policy", .record [(some "circuitBreakPolicies", .list [.record members'])])]) :=
    .imap (@Codec.Edit.member _ _ _ _ _ [_] [] _ _ (.tail (by decide) (.head (by decide)))
      (.option hbundle))
  exact .imap (@Codec.Edit.member _ _ _ _ _ [_] [] _ _
    (.tail (by decide) (.tail (by decide) (.head (by decide))))
    (@Codec.Edit.item _ _ [] [] _ _ hservice))

def name : Option String × Json := (some "name", .string "slow")

def failureRate : Option String × Json := (some "failureRateThreshold", .number (.real 12.5))

/-- The default, as a whole number. -/
def slowRate : Option String × Json := (some "slowCallRateThreshold", .number (.natural 100))

/-- No member of a policy. -/
def note : Option String × Json := (some "note", .list [.null])

/-- The policy gets a note, loses a default, and its name and rate change places. -/
theorem edits :
    Relation.ReflTransGen Document.codec.Edit (around [name, failureRate, slowRate])
      (around [note, failureRate, name]) := by
  have hadd : BreakPolicy.codec.Edit (.record [name, failureRate, slowRate])
      (.record [note, name, failureRate, slowRate]) :=
    .imap (@Codec.Edit.add _ _ [] _ _ _ (by decide))
  have hremove : BreakPolicy.codec.Edit (.record [note, name, failureRate, slowRate])
      (.record [note, name, failureRate]) :=
    .imap (@Codec.Edit.remove _ _ _ _ _ _ [note, name, failureRate] [] _
      (.tail (by decide) (.tail (by decide) (.tail (by decide) (.tail (by decide)
        (.tail (by decide) (.tail (by decide) (.tail (by decide) (.head (by decide)))))))))
      rfl (by decide) (by decide))
  have hpermute : BreakPolicy.codec.Edit (.record [note, name, failureRate])
      (.record [note, failureRate, name]) :=
    .imap (.permute ((List.Perm.swap failureRate name []).cons note))
  exact ((Relation.ReflTransGen.single (edit_around hadd)).tail (edit_around hremove)).tail
    (edit_around hpermute)

end Edited

open Edited in
/-- A document with a rate of twelve and a half percent is read back, and the edits of a policy do
not change what is read. -/
theorem reads_and_ignoresEdits_edited :
    document.IsFinite ∧
      Document.codec.decode (Document.codec.encode document) = some document ∧
      Document.codec.decode (around [note, failureRate, name]) =
        Document.codec.decode (around [name, failureRate, slowRate]) :=
  ⟨isFinite_document, Document.reads_and_ignoresEdits.1 document isFinite_document,
    Document.reads_and_ignoresEdits.2 _ _ edits⟩

end TrafficControl
