import TrafficControl.Proofs.Breaker.Matching
import TrafficControl.Proofs.Engine.Lookups
import TrafficControl.Proofs.Limit.Matching

/-!
# Engines that match

Two engines match on a set of keys if they have the same policy, and the same breakers and limiters
under these keys (`Engine.Matches`). Where all that a call asks for has such keys, both engines give
the same answer, and match again (`Engine.Matches.admission`). Where nothing that a call asks for
has such a key, what one engine does for it goes unnoticed (`Engine.Matches.admission_foreign`).
-/

namespace TrafficControl

variable {K L : String → Prop} {B B' C C' : Nat → Nat → Prop} {n n' now : Nat}

/-- Whether two requests for admission came to the same. -/
inductive AdmitResult.Alike (B : Nat → Nat → Prop) : AdmitResult → AdmitResult → Prop where
  | admitted {a a' : Admission} (held : NumberedAlike B a.held a'.held) :
      Alike B (.admitted a) (.admitted a')
  | refused (f : Fault) : Alike B (.refused f) (.refused f)

namespace Engine

theorem forall_guards (e : Engine) {i : Invocation} (P : String → Prop)
    (h : ∀ g ∈ guarded i, P g.1.uri) :
    ∀ g ∈ (if e.settings.breakers.enabled then guards i else []), P g.1 := by
  intro g hg
  split at hg
  · rw [guards_eq] at hg
    obtain ⟨target, htarget, rfl⟩ := List.mem_map.1 hg
    exact h target htarget
  · exact nomatch hg

theorem forall_limits (e : Engine) {i : Invocation} (P : String → Prop)
    (h : ∀ p ∈ limits i, P (limiterKey i.service.name p.name)) :
    ∀ p ∈ (if e.settings.limits.enabled then limits i else []),
      P (limiterKey i.service.name p.name) := by
  intro p hp
  split at hp
  · exact h p hp
  · exact nomatch hp

/-- Whether two engines have the same policy, and the same breakers and limiters under the keys
given. -/
structure Matches (K L : String → Prop) (B C : Nat → Nat → Prop) (e e' : Engine) : Prop where
  settings : e'.settings = e.settings
  store : e'.store = e.store
  breakers : e.breakers.Matches K B e'.breakers
  limiters : e.limiters.shelf.Matches L C e'.limiters.shelf

namespace Matches

variable {e e' : Engine}

theorem withBreakers (h : e.Matches K L B C e') {r r' : BreakerRegistry} (hr : r.Matches K B' r') :
    { e with breakers := r }.Matches K L B' C { e' with breakers := r' } :=
  ⟨h.settings, h.store, hr, h.limiters⟩

theorem withLimiters (h : e.Matches K L B C e') {r r' : LimiterRegistry}
    (hr : r.shelf.Matches L C' r'.shelf) :
    { e with limiters := r }.Matches K L B C' { e' with limiters := r' } :=
  ⟨h.settings, h.store, h.breakers, hr⟩

theorem abandon (h : e.Matches K L B C e') {a a' : Admission}
    (hheld : NumberedAlike B a.held a'.held) :
    e.breakers.shelf.Grows B (e.abandon a).breakers.shelf B ∧
      (e.abandon a).Matches K L B C (e'.abandon a') := by
  obtain ⟨hgrows, hback⟩ := h.breakers.giveBack hheld
  exact ⟨hgrows, h.withBreakers hback⟩

theorem abandon_foreign (h : e.Matches K L B C e') {a : Admission}
    (hheld : ∀ q ∈ a.held, e.breakers.shelf.IsForeign B q.1) :
    e.breakers.shelf.Grows B (e.abandon a).breakers.shelf B ∧
      (e.abandon a).Matches K L B C e' := by
  obtain ⟨hgrows, hback⟩ := h.breakers.giveBack_foreign hheld
  exact ⟨hgrows, h.withBreakers hback⟩

/-- Both engines get permits of the same breakers, or are refused by the same one. -/
theorem breakerPermits (h : e.Matches K L B C e') (i : Invocation) (now : Nat)
    (held held' : Admission) (hheld : NumberedAlike B held.held held'.held)
    {gs : List (String × BreakPolicy)} (hgs : ∀ g ∈ gs, K g.1) :
    ∃ B', e.breakers.shelf.Grows B (e.breakerPermits i now held gs).2.1.breakers.shelf B' ∧
      (e.breakerPermits i now held gs).2.1.Matches K L B' C
        (e'.breakerPermits i now held' gs).2.1 ∧
      (e.breakerPermits i now held gs).1.Alike B' (e'.breakerPermits i now held' gs).1 ∧
      (e'.breakerPermits i now held' gs).2.2 = (e.breakerPermits i now held gs).2.2 := by
  induction gs generalizing e e' B held held' with
  | nil => exact ⟨B, .refl _ B, h, .admitted hheld, rfl⟩
  | cons g gs ih =>
    obtain ⟨uri, p⟩ := g
    have hrest : ∀ g ∈ gs, K g.1 := fun g hg => hgs g (List.mem_cons_of_mem _ hg)
    have halike := h.breakers.getOrCreate (hgs _ List.mem_cons_self) i.service.name p now
    rw [Engine.breakerPermits, Engine.breakerPermits]
    generalize hgot : e.breakers.getOrCreate i.service.name uri p now = got,
      hgot' : e'.breakers.getOrCreate i.service.name uri p now = got' at halike
    cases halike with
    | error error => exact ih h held held' hheld hrest
    | @ok n n' made made' B₁ hgrows hnumber hshelf =>
      have hagree := h.breakers.got hgot hgot' hshelf
      obtain ⟨answer, hanswer, hanswer'⟩ := hagree.acquire hnumber now
      have hgrows₁ := made.grows_call n now .acquire B₁
      have hcalled := hagree.call hnumber now .acquire
      -- A breaker that was made brings its numbers into the correspondence, and takes none out.
      have hheld₁ := hheld.mono hgrows.keeps
      rw [BreakerRegistry.call, BreakerRegistry.call] at hcalled
      rw [BreakerRegistry.call] at hgrows₁
      dsimp only
      generalize made.acquire n now = asked, made'.acquire n' now = asked' at *
      obtain ⟨attempt, r⟩ := asked
      obtain ⟨attempt', r'⟩ := asked'
      obtain rfl : attempt = _ := hanswer
      obtain rfl : attempt' = _ := hanswer'
      cases answer with
      | none =>
        obtain ⟨hgrows₂, hback⟩ := hcalled.giveBack hheld₁
        exact ⟨B₁, (hgrows.trans hgrows₁).trans hgrows₂, h.withBreakers hback, .refused _, rfl⟩
      | some permit =>
        have hheld₂ :
            NumberedAlike B₁ (held.held ++ [(n, permit)]) (held'.held ++ [(n', permit)]) :=
          List.rel_append hheld₁ (.cons ⟨hnumber, rfl⟩ .nil)
        obtain ⟨B', hgrows₂, hmatches, halike, hi⟩ := ih (h.withBreakers hcalled)
          ⟨held.held ++ [(n, permit)]⟩ ⟨held'.held ++ [(n', permit)]⟩ hheld₂ hrest
        exact ⟨B', (hgrows.trans hgrows₁).trans hgrows₂, hmatches, halike, hi⟩

/-- The first engine gets permits of foreign breakers, or is refused by one. -/
theorem breakerPermits_foreign (h : e.Matches K L B C e') (i : Invocation) (now : Nat)
    (held : Admission) (hheld : ∀ q ∈ held.held, e.breakers.shelf.IsForeign B q.1)
    {gs : List (String × BreakPolicy)} (hgs : ∀ g ∈ gs, ¬K g.1) :
    let result := e.breakerPermits i now held gs
    e.breakers.shelf.Grows B result.2.1.breakers.shelf B ∧ result.2.1.Matches K L B C e' ∧
      ∀ q ∈ result.1.held, result.2.1.breakers.shelf.IsForeign B q.1 := by
  induction gs generalizing e held with
  | nil => exact ⟨.refl _ B, h, hheld⟩
  | cons g gs ih =>
    obtain ⟨uri, p⟩ := g
    have hrest : ∀ g ∈ gs, ¬K g.1 := fun g hg => hgs g (List.mem_cons_of_mem _ hg)
    have hk : ¬K uri := hgs _ List.mem_cons_self
    rw [Engine.breakerPermits]
    cases hgot : e.breakers.getOrCreate i.service.name uri p now with
    | error error => exact ih h held hheld hrest
    | ok got =>
      obtain ⟨n, made⟩ := got
      obtain ⟨hgrows, hagree, hforeign⟩ := h.breakers.getOrCreate_foreign hk hgot
      have hgrows₁ := made.grows_call n now .acquire B
      have hcalled := hagree.call_foreign hforeign now .acquire
      have hheld₁ : ∀ q ∈ held.held, (made.acquire n now).2.shelf.IsForeign B q.1 :=
        fun q hq => (hheld q hq).grows (hgrows.trans hgrows₁)
      have hforeign₁ : (made.acquire n now).2.shelf.IsForeign B n := hforeign.grows hgrows₁
      have hback := hcalled.giveBack_foreign hheld₁
      rw [BreakerRegistry.call] at hcalled hgrows₁ hback
      dsimp only
      generalize made.acquire n now = asked at *
      obtain ⟨permit | _ | _, r⟩ := asked
      · obtain ⟨hgrows₂, hmatches, hpermits⟩ := ih (e := { e with breakers := r })
          (h.withBreakers hcalled) ⟨held.held ++ [(n, permit)]⟩
          (fun q hq => (List.mem_append.1 hq).elim (hheld₁ q) fun hnew => by
            rw [List.mem_singleton.1 hnew]
            exact hforeign₁) hrest
        exact ⟨(hgrows.trans hgrows₁).trans hgrows₂, hmatches, hpermits⟩
      · exact ⟨(hgrows.trans hgrows₁).trans hback.1, h.withBreakers hback.2,
          fun q hq => absurd hq List.not_mem_nil⟩
      · exact ⟨(hgrows.trans hgrows₁).trans hback.1, h.withBreakers hback.2,
          fun q hq => absurd hq List.not_mem_nil⟩

/-- Both engines have the same limiters for a call. -/
theorem limitersFor (h : e.Matches K L B C e') (service : String) (now : Nat)
    {ps : List RatePolicy} (hps : ∀ p ∈ ps, L (limiterKey service p.name)) :
    ∃ C', e.limiters.shelf.Grows C (e.limitersFor service now ps).2.limiters.shelf C' ∧
      (e.limitersFor service now ps).2.Matches K L B C' (e'.limitersFor service now ps).2 ∧
      NumberedAlike C' (e.limitersFor service now ps).1 (e'.limitersFor service now ps).1 := by
  induction ps generalizing e e' C with
  | nil => exact ⟨C, .refl _ C, h, .nil⟩
  | cons p ps ih =>
    have hrest : ∀ p ∈ ps, L (limiterKey service p.name) :=
      fun p hp => hps p (List.mem_cons_of_mem _ hp)
    have halike := LimiterRegistry.getsAlike h.limiters (hps p List.mem_cons_self) now
    have hwait : e'.waitLimit p = e.waitLimit p := by rw [waitLimit, h.settings, waitLimit]
    rw [Engine.limitersFor, Engine.limitersFor, hwait]
    generalize e.limiters.getOrCreate service p now = got,
      e'.limiters.getOrCreate service p now = got' at halike
    cases halike with
    | error error => exact ih h hrest
    | ok hgrows hnumber hagree =>
      obtain ⟨C', hgrows₁, hmatches, hfound⟩ := ih (h.withLimiters hagree) hrest
      exact ⟨C', hgrows.trans hgrows₁, hmatches, .cons ⟨hgrows₁.keeps hnumber, rfl⟩ hfound⟩

/-- The first engine has foreign limiters for a call. -/
theorem limitersFor_foreign (h : e.Matches K L B C e') (service : String) (now : Nat)
    {ps : List RatePolicy} (hps : ∀ p ∈ ps, ¬L (limiterKey service p.name)) :
    let result := e.limitersFor service now ps
    e.limiters.shelf.Grows C result.2.limiters.shelf C ∧ result.2.Matches K L B C e' ∧
      ∀ q ∈ result.1, result.2.limiters.shelf.IsForeign C q.1 := by
  induction ps generalizing e with
  | nil => exact ⟨.refl _ C, h, fun q hq => absurd hq List.not_mem_nil⟩
  | cons p ps ih =>
    have hrest : ∀ p ∈ ps, ¬L (limiterKey service p.name) :=
      fun p hp => hps p (List.mem_cons_of_mem _ hp)
    rw [Engine.limitersFor]
    cases hgot : e.limiters.getOrCreate service p now with
    | error error => exact ih h hrest
    | ok got =>
      obtain ⟨n, made⟩ := got
      obtain ⟨hgrows, hagree, hforeign⟩ :=
        LimiterRegistry.getOrCreate_foreign h.limiters (hps p List.mem_cons_self) hgot
      obtain ⟨hgrows₁, hmatches, hfound⟩ := ih (e := { e with limiters := made })
        (h.withLimiters hagree) hrest
      refine ⟨hgrows.trans hgrows₁, hmatches, fun q hq => ?_⟩
      rcases List.mem_cons.1 hq with rfl | hq
      · exact hforeign.grows hgrows₁
      · exact hfound q hq

/-- Both engines are granted permits by the same limiters, after the same time. -/
theorem limiterPermits (h : e.Matches K L B C e') (pacing : Pacing) (now : Nat)
    {found found' : List (Nat × Int)}
    (hfound : NumberedAlike C found found') :
    (e.limiterPermits pacing now found).2.2.Matches K L B C
        (e'.limiterPermits pacing now found').2.2 ∧
      (e'.limiterPermits pacing now found').1 = (e.limiterPermits pacing now found).1 ∧
      (e'.limiterPermits pacing now found').2.1 = (e.limiterPermits pacing now found).2.1 := by
  induction hfound generalizing e e' now with
  | nil => exact ⟨h, rfl, rfl⟩
  | @cons q q' found found' hq _ ih =>
    obtain ⟨n, timeout⟩ := q
    obtain ⟨n', timeout'⟩ := q'
    obtain ⟨hn, rfl⟩ := hq
    obtain ⟨l, hl, hl'⟩ := h.limiters.object hn
    have hasked : { e with limiters := e.limiters.update n (l.acquire 1 now timeout).2 }.Matches
        K L B C { e' with limiters := e'.limiters.update n' (l.acquire 1 now timeout).2 } :=
      h.withLimiters (h.limiters.put hn _)
    have hlimiter : e.limiters.limiter? n = some l := hl
    have hlimiter' : e'.limiters.limiter? n' = some l := hl'
    rw [limiterPermits_cons, limiterPermits_cons, hlimiter, hlimiter']
    dsimp only
    cases (l.acquire 1 now timeout).1 with
    | none => exact ⟨hasked, rfl, rfl⟩
    | some wait => exact ih hasked _

/-- The first engine asks foreign limiters for permits. -/
theorem limiterPermits_foreign (h : e.Matches K L B C e') (pacing : Pacing) (now : Nat)
    {found : List (Nat × Int)} (hfound : ∀ q ∈ found, e.limiters.shelf.IsForeign C q.1) :
    (e.limiterPermits pacing now found).2.2.Matches K L B C e' := by
  induction found generalizing e now with
  | nil => exact h
  | cons q found ih =>
    obtain ⟨n, timeout⟩ := q
    have hforeign : e.limiters.shelf.IsForeign C n := hfound _ List.mem_cons_self
    rw [limiterPermits_cons]
    cases hl : e.limiters.limiter? n with
    | none => exact ih h now fun q hq => hfound q (List.mem_cons_of_mem _ hq)
    | some l =>
      have hgrows := e.limiters.shelf.grows_put C n (l.acquire 1 now timeout).2
      have hasked : { e with limiters := e.limiters.update n (l.acquire 1 now timeout).2 }.Matches
          K L B C e' :=
        h.withLimiters (h.limiters.put_foreign hforeign _)
      dsimp only
      cases (l.acquire 1 now timeout).1 with
      | none => exact hasked
      | some wait =>
        exact ih hasked _ fun q hq => (hfound q (List.mem_cons_of_mem _ hq)).grows hgrows

/-- Both engines give the same answer, at the same instant, to a call that asks for what has keys of
the ones given. -/
theorem admission (h : e.Matches K L B C e') {i : Invocation}
    (hbreakers : ∀ g ∈ guarded i, K g.1.uri)
    (hlimiters : ∀ p ∈ limits i, L (limiterKey i.service.name p.name)) (pacing : Pacing)
    (now : Nat) :
    let result := e.admission i pacing now
    let result' := e'.admission i pacing now
    ∃ B' C', e.breakers.shelf.Grows B result.2.2.1.breakers.shelf B' ∧
      result.2.2.1.Matches K L B' C' result'.2.2.1 ∧ result.1.Alike B' result'.1 ∧
      result'.2.1 = result.2.1 := by
  obtain ⟨B', hgrows, hmatches, halike, hi⟩ :=
    h.breakerPermits i now {} {} .nil (forall_guards e K hbreakers)
  unfold Engine.admission
  dsimp only
  rw [h.settings]
  rcases hresult : e.breakerPermits i now {} _ with ⟨r, e₁, i₁⟩
  rcases hresult' : e'.breakerPermits i now {} _ with ⟨r', e₁', i₁'⟩
  rw [hresult] at hgrows
  rw [hresult, hresult'] at hmatches halike hi
  obtain rfl : i₁' = i₁ := hi
  cases halike with
  | refused f => exact ⟨B', C, hgrows, hmatches, .refused f, rfl⟩
  | @admitted a a' hheld =>
    -- The breakers let the call through as it is, so both engines ask the same limiters.
    rw [guards_enabled] at hresult
    obtain ⟨rfl, -⟩ := held_breakerPermits hresult
    dsimp only at hgrows hmatches ⊢
    rw [hmatches.settings]
    obtain ⟨C', -, hfor, hfound⟩ :=
      hmatches.limitersFor i₁'.service.name now (forall_limits e₁ L hlimiters)
    have hlimited := hfor.limiterPermits pacing now hfound
    have hbreakers₁ := e₁.breakers_limitersFor i₁'.service.name now
      (if e₁.settings.limits.enabled then limits i₁' else [])
    generalize e₁.limitersFor i₁'.service.name now _ = found at hlimited hbreakers₁ ⊢
    generalize e₁'.limitersFor i₁'.service.name now _ = found' at hlimited ⊢
    have hbreakers₂ := found.2.breakers_limiterPermits pacing now found.1
    generalize found.2.limiterPermits pacing now found.1 = limited at hlimited hbreakers₂ ⊢
    generalize found'.2.limiterPermits pacing now found'.1 = limited' at hlimited ⊢
    obtain ⟨granted, now₁, e₂⟩ := limited
    obtain ⟨granted', now₁', e₂'⟩ := limited'
    obtain ⟨hmatches₂, rfl, rfl⟩ := hlimited
    have hsame : e₂.breakers = e₁.breakers := hbreakers₂.trans hbreakers₁
    rw [← hsame] at hgrows
    cases granted' with
    | true => exact ⟨B', C', hgrows, hmatches₂, .admitted hheld, rfl⟩
    | false =>
      obtain ⟨hback, hmatches₃⟩ := hmatches₂.abandon hheld
      exact ⟨B', C', hgrows.trans hback, hmatches₃, .refused _, rfl⟩

/-- What the first engine does for a call that asks for nothing with keys of the ones given. -/
theorem admission_foreign (h : e.Matches K L B C e') {i : Invocation}
    (hbreakers : ∀ g ∈ guarded i, ¬K g.1.uri)
    (hlimiters : ∀ p ∈ limits i, ¬L (limiterKey i.service.name p.name)) (pacing : Pacing)
    (now : Nat) :
    let result := e.admission i pacing now
    e.breakers.shelf.Grows B result.2.2.1.breakers.shelf B ∧ result.2.2.1.Matches K L B C e' ∧
      ∀ q ∈ result.1.held, result.2.2.1.breakers.shelf.IsForeign B q.1 := by
  obtain ⟨hgrows, hmatches, hheld⟩ := h.breakerPermits_foreign i now {}
    (fun q hq => absurd hq List.not_mem_nil) (forall_guards e (¬K ·) hbreakers)
  unfold Engine.admission
  dsimp only
  rcases hresult : e.breakerPermits i now {} _ with ⟨a | f | _, e₁, i₁⟩
  · rw [hresult] at hgrows hmatches hheld
    rw [guards_enabled] at hresult
    obtain ⟨rfl, -⟩ := held_breakerPermits hresult
    dsimp only at hgrows hmatches hheld ⊢
    obtain ⟨-, hfor, hfound⟩ :=
      hmatches.limitersFor_foreign i₁.service.name now (forall_limits e₁ (¬L ·) hlimiters)
    have hlimited := hfor.limiterPermits_foreign pacing now hfound
    have hbreakers₁ := e₁.breakers_limitersFor i₁.service.name now
      (if e₁.settings.limits.enabled then limits i₁ else [])
    generalize e₁.limitersFor i₁.service.name now _ = found at hlimited hbreakers₁ ⊢
    have hbreakers₂ := found.2.breakers_limiterPermits pacing now found.1
    generalize found.2.limiterPermits pacing now found.1 = limited at hlimited hbreakers₂ ⊢
    obtain ⟨granted, now₁, e₂⟩ := limited
    have hsame : e₂.breakers = e₁.breakers := hbreakers₂.trans hbreakers₁
    have hheld₂ : ∀ q ∈ a.held, e₂.breakers.shelf.IsForeign B q.1 := by
      rw [hsame]
      exact hheld
    rw [← hsame] at hgrows
    cases granted with
    | true => exact ⟨hgrows, hlimited, hheld₂⟩
    | false =>
      obtain ⟨hback, hmatches₃⟩ := hlimited.abandon_foreign hheld₂
      exact ⟨hgrows.trans hback, hmatches₃, fun q hq => absurd hq List.not_mem_nil⟩
  · rw [hresult] at hgrows hmatches
    exact ⟨hgrows, hmatches, fun q hq => absurd hq List.not_mem_nil⟩
  · rw [hresult] at hgrows hmatches
    exact ⟨hgrows, hmatches, fun q hq => absurd hq List.not_mem_nil⟩

/-- Breakers that correspond are told how a call ended. -/
theorem record (h : e.Matches K L B C e') {held held' : List (Nat × Permit)}
    (hheld : NumberedAlike B held held') (ending : Ending) (now : Nat) :
    e.breakers.shelf.Grows B (e.record ending now (held.map (·.1))).2.breakers.shelf B ∧
      (e.record ending now (held.map (·.1))).2.Matches K L B C
        (e'.record ending now (held'.map (·.1))).2 := by
  induction hheld generalizing e e' with
  | nil => exact ⟨.refl _ B, h⟩
  | @cons q q' held held' hq _ ih =>
    have hwhole := h.breakers.reliable.complete q.1 ending.micros ending.cause? now
    have hwhole' := h.breakers.reliable'.complete q'.1 ending.micros ending.cause? now
    have hgrows := e.breakers.grows_call q.1 now (.complete ending.micros ending.cause?) B
    have hcalled := h.breakers.call hq.1 now (.complete ending.micros ending.cause?)
    rw [BreakerRegistry.call] at hgrows
    rw [BreakerRegistry.call, BreakerRegistry.call] at hcalled
    rw [List.map_cons, List.map_cons, record_eq, record_eq]
    generalize e.breakers.complete q.1 ending.micros ending.cause? now = told,
      e'.breakers.complete q'.1 ending.micros ending.cause? now = told' at *
    obtain ⟨whole, r⟩ := told
    obtain ⟨whole', r'⟩ := told'
    obtain rfl : whole = true := hwhole
    obtain rfl : whole' = true := hwhole'
    obtain ⟨hgrows', hrest⟩ := ih (h.withBreakers hcalled)
    exact ⟨hgrows.trans hgrows', hrest⟩

/-- Foreign breakers are told how a call ended. -/
theorem record_foreign (h : e.Matches K L B C e') {held : List (Nat × Permit)}
    (hheld : ∀ q ∈ held, e.breakers.shelf.IsForeign B q.1) (ending : Ending) (now : Nat) :
    e.breakers.shelf.Grows B (e.record ending now (held.map (·.1))).2.breakers.shelf B ∧
      (e.record ending now (held.map (·.1))).2.Matches K L B C e' := by
  induction held generalizing e with
  | nil => exact ⟨.refl _ B, h⟩
  | cons q held ih =>
    have hwhole := h.breakers.reliable.complete q.1 ending.micros ending.cause? now
    have hgrows := e.breakers.grows_call q.1 now (.complete ending.micros ending.cause?) B
    have hcalled := h.breakers.call_foreign (hheld q List.mem_cons_self) now
      (.complete ending.micros ending.cause?)
    rw [BreakerRegistry.call] at hcalled hgrows
    rw [List.map_cons, record_eq]
    generalize e.breakers.complete q.1 ending.micros ending.cause? now = told at *
    obtain ⟨whole, r⟩ := told
    obtain rfl : whole = true := hwhole
    obtain ⟨hgrows', hrest⟩ := ih (e := { e with breakers := r }) (h.withBreakers hcalled)
      fun q' hq' => (hheld q' (List.mem_cons_of_mem _ hq')).grows hgrows
    exact ⟨hgrows.trans hgrows', hrest⟩

theorem complete (h : e.Matches K L B C e') {a a' : Admission}
    (hheld : NumberedAlike B a.held a'.held) (i i' : Invocation) (ending : Ending) (now : Nat) :
    e.breakers.shelf.Grows B (e.complete a i ending now).2.1.breakers.shelf B ∧
      (e.complete a i ending now).2.1.Matches K L B C (e'.complete a' i' ending now).2.1 := by
  obtain ⟨hgrows, hrecorded⟩ := h.record hheld ending now
  obtain ⟨hgrows', hback⟩ := hrecorded.abandon hheld
  rw [engine_complete, engine_complete]
  exact ⟨hgrows.trans hgrows', hback⟩

theorem complete_foreign (h : e.Matches K L B C e') {a : Admission}
    (hheld : ∀ q ∈ a.held, e.breakers.shelf.IsForeign B q.1) (i : Invocation) (ending : Ending)
    (now : Nat) :
    e.breakers.shelf.Grows B (e.complete a i ending now).2.1.breakers.shelf B ∧
      (e.complete a i ending now).2.1.Matches K L B C e' := by
  obtain ⟨hgrows, hrecorded⟩ := h.record_foreign hheld ending now
  obtain ⟨hgrows', hback⟩ := hrecorded.abandon_foreign fun q hq => (hheld q hq).grows hgrows
  rw [engine_complete]
  exact ⟨hgrows.trans hgrows', hback⟩

theorem recycle (h : e.Matches K L B C e') (s : Snapshot) :
    e.breakers.shelf.Grows B (e.recycle s).2.breakers.shelf B ∧
      (e.recycle s).2.Matches K L B C (e'.recycle s).2 := by
  refine ⟨⟨Nat.le_refl _, id, .inl⟩, h.settings, h.store, ⟨?_, ?_, ?_⟩, ?_⟩
  · rw [Engine.recycle, Engine.recycle, BreakerRegistry.shelf_recycle,
      BreakerRegistry.shelf_recycle]
    exact h.breakers.shelf.retain _
  · exact h.breakers.reliable
  · exact h.breakers.reliable'
  · rw [Engine.recycle, Engine.recycle, LimiterRegistry.shelf_recycle,
      LimiterRegistry.shelf_recycle]
    exact h.limiters.retain _

theorem apply (h : e.Matches K L B C e') (c : StoreChange) :
    (∃ error, e.apply c = .error error ∧ e'.apply c = .error error) ∨
      ∃ e₁ e₁', e.apply c = .ok e₁ ∧ e'.apply c = .ok e₁' ∧
        e.breakers.shelf.Grows B e₁.breakers.shelf B ∧ e₁.Matches K L B C e₁' := by
  unfold Engine.apply
  rw [h.store]
  cases e.store.apply c with
  | error error => exact .inl ⟨_, rfl, rfl⟩
  | ok store =>
    have hstore : { e with store }.Matches K L B C { e' with store } :=
      ⟨h.settings, rfl, h.breakers, h.limiters⟩
    refine .inr ⟨_, _, rfl, rfl, ?_⟩
    split
    · exact hstore.recycle store.current
    · exact ⟨.refl _ B, hstore⟩

end Matches

end Engine

end TrafficControl
