import Mathlib.Data.Int.CardIntervalMod
import Mathlib.Data.Nat.Periodic
import TrafficControl.Routing.Outbound

/-!
# Turns of calls at once

Calls that take turns at once share one counter for each key. The first calls for a key may find no
counter and make one; whoever comes later finds it made. However the steps of the calls mix
(`RoundRobin.Traffic`), the answers are those of a choice for one call after the other, in the order
in which the calls took their turns (`RoundRobin.Traffic.Obeys`). Of these the ones for a key are
written down at once (`RoundRobin.turnsOf_serve`): they depend on no call for another key, and a
window of them falls evenly on the endpoints (`RoundRobin.countP_mod_range'`).
-/

namespace TrafficControl

theorem Table.insert_insertNew {α : Type} {t : Table α} {name : String} (a b : α)
    (h : t.contains name = false) : (t.insertNew name a).insert name b = t.insert name b := by
  have hmem : name ∉ t.bindings.map Prod.fst := by
    intro hname
    obtain ⟨⟨_, c⟩, hc, rfl⟩ := List.mem_map.1 hname
    have hfind := find?_eq_some_iff.2 hc
    simp [contains, hfind] at h
  have hrebind : rebind name b (rebind name a t.bindings) = rebind name b t.bindings := by
    generalize t.bindings = l
    induction l with
    | nil => simp [rebind]
    | cons p rest ih => by_cases hp : p.1 = name <;> simp [rebind, hp, ih]
  simp [insertNew, h, insert, hrebind]

namespace RoundRobin

/-! ## One call after the other -/

/-- A call to choose among `size` endpoints for a key. -/
structure Call where
  key : String
  size : Nat
deriving DecidableEq

/-- A call with the endpoint chosen for it. -/
structure Answer where
  call : Call
  place : Option Nat
deriving DecidableEq

/-- Whether a call is one for the key that has something to choose from. -/
def Call.isTurn (key : String) (c : Call) : Bool := c.key = key ∧ c.size ≠ 0

/-- The answers to the calls for a key that had something to choose from. -/
def turnsOf (key : String) (answers : List Answer) : List Answer :=
  answers.filter (·.call.isTurn key)

/-- What is chosen for one call after the other. -/
def serve (r : RoundRobin) : List Call → List Answer
  | [] => []
  | c :: cs => ⟨c, (r.choose c.key c.size).1⟩ :: serve (r.choose c.key c.size).2 cs

/-- The counters after one call after the other. -/
def after (r : RoundRobin) (cs : List Call) : RoundRobin :=
  cs.foldl (fun r c => (r.choose c.key c.size).2) r

theorem serve_concat (r : RoundRobin) (cs : List Call) (c : Call) :
    serve r (cs ++ [c]) = serve r cs ++ [⟨c, ((after r cs).choose c.key c.size).1⟩] := by
  induction cs generalizing r with
  | nil => rfl
  | cons d cs ih => simp [serve, after, ih]

theorem after_concat (r : RoundRobin) (cs : List Call) (c : Call) :
    after r (cs ++ [c]) = ((after r cs).choose c.key c.size).2 := by
  simp [after]

/-- A choice for one key leaves the count of another as it is. -/
theorem count_choose (r : RoundRobin) (c : Call) (key : String) :
    (r.choose c.key c.size).2.count key =
      if c.isTurn key then r.count key + 1 else r.count key := by
  by_cases hsize : c.size = 0
  · simp [choose, Call.isTurn, hsize]
  · by_cases hkey : c.key = key
    · simp [choose, Call.isTurn, hsize, hkey, count]
    · simp [choose, Call.isTurn, hsize, hkey, Ne.symm hkey, count]

theorem choose_of_isTurn {r : RoundRobin} {c : Call} {key : String} (h : c.isTurn key) :
    (r.choose c.key c.size).1 = some ((r.count key).toNat % c.size) := by
  obtain ⟨hkey, hsize⟩ : c.key = key ∧ c.size ≠ 0 := by simpa [Call.isTurn] using h
  simp [choose, hkey, hsize]

/-- The answers for a key are counted up from where its counter stands, whatever other calls come in
between. -/
theorem turnsOf_serve (r : RoundRobin) (cs : List Call) (key : String) :
    turnsOf key (serve r cs) = (cs.filter (·.isTurn key)).mapIdx fun n c =>
      ⟨c, some ((r.count key + .ofNat n).toNat % c.size)⟩ := by
  induction cs generalizing r with
  | nil => rfl
  | cons c cs ih =>
    have hrest := ih (r.choose c.key c.size).2
    rw [count_choose] at hrest
    by_cases hc : c.isTurn key
    · have hnext (n : Nat) : r.count key + 1 + .ofNat n = r.count key + .ofNat (n + 1) := by
        rw [UInt64.ofNat_add, UInt64.add_assoc, UInt64.add_comm 1]
        rfl
      simp only [hc, if_true, hnext] at hrest
      simp only [turnsOf, serve, List.filter_cons, hc, if_true, List.mapIdx_cons,
        choose_of_isTurn hc] at hrest ⊢
      rw [hrest]
      simp
    · simp only [hc, if_false, Bool.false_eq_true] at hrest
      simpa [turnsOf, serve, List.filter_cons, hc] using hrest

theorem map_call_serve (r : RoundRobin) (cs : List Call) : (serve r cs).map (·.call) = cs := by
  induction cs generalizing r with
  | nil => rfl
  | cons c cs ih => simp [serve, ih]

theorem place_of_size_eq_zero {r : RoundRobin} {cs : List Call} {a : Answer} (ha : a ∈ serve r cs)
    (h : a.call.size = 0) : a.place = none := by
  induction cs generalizing r with
  | nil => simp [serve] at ha
  | cons c cs ih =>
    obtain rfl | hrest := List.mem_cons.1 ha
    · exact congrArg Prod.fst (if_pos h)
    · exact ih hrest

theorem map_call_turnsOf (key : String) (answers : List Answer) :
    (turnsOf key answers).map (·.call) = (answers.map (·.call)).filter (·.isTurn key) := by
  rw [List.filter_map]
  rfl

/-- The answers for a key are those to its calls alone. -/
theorem turnsOf_serve_eq (r : RoundRobin) (cs : List Call) (key : String) :
    turnsOf key (serve r cs) = serve r (cs.filter (·.isTurn key)) := by
  have hself : turnsOf key (serve r (cs.filter (·.isTurn key))) =
      serve r (cs.filter (·.isTurn key)) := by
    refine List.filter_eq_self.2 fun a ha => ?_
    have hcall := List.mem_map_of_mem (f := (·.call)) ha
    rw [map_call_serve] at hcall
    exact (List.mem_filter.1 hcall).2
  rw [← hself, turnsOf_serve, turnsOf_serve, List.filter_filter]
  simp

/-- The answer of a turn, unless the counter was worn out before it. -/
theorem place_of_turn {answers : List Answer} {key : String} {n : Nat} {a : Answer}
    (h : answers = serve {} (answers.map (·.call))) (hn : n < 2 ^ 64)
    (ha : (turnsOf key answers)[n]? = some a) : a.place = some (n % a.call.size) := by
  have hzero : ({} : RoundRobin).count key = 0 := rfl
  rw [h, turnsOf_serve, List.getElem?_mapIdx, Option.map_eq_some_iff] at ha
  obtain ⟨c, -, rfl⟩ := ha
  have hword : (UInt64.ofNat n).toNat = n := UInt64.toNat_ofNat_of_lt' hn
  rw [hzero, UInt64.zero_add, hword]

/-- The choice that balancing makes for an invocation : it takes turns by the name of the service. -/
def Call.ofInvocation (i : Invocation) : Call := ⟨i.service.name, i.selection.endpoints.length⟩

/-- The places chosen for one invocation after the other, whose services have the way `default`
unless they have another. -/
def balance (default : Balancing) (draw : Nat) (r : RoundRobin) : List Invocation → List (Option Nat)
  | [] => []
  | i :: is =>
    let (_, r, i) := (Filter.balance default draw).apply r i
    i.selection.choice.map (·.index) :: balance default draw r is

theorem apply_balance {default : Balancing} {i : Invocation} (r : RoundRobin) (draw : Nat)
    (hway : i.balancing default = .roundRobin) (hopen : i.selection.choice = none) :
    ∃ v i', (Filter.balance default draw).apply r i =
        (v, (r.choose i.service.name i.selection.endpoints.length).2, i') ∧
      i'.selection.choice.map (·.index) =
        (r.choose i.service.name i.selection.endpoints.length).1 := by
  by_cases hnil : i.selection.endpoints = []
  · have hsame : i.refuseUnready.2.selection = i.selection := rfl
    refine ⟨.fault i.refuseUnready.1, i.refuseUnready.2, ?_, ?_⟩
    · simp [Filter.balance, hnil, Verdict.ofFault, choose]
    · simp [hsame, hopen, hnil, choose]
  · have hlt : (r.count i.service.name).toNat % i.selection.endpoints.length <
        i.selection.endpoints.length := Nat.mod_lt _ (List.length_pos_iff.2 hnil)
    have hchoose : (r.choose i.service.name i.selection.endpoints.length).1 =
        some ((r.count i.service.name).toNat % i.selection.endpoints.length) := by
      simp [choose, hnil]
    simp [Filter.balance, hnil, hway, Balancing.choose, hchoose, Selection.choose,
      List.getElem?_eq_getElem hlt]

/-- Invocations whose services are balanced in turn get the answers to their calls. -/
theorem balance_eq_serve {default : Balancing} (draw : Nat) (r : RoundRobin) {is : List Invocation}
    (hway : ∀ i ∈ is, i.balancing default = .roundRobin)
    (hopen : ∀ i ∈ is, i.selection.choice = none) :
    balance default draw r is = (serve r (is.map .ofInvocation)).map (·.place) := by
  induction is generalizing r with
  | nil => rfl
  | cons i is ih =>
    obtain ⟨hi, his⟩ := List.forall_mem_cons.1 hway
    obtain ⟨hi', his'⟩ := List.forall_mem_cons.1 hopen
    obtain ⟨v, i', happly, hplace⟩ := apply_balance r draw hi hi'
    simp [balance, serve, happly, hplace, Call.ofInvocation, ih _ his his']

/-! ## Calls at once -/

/-- Take the next turn of a key that has a counter. -/
def next? (r : RoundRobin) (key : String) : Option (UInt64 × RoundRobin) :=
  (r.counters.find? key).map fun n => (n, ⟨r.counters.insert key (n + 1)⟩)

/-- Make the counter of a key, unless it has one. -/
def withCounter (r : RoundRobin) (key : String) : RoundRobin := ⟨r.counters.insertNew key 0⟩

/-- What a call has found when it looked for its counter. -/
inductive Finding where
  /-- The counter, which it keeps hold of. -/
  | counter
  /-- No counter : it makes one, unless another call has done so meanwhile. -/
  | nothing
deriving DecidableEq

/-- Take a turn after what was found. -/
def take? (r : RoundRobin) (key : String) : Finding → Option (UInt64 × RoundRobin)
  | .counter => r.next? key
  | .nothing => (r.withCounter key).next? key

theorem next?_of_contains {r : RoundRobin} {key : String} (h : r.counters.contains key) :
    r.next? key = some (r.count key, ⟨r.counters.insert key (r.count key + 1)⟩) := by
  obtain ⟨n, hn⟩ := Option.isSome_iff_exists.1 h
  simp [next?, count, hn]

/-- A turn is the one a choice takes at this moment, whatever was found before, if a counter found
is still there. -/
theorem take?_eq {r : RoundRobin} {key : String} {f : Finding}
    (h : f = .counter → r.counters.contains key) :
    r.take? key f = some (r.count key, ⟨r.counters.insert key (r.count key + 1)⟩) := by
  cases f with
  | counter => exact next?_of_contains (h rfl)
  | nothing =>
    by_cases hkey : r.counters.contains key
    · have hsame : r.withCounter key = r := by simp [withCounter, Table.insertNew, hkey]
      rw [take?, hsame, next?_of_contains hkey]
    · have hnew : r.counters.contains key = false := by simpa using hkey
      have hfind : r.counters.find? key = none := by simpa [Table.contains] using hnew
      have hzero : r.count key = 0 := by simp [count, hfind]
      have hmade : (r.withCounter key).counters.find? key = some 0 := by
        simp [withCounter, Table.find?_insertNew, hfind]
      rw [take?, next?, hmade, hzero, Option.map_some, withCounter,
        Table.insert_insertNew _ _ hnew]

/-- Calls at once : the counters they share, the calls that have looked for their counter and not
taken their turn yet, and the calls answered in the order of their turns. -/
structure Traffic where
  turns : RoundRobin := {}
  waiting : List (Call × Finding) := []
  answered : List Answer := []

/-- A step of one of the calls. -/
inductive Move where
  /-- A call begins and looks for its counter. Without endpoints it is answered at once. -/
  | call (c : Call)
  /-- One of the waiting calls takes its turn. -/
  | turn (place : Nat)

namespace Traffic

/-- Make a step. -/
def step (t : Traffic) : Move → Traffic
  | .call c =>
    if c.size = 0 then { t with answered := t.answered ++ [⟨c, none⟩] }
    else
      let finding := if t.turns.counters.contains c.key then .counter else .nothing
      { t with waiting := t.waiting ++ [(c, finding)] }
  | .turn place =>
    match t.waiting[place]? with
    | none => t
    | some (c, finding) =>
      match t.turns.take? c.key finding with
      | none => t
      | some (n, turns) =>
        { turns
          waiting := t.waiting.eraseIdx place
          answered := t.answered ++ [⟨c, some (n.toNat % c.size)⟩] }

/-- The calls that begin in some moves. -/
def calls (moves : List Move) : List Call :=
  moves.filterMap fun
    | .call c => some c
    | .turn _ => none

/-- What calls at once are after some moves. -/
def run (moves : List Move) : Traffic := moves.foldl step {}

/-- Calls at once after some calls began : they are answered as if one came after the other. -/
structure Obeys (began : List Call) (t : Traffic) : Prop where
  answered : t.answered = serve {} (t.answered.map (·.call))
  turns : t.turns = after {} (t.answered.map (·.call))
  /-- A counter that a call has found stays. -/
  found : ∀ w ∈ t.waiting, w.2 = .counter → t.turns.counters.contains w.1.key
  ready : ∀ w ∈ t.waiting, w.1.size ≠ 0
  /-- No call is lost. -/
  kept : (t.answered.map (·.call) ++ t.waiting.map (·.1)).Perm began

theorem obeys_start : Obeys [] {} where
  answered := rfl
  turns := rfl
  found := by simp
  ready := by simp
  kept := .refl _

variable {began : List Call} {t : Traffic}

/-- A waiting call that takes its turn is answered as a choice made now. -/
theorem step_turn {place : Nat} (ht : t.Obeys began) (h : place < t.waiting.length) :
    t.step (.turn place) =
      { turns := (t.turns.choose t.waiting[place].1.key t.waiting[place].1.size).2
        waiting := t.waiting.eraseIdx place
        answered := t.answered ++ [⟨t.waiting[place].1,
          (t.turns.choose t.waiting[place].1.key t.waiting[place].1.size).1⟩] } := by
  have hmem := List.getElem_mem h
  have htake := take?_eq (ht.found _ hmem)
  have hsize := ht.ready _ hmem
  simp [step, List.getElem?_eq_getElem h, htake, choose, hsize]

/-- A call answered now is one more of those made one after the other. -/
theorem Obeys.answer (ht : t.Obeys began) (c : Call) :
    t.answered ++ [⟨c, (t.turns.choose c.key c.size).1⟩] =
        serve {} ((t.answered.map (·.call)) ++ [c]) ∧
      (t.turns.choose c.key c.size).2 = after {} ((t.answered.map (·.call)) ++ [c]) := by
  rw [serve_concat, after_concat, ← ht.answered, ← ht.turns]
  exact ⟨rfl, rfl⟩

theorem Obeys.step_call (ht : t.Obeys began) (c : Call) :
    (t.step (.call c)).Obeys (began ++ [c]) := by
  by_cases hsize : c.size = 0
  · have hchoose : t.turns.choose c.key c.size = (none, t.turns) := by simp [choose, hsize]
    obtain ⟨hserve, hafter⟩ := ht.answer c
    rw [hchoose] at hserve hafter
    rw [step, if_pos hsize]
    exact {
      answered := by simpa using hserve
      turns := by simpa using hafter
      found := ht.found
      ready := ht.ready
      kept := by
        have hmove : (t.answered.map (·.call) ++ [c] ++ t.waiting.map (·.1)).Perm
            (t.answered.map (·.call) ++ t.waiting.map (·.1) ++ [c]) := by
          rw [List.append_assoc, List.append_assoc]
          exact List.perm_append_comm.append_left _
        simpa using hmove.trans (ht.kept.append_right [c]) }
  · rw [step, if_neg hsize]
    exact {
      answered := ht.answered
      turns := ht.turns
      found := by
        intro w hw hcounter
        obtain hold | rfl := List.mem_append.1 hw |>.imp_right List.mem_singleton.1
        · exact ht.found w hold hcounter
        · by_cases hkey : t.turns.counters.contains c.key
          · exact hkey
          · simp [hkey] at hcounter
      ready := by
        intro w hw
        obtain hold | rfl := List.mem_append.1 hw |>.imp_right List.mem_singleton.1
        · exact ht.ready w hold
        · exact hsize
      kept := by simpa using ht.kept.append_right [c] }

theorem contains_choose {r : RoundRobin} {key : String} (h : r.counters.contains key) (c : Call) :
    (r.choose c.key c.size).2.counters.contains key := by
  unfold choose
  split
  · exact h
  · by_cases hkey : key = c.key
    · simp [Table.contains, hkey]
    · simpa [Table.contains, hkey] using h

theorem Obeys.step_turn (ht : t.Obeys began) (place : Nat) :
    (t.step (.turn place)).Obeys began := by
  by_cases hplace : place < t.waiting.length
  · rw [Traffic.step_turn ht hplace]
    set c := t.waiting[place].1
    obtain ⟨hserve, hafter⟩ := ht.answer c
    exact {
      answered := by simpa using hserve
      turns := by simpa using hafter
      found := fun w hw hcounter =>
        contains_choose (ht.found w (List.mem_of_mem_eraseIdx hw) hcounter) c
      ready := fun w hw => ht.ready w (List.mem_of_mem_eraseIdx hw)
      kept := by
        have herase := (List.getElem_cons_eraseIdx_perm hplace).map (·.1)
        have happend := (herase.append_left (t.answered.map (·.call))).trans ht.kept
        simpa using happend }
  · have hnone : t.waiting[place]? = none := List.getElem?_eq_none (Nat.le_of_not_lt hplace)
    simpa [step, hnone] using ht

/-- However the steps of calls mix, they are answered as if one came after the other. -/
theorem obeys_moves (moves : List Move) : (run moves).Obeys (calls moves) := by
  induction moves using List.reverseRecOn with
  | nil => exact obeys_start
  | append_singleton moves m ih =>
    have hrun : run (moves ++ [m]) = (run moves).step m := by simp [run]
    rw [hrun]
    cases m with
    | call c => simpa [calls] using ih.step_call c
    | turn place => simpa [calls] using ih.step_turn place

end Traffic

/-! ## Even shares -/

/-- Of `k * m` numbers in a row just `k` leave a remainder. -/
theorem countP_mod_range' (start k : Nat) {m i : Nat} (hi : i < m) :
    (List.range' start (k * m)).countP (fun n => n % m = i) = k := by
  have hm : 0 < m := Nat.zero_lt_of_lt hi
  have hperiodic : Function.Periodic (fun n => n % m = i) (k * m) := fun n => by simp
  have hcard := Nat.filter_Ico_card_eq_of_periodic start (k * m) _ hperiodic
  have hmod : (k * m).count (fun n => n % m = i) = k := by
    have hcount := Nat.count_modEq_card (k * m) hm i
    simpa [Nat.ModEq, Nat.mod_eq_of_lt hi, Nat.mul_div_cancel _ hm] using hcount
  have hrange : (List.range' start (start + k * m - start)).countP (fun n => n % m = i) =
      ((Finset.Ico start (start + k * m)).filter fun n => n % m = i).card :=
    List.countP_eq_length_filter
  rw [Nat.add_sub_cancel_left] at hrange
  exact hrange.trans (hcard.trans hmod)

/-- Turns that go round lists of one length are numbers in a row, modulo that length. -/
theorem map_place_window {answers before window after : List Answer} {m : Nat}
    (hturn : ∀ (n : Nat) (a : Answer), answers[n]? = some a → a.place = some (n % a.call.size))
    (hsplit : answers = before ++ window ++ after) (hsize : ∀ a ∈ window, a.call.size = m) :
    window.map (·.place) =
      (List.range' before.length window.length).map fun n => some (n % m) := by
  refine List.ext_getElem (by simp) fun j hj _ => ?_
  have hlt : j < window.length := by simpa using hj
  have hget : answers[before.length + j]? = some window[j] := by
    rw [hsplit, List.append_assoc, List.getElem?_append_right (Nat.le_add_right ..),
      Nat.add_sub_cancel_left, List.getElem?_append_left hlt, List.getElem?_eq_getElem hlt]
  have hplace := hturn _ _ hget
  rw [hsize _ (List.getElem_mem hlt)] at hplace
  simpa using hplace

/-- A key gets its turns evenly among calls at once. -/
structure IsFairFor (key : String) (moves : List Move) : Prop where
  /-- Every call that waits can take its turn at once and is answered then. -/
  answers : ∀ place (h : place < (Traffic.run moves).waiting.length), ∃ chosen,
    (Traffic.run (moves ++ [.turn place])).answered =
      (Traffic.run moves).answered ++ [⟨(Traffic.run moves).waiting[place].1, some chosen⟩]
  /-- Each call that began is answered once or still waits. -/
  kept : ((Traffic.run moves).answered.map (·.call) ++
    (Traffic.run moves).waiting.map (·.1)).Perm (Traffic.calls moves)
  /-- Nothing is chosen from an empty list. -/
  empty : ∀ a ∈ (Traffic.run moves).answered, a.call.size = 0 → a.place = none
  /-- The turns of the key go round the list, whatever its length is at each of them. -/
  turn : ∀ (n : Nat) (a : Answer), (turnsOf key (Traffic.run moves).answered)[n]? = some a →
    a.place = some (n % a.call.size)
  /-- A window of turns on lists of one length has each place equally often. -/
  window : ∀ (k m : Nat) (before window after : List Answer),
    turnsOf key (Traffic.run moves).answered = before ++ window ++ after →
    window.length = k * m → (∀ a ∈ window, a.call.size = m) →
    ∀ i < m, (window.map (·.place)).count (some i) = k
  /-- The turns of the key are those that its calls take when no others are made. -/
  alone : turnsOf key (Traffic.run moves).answered =
    serve {} ((turnsOf key (Traffic.run moves).answered).map (·.call))

/-- Round robin is fair to every key, however the calls mix, until its counter is worn out. -/
theorem isFairFor_run (moves : List Move) (key : String)
    (h : (turnsOf key (Traffic.run moves).answered).length ≤ 2 ^ 64) : IsFairFor key moves := by
  have hobeys := Traffic.obeys_moves moves
  have hturn (n : Nat) (a : Answer) (ha : (turnsOf key (Traffic.run moves).answered)[n]? = some a) :
      a.place = some (n % a.call.size) := by
    have hlt : n < 2 ^ 64 := Nat.lt_of_lt_of_le (List.getElem?_eq_some_iff.1 ha).1 h
    exact place_of_turn hobeys.answered hlt ha
  exact {
    answers := by
      intro place hplace
      have hsize := hobeys.ready _ (List.getElem_mem hplace)
      have hrun : Traffic.run (moves ++ [.turn place]) =
          (Traffic.run moves).step (.turn place) := by simp [Traffic.run]
      rw [hrun, Traffic.step_turn hobeys hplace, choose, if_neg hsize]
      exact ⟨_, rfl⟩
    kept := hobeys.kept
    empty := fun a ha hsize => place_of_size_eq_zero (hobeys.answered ▸ ha) hsize
    turn := hturn
    window := by
      intro k m before window after hsplit hlength hsize i hi
      have hcount := countP_mod_range' before.length k hi
      rw [map_place_window hturn hsplit hsize, hlength, List.count, List.countP_map]
      exact (List.countP_congr fun n _ => by simp).trans hcount
    alone := by
      rw [map_call_turnsOf, ← turnsOf_serve_eq, ← hobeys.answered] }

/-- Two calls find no counter and take turns both, while another key is served in between. -/
theorem isFairFor_run_race :
    let moves : List Move := [.call ⟨"orders", 3⟩, .call ⟨"orders", 2⟩, .call ⟨"orders", 0⟩,
      .turn 1, .call ⟨"users", 2⟩, .turn 1, .turn 0, .call ⟨"orders", 3⟩]
    (turnsOf "orders" (Traffic.run moves).answered).length ≤ 2 ^ 64 ∧ IsFairFor "orders" moves :=
  ⟨by decide, isFairFor_run _ "orders" (by decide)⟩

end RoundRobin

end TrafficControl
