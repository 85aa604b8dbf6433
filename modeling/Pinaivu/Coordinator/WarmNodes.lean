import Pinaivu.Coordinator.AckAnswers
import Pinaivu.Coordinator.Turns

namespace Coordinator

open Protocol Crypto Async

variable {C : Primitives} {X : Externals} {loop : EventLoop C} {archive : ReceiptArchive} {ttl : UInt64}
  {w m n : World C} {trace : List (World C × Label)} {label : Label}

def cacheKey (row : String × SessionId × String) : String × SessionId := (row.1, row.2.1)

def warming : (Σ op, Answer op) → Option (String × SessionId)
  | ⟨.upsertSessionCache peer session, _⟩ => some (peer, session)
  | _ => none

def warmed : (Σ op, Answer op) → Option (String × SessionId)
  | ⟨.upsertSessionCache peer session, .ok ()⟩ => some (peer, session)
  | _ => none

def World.cacheKeys (w : World C) : List (String × SessionId) := w.sessionCache.map cacheKey

theorem upsert_rows (w : World C) (peer : String) (session : SessionId) {row : String × SessionId × String}
    (member : row ∈ (w.upsertSessionCache peer session).sessionCache) :
    row ∈ w.sessionCache ∨ row = (peer, session, "gpu") := by
  unfold World.upsertSessionCache at member
  split at member
  · obtain ⟨old, inside, shape⟩ := List.mem_map.mp member
    split at shape
    · exact .inr shape.symm
    · exact .inl (shape ▸ inside)
  · rcases List.mem_append.mp member with inside | last
    · exact .inl inside
    · exact .inr (List.mem_singleton.mp last)

theorem mem_upsert (w : World C) (peer : String) (session : SessionId) :
    (peer, session, "gpu") ∈ (w.upsertSessionCache peer session).sessionCache := by
  unfold World.upsertSessionCache
  split
  · rename_i known
    obtain ⟨row, inside, same⟩ := List.any_eq_true.mp known
    exact List.mem_map.mpr ⟨row, inside, if_pos (of_decide_eq_true same)⟩
  · exact List.mem_append_right _ (List.mem_singleton_self _)

theorem upsert_keys (w : World C) (peer : String) (session : SessionId) :
    (w.upsertSessionCache peer session).cacheKeys =
      if (peer, session) ∈ w.cacheKeys then w.cacheKeys else w.cacheKeys ++ [(peer, session)] := by
  have found : (w.sessionCache.any fun row => row.1 = peer ∧ row.2.1 = session) = true ↔ (peer, session) ∈ w.cacheKeys := by
    simp [World.cacheKeys, cacheKey]
  unfold World.upsertSessionCache
  by_cases known : (peer, session) ∈ w.cacheKeys
  · rw [if_pos (found.mpr known), if_pos known]
    change (w.sessionCache.map _).map cacheKey = w.sessionCache.map cacheKey
    rw [List.map_map]
    apply List.map_congr_left
    intro row _
    simp only [Function.comp]
    split
    · rename_i same
      rw [cacheKey, cacheKey, same.1, same.2]
    · rfl
  · rw [if_neg (found.not.mpr known), if_neg known]
    exact List.map_append

theorem step_cache (step : Step X m label n) : n.sessionCache = (label.called.bind warmed).elim m.sessionCache
    fun key => (m.upsertSessionCache key.1 key.2).sessionCache := by
  cases step with
  | cancel k =>
    obtain ⟨_, _, shape, _⟩ := dropChat_eq m k
    rw [shape]
    rfl
  | @call w'' id op next answer waiting answered =>
    change w''.sessionCache = _
    cases op with
    | upsertSessionCache peer session =>
      cases answer with
      | ok => cases answered; rfl
      | error e => cases answered; rfl
    | _ => cases performed answered <;> rfl
  | _ => rfl

/-- The cache, against the upserts that have gone through. -/
structure Cached (trace : List (World C × Label)) (w : World C) : Prop where
  once : w.cacheKeys.Nodup
  keys : ∀ key, key ∈ w.cacheKeys ↔ key ∈ (callsMade trace).filterMap warmed
  tiers : ∀ row ∈ w.sessionCache, row.2.2 = "gpu"

theorem cached (run : Runs X (World.start loop archive ttl) trace w) : Cached trace w := by
  refine run.history (I := Cached) ⟨List.nodup_nil, fun _ => .rfl, nofun⟩ ?_
  intro before m label n _ _ step kept
  have rows := step_cache step
  have made : (callsMade (before ++ [(m, label)])).filterMap warmed =
      (callsMade before).filterMap warmed ++ (label.called.bind warmed).toList := by
    rw [callsMade_snoc, List.filterMap_append]
    cases label.called with
    | none => rfl
    | some call => cases found : warmed call <;> simp [found]
  cases taken : label.called.bind warmed with
  | none =>
    rw [taken] at rows made
    have keys : n.cacheKeys = m.cacheKeys := congrArg (List.map cacheKey) rows
    constructor
    · exact keys ▸ kept.once
    · intro key
      rw [keys, made, Option.toList_none, List.append_nil]
      exact kept.keys key
    · exact rows ▸ kept.tiers
  | some key =>
    obtain ⟨peer, session⟩ := key
    rw [taken] at rows made
    have keys : n.cacheKeys = if (peer, session) ∈ m.cacheKeys then m.cacheKeys else m.cacheKeys ++ [(peer, session)] :=
      (congrArg (List.map cacheKey) rows).trans (upsert_keys m peer session)
    constructor
    · rw [keys]
      split
      · exact kept.once
      · rename_i fresh
        rw [← List.concat_eq_append]
        exact kept.once.concat fresh
    · intro key
      rw [keys, made, List.mem_append, ← kept.keys]
      split
      · rename_i known
        simp only [Option.toList_some, List.mem_singleton]
        exact ⟨.inl, fun given => given.elim id fun same => same ▸ known⟩
      · exact List.mem_append
    · intro row member
      rw [rows] at member
      rcases upsert_rows m peer session member with old | rfl
      · exact kept.tiers row old
      · rfl

theorem mem_sessionRows {peer tier : String} {session : SessionId} :
    (peer, tier) ∈ w.sessionRows session ↔ (peer, session, tier) ∈ w.sessionCache := by
  simp [World.sessionRows]

def receiptWarmth (known : Option SessionId) (receipt : RoutingReceipt) : List (String × SessionId) :=
  known.elim [] fun session =>
    (receipt.primaryPeerId.value :: receipt.helperPeerIds.map (·.value)).map fun peer => (peer, session)

def TakenAck.warmth (a : TakenAck C) (answer : Nat × CompletionResponse) : List (String × SessionId) :=
  answer.2.routingReceipt.elim [] (receiptWarmth a.session)

theorem markWarm_path {session : SessionId} {peers : List String} {calls : List (Σ op, Answer op)}
    (path : (EventLoop.markWarm session peers).Follows calls (.done ())) :
    calls.filterMap warming = peers.map fun peer => (peer, session) := by
  induction peers generalizing calls with
  | nil =>
    cases path
    rfl
  | cons peer peers ih =>
    replace path := Routine.Follows.perform_done path
    obtain ⟨answer, rest, rfl, path⟩ := path
    exact congrArg ((peer, session) :: ·) (ih path)

theorem warming_reads : Reads warming .warmth := by
  intro op answer other
  cases op with
  | upsertSessionCache peer session => exact absurd rfl other
  | _ => rfl

theorem warmNodes_path {self : EventLoop C} {known : Option SessionId} {receipt : RoutingReceipt}
    {calls : List (Σ op, Answer op)} (path : (self.warmNodes known receipt).Follows calls (.done ())) :
    calls.filterMap warming = if self.pgPool then receiptWarmth known receipt else [] := by
  unfold EventLoop.warmNodes at path
  cases pool : self.pgPool with
  | false =>
    rw [pool] at path
    cases path
    rfl
  | true =>
    rw [pool] at path
    cases known with
    | none =>
      cases path
      rfl
    | some session => exact markWarm_path path

theorem TakenAck.Handled.warms {a : TakenAck C} {calls : List (Σ op, Answer op)} (handled : a.Handled X calls) :
    ∃ answer, calls.filterMap responded = [answer] ∧
      calls.filterMap warming = if a.loop.pgPool then a.warmth answer else [] := by
  cases handled with
  | refused refusal => exact ⟨_, rfl, (ite_self _).symm⟩
  | unstored accepted signed => exact ⟨_, rfl, (ite_self _).symm⟩
  | @stored receipt warm pay accepted signed nodes paying =>
    refine ⟨(a.channel, .ok receipt), ?_, ?_⟩
    · rw [responded_reads.accepted nofun nodes, responded_reads.unbooked nofun nofun paying]
      rfl
    · rw [List.filterMap_cons_none rfl, List.filterMap_append, List.filterMap_append, warmNodes_path nodes,
        warming_reads.unbooked nofun nofun paying]
      exact List.append_nil _

/-- The nodes that have served a session, as the accepted acks tell, each with the session. -/
def nodesServed (trace : List (World C × Label)) : List (String × SessionId) :=
  (List.zipWith TakenAck.warmth (takenAcks trace) (responses trace)).flatten

theorem run_warms (run : Runs X (World.start loop archive ttl) trace w) (idle : w.tasks .eventLoop = .done ()) :
    (callsMade trace).filterMap warming = if loop.pgPool then nodesServed trace else [] := by
  obtain ⟨turns, whole, taken, recorded⟩ := recorded_turns run idle
  have options (turn : Turn C) (member : turn ∈ turns) : turn.world.loop.pgPool = loop.pgPool := by
    obtain ⟨_, taken, _⟩ := whole turn member
    exact (options_at run taken).2.1
  rw [nodesServed, taken, responses, recorded _ _ _ responded_reads, recorded _ _ _ warming_reads]
  clear taken recorded
  induction turns with
  | nil => exact (ite_self _).symm
  | cons turn turns ih =>
    have rest := ih (fun other member => whole other (List.mem_cons_of_mem _ member))
      fun other member => options other (List.mem_cons_of_mem _ member)
    have pool := options turn List.mem_cons_self
    rcases Turn.recorded (whole turn List.mem_cons_self).1 with ⟨a, taken, handled⟩ | ⟨taken, quiet⟩
    · obtain ⟨answer, once, warms⟩ := handled.warms
      rw [List.filterMap_cons_some taken, List.flatMap_cons, List.flatMap_cons, once, rest, warms, Turn.ack_loop taken, pool]
      cases loop.pgPool <;> rfl
    · rw [List.filterMap_cons_none taken, List.flatMap_cons, List.flatMap_cons, responded_reads.quiet quiet,
        warming_reads.quiet quiet, rest]
      rfl

theorem warming_of_warmed (made : Σ op, Answer op) (key : String × SessionId) (taken : warmed made = some key) :
    warming made = some key := by
  obtain ⟨op, answer⟩ := made
  cases op with
  | upsertSessionCache peer session =>
    cases answer with
    | ok => exact taken
    | error e => cases taken
  | _ => cases taken

theorem warmed_unless_refused {calls : List (Σ op, Answer op)} {peer : String} {session : SessionId}
    (fine : ∀ e, ⟨.upsertSessionCache peer session, .error e⟩ ∉ calls)
    (upserted : (peer, session) ∈ calls.filterMap warming) : (peer, session) ∈ calls.filterMap warmed := by
  obtain ⟨⟨op, answer⟩, member, own⟩ := List.mem_filterMap.mp upserted
  refine List.mem_filterMap.mpr ⟨⟨op, answer⟩, member, ?_⟩
  cases op with
  | upsertSessionCache peer session =>
    cases own
    cases answer with
    | ok => rfl
    | error e => exact absurd member (fine e)
  | _ => cases own

/-- The cache says which nodes have served a session: a node is in it at most once, as a node with the model in
    its `gpu` tier, and only if an accepted ack for the session names it; and each node named so is in it
    unless the database has refused its own row. -/
theorem warm_nodes_have_served (X : Externals) (loop : EventLoop C) (archive : ReceiptArchive) (ttl : UInt64)
    (w : World C) (trace : List (World C × Label)) (run : Runs X (World.start loop archive ttl) trace w)
    (idle : w.tasks .eventLoop = .done ()) (session : SessionId) :
    ((w.sessionRows session).map (·.1)).Nodup ∧
      (∀ peer tier, (peer, tier) ∈ w.sessionRows session → tier = "gpu" ∧ (peer, session) ∈ nodesServed trace) ∧
      (loop.pgPool = true → ∀ peer, (∀ e, ⟨.upsertSessionCache peer session, .error e⟩ ∉ callsMade trace) →
        (peer, session) ∈ nodesServed trace → (peer, "gpu") ∈ w.sessionRows session) := by
  have cache := cached run
  have warms := run_warms run idle
  refine ⟨?_, fun peer tier member => ?_, fun pool peer fine served => ?_⟩
  · have own : (w.sessionRows session).map (·.1) = (w.cacheKeys.filter (·.2 = session)).map (·.1) := by
      rw [World.sessionRows, World.cacheKeys, List.map_map, List.filter_map, List.map_map]
      rfl
    rw [own]
    refine List.Nodup.map_on ?_ (cache.once.filter _)
    intro first left second right same
    simp only [List.mem_filter, decide_eq_true_eq] at left right
    exact Prod.ext same (left.2.trans right.2.symm)
  · rw [mem_sessionRows] at member
    have key : (peer, session) ∈ w.cacheKeys := List.mem_map.mpr ⟨_, member, rfl⟩
    have upserted := (filterMap_sublist warming_of_warmed _).subset ((cache.keys _).mp key)
    rw [warms] at upserted
    refine ⟨cache.tiers _ member, ?_⟩
    split at upserted
    · exact upserted
    · cases upserted
  · rw [if_pos pool] at warms
    rw [← warms] at served
    have key := (cache.keys _).mpr (warmed_unless_refused fine served)
    obtain ⟨row, member, shape⟩ := List.mem_map.mp key
    obtain ⟨peer', session', tier⟩ := row
    cases shape
    have gpu := cache.tiers _ member
    change tier = "gpu" at gpu
    subst gpu
    exact mem_sessionRows.mpr member

theorem afterPut_unpaid {self : EventLoop C} (pool : self.pgPool = true) (channel : Nat) (session : SessionId)
    {receipt : RoutingReceipt} (alone : receipt.helperPeerIds = []) :
    self.afterPut X channel (some session) [] receipt (.ok ()) =
      .call (.upsertSessionCache receipt.primaryPeerId.value session) fun _ =>
        .call (.sendResponse channel (.ok receipt)) .done := by
  simp only [EventLoop.afterPut, EventLoop.warmNodes, EventLoop.queuePayments, pool, alone]
  rfl

theorem reach_warmed (X : Externals) (w : World C) (idle : w.tasks .eventLoop = .done ())
    (pool : w.loop.pgPool = true) {ack : CompletionAck} (verified : Verified C ack) {sender : PeerId} (channel : Nat)
    {nowMs : UInt64} {receipt : RoutingReceipt} (signed : w.loop.receiptFor sender ack nowMs = some receipt)
    (alone : receipt.helperPeerIds = []) {session : SessionId} (known : w.loop.sessionFor ack.requestId = some session)
    (unpaid : computePayouts ack (w.loop.addressesFor ack.requestId) = []) :
    ∃ trace w', Runs X w trace w' ∧ w'.tasks .eventLoop = .done () ∧
      (receipt.primaryPeerId.value, session, "gpu") ∈ w'.sessionCache := by
  let taken := w.notified X (.completion sender ack channel nowMs)
  have putting := notified_stores X w verified channel signed
  rw [known, unpaid] at putting
  let stored : World C := { taken with archive := taken.archive.put X receipt }.setTask .eventLoop
    (w.loop.afterPut X channel (some session) [] receipt (.ok ()))
  have upserting : stored.tasks .eventLoop = .call (.upsertSessionCache receipt.primaryPeerId.value session) fun _ =>
      .call (.sendResponse channel (.ok receipt)) .done := by
    rw [← afterPut_unpaid pool channel session alone]
    exact World.setTask_same _ _ _
  let warm : World C := (stored.upsertSessionCache receipt.primaryPeerId.value session).setTask .eventLoop
    (.call (.sendResponse channel (.ok receipt)) .done)
  have first : Step X w (.event (.completion sender ack channel nowMs)) taken := .event idle
  have second : Step X taken (.call .eventLoop (.putReceipt receipt) (.ok ())) stored := .call putting rfl
  have third : Step X stored (.call .eventLoop (.upsertSessionCache receipt.primaryPeerId.value session) (.ok ()))
      warm := .call upserting rfl
  have fourth : Step X warm (.call .eventLoop (.sendResponse channel (.ok receipt)) ())
      (warm.setTask .eventLoop (.done ())) := .call (World.setTask_same _ _ _) rfl
  exact ⟨_, _, .cons first (.cons second (.cons third (.one fourth))), World.setTask_same _ _ _, mem_upsert stored _ _⟩

theorem sample_node_warm :
    let C := Primitives.marking []
    let X := Externals.serde (fun _ => none) fun text => .ok ⟨text⟩
    ∃ (trace : List (World C × Label)) (w : World C),
      Runs X (World.start (EventLoop.new (Vector.replicate 32 0) true true) (.inMemory fun _ => none) 60000) trace w ∧
      ("12D3KooWPeerNode1", "gpu") ∈ w.sessionRows sampleRequest.sessionId ∧
      ("12D3KooWPeerNode1", sampleRequest.sessionId) ∈ nodesServed trace := by
  intro C X
  obtain ⟨before, m, first, idle, _, flight, _, _, _, _, stores⟩ :=
    reach_inFlight X (World.start (EventLoop.new (C := C) (Vector.replicate 32 0) true true) (.inMemory fun _ => none)
      60000) rfl rfl sampleRequest ⟨sampleRequest.requestId, 0⟩ fun _ => none
  let ack := paidAck C (Vector.replicate 32 0)
  have entry : m.loop.inFlight sampleRequest.requestId = some (flightOf sampleRequest fun _ => none) := by
    rw [flight, Function.update_self]
  obtain ⟨receipt, signed⟩ := receiptFor_isSome m.loop ⟨"12D3KooWPeerNode1"⟩ ack 1700000010000
    (show 1 < 2 ^ 31 by decide)
  obtain ⟨_, _, shape⟩ := RoutingReceipt.sign_eq_some signed
  have alone : receipt.helperPeerIds = [] := by
    rw [shape]
    rfl
  have primary : receipt.primaryPeerId.value = "12D3KooWPeerNode1" := by
    rw [shape]
    rfl
  have known : m.loop.sessionFor sampleRequest.requestId = some sampleRequest.sessionId := by
    rw [EventLoop.sessionFor, entry]
    rfl
  have unpaid : computePayouts ack (m.loop.addressesFor sampleRequest.requestId) = [] := by
    rw [EventLoop.addressesFor, entry]
    exact computePayouts_empty ack
  obtain ⟨after, w, second, idle', cache⟩ := reach_warmed X m idle stores.pgPool
    (paidAck_verified (Primitives.marking_correct _) _) 7 signed alone known unpaid
  have run := first.append second
  rw [primary] at cache
  have warm := mem_sessionRows.mpr cache
  exact ⟨_, w, run, warm,
    ((warm_nodes_have_served X _ _ _ w _ run idle' sampleRequest.sessionId).2.1 _ _ warm).2⟩

end Coordinator
