import Pinaivu.Coordinator.Effects

namespace Coordinator

open Protocol Crypto Async

variable {C : Primitives} {X : Externals} {w w' : World C} {label : Label} {r : RequestId}

/-- The ack passes both checks of `handle_completion_ack`. -/
def Verified (C : Primitives) (ack : CompletionAck) : Prop :=
  ack.verifyPrimary C = .ok () ∧ ack.verifyAllProofs C = .ok ()

instance (C : Primitives) (ack : CompletionAck) : Decidable (Verified C ack) :=
  inferInstanceAs (Decidable (_ ∧ _))

/-- The payout map the handler works with: empty when the request is not in flight. -/
def EventLoop.addressesFor (self : EventLoop C) (requestId : RequestId) : PayoutAddresses :=
  ((self.inFlight requestId).map (·.payoutAddresses)).getD fun _ => none

def EventLoop.sessionFor (self : EventLoop C) (requestId : RequestId) : Option SessionId :=
  (self.inFlight requestId).map (·.sessionId)

theorem handleCompletionAck_verified {ack : CompletionAck} (verified : Verified C ack)
    (self : EventLoop C) (sender : PeerId) (channel : Nat) (nowMs : UInt64) :
    self.handleCompletionAck X sender ack channel nowMs =
      ({ self with inFlight := Function.update self.inFlight ack.requestId none },
        self.storeReceipt X channel (self.sessionFor ack.requestId)
          (computePayouts ack (self.addressesFor ack.requestId))
          ((self.unsignedReceipt sender ack nowMs).sign C self.enclaveKey)) := by
  unfold EventLoop.handleCompletionAck
  rw [verified.1, verified.2]
  rfl

theorem handleCompletionAck_unverified {ack : CompletionAck} (rejected : ¬ Verified C ack)
    (self : EventLoop C) (sender : PeerId) (channel : Nat) (nowMs : UInt64) :
    ∃ reason, self.handleCompletionAck X sender ack channel nowMs =
      (self, call (.sendResponse channel (.rejected reason))) := by
  unfold EventLoop.handleCompletionAck
  cases primary : ack.verifyPrimary C with
  | error e => exact ⟨_, rfl⟩
  | ok =>
    cases proofs : ack.verifyAllProofs C with
    | error e => exact ⟨_, rfl⟩
    | ok => exact absurd ⟨primary, proofs⟩ rejected

theorem handleCompletionAck_loop (X : Externals) (self : EventLoop C) (sender : PeerId)
    (ack : CompletionAck) (channel : Nat) (nowMs : UInt64) :
    (self.handleCompletionAck X sender ack channel nowMs).1 = { self with
      inFlight := if Verified C ack then Function.update self.inFlight ack.requestId none
        else self.inFlight } := by
  by_cases verified : Verified C ack
  · rw [handleCompletionAck_verified verified, if_pos verified]
  · obtain ⟨reason, shape⟩ := handleCompletionAck_unverified (X := X) verified self sender channel nowMs
    rw [shape, if_neg verified]

def Label.publishes : Label → Option RequestId
  | .command (.publish published _) swarm =>
    match swarm.published with
    | .ok () => some published.requestId
    | .error _ => none
  | _ => none

def publishedIds (trace : List (World C × Label)) : List RequestId :=
  trace.filterMap fun step => step.2.publishes

@[simp] theorem publishedIds_append (before after : List (World C × Label)) :
    publishedIds (before ++ after) = publishedIds before ++ publishedIds after := List.filterMap_append

@[simp] theorem publishedIds_event (w : World C) (event : Event) (trace : List (World C × Label)) :
    publishedIds ((w, .event event) :: trace) = publishedIds trace := rfl

def Consumes (r : RequestId) (step : World C × Label) : Prop :=
  ∃ sender ack channel nowMs, step.2 = .event (.completion sender ack channel nowMs) ∧
    ack.requestId = r ∧ Verified C ack ∧ (step.1.loop.inFlight r).isSome

theorem publishRequest_inFlight (self : EventLoop C) (request : InferenceRequest) (swarm : SwarmAnswers)
    (tx : OneshotId) : (self.publishRequest request swarm).1.inFlight r = self.inFlight r ∨
      Label.publishes (.command (.publish request tx) swarm) = some r := by
  cases outcome : swarm.published with
  | error e => exact .inl (by simp [EventLoop.publishRequest, outcome])
  | ok =>
    by_cases same : r = request.requestId
    · exact .inr (by simp [Label.publishes, outcome, same])
    · exact .inl (by simp [EventLoop.publishRequest, outcome, same])

theorem step_inFlight (step : Step X w label w') (r : RequestId) :
    w'.loop.inFlight r = w.loop.inFlight r ∨ label.publishes = some r ∨
      (∃ addresses swarm flight, label = .command (.setPayoutAddresses r addresses) swarm ∧
        w.loop.inFlight r = some flight ∧
        w'.loop.inFlight r = some { flight with payoutAddresses := addresses }) ∨
      (∃ sender ack channel nowMs, label = .event (.completion sender ack channel nowMs) ∧
        ack.requestId = r ∧ Verified C ack ∧ w'.loop.inFlight r = none) := by
  cases step with
  | request free => exact .inl rfl
  | cancel k => exact .inl (by rw [(dropChat_keeps w k).1])
  | call waiting answered =>
    left
    have same := (perform_effect answered).loop
    simp only [World.setTask, same]
  | receive collecting queued => exact .inl rfl
  | @command command rest swarm idle queued fresh outFresh =>
    cases command with
    | publish request tx =>
      rcases publishRequest_inFlight w.loop request swarm tx with same | published
      · exact .inl same
      · exact .inr (.inl published)
    | setPayoutAddresses requestId addresses =>
      simp only [World.setTask, EventLoop.handleCommand]
      cases found : w.loop.inFlight requestId with
      | none => exact .inl rfl
      | some flight =>
        by_cases same : r = requestId
        · subst r
          exact .inr (.inr (.inl ⟨addresses, swarm, flight, rfl, found, by simp⟩))
        · exact .inl (by simp [same])
    | dial addr tx => exact .inl rfl
    | listenAddrs tx => exact .inl rfl
    | dispatchInference peer dispatch tx => exact .inl rfl
  | @event event idle =>
    cases event with
    | completion sender ack channel nowMs =>
      simp only [World.setTask, EventLoop.handleEvent, handleCompletionAck_loop]
      split
      · rename_i verified
        by_cases same : r = ack.requestId
        · subst r
          exact .inr (.inr (.inr ⟨sender, ack, channel, nowMs, rfl, rfl, verified, by simp⟩))
        · exact .inl (Function.update_of_ne same _ _)
      · exact .inl rfl
    | inferenceResponse outId response =>
      left
      simp only [World.setTask, EventLoop.handleEvent, EventLoop.replyInference]
      split <;> rfl
    | inferenceFailure outId error =>
      left
      simp only [World.setTask, EventLoop.handleEvent, EventLoop.replyInference]
      split <;> rfl
    | _ => exact .inl rfl
  | external alive room => exact .inl rfl
  | forward idle => exact .inl rfl
  | execute free known => exact .inl rfl

theorem consumes_clears (step : Step X w label w') (consumes : Consumes r (w, label)) :
    w'.loop.inFlight r = none := by
  rcases consumes with ⟨sender, ack, channel, nowMs, shape, request, verified, _⟩
  change label = _ at shape
  subst shape
  cases step with
  | event idle =>
    simp only [World.setTask, EventLoop.handleEvent, handleCompletionAck_loop, if_pos verified]
    rw [request, Function.update_self]

variable {start : World C} {trace : List (World C × Label)}

theorem inFlight_published (run : Runs X start trace w) (empty : ∀ r, start.loop.inFlight r = none)
    (present : w.loop.inFlight r ≠ none) : r ∈ publishedIds trace := by
  induction run with
  | nil => exact absurd (empty r) present
  | @snoc m t trace label run last ih =>
    simp only [publishedIds, List.filterMap_append, List.mem_append, List.mem_filterMap,
      List.mem_singleton, exists_eq_left] at ih ⊢
    rcases step_inFlight last r with same | published | ⟨_, _, flight, _, before, _⟩ | ⟨_, _, _, _, _, _, _, gone⟩
    · rw [same] at present
      exact .inl (ih present)
    · exact .inr published
    · exact .inl (ih (by rw [before]; simp))
    · exact absurd gone present

theorem inFlight_stays_none (run : Runs X start trace w) (absent : start.loop.inFlight r = none)
    (unpublished : r ∉ publishedIds trace) : w.loop.inFlight r = none := by
  refine Run.invariant (I := fun w => w.loop.inFlight r = none) run absent ?_
  intro m label n member step gone
  rcases step_inFlight step r with same | published | ⟨_, _, _, _, before, _⟩ | ⟨_, _, _, _, _, _, _, cleared⟩
  · rw [same, gone]
  · exact absurd (List.mem_filterMap.mpr ⟨_, member, published⟩) unpublished
  · rw [gone] at before
    cases before
  · exact cleared

theorem consumed_apart (run : Runs X start trace w) (empty : ∀ r, start.loop.inFlight r = none)
    (once : (publishedIds trace).Nodup) :
    trace.Pairwise fun x y => ∀ r, Consumes r x → ¬ Consumes r y := by
  induction run with
  | nil => exact List.Pairwise.nil
  | @snoc m t trace label run last ih =>
    rw [publishedIds_append, List.nodup_append] at once
    rw [List.pairwise_append]
    refine ⟨ih once.1, List.pairwise_singleton _ _, ?_⟩
    intro x member y final r first second
    rw [List.mem_singleton] at final
    subst y
    obtain ⟨before, after, shape⟩ := List.append_of_mem member
    obtain ⟨earlier, n, taken, later⟩ := run.split (m := x.1) shape
    have cleared := consumes_clears taken first
    have published : r ∈ publishedIds before := by
      rcases first with ⟨_, _, _, _, _, _, _, present⟩
      exact inFlight_published earlier empty (Option.isSome_iff_ne_none.mp present)
    have absent : r ∉ publishedIds after := by
      intro again
      have nodup := once.1
      rw [shape] at nodup
      simp only [publishedIds, List.filterMap_append, List.nodup_append] at nodup
      refine nodup.2.2 r published r ?_ rfl
      obtain ⟨step, inside, same⟩ := List.mem_filterMap.mp again
      exact List.mem_filterMap.mpr ⟨step, List.mem_cons_of_mem _ inside, same⟩
    have gone := inFlight_stays_none later cleared absent
    rcases second with ⟨_, _, _, _, _, _, _, present⟩
    rw [gone] at present
    cases present

/-- With distinct published ids, a request is consumed by one step of the run at most. -/
theorem consumed_once (run : Runs X start trace w) (empty : ∀ r, start.loop.inFlight r = none)
    (once : (publishedIds trace).Nodup) {x y : World C × Label} (hx : x ∈ trace) (hy : y ∈ trace)
    (first : Consumes r x) (second : Consumes r y) : x = y := by
  by_contra different
  have apart := (consumed_apart run empty once).imp (S := fun x y => ¬ (Consumes r x ∧ Consumes r y))
    fun separate both => separate r both.1 both.2
  have symmetric : Std.Symm fun x y : World C × Label => ¬ (Consumes r x ∧ Consumes r y) :=
    ⟨fun _ _ separate both => separate ⟨both.2, both.1⟩⟩
  exact apart.forall hx hy different ⟨first, second⟩

structure SameStores (w w' : World C) : Prop where
  archive : w'.archive = w.archive
  payments : w'.payments = w.payments
  jobs : w'.jobs = w.jobs
  storage : w'.storage = w.storage
  enclaveKey : w'.loop.enclaveKey = w.loop.enclaveKey
  pgPool : w'.loop.pgPool = w.loop.pgPool
  settlementTx : w'.loop.settlementTx = w.loop.settlementTx

def flightOf (request : InferenceRequest) (addresses : PayoutAddresses) : InFlightMeta :=
  ⟨"", Vector.replicate 32 0, addresses, request.sessionId⟩

def World.handled (w : World C) (command : MeshCommand) (swarm : SwarmAnswers) : World C :=
  { w with
    loop := (w.loop.handleCommand command swarm).1
    commands := []
    serial := w.serial + 1 }.setTask .eventLoop (w.loop.handleCommand command swarm).2

def World.notified (X : Externals) (w : World C) (event : Event) : World C :=
  { w with loop := (w.loop.handleEvent X event).1 }.setTask .eventLoop (w.loop.handleEvent X event).2

def World.swarmAnswers (w : World C) : SwarmAnswers := ⟨.ok (), .ok (), w.serial, w.serial⟩

theorem reach_handled (X : Externals) (w : World C) (idle : w.tasks .eventLoop = .done ())
    (drained : w.commands = []) (command : MeshCommand) :
    Runs X w
      [(w, .external command),
        ({ w with commands := w.commands ++ [command] }, .command command w.swarmAnswers)]
      (w.handled command w.swarmAnswers) := by
  have alive : w.loopGone = false := by rw [World.loopGone, idle]
  have room : w.commands.length < commandCapacity := by rw [drained]; decide
  refine .cons (.external alive room) (.one (.command idle ?_ rfl rfl))
  rw [drained, List.nil_append]

theorem reply_published (X : Externals) (w : World C) (tx : OneshotId) (rx : BidChannelId) :
    ∃ w', w.perform X (.replyPublish tx (.ok rx)) () = some w' ∧ w'.loop = w.loop ∧
      w'.commands = w.commands ∧ w'.tasks = w.tasks ∧ SameStores w w' := by
  simp only [World.perform]
  split
  · exact ⟨_, rfl, rfl, rfl, rfl, ⟨rfl, rfl, rfl, rfl, rfl, rfl, rfl⟩⟩
  · exact ⟨_, rfl, rfl, rfl, rfl, ⟨rfl, rfl, rfl, rfl, rfl, rfl, rfl⟩⟩

def Label.quiet : Label → Bool
  | .event _ => false
  | .command (.dispatchInference _ _ _) _ => false
  | .call _ (.insertPayment _) _ => false
  | .cancel _ => false
  | _ => true

theorem uncancelled_of_quiet {label : Label} (silent : label.quiet) (k : Nat) : label ≠ .cancel k := by
  intro shape
  rw [shape] at silent
  cases silent

def Label.inserts : Label → Option PendingPayment
  | .call _ (.insertPayment row) (.ok ()) => some row
  | _ => none

theorem inserts_of_quiet {label : Label} (silent : label.quiet) : label.inserts = none := by
  cases label with
  | call id op answer =>
    cases op with
    | insertPayment row => cases silent
    | _ => rfl
  | _ => rfl

def Label.mishap : Label → Bool
  | .call _ (.insertPayment _) (.error _) => true
  | .call _ (.trySendJob _) (.error _) => true
  | .call _ (.pushRequest _) (.error _) => true
  | _ => false

theorem reach_inFlight (X : Externals) (w : World C) (idle : w.tasks .eventLoop = .done ())
    (drained : w.commands = []) (request : InferenceRequest) (tx : OneshotId)
    (addresses : PayoutAddresses) :
    ∃ trace w', Runs X w trace w' ∧ w'.tasks .eventLoop = .done () ∧ w'.commands = [] ∧
      w'.loop.inFlight = Function.update w.loop.inFlight request.requestId
        (some (flightOf request addresses)) ∧
      publishedIds trace = [request.requestId] ∧ (∀ step ∈ trace, step.2.quiet) ∧
      (∀ id, id ≠ .eventLoop → w'.tasks id = w.tasks id) ∧ (∀ step ∈ trace, step.2.mishap = false) ∧
      SameStores w w' := by
  let published := w.handled (.publish request tx) w.swarmAnswers
  have publishing : published.tasks .eventLoop =
      .call (.replyPublish tx (.ok ⟨request.requestId, w.serial⟩)) .done := by
    simp only [published, World.handled, World.setTask, Function.update_self]
    rfl
  obtain ⟨replied, performed, loop, commands, tasks, stores⟩ :=
    reply_published X published tx ⟨request.requestId, w.serial⟩
  let waiting := replied.setTask .eventLoop (.done ())
  have entry : waiting.loop.inFlight =
      Function.update w.loop.inFlight request.requestId (some (flightOf request fun _ => none)) := by
    change replied.loop.inFlight = _
    rw [loop]
    rfl
  have left := reach_handled X w idle drained (.publish request tx)
  have middle : Runs X published _ waiting := .one (.call publishing performed)
  have right := reach_handled X waiting (by simp [waiting, World.setTask]) commands
    (.setPayoutAddresses request.requestId addresses)
  have setting : waiting.loop.handleCommand (.setPayoutAddresses request.requestId addresses)
      waiting.swarmAnswers = ({ waiting.loop with
        inFlight := Function.update waiting.loop.inFlight request.requestId
          (some (flightOf request addresses)) }, .done ()) := by
    simp only [EventLoop.handleCommand, entry, Function.update_self]
    rfl
  refine ⟨_, _, (left.append middle).append right, ?_, rfl, ?_, rfl, ?_, ?_, ?_, ?_⟩
  · simp only [World.handled, World.setTask, Function.update_self, setting]
  · simp only [World.handled, World.setTask, setting, entry, Function.update_idem]
  · intro step member
    simp only [List.mem_append, List.mem_cons, List.not_mem_nil, or_false] at member
    rcases member with ((rfl | rfl) | rfl) | (rfl | rfl) <;> rfl
  · intro id other
    simp only [World.handled, World.setTask, waiting, tasks, published, Function.update_of_ne other]
  · intro step member
    simp only [List.mem_append, List.mem_cons, List.not_mem_nil, or_false] at member
    rcases member with ((rfl | rfl) | rfl) | (rfl | rfl) <;> rfl
  · refine ⟨stores.archive, stores.payments, stores.jobs, stores.storage, ?_, ?_, ?_⟩
    · simp only [World.handled, World.setTask, setting]
      exact stores.enclaveKey
    · simp only [World.handled, World.setTask, setting]
      exact stores.pgPool
    · simp only [World.handled, World.setTask, setting]
      exact stores.settlementTx

end Coordinator
