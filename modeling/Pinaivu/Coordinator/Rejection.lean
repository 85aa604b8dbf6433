import Pinaivu.Coordinator.Tasks

namespace Coordinator

open Protocol Crypto Async

variable {C : Primitives} {X : Externals}

def Label.loopTurn : Label → Bool
  | .event _ => true
  | .command _ _ => true
  | _ => false

def Label.loopCall : Label → Option (Σ op, Answer op)
  | .call .eventLoop op answer => some ⟨op, answer⟩
  | _ => none

def loopCalls (trace : List (World C × Label)) : List (Σ op, Answer op) :=
  trace.filterMap fun step => step.2.loopCall

theorem step_between_turns {w w' : World C} {label : Label} (step : Step X w label w')
    (between : label.loopTurn = false) :
    w'.loop = w.loop ∧
      ((label.loopCall = none ∧ w'.tasks .eventLoop = w.tasks .eventLoop) ∨
        ∃ op next answer, label.loopCall = some ⟨op, answer⟩ ∧ w.tasks .eventLoop = .call op next ∧
          w'.tasks .eventLoop = next answer) := by
  cases step with
  | request free => exact ⟨rfl, .inl ⟨rfl, by simp [World.setTask]⟩⟩
  | cancel k => exact ⟨(dropChat_keeps w k).1, .inl ⟨rfl, by simp [dropChat_tasks]⟩⟩
  | @call w'' id op next answer waiting answered =>
    have effect := perform_effect answered
    refine ⟨effect.loop, ?_⟩
    by_cases own : id = .eventLoop
    · subst id
      exact .inr ⟨op, next, answer, rfl, waiting, by simp [World.setTask]⟩
    · left
      constructor
      · cases id with
        | eventLoop => exact absurd rfl own
        | _ => rfl
      · simp only [World.setTask, Function.update_of_ne (Ne.symm own), effect.tasks]
  | receive collecting queued => exact ⟨rfl, .inl ⟨rfl, rfl⟩⟩
  | command idle queued fresh outFresh => cases between
  | event idle => cases between
  | external alive room => exact ⟨rfl, .inl ⟨rfl, rfl⟩⟩
  | forward idle => exact ⟨rfl, .inl ⟨rfl, by simp [World.setTask]⟩⟩
  | execute free known => exact ⟨rfl, .inl ⟨rfl, by simp [World.setTask]⟩⟩

theorem run_between_turns {w w' : World C} {trace : List (World C × Label)} (run : Runs X w trace w')
    (between : ∀ step ∈ trace, step.2.loopTurn = false) :
    w'.loop = w.loop ∧ Routine.Follows (w.tasks .eventLoop) (loopCalls trace) (w'.tasks .eventLoop) := by
  induction run with
  | nil => exact ⟨rfl, .nil⟩
  | @snoc m t trace label run last ih =>
    obtain ⟨loop, path⟩ := ih fun step member => between step (by simp [member])
    obtain ⟨same, turn⟩ := step_between_turns last (between (m, label) (by simp))
    refine ⟨same.trans loop, ?_⟩
    have calls : loopCalls (trace ++ [(m, label)]) = loopCalls trace ++ loopCalls [(m, label)] :=
      List.filterMap_append
    rw [calls]
    rcases turn with ⟨other, kept⟩ | ⟨op, next, answer, own, waiting, moved⟩
    · rw [kept]
      have none : loopCalls [(m, label)] = [] := by simp [loopCalls, other]
      rwa [none, List.append_nil]
    · rw [waiting] at path
      have one : loopCalls [(m, label)] = [⟨op, answer⟩] := by simp [loopCalls, own]
      rw [moved, one]
      exact path.snoc answer

def Rejects (made : Σ op, Answer op) : Prop :=
  ∃ channel reason, made.1 = .sendResponse channel (.rejected reason)

def Harmless (made : Σ op, Answer op) : Prop :=
  (∃ channel response, made = ⟨.sendResponse channel response, ()⟩) ∨
    ∃ receipt e, made = ⟨.putReceipt receipt, .error e⟩

theorem afterPut_never_rejects (self : EventLoop C) (channel : Nat) (session : Option SessionId)
    (payoutLines : List PayoutLine) (receipt : RoutingReceipt) {calls : List (Σ op, Answer op)}
    {last : Task Unit} (path : Routine.Follows
      (self.afterPut X channel session payoutLines receipt (.ok ())) calls last) :
    ∀ made ∈ calls, ¬ Rejects made := by
  have sat : (self.afterPut X channel session payoutLines receipt (.ok ())).Sat
      (fun op => ∀ channel reason, op ≠ .sendResponse channel (.rejected reason)) (fun _ _ => True)
      fun _ => True := by
    apply afterPut_sat
    · exact fun _ _ _ _ => Call.noConfusion
    · exact fun _ _ => Call.noConfusion
    · exact fun _ _ _ _ _ => Call.noConfusion
    · exact fun _ _ _ => Call.noConfusion
    · intro other reason same
      rw [Call.sendResponse.injEq] at same
      cases same.2
  intro made member given
  obtain ⟨other, reason, same⟩ := given
  exact path.sat sat made member other reason same

theorem follows_done {calls : List (Σ op, Answer op)} {last : Task Unit}
    (path : Routine.Follows (.done ()) calls last) : calls = [] := by
  cases path
  rfl

theorem follows_sendResponse {channel : Nat} {response : CompletionResponse}
    {calls : List (Σ op, Answer op)} {last : Task Unit}
    (path : Routine.Follows (call (.sendResponse channel response)) calls last) :
    ∀ made ∈ calls, Harmless made := by
  intro made member
  cases path with
  | nil => cases member
  | cons rest =>
    rw [follows_done rest, List.mem_singleton] at member
    exact .inl ⟨channel, response, member⟩

/-- A rejection comes from a failed check, before anything is touched, or from a failed `put`. -/
theorem rejecting_calls_harmless (self : EventLoop C) (sender : PeerId) (ack : CompletionAck)
    (channel : Nat) (nowMs : UInt64) {calls : List (Σ op, Answer op)} {last : Task Unit}
    (path : Routine.Follows (self.handleCompletionAck X sender ack channel nowMs).2 calls last)
    (rejected : ∃ made ∈ calls, Rejects made) : ∀ made ∈ calls, Harmless made := by
  by_cases verified : Verified C ack
  · cases signed : self.receiptFor sender ack nowMs with
    | none =>
      rw [handleCompletionAck_verified verified, ← EventLoop.receiptFor, signed] at path
      cases path with
      | nil => simp
      | @cons _ _ answer => exact answer.elim
    | some receipt =>
      rw [handleCompletionAck_stores X verified channel signed] at path
      intro made member
      cases path with
      | nil => cases member
      | @cons _ _ answer calls _ rest =>
        cases answer with
        | error e =>
          rcases List.mem_cons.mp member with rfl | later
          · exact .inr ⟨receipt, e, rfl⟩
          · exact follows_sendResponse rest made later
        | ok =>
          rcases rejected with ⟨answered, among, rejects⟩
          rcases List.mem_cons.mp among with rfl | later
          · rcases rejects with ⟨_, _, same⟩
            cases same
          · exact absurd rejects (afterPut_never_rejects self channel _ _ receipt rest answered later)
  · obtain ⟨reason, shape⟩ := handleCompletionAck_unverified (X := X) verified self sender channel nowMs
    rw [shape] at path
    exact follows_sendResponse path

def KeepsStores (X : Externals) (step : World C × Label) : Prop :=
  ∀ n, Step X step.1 step.2 n → SameStores step.1 n

theorem handleCompletionAck_keepsStores (X : Externals) (w : World C) (sender : PeerId)
    (ack : CompletionAck) (channel : Nat) (nowMs : UInt64) :
    KeepsStores X (w, .event (.completion sender ack channel nowMs)) := by
  intro n step
  cases step with
  | event idle =>
    constructor <;> simp only [World.setTask, EventLoop.handleEvent, handleCompletionAck_loop]

theorem harmless_keepsStores {w : World C} {label : Label} {made : Σ op, Answer op}
    (own : label.loopCall = some made) (harmless : Harmless made) : KeepsStores X (w, label) := by
  intro n step
  cases label with
  | call id op answer =>
    cases id with
    | eventLoop =>
      rw [Label.loopCall, Option.some.injEq] at own
      subst made
      cases step with
      | call waiting answered =>
        rcases harmless with ⟨channel, response, same⟩ | ⟨receipt, e, same⟩
        · cases same
          cases answered
          exact ⟨rfl, rfl, rfl, rfl, rfl, rfl, rfl⟩
        · cases same
          simp only [World.perform] at answered
          split at answered <;> cases answered
          exact ⟨rfl, rfl, rfl, rfl, rfl, rfl, rfl⟩
    | _ => cases own
  | _ => cases own

theorem turn_inFlight {start w w' : World C} {before turn : List (World C × Label)} {sender : PeerId}
    {ack : CompletionAck} {channel : Nat} {nowMs : UInt64}
    (run : Runs X start (before ++ (w, .event (.completion sender ack channel nowMs)) :: turn) w')
    (between : ∀ step ∈ turn, step.2.loopTurn = false) :
    w'.loop.inFlight =
      if Verified C ack then Function.update w.loop.inFlight ack.requestId none else w.loop.inFlight := by
  obtain ⟨_, n, delivered, rest⟩ := run.split rfl
  rw [(run_between_turns rest between).1]
  cases delivered with
  | event idle => simp only [World.setTask, EventLoop.handleEvent, handleCompletionAck_loop]

theorem event_task {w n : World C} {event : Event} (step : Step X w (.event event) n) :
    n.tasks .eventLoop = (w.loop.handleEvent X event).2 := by
  cases step with
  | event idle => simp only [World.setTask, Function.update_self]

/-- After a rejection everything is as before the ack, and a retry is paid as the first delivery
    would have been, exactly when a check failed or the request was not in flight. Otherwise the
    entry is lost and the retry is paid nothing. -/
theorem rejected_ack_changes_nothing (X : Externals) (start w w' : World C)
    (before turn : List (World C × Label)) (sender : PeerId) (ack : CompletionAck) (channel : Nat)
    (nowMs : UInt64)
    (run : Runs X start (before ++ (w, .event (.completion sender ack channel nowMs)) :: turn) w')
    (between : ∀ step ∈ turn, step.2.loopTurn = false)
    (rejected : ∃ m reason, (m, Label.call .eventLoop (.sendResponse channel (.rejected reason)) ()) ∈ turn) :
    ((w'.loop.inFlight = w.loop.inFlight ∧
        KeepsStores X (w, .event (.completion sender ack channel nowMs)) ∧
        (∀ step ∈ turn, step.2.loopCall ≠ none → KeepsStores X step) ∧
        computePayouts ack (w'.loop.addressesFor ack.requestId) =
          computePayouts ack (w.loop.addressesFor ack.requestId)) ↔
      (¬ Verified C ack ∨ w.loop.inFlight ack.requestId = none)) ∧
    (Verified C ack → w.loop.inFlight ack.requestId ≠ none →
      w'.loop.inFlight ack.requestId = none ∧
        computePayouts ack (w'.loop.addressesFor ack.requestId) = []) := by
  have flights := turn_inFlight run between
  obtain ⟨_, n, delivered, rest⟩ := run.split rfl
  obtain ⟨_, path⟩ := run_between_turns rest between
  rw [event_task delivered] at path
  have harmless : ∀ made ∈ loopCalls turn, Harmless made := by
    apply rejecting_calls_harmless w.loop sender ack channel nowMs path
    rcases rejected with ⟨m, reason, member⟩
    exact ⟨_, List.mem_filterMap.mpr ⟨_, member, rfl⟩, channel, reason, rfl⟩
  refine ⟨⟨?_, ?_⟩, ?_⟩
  · intro given
    obtain ⟨same, _⟩ := given
    by_contra neither
    rw [not_or, not_not] at neither
    rw [flights, if_pos neither.1] at same
    have entry := congrFun same ack.requestId
    rw [Function.update_self] at entry
    exact neither.2 entry.symm
  · intro condition
    have same : w'.loop.inFlight = w.loop.inFlight := by
      rw [flights]
      split
      · rename_i verified
        rcases condition with failed | absent
        · exact absurd verified failed
        · rw [← absent, Function.update_eq_self]
      · rfl
    refine ⟨same, handleCompletionAck_keepsStores X w sender ack channel nowMs, ?_, ?_⟩
    · intro step member own
      obtain ⟨made, found⟩ := Option.ne_none_iff_exists'.mp own
      exact harmless_keepsStores found (harmless made (List.mem_filterMap.mpr ⟨step, member, found⟩))
    · rw [EventLoop.addressesFor, EventLoop.addressesFor, same]
  · intro verified present
    have gone : w'.loop.inFlight ack.requestId = none := by
      rw [flights, if_pos verified, Function.update_self]
    refine ⟨gone, ?_⟩
    rw [EventLoop.addressesFor, gone]
    exact computePayouts_empty ack

theorem reach_storage_error (X : Externals) (w : World C) (idle : w.tasks .eventLoop = .done ())
    (fallible : w.archive.mayFail = true) {ack : CompletionAck} (verified : Verified C ack)
    {sender : PeerId} (channel : Nat) {nowMs : UInt64} {receipt : RoutingReceipt}
    (signed : w.loop.receiptFor sender ack nowMs = some receipt) (e : String) :
    ∃ turn w', Runs X w ((w, .event (.completion sender ack channel nowMs)) :: turn) w' ∧
      (∀ step ∈ turn, step.2.loopTurn = false) ∧
      ∃ m, (m, Label.call .eventLoop (.sendResponse channel (.rejected "storage error")) ()) ∈ turn := by
  let taken := w.notified X (.completion sender ack channel nowMs)
  have putting := notified_stores X w verified channel signed
  have failing : taken.perform X (.putReceipt receipt) (.error e) = some taken := if_pos fallible
  let failed : World C := taken.setTask .eventLoop
    (call (.sendResponse channel (.rejected "storage error")))
  have answering : failed.tasks .eventLoop =
      .call (.sendResponse channel (.rejected "storage error")) .done := by
    simp only [failed, World.setTask, Function.update_self]
    rfl
  have first : Step X w (.event (.completion sender ack channel nowMs)) taken := .event idle
  have second : Step X taken (.call .eventLoop (.putReceipt receipt) (.error e)) failed :=
    .call putting failing
  have third : Step X failed
      (.call .eventLoop (.sendResponse channel (.rejected "storage error")) ())
      (failed.setTask .eventLoop (.done ())) := .call answering rfl
  refine ⟨_, _, .cons first (.cons second (.one third)), ?_, failed, by simp⟩
  intro step member
  simp only [List.mem_cons, List.not_mem_nil, or_false] at member
  rcases member with rfl | rfl <;> rfl

/-- One transient database error costs the recorded bidder its payout: the entry is gone when it
    retries. -/
theorem storage_error_loses_payout :
    let C := Primitives.marking []
    let X := Externals.serde (fun _ => none) fun text => .ok ⟨text⟩
    ∃ before w sender ack channel nowMs turn w' reason m,
      Runs X (World.start (EventLoop.new (C := C) (Vector.replicate 32 0) true true)
        (.postgres fun _ => none) 60000)
        (before ++ (w, .event (.completion sender ack channel nowMs)) :: turn) w' ∧
      (∀ step ∈ turn, step.2.loopTurn = false) ∧
      (m, Label.call .eventLoop (.sendResponse channel (.rejected reason)) ()) ∈ turn ∧
      w'.loop.inFlight ≠ w.loop.inFlight ∧
      computePayouts ack (w.loop.addressesFor ack.requestId) = [⟨"12D3KooWPeerNode1", "0x0abc", 1000⟩] ∧
      computePayouts ack (w'.loop.addressesFor ack.requestId) = [] := by
  intro C X
  obtain ⟨before, w, left, idle, _, _, _, _, flight, _, _, stores⟩ :=
    reach_sample X C (Vector.replicate 32 0) true true (.postgres fun _ => none)
  let ack := paidAck C (Vector.replicate 32 0)
  have verified : Verified C ack := paidAck_verified (Primitives.marking_correct _) _
  obtain ⟨receipt, signed⟩ := receiptFor_isSome w.loop ⟨"12D3KooWPeerNode1"⟩ ack 1700000010000
    (show 1 < 2 ^ 31 by decide)
  obtain ⟨turn, w', right, between, m, rejected⟩ := reach_storage_error X w idle (by rw [stores.archive]; rfl)
    verified 0 signed "connection closed"
  have run := left.append right
  have flights := turn_inFlight run between
  rw [if_pos verified] at flights
  have gone : w'.loop.inFlight sampleRequest.requestId = none := by
    rw [flights]
    exact Function.update_self _ _ _
  refine ⟨before, w, _, ack, 0, _, turn, w', _, m, run, between, rejected, ?_, ?_, ?_⟩
  · intro same
    rw [same, flight] at gone
    cases gone
  · have addresses : w.loop.addressesFor sampleRequest.requestId = sampleAddresses := by
      rw [EventLoop.addressesFor, flight]
      rfl
    change computePayouts ack (w.loop.addressesFor sampleRequest.requestId) = _
    rw [addresses]
    rfl
  · change computePayouts ack (w'.loop.addressesFor sampleRequest.requestId) = _
    rw [EventLoop.addressesFor, gone]
    exact computePayouts_empty ack

theorem unsigned_ack_changes_nothing :
    let C := Primitives.marking []
    let X := Externals.serde (fun _ => none) fun text => .ok ⟨text⟩
    ∃ before w sender ack channel nowMs turn w' reason m,
      Runs X (World.start (EventLoop.new (C := C) (Vector.replicate 32 0) true true)
        (.postgres fun _ => none) 60000)
        (before ++ (w, .event (.completion sender ack channel nowMs)) :: turn) w' ∧
      (m, Label.call .eventLoop (.sendResponse channel (.rejected reason)) ()) ∈ turn ∧
      w.loop.inFlight ack.requestId ≠ none ∧ w'.loop.inFlight = w.loop.inFlight := by
  intro C X
  obtain ⟨before, w, left, idle, _, _, _, _, flight, _⟩ :=
    reach_sample X C (Vector.replicate 32 0) true true (.postgres fun _ => none)
  let ack : CompletionAck :=
    ⟨sampleRequest.requestId, [], Vector.replicate 32 9, Vector.replicate 32 0, []⟩
  have invalid : ¬ Verified C ack := by
    intro given
    obtain ⟨accepted, _⟩ := given
    cases accepted
  obtain ⟨reason, shape⟩ :=
    handleCompletionAck_unverified (X := X) invalid w.loop ⟨"12D3KooWStranger"⟩ 0 1700000010000
  let taken := w.notified X (.completion ⟨"12D3KooWStranger"⟩ ack 0 1700000010000)
  have answering : taken.tasks .eventLoop = .call (.sendResponse 0 (.rejected reason)) .done := by
    simp only [taken, World.notified, World.setTask_same, EventLoop.handleEvent, shape]
    rfl
  have first : Step X w (.event (.completion ⟨"12D3KooWStranger"⟩ ack 0 1700000010000)) taken := .event idle
  have second : Step X taken (.call .eventLoop (.sendResponse 0 (.rejected reason)) ())
      (taken.setTask .eventLoop (.done ())) := .call answering rfl
  have run := left.append (.cons first (.one second))
  have between : ∀ step ∈ [(taken, Label.call .eventLoop (.sendResponse 0 (.rejected reason)) ())],
      step.2.loopTurn = false := by
    simp [Label.loopTurn]
  have kept := (rejected_ack_changes_nothing X _ w _ before _ _ ack 0 _ run between
    ⟨taken, reason, by simp⟩).1.mpr (.inl invalid)
  refine ⟨before, w, _, ack, 0, _, _, _, reason, taken, run, by simp, ?_, kept.1⟩
  change w.loop.inFlight sampleRequest.requestId ≠ none
  rw [flight]
  simp

end Coordinator
