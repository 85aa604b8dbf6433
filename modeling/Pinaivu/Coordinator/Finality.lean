import Pinaivu.Coordinator.Tasks

namespace Coordinator

open Protocol Crypto Async

variable {C : Primitives} {X : Externals}

def SettlesAs (a b : RoutingReceipt) : Prop :=
  a.requestId = b.requestId ∧ a.aggregatedOutputHash = b.aggregatedOutputHash ∧ a.payouts = b.payouts

def KeepsSettlement (X : Externals) (old new : ReceiptArchive) : Prop :=
  ∀ r receipt, old.get X r = .ok (some receipt) →
    ∃ later, new.get X r = .ok (some later) ∧ SettlesAs later receipt

theorem KeepsSettlement.refl (archive : ReceiptArchive) : KeepsSettlement X archive archive :=
  fun _ receipt found => ⟨receipt, found, rfl, rfl, rfl⟩

theorem KeepsSettlement.trans {a b c : ReceiptArchive} (first : KeepsSettlement X a b)
    (second : KeepsSettlement X b c) : KeepsSettlement X a c := by
  intro r receipt found
  obtain ⟨middle, kept, request, hash, payouts⟩ := first r receipt found
  obtain ⟨last, there, request', hash', payouts'⟩ := second r middle kept
  exact ⟨last, there, request'.trans request, hash'.trans hash, payouts'.trans payouts⟩

def Named (X : Externals) (archive : ReceiptArchive) : Prop :=
  ∀ r receipt, archive.get X r = .ok (some receipt) → receipt.requestId = r

def Compatible (X : Externals) (archive : ReceiptArchive) (receipt : RoutingReceipt) : Prop :=
  ∀ stored, archive.get X receipt.requestId = .ok (some stored) → SettlesAs receipt stored

theorem put_named (faithful : X.RoundTrip) {archive : ReceiptArchive} (named : Named X archive)
    (receipt : RoutingReceipt) : Named X (archive.put X receipt) := by
  intro r found there
  by_cases same : r = receipt.requestId
  · subst r
    rw [ReceiptArchive.get_put_same faithful] at there
    cases there
    rfl
  · rw [ReceiptArchive.get_put_other receipt archive same] at there
    exact named r found there

theorem put_keepsSettlement (faithful : X.RoundTrip) {archive : ReceiptArchive} {receipt : RoutingReceipt}
    (compatible : Compatible X archive receipt) : KeepsSettlement X archive (archive.put X receipt) := by
  intro r stored found
  by_cases same : r = receipt.requestId
  · subst r
    exact ⟨receipt, ReceiptArchive.get_put_same faithful receipt archive, compatible stored found⟩
  · rw [ReceiptArchive.get_put_other receipt archive same]
    exact ⟨stored, found, rfl, rfl, rfl⟩

/-- A verified ack for an archived request repeats the archived hash, and neither receipt pays. -/
def RepeatsUnpaid (X : Externals) (step : World C × Label) : Prop :=
  ∀ sender ack channel nowMs stored, step.2 = .event (.completion sender ack channel nowMs) →
    Verified C ack → step.1.archive.get X ack.requestId = .ok (some stored) →
    ack.aggregatedOutputHash = stored.aggregatedOutputHash ∧ stored.payouts = [] ∧
      paidProofs ack (step.1.loop.addressesFor ack.requestId) = []

theorem settlesAs_of_unpaid {self : EventLoop C} {sender : PeerId} {ack : CompletionAck} {nowMs : UInt64}
    {receipt stored : RoutingReceipt} (signed : self.receiptFor sender ack nowMs = some receipt)
    (named : stored.requestId = ack.requestId)
    (sameHash : ack.aggregatedOutputHash = stored.aggregatedOutputHash) (unpaid : stored.payouts = [])
    (nobody : paidProofs ack (self.addressesFor ack.requestId) = []) : SettlesAs receipt stored := by
  obtain ⟨request, hash, payouts⟩ := receiptFor_eq_some signed
  refine ⟨request.trans named.symm, hash.trans sameHash, ?_⟩
  rw [payouts, computePayouts_eq_map, nobody, unpaid]
  rfl

theorem receiptFor_compatible {w : World C} {sender : PeerId} {ack : CompletionAck} {channel : Nat}
    {nowMs : UInt64} {receipt : RoutingReceipt} (named : Named X w.archive)
    (repeats : RepeatsUnpaid X (w, .event (.completion sender ack channel nowMs)))
    (verified : Verified C ack) (signed : w.loop.receiptFor sender ack nowMs = some receipt) :
    Compatible X w.archive receipt := by
  intro stored found
  rw [(receiptFor_eq_some signed).1] at found
  obtain ⟨sameHash, unpaid, nobody⟩ := repeats sender ack channel nowMs stored rfl verified found
  exact settlesAs_of_unpaid signed (named _ stored found) sameHash unpaid nobody

def NoPut (task : Task Unit) : Prop :=
  task.Sat (fun op => ∀ receipt, op ≠ .putReceipt receipt) (fun _ _ => True) fun _ => True

theorem plain_noPut (op : Call) (plain : op.plain) (receipt : RoutingReceipt) : op ≠ .putReceipt receipt := by
  intro same
  subst same
  cases plain

inductive PutReady (X : Externals) (archive : ReceiptArchive) : Task Unit → Prop where
  | never {task : Task Unit} (none : NoPut task) : PutReady X archive task
  | once {receipt : RoutingReceipt} {next : Except String Unit → Task Unit}
      (compatible : Compatible X archive receipt) (rest : ∀ answer, NoPut (next answer)) :
      PutReady X archive (.call (.putReceipt receipt) next)

theorem PutReady.next {archive : ReceiptArchive} {op : Call} {next : Answer op → Task Unit}
    (ready : PutReady X archive (.call op next)) (answer : Answer op) : NoPut (next answer) := by
  cases ready with
  | never none => exact none.2 answer trivial
  | once compatible rest => exact rest answer

theorem PutReady.compatible {archive : ReceiptArchive} {receipt : RoutingReceipt}
    {next : Except String Unit → Task Unit} (ready : PutReady X archive (.call (.putReceipt receipt) next)) :
    Compatible X archive receipt := by
  cases ready with
  | never none => exact absurd rfl (none.1 receipt)
  | once compatible rest => exact compatible

theorem handleEvent_ready {w : World C} {event : Event} (named : Named X w.archive)
    (repeats : RepeatsUnpaid X (w, .event event)) :
    PutReady X w.archive (w.loop.handleEvent X event).2 := by
  by_cases stores : ∃ sender ack channel nowMs receipt, event = .completion sender ack channel nowMs ∧
      Verified C ack ∧ w.loop.receiptFor sender ack nowMs = some receipt
  · rcases stores with ⟨sender, ack, channel, nowMs, receipt, rfl, verified, signed⟩
    rw [EventLoop.handleEvent, handleCompletionAck_stores X verified channel signed]
    apply PutReady.once (receiptFor_compatible named repeats verified signed)
    intro answer
    cases answer with
    | error e => exact ⟨plain_noPut _ rfl, fun _ _ => trivial⟩
    | ok =>
      exact afterPut_sat X w.loop channel _ _ receipt (fun _ _ => plain_noPut _ rfl) (plain_noPut _ rfl)
        (fun _ _ _ _ => Call.noConfusion) (fun _ _ => Call.noConfusion) (plain_noPut _ rfl)
  · apply PutReady.never
    apply handleEvent_sat plain_noPut
    · exact fun _ _ _ _ _ _ _ _ _ _ => Call.noConfusion
    · intro sender ack channel nowMs receipt shape verified signed
      exact absurd ⟨sender, ack, channel, nowMs, receipt, shape, verified, signed⟩ stores

theorem step_archive {w w' : World C} {label : Label} (step : Step X w label w') :
    w'.archive = w.archive ∨ ∃ id receipt answer, label = .call id (.putReceipt receipt) answer ∧
      w'.archive = w.archive.put X receipt := by
  rcases step_stores step with same | ⟨id, op, answer, next, m, shape, _, answered, moved⟩
  · exact .inl same.1
  · subst moved
    rcases (perform_effect answered).archive with same | ⟨receipt, rfl, stored⟩
    · exact .inl same
    · exact .inr ⟨id, receipt, answer, shape, stored⟩

structure Archiving (X : Externals) (w : World C) : Prop where
  named : Named X w.archive
  ready : PutReady X w.archive (w.tasks .eventLoop)

theorem Archiving.step (faithful : X.RoundTrip) {w w' : World C} {label : Label} (kept : Archiving X w)
    (step : Step X w label w') (repeats : RepeatsUnpaid X (w, label))
    (owned : ∀ id op answer, label = .call id op answer → id.owns op) :
    Archiving X w' ∧ KeepsSettlement X w.archive w'.archive := by
  have ready := kept.ready
  rcases step_archive step with same | ⟨id, receipt, answer, shape, stored⟩
  · rw [same]
    refine ⟨⟨?_, ?_⟩, .refl _⟩
    · rw [same]
      exact kept.named
    · rw [same]
      rcases step_task step .eventLoop with still | ⟨op, next, answer, _, _, waiting, _, moved⟩ | begun
      · rwa [still]
      · rw [waiting] at ready
        rw [moved]
        exact .never (ready.next answer)
      · generalize w'.tasks .eventLoop = task at begun
        cases begun with
        | command command swarm =>
          exact .never (handleCommand_sat plain_noPut w.loop command swarm
            fun _ _ _ _ => Call.noConfusion)
        | event event => exact handleEvent_ready kept.named repeats
  · subst shape
    have own := owned id _ answer rfl
    cases id with
    | eventLoop =>
      cases step with
      | call waiting answered =>
        rw [waiting] at ready
        rw [stored]
        refine ⟨⟨?_, ?_⟩, put_keepsSettlement faithful ready.compatible⟩
        · rw [stored]
          exact put_named faithful kept.named receipt
        · rw [World.setTask_same]
          exact .never (ready.next answer)
    | _ => cases own

/-- In every run in which verified acks for archived requests only repeat an unpaid hash, an archived
    receipt keeps its settlement subset for good. -/
theorem receipts_final (X : Externals) (faithful : X.RoundTrip) (loop : EventLoop C)
    (archive : ReceiptArchive) (ttl : UInt64) (named : Named X archive) (s t : World C)
    (before after : List (World C × Label)) (left : Runs X (World.start loop archive ttl) before s)
    (right : Runs X s after t) (repeats : ∀ step ∈ before ++ after, RepeatsUnpaid X step)
    (r : RequestId) (receipt : RoutingReceipt) (archived : s.archive.get X r = .ok (some receipt)) :
    ∃ later, t.archive.get X r = .ok (some later) ∧ SettlesAs later receipt := by
  have owned : ∀ m label, (m, label) ∈ before ++ after →
      ∀ id op answer, label = .call id op answer → id.owns op := by
    intro m label member id op answer same
    subst same
    exact call_owned (left.append right) member
  have reached : Archiving X s := by
    refine left.invariant ⟨named, .never trivial⟩ ?_
    intro m label n member step kept
    have inside : (m, label) ∈ before ++ after := List.mem_append_left _ member
    exact (kept.step faithful step (repeats _ inside) (owned m label inside)).1
  have final : Archiving X t ∧ KeepsSettlement X s.archive t.archive := by
    refine right.invariant (I := fun w => Archiving X w ∧ KeepsSettlement X s.archive w.archive)
      ⟨reached, .refl _⟩ ?_
    intro m label n member step given
    obtain ⟨kept, since⟩ := given
    have inside : (m, label) ∈ before ++ after := List.mem_append_right _ member
    obtain ⟨next, one⟩ := kept.step faithful step (repeats _ inside) (owned m label inside)
    exact ⟨next, since.trans one⟩
  exact final.2 r receipt archived

def ReceiptOfAck (trace : List (World C × Label)) (receipt : RoutingReceipt) : Prop :=
  ∃ m sender ack channel nowMs, (m, Label.event (.completion sender ack channel nowMs)) ∈ trace ∧
    Verified C ack ∧ m.loop.receiptFor sender ack nowMs = some receipt

def putsFromAck (trace : List (World C × Label)) : Call → Prop
  | .putReceipt receipt => ReceiptOfAck trace receipt
  | _ => True

theorem plain_putsFromAck (trace : List (World C × Label)) (op : Call) (plain : op.plain) :
    putsFromAck trace op := by
  cases op with
  | putReceipt receipt => cases plain
  | _ => exact trivial

theorem begins_putsFromAck {trace : List (World C × Label)} {m : World C} {label : Label}
    (member : (m, label) ∈ trace) {id : TaskId} {task : Task Unit} (begun : Begins X m label id task) :
    task.Sat (putsFromAck trace) (fun _ _ => True) fun _ => True := by
  have plain := plain_putsFromAck trace
  cases begun with
  | serve k req =>
    exact serveChat_sat plain (fun _ _ _ => trivial) (fun _ _ _ => trivial)
      (fun _ _ _ _ _ _ _ => trivial) _ _ req
  | drop k => exact trivial
  | command command swarm => exact handleCommand_sat plain m.loop command swarm fun _ _ _ => trivial
  | event event =>
    apply handleEvent_sat plain m.loop event (fun _ _ _ _ _ _ _ _ _ => trivial)
    intro sender ack channel nowMs receipt shape verified signed
    subst shape
    exact ⟨⟨m, sender, ack, channel, nowMs, member, verified, signed⟩,
      fun _ => ⟨fun _ _ _ => trivial, fun _ => trivial⟩⟩
  | forward => exact forwardJob_sat plain fun _ _ => trivial
  | execute k stored known => exact runSettlement_sat stored.job plain fun _ _ _ _ _ _ => trivial

structure ArchivedOfAcks (X : Externals) (trace : List (World C × Label)) (w : World C) : Prop where
  archive : ∀ r stored, w.archive.get X r = .ok (some stored) →
    stored.requestId = r ∧ ReceiptOfAck trace stored
  tasks : TasksSat (fun _ => putsFromAck trace) (fun _ _ => True) w

theorem ArchivedOfAcks.step (faithful : X.RoundTrip) {trace : List (World C × Label)} {m n : World C}
    {label : Label} (kept : ArchivedOfAcks X trace m) (member : (m, label) ∈ trace)
    (step : Step X m label n) : ArchivedOfAcks X trace n := by
  constructor
  · intro r stored found
    rcases step_archive step with same | ⟨id, receipt, answer, shape, put⟩
    · rw [same] at found
      exact kept.archive r stored found
    · subst shape
      rw [put] at found
      by_cases same : r = receipt.requestId
      · subst r
        rw [ReceiptArchive.get_put_same faithful] at found
        cases found
        exact ⟨rfl, kept.tasks.guaranteed step⟩
      · rw [ReceiptArchive.get_put_other receipt _ same] at found
        exact kept.archive r stored found
  · apply kept.tasks.step step
    · exact fun _ _ begun => begins_putsFromAck member begun
    · exact fun _ _ _ _ _ _ _ => trivial

theorem archived_of_ack (faithful : X.RoundTrip) {loop : EventLoop C} {archive : ReceiptArchive}
    {ttl : UInt64} {w : World C} {trace : List (World C × Label)}
    (run : Runs X (World.start loop archive ttl) trace w) (empty : ∀ r, archive.get X r = .ok none) :
    ArchivedOfAcks X trace w := by
  apply run.invariant
  · refine ⟨?_, fun _ => trivial⟩
    intro r stored found
    change archive.get X r = _ at found
    rw [empty r] at found
    cases found
  · exact fun _ _ _ member step kept => kept.step faithful member step

/-- With distinct published ids, a verified ack for an archived request is signed into a receipt
    that settles alike in no other case: once paid, the request is out of flight for good. -/
theorem settlesAs_iff_unpaid (faithful : X.RoundTrip) {key : C.SigningKey} {pgPool settlementTx : Bool}
    {archive : ReceiptArchive} {ttl : UInt64} {m w : World C} {before after : List (World C × Label)}
    {sender : PeerId} {ack : CompletionAck} {channel : Nat} {nowMs : UInt64}
    (run : Runs X (World.start (EventLoop.new key pgPool settlementTx) archive ttl)
      (before ++ (m, .event (.completion sender ack channel nowMs)) :: after) w)
    (once : (publishedIds (before ++ (m, .event (.completion sender ack channel nowMs)) :: after)).Nodup)
    (empty : ∀ r, archive.get X r = .ok none) (verified : Verified C ack) {stored receipt : RoutingReceipt}
    (archived : m.archive.get X ack.requestId = .ok (some stored))
    (signed : m.loop.receiptFor sender ack nowMs = some receipt) :
    SettlesAs receipt stored ↔ ack.aggregatedOutputHash = stored.aggregatedOutputHash ∧
      stored.payouts = [] ∧ paidProofs ack (m.loop.addressesFor ack.requestId) = [] := by
  obtain ⟨_, hash, payouts⟩ := receiptFor_eq_some signed
  obtain ⟨named, n, other, again, channel', nowMs', delivered, verified', signed'⟩ :=
    (archived_of_ack faithful (run.split rfl).1 empty).archive _ stored archived
  obtain ⟨request', _, payouts'⟩ := receiptFor_eq_some signed'
  constructor
  · intro given
    obtain ⟨_, sameHash, samePayouts⟩ := given
    have unpaid : stored.payouts = [] := by
      by_contra paid
      have apart := (List.pairwise_append.mp (consumed_apart run (fun _ => rfl) once)).2.2 _ delivered _
        List.mem_cons_self ack.requestId
      refine apart ⟨other, again, channel', nowMs', rfl, request'.symm.trans named, verified', ?_⟩
        ⟨sender, ack, channel, nowMs, rfl, rfl, verified, ?_⟩
      · rw [← named, request']
        apply inFlight_of_computePayouts
        intro none
        rw [payouts', none] at paid
        exact paid rfl
      · apply inFlight_of_computePayouts
        intro none
        rw [← samePayouts, payouts, none] at paid
        exact paid rfl
    refine ⟨hash.symm.trans sameHash, unpaid, ?_⟩
    rw [unpaid, payouts, computePayouts_eq_map, List.map_map, List.map_eq_nil_iff] at samePayouts
    exact samePayouts
  · intro given
    obtain ⟨sameHash, unpaid, nobody⟩ := given
    exact settlesAs_of_unpaid signed named sameHash unpaid nobody

/-- The same ack twice: the second receipt replaces the first and pays nobody. -/
theorem duplicate_ack_overwrites_receipt :
    let C := Primitives.marking []
    let X := Externals.serde (fun _ => none) fun text => .ok ⟨text⟩
    ∃ before first middle s after t sender ack receipt later,
      Runs X (World.start (EventLoop.new (C := C) (Vector.replicate 32 0) false false)
        (.inMemory fun _ => none) 60000)
        (before ++ (first, .event (.completion sender ack 0 1700000010000)) :: middle) s ∧
      Runs X s ((s, .event (.completion sender ack 1 1700000020000)) :: after) t ∧
      s.archive.get X ack.requestId = .ok (some receipt) ∧
      t.archive.get X ack.requestId = .ok (some later) ∧
      receipt.payouts = [⟨"0x0abc", 1000⟩] ∧ later.payouts = [] := by
  intro C X
  have faithful : X.RoundTrip := Externals.serde_roundTrip _ _
  obtain ⟨before, w, left, idle, _, noPool, _, _, flight, _⟩ :=
    reach_sample X C (Vector.replicate 32 0) false false (.inMemory fun _ => none)
  let ack := paidAck C (Vector.replicate 32 0)
  have verified : Verified C ack := paidAck_verified (Primitives.marking_correct _) _
  have one : ack.proofs.length < 2 ^ 31 := show 1 < 2 ^ 31 by decide
  obtain ⟨receipt, signed⟩ := receiptFor_isSome w.loop ⟨"12D3KooWPeerNode1"⟩ ack 1700000010000 one
  obtain ⟨middle, s, accept, _, _, _, idle', _, loop, _, archive⟩ :=
    reach_accepted X w idle noPool verified 0 signed
  have noPool' : s.loop.pgPool = false := by rw [loop]; exact noPool
  obtain ⟨later, signed'⟩ := receiptFor_isSome s.loop ⟨"12D3KooWPeerNode1"⟩ ack 1700000020000 one
  obtain ⟨after, t, again, _, _, _, _, _, _, _, archive'⟩ :=
    reach_accepted X s idle' noPool' verified 1 signed'
  obtain ⟨request, _, payouts⟩ := receiptFor_eq_some signed
  obtain ⟨request', _, payouts'⟩ := receiptFor_eq_some signed'
  refine ⟨before, w, middle, s, after, t, _, ack, receipt, later, left.append accept, again, ?_, ?_, ?_, ?_⟩
  · rw [archive, ← request, ReceiptArchive.get_put_same faithful]
  · rw [archive', ← request', ReceiptArchive.get_put_same faithful]
  · rw [payouts]
    change (computePayouts ack (w.loop.addressesFor sampleRequest.requestId)).map _ = _
    rw [EventLoop.addressesFor, flight]
    rfl
  · rw [payouts', EventLoop.addressesFor, loop]
    simp [computePayouts_empty]

theorem repeatsUnpaid_of_quiet {step : World C × Label} (silent : step.2.quiet) : RepeatsUnpaid X step := by
  intro sender ack channel nowMs stored shape
  rw [shape] at silent
  cases silent

theorem duplicate_unpaid_ack_harmless :
    let C := Primitives.marking []
    let X := Externals.serde (fun _ => none) fun text => .ok ⟨text⟩
    ∃ before s after t sender ack receipt later,
      Runs X (World.start (EventLoop.new (C := C) (Vector.replicate 32 0) false false)
        (.inMemory fun _ => none) 60000) before s ∧
      Runs X s ((s, .event (.completion sender ack 1 1700000020000)) :: after) t ∧
      s.archive.get X ack.requestId = .ok (some receipt) ∧ Verified C ack ∧
      t.archive.get X ack.requestId = .ok (some later) ∧ SettlesAs later receipt := by
  intro C X
  have faithful : X.RoundTrip := Externals.serde_roundTrip _ _
  let w : World C := World.start (EventLoop.new (C := C) (Vector.replicate 32 0) false false)
    (.inMemory fun _ => none) 60000
  let ack := paidAck C (Vector.replicate 32 0)
  have verified : Verified C ack := paidAck_verified (Primitives.marking_correct _) _
  have one : ack.proofs.length < 2 ^ 31 := show 1 < 2 ^ 31 by decide
  obtain ⟨receipt, signed⟩ := receiptFor_isSome w.loop ⟨"12D3KooWPeerNode1"⟩ ack 1700000010000 one
  obtain ⟨middle, s, accept, quiet, _, _, idle, _, loop, _, archive⟩ :=
    reach_accepted X w rfl rfl verified 0 signed
  have noPool : s.loop.pgPool = false := by rw [loop]; rfl
  obtain ⟨later, signed'⟩ := receiptFor_isSome s.loop ⟨"12D3KooWPeerNode1"⟩ ack 1700000020000 one
  obtain ⟨after, t, again, quiet', _⟩ := reach_accepted X s idle noPool verified 1 signed'
  obtain ⟨request, hash, payouts⟩ := receiptFor_eq_some signed
  have archived : s.archive.get X ack.requestId = .ok (some receipt) := by
    rw [archive, ← request, ReceiptArchive.get_put_same faithful]
  have unpaid : receipt.payouts = [] := by
    rw [payouts]
    exact congrArg (List.map _) (computePayouts_empty ack)
  have nobody : paidProofs ack (s.loop.addressesFor ack.requestId) = [] := by
    rw [EventLoop.addressesFor, loop]
    simp [paidProofs]
  obtain ⟨final, there, settles⟩ := receipts_final X faithful _ _ _ (fun _ _ found => by cases found)
    s t _ _ accept again (by
      intro step member
      rcases List.mem_append.mp member with member | member
      · rcases List.mem_cons.mp member with rfl | member
        · intro _ _ _ _ _ shape _ found
          cases found
        · exact repeatsUnpaid_of_quiet (quiet step member)
      · rcases List.mem_cons.mp member with rfl | member
        · intro _ _ _ _ stored shape _ found
          cases shape
          rw [archived] at found
          cases found
          exact ⟨hash.symm, unpaid, nobody⟩
        · exact repeatsUnpaid_of_quiet (quiet' step member)) ack.requestId receipt archived
  exact ⟨_, s, after, t, _, ack, receipt, final, accept, again, archived, verified, there, settles⟩

end Coordinator
