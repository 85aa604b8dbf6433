import Pinaivu.Coordinator.Performed

namespace Coordinator

open Protocol Crypto Async

variable {C : Primitives} {X : Externals} {w w' : World C} {op : Call} {answer : Answer op}

/-- Everything a single call can change. -/
structure Effect (X : Externals) (w : World C) (op : Call) (w' : World C) : Prop where
  loop : w'.loop = w.loop
  tasks : w'.tasks = w.tasks
  commands : w'.commands = w.commands ∨
    ∃ command, op = .sendCommand command ∧ w'.commands = w.commands ++ [command]
  archive : w'.archive = w.archive ∨
    ∃ receipt, op = .putReceipt receipt ∧ w'.archive = w.archive.put X receipt
  payments : ∀ p ∈ w'.payments, (∃ q ∈ w.payments, q.row = p.row) ∨ op = .insertPayment p.row
  jobs : ∀ job ∈ w'.jobs, job ∈ w.jobs ∨ op = .trySendJob job
  storage : ∀ stored ∈ w'.storage,
    (∃ known ∈ w.storage, known.job = stored.job) ∨ op = .pushRequest stored.job
  queue : ∀ rx, ∀ bid ∈ (w'.bids rx).queue, bid ∈ (w.bids rx).queue ∨ op = .sendBid rx bid
  collected : ∀ rx, (w'.bids rx).collected = (w.bids rx).collected
  replies : ∀ tx rx, w'.publishReplies tx = some (.ok rx) →
    w.publishReplies tx = some (.ok rx) ∨ op = .replyPublish tx (.ok rx)

theorem Effect.refl (w : World C) (op : Call) : Effect X w op w where
  loop := rfl
  tasks := rfl
  commands := .inl rfl
  archive := .inl rfl
  payments p member := .inl ⟨p, member, rfl⟩
  jobs _ member := .inl member
  storage stored member := .inl ⟨stored, member, rfl⟩
  queue _ _ member := .inl member
  collected _ := rfl
  replies _ _ found := .inl found

theorem closeBids_queue (w : World C) (closed rx : BidChannelId) :
    ((w.closeBids closed).bids rx).queue = (w.bids rx).queue := by
  by_cases same : rx = closed
  · subst rx
    simp [World.closeBids]
  · simp [World.closeBids, same]

theorem closeBids_collected (w : World C) (closed rx : BidChannelId) :
    ((w.closeBids closed).bids rx).collected = (w.bids rx).collected := by
  by_cases same : rx = closed
  · subst rx
    simp [World.closeBids]
  · simp [World.closeBids, same]

theorem closeBids_effect (w : World C) (closed : BidChannelId) (op : Call) :
    Effect X w op (w.closeBids closed) :=
  { Effect.refl w op with
    queue := fun rx _ member => .inl (by rwa [closeBids_queue] at member)
    collected := closeBids_collected w closed }

theorem update_effect (w : World C) (id : Uuid) (change : Payment → Payment) (op : Call)
    (keeps : ∀ p, (change p).row = p.row) :
    Effect X w op { w with payments := w.payments.update id change } :=
  { Effect.refl w op with
    payments := fun _ member => .inl (Payments.row_of_mem_update keeps member) }

theorem sendBid_effect (w : World C) (tx : BidChannelId) (bid : InferenceBid) :
    Effect X w (.sendBid tx bid)
      { w with
        bids := Function.update w.bids tx { w.bids tx with queue := (w.bids tx).queue ++ [bid] } } := by
  refine { Effect.refl w (.sendBid tx bid) with queue := ?_, collected := ?_ }
  · intro rx other member
    by_cases same : rx = tx
    · subst rx
      simp only [Function.update_self, List.mem_append, List.mem_singleton] at member
      rcases member with member | rfl
      · exact .inl member
      · exact .inr rfl
    · simp only [Function.update_of_ne same] at member
      exact .inl member
  · intro rx
    by_cases same : rx = tx
    · subst rx
      simp
    · simp [same]

theorem replyPublish_effect (w : World C) (tx : OneshotId) (result : Except String BidChannelId) :
    Effect X w (.replyPublish tx result)
      { w with publishReplies := Function.update w.publishReplies tx (some result) } := by
  refine { Effect.refl w (.replyPublish tx result) with replies := ?_ }
  intro other rx found
  by_cases same : other = tx
  · subst other
    simp only [Function.update_self, Option.some.injEq] at found
    exact .inr (by rw [found])
  · simp only [Function.update_of_ne same] at found
    exact .inl found

theorem jobResult_effect (w : World C) (job : SettlementJob) (op : Call) :
    Effect X w op
      { w with
        storage := w.storage.map fun stored =>
          if stored.job = job then { stored with finished := true } else stored } := by
  refine { Effect.refl w op with storage := ?_ }
  intro stored member
  rw [List.mem_map] at member
  rcases member with ⟨known, inside, rfl⟩
  refine .inl ⟨known, inside, ?_⟩
  split <;> rfl

theorem perform_effect (answered : w.perform X op answer = some w') : Effect X w op w' := by
  cases performed answered with
  | put receipt => exact { Effect.refl (X := X) w _ with archive := .inr ⟨receipt, rfl, rfl⟩ }
  | insert row =>
    refine { Effect.refl w _ with payments := ?_ }
    intro p member
    rcases Payments.mem_insert member with known | new
    · exact .inl ⟨p, known, rfl⟩
    · exact .inr (by rw [new])
  | submitted id txDigest => exact update_effect w id _ _ fun _ => rfl
  | failed id => exact update_effect w id _ _ fun _ => rfl
  | queued job room =>
    refine { Effect.refl w _ with jobs := ?_ }
    intro other member
    rcases List.mem_append.mp member with known | new
    · exact .inl known
    · exact .inr (by rw [List.mem_singleton.mp new])
  | taken job rest first =>
    refine { Effect.refl w _ with jobs := ?_ }
    intro other member
    exact .inl (by rw [first]; exact List.mem_cons_of_mem _ member)
  | pushed job =>
    refine { Effect.refl w _ with storage := ?_ }
    intro stored member
    rcases List.mem_append.mp member with known | new
    · exact .inl ⟨stored, known, rfl⟩
    · exact .inr (by rw [List.mem_singleton.mp new])
  | finished job => exact jobResult_effect w job _
  | bid tx bid received => exact sendBid_effect w tx bid
  | collected rx => exact closeBids_effect w rx _
  | sent command alive => exact { Effect.refl w _ with commands := .inr ⟨command, rfl, rfl⟩ }
  | dropped tx rx away => exact closeBids_effect w rx _
  | published tx result => exact replyPublish_effect w tx result
  | _ => exact { Effect.refl w _ with }

theorem dropChat_eq (w : World C) (k : Nat) :
    ∃ bids abandoned, w.dropChat k = { w with bids, abandoned }.setTask (.chat k) (.done ()) ∧
      ∀ rx, (bids rx).queue = (w.bids rx).queue ∧ (bids rx).collected = (w.bids rx).collected := by
  unfold World.dropChat
  dsimp only
  split
  · exact ⟨_, _, rfl, fun rx => ⟨closeBids_queue w _ rx, closeBids_collected w _ rx⟩⟩
  · split
    · exact ⟨_, _, rfl, fun rx => ⟨closeBids_queue w _ rx, closeBids_collected w _ rx⟩⟩
    · exact ⟨_, _, rfl, fun rx => ⟨rfl, rfl⟩⟩
  · exact ⟨_, _, rfl, fun rx => ⟨rfl, rfl⟩⟩

theorem dropChat_tasks (w : World C) (k : Nat) :
    (w.dropChat k).tasks = Function.update w.tasks (.chat k) (.done ()) := by
  obtain ⟨_, _, shape, _⟩ := dropChat_eq w k
  rw [shape]
  rfl

theorem dropChat_keeps (w : World C) (k : Nat) :
    (w.dropChat k).loop = w.loop ∧ (w.dropChat k).commands = w.commands ∧
      (w.dropChat k).archive = w.archive ∧ (w.dropChat k).payments = w.payments ∧
      (w.dropChat k).jobs = w.jobs ∧ (w.dropChat k).storage = w.storage := by
  obtain ⟨_, _, shape, _⟩ := dropChat_eq w k
  rw [shape]
  exact ⟨rfl, rfl, rfl, rfl, rfl, rfl⟩

theorem selectPending_rows {requestId : RequestId} {rows : List PendingPayment}
    (answered : w.perform X (.selectPending requestId) (.ok rows) = some w') :
    rows = w.payments.pendingForRequest requestId := by
  cases performed answered with
  | silent quiet => cases quiet
  | select requestId => rfl

theorem recvJob_queued {job : SettlementJob} (answered : w.perform X .recvJob job = some w') :
    job ∈ w.jobs := by
  cases performed answered with
  | silent quiet => cases quiet
  | taken job rest first =>
    rw [first]
    exact List.mem_cons_self

theorem collectBids_collected {rx : BidChannelId} {bids : List InferenceBid}
    (answered : w.perform X (.collectBids rx) bids = some w') : bids = (w.bids rx).collected := by
  cases performed answered with
  | silent quiet => cases quiet
  | collected rx => rfl

theorem newOneshot_request {request : RequestId} {id : OneshotId}
    (answered : w.perform X (.newOneshot request) id = some w') : id.request = request := by
  cases performed answered with
  | silent quiet => cases quiet
  | oneshot request => rfl

theorem awaitPublish_reply {tx : OneshotId} {rx : BidChannelId}
    (answered : w.perform X (.awaitPublish tx) (.ok rx) = some w') :
    w.publishReplies tx = some (.ok rx) := by
  cases performed answered with
  | silent quiet => cases quiet
  | outcome tx result ready =>
    rcases ready with ready | ⟨_, failed⟩
    · exact ready
    · cases failed

end Coordinator
