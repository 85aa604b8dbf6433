import Pinaivu.Async.Evaluation
import Pinaivu.Coordinator.System

namespace Coordinator

open Protocol Crypto Async

variable {C : Primitives} {X : Externals} {requestId : RequestId} {lines : List PayoutLine} {w w' : World C}
  {calls : List (Σ op, Answer op)} {result : Except String Unit}

/-- The coordinator as it answers the calls of one task with nothing else going on. -/
def World.Answers (X : Externals) (w : World C) (op : Call) (answer : Answer op) (w' : World C) : Prop :=
  w.perform X op answer = some w'

def drawnIds (calls : List (Σ op, Answer op)) : List Uuid :=
  calls.filterMap fun
    | ⟨.newUuid, id⟩ => some id
    | _ => none

def insertAnswers (calls : List (Σ op, Answer op)) : List (Except String Unit) :=
  calls.filterMap fun
    | ⟨.insertPayment _, answer⟩ => some answer
    | _ => none

def pendingRows (requestId : RequestId) (ids : List Uuid) (lines : List PayoutLine) : Payments :=
  (rowsFor requestId ids lines).map fun row => ⟨row, .pending, none⟩

theorem pendingRows_cons (id : Uuid) (ids : List Uuid) (line : PayoutLine) (lines : List PayoutLine) :
    pendingRows requestId (id :: ids) (line :: lines) =
      ⟨line.row id requestId, .pending, none⟩ :: pendingRows requestId ids lines := rfl

/-- Everything that can come of `insert_pending`: the rows of the lines before the first that fails. -/
theorem insertPending_evaluates
    (evaluated : Routine.Evaluates (World.Answers X) (insertPending requestId lines) w calls result w')
    (distinct : (drawnIds calls).Nodup) (fresh : ∀ id ∈ drawnIds calls, ∀ p ∈ w.payments, p.row.id ≠ id) :
    ∃ stored rest, lines = stored ++ rest ∧ stored.length ≤ (drawnIds calls).length ∧
      w'.payments = w.payments ++ pendingRows requestId (drawnIds calls) stored ∧ w'.jobs = w.jobs ∧
      (result = .ok () ∧ rest = [] ∧ insertAnswers calls = .replicate stored.length (.ok ()) ∨
        ∃ e, result = .error e ∧ rest ≠ [] ∧ insertAnswers calls = .replicate stored.length (.ok ()) ++ [.error e]) := by
  induction lines generalizing w calls with
  | nil =>
    cases evaluated with
    | done => exact ⟨[], [], rfl, Nat.zero_le _, by simp [pendingRows, rowsFor], rfl, .inl ⟨rfl, rfl, rfl⟩⟩
  | cons line lines ih =>
    cases evaluated with
    | @call _ _ id _ _ _ _ _ drawn rest =>
      cases drawn
      cases rest with
      | @call _ _ answer _ m _ calls _ given rest =>
        change (id :: drawnIds calls).Nodup at distinct
        rw [List.nodup_cons] at distinct
        have new : ∀ p ∈ w.payments, p.row.id ≠ id := fresh id List.mem_cons_self
        cases answer with
        | error e =>
          cases given
          cases rest with
          | done =>
            exact ⟨[], line :: lines, rfl, Nat.zero_le _, by simp [pendingRows, rowsFor], rfl, .inr ⟨e, rfl, List.cons_ne_nil _ _, rfl⟩⟩
        | ok =>
          cases given
          have table : w.payments.insert (line.row id requestId) = _ := insert_fresh new
          have later : ∀ other ∈ drawnIds calls, ∀ p ∈ w.payments.insert (line.row id requestId), p.row.id ≠ other := by
            intro other member p inside
            rw [table] at inside
            rcases List.mem_append.mp inside with old | added
            · exact fresh other (List.mem_cons_of_mem _ member) p old
            · rw [List.mem_singleton.mp added]
              intro same
              subst same
              exact distinct.1 member
          obtain ⟨stored, left, rfl, room, rows, jobs, outcome⟩ := ih rest distinct.2 later
          refine ⟨line :: stored, left, rfl, Nat.succ_le_succ room, ?_, jobs, ?_⟩
          · rw [rows]
            change w.payments.insert _ ++ _ = w.payments ++ pendingRows requestId (id :: drawnIds calls) (line :: stored)
            rw [table, pendingRows_cons, List.append_assoc]
            rfl
          · rcases outcome with ⟨done, ended, answers⟩ | ⟨e, failed, left, answers⟩
            · refine .inl ⟨done, ended, ?_⟩
              change .ok () :: insertAnswers calls = _
              rw [answers]
              rfl
            · refine .inr ⟨e, failed, left, ?_⟩
              change .ok () :: insertAnswers calls = _
              rw [answers]
              rfl

theorem pendingRows_length {ids : List Uuid} (room : lines.length ≤ ids.length) :
    (pendingRows requestId ids lines).length = lines.length := by
  rw [pendingRows, rowsFor, List.length_map, List.length_zipWith, Nat.min_eq_right room]

theorem drawnIds_append (first second : List (Σ op, Answer op)) :
    drawnIds (first ++ second) = drawnIds first ++ drawnIds second := List.filterMap_append

theorem id_of_pendingRows {ids : List Uuid} {p : Payment} (member : p ∈ pendingRows requestId ids lines) :
    p.row.id ∈ ids := by
  obtain ⟨row, inside, rfl⟩ := List.mem_map.mp member
  exact (rowsFor_ids requestId ids lines).subset (List.mem_map.mpr ⟨row, inside, rfl⟩)

def Payment.content (p : Payment) : RequestId × String × String × Int64 × PaymentStatus :=
  (p.row.requestId, p.row.payeePeerId, p.row.payeeSuiAddress, p.row.amountNanox, p.status)

def FreshIds (w : World C) (calls : List (Σ op, Answer op)) : Prop :=
  (drawnIds calls).Nodup ∧ ∀ id ∈ drawnIds calls, ∀ p ∈ w.payments, p.row.id ≠ id

def sampleLine : PayoutLine := ⟨"12D3KooWPeerNode1", "0xa", 1000⟩

def otherLine : PayoutLine := ⟨"12D3KooWPeerNode2", "0xb", 500⟩

def sampleId (n : UInt8) : Uuid := ⟨Vector.replicate 16 n⟩

def idleWorld : World (Primitives.marking []) :=
  World.start (EventLoop.new (C := Primitives.marking []) (Vector.replicate 32 0) true true) (.postgres fun _ => none) 60000

def insertCalls (line : PayoutLine) (id : Uuid) (answer : Except String Unit) : List (Σ op, Answer op) :=
  [⟨.newUuid, id⟩, ⟨.insertPayment (line.row id (sampleId 0)), answer⟩]

theorem insertCalls_evaluate (X : Externals) (w : World C) (line : PayoutLine) (id : Uuid) :
    Routine.Evaluates (World.Answers X) (insertPending (sampleId 0) [line]) w (insertCalls line id (.ok ())) (.ok ())
      { w with payments := w.payments.insert (line.row id (sampleId 0)) } := .call rfl (.call rfl .done)

/-- The conflict clause never fires, so a repetition adds all rows once more. -/
theorem insert_pending_idempotent_iff (X : Externals) (requestId : RequestId) (lines : List PayoutLine)
    (w first second : World C) (calls again : List (Σ op, Answer op))
    (once : Routine.Evaluates (World.Answers X) (insertPending requestId lines) w calls (.ok ()) first)
    (twice : Routine.Evaluates (World.Answers X) (insertPending requestId lines) first again (.ok ()) second)
    (fresh : FreshIds w (calls ++ again)) :
    (second.payments.map Payment.content).Perm (first.payments.map Payment.content) ↔ lines = [] := by
  obtain ⟨distinct, new⟩ := fresh
  rw [drawnIds_append] at distinct new
  obtain ⟨stored, rest, _, _, rows, _⟩ := insertPending_evaluates once distinct.of_append_left
    fun id member => new id (List.mem_append_left _ member)
  have renewed : ∀ id ∈ drawnIds again, ∀ p ∈ first.payments, p.row.id ≠ id := by
    intro id member p inside
    rw [rows] at inside
    rcases List.mem_append.mp inside with old | added
    · exact new id (List.mem_append_right _ member) p old
    · intro equal
      subst equal
      exact List.disjoint_of_nodup_append distinct (id_of_pendingRows added) member
  obtain ⟨stored', rest', shape, room, rows', _, outcome⟩ :=
    insertPending_evaluates twice distinct.of_append_right renewed
  have all : lines = stored' := by
    rcases outcome with ⟨_, ended, _⟩ | ⟨e, failed, _⟩
    · rw [shape, ended, List.append_nil]
    · cases failed
  rw [← all] at room rows'
  constructor
  · intro same
    have count := same.length_eq
    rw [rows', List.length_map, List.length_map, List.length_append, pendingRows_length room] at count
    exact List.eq_nil_of_length_eq_zero (by omega)
  · intro equal
    subst equal
    rw [rows']
    simp [pendingRows, rowsFor]

theorem sample_insert_repeats :
    let X := Externals.serde (fun _ => none) fun text => .ok ⟨text⟩
    ∃ first second, Routine.Evaluates (World.Answers X) (insertPending (sampleId 0) [sampleLine]) idleWorld
        (insertCalls sampleLine (sampleId 1) (.ok ())) (.ok ()) first ∧
      Routine.Evaluates (World.Answers X) (insertPending (sampleId 0) [sampleLine]) first
        (insertCalls sampleLine (sampleId 2) (.ok ())) (.ok ()) second ∧
      ¬ (second.payments.map Payment.content).Perm (first.payments.map Payment.content) := by
  intro X
  have once := insertCalls_evaluate X idleWorld sampleLine (sampleId 1)
  have twice := insertCalls_evaluate X { idleWorld with
    payments := idleWorld.payments.insert (sampleLine.row (sampleId 1) (sampleId 0)) } sampleLine (sampleId 2)
  have fresh : FreshIds idleWorld
      (insertCalls sampleLine (sampleId 1) (.ok ()) ++ insertCalls sampleLine (sampleId 2) (.ok ())) :=
    ⟨by decide, fun _ _ _ inside => absurd inside List.not_mem_nil⟩
  exact ⟨_, _, once, twice,
    fun same => nomatch (insert_pending_idempotent_iff X _ [sampleLine] _ _ _ _ _ once twice fresh).mp same⟩

theorem duplicate_ack_doubles_row :
    let X := Externals.serde (fun _ => none) fun text => .ok ⟨text⟩
    ∃ first second, Routine.Evaluates (World.Answers X) (insertPending (sampleId 0) [sampleLine]) idleWorld
        (insertCalls sampleLine (sampleId 1) (.ok ())) (.ok ()) first ∧
      Routine.Evaluates (World.Answers X) (insertPending (sampleId 0) [sampleLine]) first
        (insertCalls sampleLine (sampleId 2) (.ok ())) (.ok ()) second ∧
      FreshIds idleWorld
        (insertCalls sampleLine (sampleId 1) (.ok ()) ++ insertCalls sampleLine (sampleId 2) (.ok ())) ∧
      first.payments.map Payment.content = [(sampleId 0, "12D3KooWPeerNode1", "0xa", 1000, .pending)] ∧
      second.payments.map Payment.content =
        [(sampleId 0, "12D3KooWPeerNode1", "0xa", 1000, .pending), (sampleId 0, "12D3KooWPeerNode1", "0xa", 1000, .pending)] := by
  intro X
  refine ⟨_, _, insertCalls_evaluate X _ _ _, insertCalls_evaluate X _ _ _, ⟨by decide, ?_⟩, by decide, by decide⟩
  exact fun _ _ _ inside => absurd inside List.not_mem_nil

/-- All rows or none, and none if the caller goes on without a job. -/
def Atomic (X : Externals) (requestId : RequestId) (lines : List PayoutLine) (w : World C)
    (calls : List (Σ op, Answer op)) (result : Except String Unit) (w' : World C) : Prop :=
  ∀ e, result = .error e → w'.payments = w.payments ∧ ∀ (self : EventLoop C) (receipt : RoutingReceipt),
    self.pgPool = true → receipt.requestId = requestId →
      Routine.Evaluates (World.Answers X) (self.queuePayments X receipt lines) w calls () w' ∧ w'.jobs = w.jobs

/-- The rows go in one by one, so a failed statement leaves none of them only where it is the first. -/
theorem insert_pending_atomic_iff (X : Externals) (requestId : RequestId) (lines : List PayoutLine) (w w' : World C)
    (calls : List (Σ op, Answer op)) (result : Except String Unit)
    (evaluated : Routine.Evaluates (World.Answers X) (insertPending requestId lines) w calls result w')
    (fresh : FreshIds w calls) :
    Atomic X requestId lines w calls result w' ↔
      ∀ k e, insertAnswers calls = .replicate k (.ok ()) ++ [.error e] → k = 0 := by
  obtain ⟨stored, rest, shape, room, rows, jobs, outcome⟩ := insertPending_evaluates evaluated fresh.1 fresh.2
  rcases outcome with ⟨rfl, _, answers⟩ | ⟨e, rfl, left, answers⟩
  · refine ⟨fun _ k e failed => ?_, fun _ _ => nofun⟩
    have member : (.error e : Except String Unit) ∈ insertAnswers calls := by
      rw [failed]
      exact List.mem_append_right _ (List.mem_singleton_self _)
    rw [answers] at member
    cases List.eq_of_mem_replicate member
  · constructor
    · intro atomic k e' failed
      have same := (atomic e rfl).1
      rw [rows] at same
      have none := congrArg List.length (List.append_right_eq_self.mp same)
      rw [pendingRows_length room] at none
      have count := congrArg List.length (answers.symm.trans failed)
      simp only [List.length_append, List.length_replicate, List.length_singleton] at count
      change stored.length = 0 at none
      omega
    · intro early e' failed
      have none : stored = [] := List.eq_nil_of_length_eq_zero (early _ e answers)
      refine ⟨?_, ?_⟩
      · rw [rows, none]
        simp [pendingRows, rowsFor]
      · intro self receipt pool own
        have some : lines ≠ [] := by
          rw [shape]
          exact List.append_ne_nil_of_right_ne_nil _ left
        refine ⟨?_, jobs⟩
        rw [EventLoop.queuePayments, if_pos (by simp [pool, some]), own, ← List.append_nil calls]
        exact evaluated.seq .done

theorem first_insert_fails_cleanly :
    let X := Externals.serde (fun _ => none) fun text => .ok ⟨text⟩
    ∃ w', Routine.Evaluates (World.Answers X) (insertPending (sampleId 0) [sampleLine, otherLine]) idleWorld
        (insertCalls sampleLine (sampleId 1) (.error "connection reset")) (.error "connection reset") w' ∧
      Atomic X (sampleId 0) [sampleLine, otherLine] idleWorld
        (insertCalls sampleLine (sampleId 1) (.error "connection reset")) (.error "connection reset") w' := by
  intro X
  have evaluated : Routine.Evaluates (World.Answers X) (insertPending (sampleId 0) [sampleLine, otherLine]) idleWorld
      (insertCalls sampleLine (sampleId 1) (.error "connection reset")) (.error "connection reset") _ :=
    .call rfl (.call rfl .done)
  have fresh : FreshIds idleWorld (insertCalls sampleLine (sampleId 1) (.error "connection reset")) :=
    ⟨by decide, fun _ _ _ inside => absurd inside List.not_mem_nil⟩
  refine ⟨_, evaluated, (insert_pending_atomic_iff X _ _ _ _ _ _ evaluated fresh).mpr ?_⟩
  intro k e answers
  have count := congrArg List.length answers
  simp only [List.length_append, List.length_replicate, List.length_singleton] at count
  change 1 = k + 1 at count
  omega

theorem second_insert_fails_halfway :
    let X := Externals.serde (fun _ => none) fun text => .ok ⟨text⟩
    let calls := insertCalls sampleLine (sampleId 1) (.ok ()) ++
      insertCalls otherLine (sampleId 2) (.error "connection reset")
    ∃ w', Routine.Evaluates (World.Answers X) (insertPending (sampleId 0) [sampleLine, otherLine]) idleWorld calls
        (.error "connection reset") w' ∧
      FreshIds idleWorld calls ∧ idleWorld.payments = [] ∧
      w'.payments = [⟨sampleLine.row (sampleId 1) (sampleId 0), .pending, none⟩] := by
  intro X calls
  refine ⟨_, .call rfl (.call rfl (.call rfl (.call rfl .done))), ⟨by decide, ?_⟩, rfl, by decide⟩
  exact fun _ _ _ inside => absurd inside List.not_mem_nil

end Coordinator
