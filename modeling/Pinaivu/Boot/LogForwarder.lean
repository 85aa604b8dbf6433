import Pinaivu.Async.Run
import Pinaivu.Store.Segments

namespace Boot

open Async Store

structure Connection where
  openedAt : Nat
  accepted : List UInt8
  interrupted : Option (Nat × Nat)
  deriving DecidableEq

/-- Where `log_forwarder` stands between two calls of the system. -/
inductive Phase where
  | connecting
  | opening
  | sizing
  | seeking
  | reading
  | sending (chunk : List UInt8) (sent : Nat)
  deriving DecidableEq

structure Forwarder where
  phase : Phase
  pos : Nat
  file : List UInt8
  connections : List Connection
  deriving DecidableEq

/-- A call with its outcome, `none` and `false` being errors; or the file grows. -/
inductive Syscall where
  | grow (bytes : List UInt8)
  | connect (done : Bool)
  | openFile (done : Bool)
  | metadata (len : Option Nat)
  | seek (done : Bool)
  | read (count : Option Nat)
  | send (count : Option Nat)
  deriving DecidableEq

def bufferSize : Nat := 4096

namespace Forwarder

def start (file : List UInt8) : Forwarder := ⟨.connecting, 0, file, []⟩

def sized (s : Forwarder) (size : Nat) : Forwarder :=
  let pos := if size < s.pos then 0 else s.pos
  if size ≤ pos then { s with pos := pos, phase := .opening } else { s with pos := pos, phase := .seeking }

def accept (s : Forwarder) (chunk : List UInt8) (sent count : Nat) : Forwarder :=
  let connections := s.connections.modifyHead fun c =>
    { c with accepted := c.accepted ++ (chunk.drop sent).take count }
  if sent + count < chunk.length then
    { s with phase := .sending chunk (sent + count), connections := connections }
  else { s with phase := .opening, pos := s.pos + chunk.length, connections := connections }

def disconnect (s : Forwarder) (chunk : List UInt8) : Forwarder :=
  { s with
    phase := .connecting
    connections := s.connections.modifyHead fun c => { c with interrupted := some (s.pos, chunk.length) } }

/-- One call of the system; `none` where the forwarder does not make it, or it cannot end so. -/
def step (s : Forwarder) : Syscall → Option Forwarder
  | .grow bytes => some { s with file := s.file ++ bytes }
  | .connect done =>
    if s.phase = .connecting then
      some (if done then { s with phase := .opening, connections := ⟨s.pos, [], none⟩ :: s.connections } else s)
    else none
  | .openFile done =>
    if s.phase = .opening then some (if done then { s with phase := .sizing } else s) else none
  | .metadata len =>
    if s.phase = .sizing then
      match len with
      | some size => if size = s.file.length then some (s.sized size) else none
      | none => some (s.sized 0)
    else none
  | .seek done =>
    if s.phase = .seeking then
      some (if done then { s with phase := .reading } else { s with pos := 0, phase := .opening })
    else none
  | .read count =>
    if s.phase = .reading then
      match count with
      | none => some { s with phase := .opening }
      | some n =>
        if n ≤ bufferSize ∧ s.pos + n ≤ s.file.length then
          some (if n = 0 then { s with phase := .opening }
            else { s with phase := .sending ((s.file.drop s.pos).take n) 0 })
        else none
    else none
  | .send count =>
    match s.phase with
    | .sending chunk sent =>
      match count with
      | none => some (s.disconnect chunk)
      | some n => if n ≤ chunk.length - sent then some (s.accept chunk sent n) else none
    | _ => none

end Forwarder

inductive Stepped (s : Forwarder) : Syscall → Forwarder → Prop where
  | grew (bytes : List UInt8) : Stepped s (.grow bytes) { s with file := s.file ++ bytes }
  | refused (phase : s.phase = .connecting) : Stepped s (.connect false) s
  | connected (phase : s.phase = .connecting) :
      Stepped s (.connect true)
        { s with phase := .opening, connections := ⟨s.pos, [], none⟩ :: s.connections }
  | missing (phase : s.phase = .opening) : Stepped s (.openFile false) s
  | opened (phase : s.phase = .opening) : Stepped s (.openFile true) { s with phase := .sizing }
  | sized (phase : s.phase = .sizing) :
      Stepped s (.metadata (some s.file.length)) (s.sized s.file.length)
  | unsized (phase : s.phase = .sizing) : Stepped s (.metadata none) (s.sized 0)
  | sought (phase : s.phase = .seeking) : Stepped s (.seek true) { s with phase := .reading }
  | unsought (phase : s.phase = .seeking) : Stepped s (.seek false) { s with pos := 0, phase := .opening }
  | unread (count : Option Nat) (phase : s.phase = .reading) :
      Stepped s (.read count) { s with phase := .opening }
  | chunk {n : Nat} (phase : s.phase = .reading) (nonempty : n ≠ 0) (inside : s.pos + n ≤ s.file.length) :
      Stepped s (.read (some n)) { s with phase := .sending ((s.file.drop s.pos).take n) 0 }
  | accepted {chunk : List UInt8} {sent n : Nat} (phase : s.phase = .sending chunk sent)
      (room : n ≤ chunk.length - sent) : Stepped s (.send (some n)) (s.accept chunk sent n)
  | broken {chunk : List UInt8} {sent : Nat} (phase : s.phase = .sending chunk sent) :
      Stepped s (.send none) (s.disconnect chunk)

theorem step_cases {s t : Forwarder} {call : Syscall} (taken : s.step call = some t) : Stepped s call t := by
  cases call with
  | grow bytes =>
    cases taken
    exact .grew bytes
  | connect done =>
    simp only [Forwarder.step] at taken
    split at taken
    · rename_i phase
      cases taken
      cases done with
      | false => exact .refused phase
      | true => exact .connected phase
    · cases taken
  | openFile done =>
    simp only [Forwarder.step] at taken
    split at taken
    · rename_i phase
      cases taken
      cases done with
      | false => exact .missing phase
      | true => exact .opened phase
    · cases taken
  | metadata len =>
    simp only [Forwarder.step] at taken
    split at taken
    · rename_i phase
      cases len with
      | none =>
        cases taken
        exact .unsized phase
      | some size =>
        simp only at taken
        split at taken
        · rename_i whole
          cases taken
          subst size
          exact .sized phase
        · cases taken
    · cases taken
  | seek done =>
    simp only [Forwarder.step] at taken
    split at taken
    · rename_i phase
      cases taken
      cases done with
      | false => exact .unsought phase
      | true => exact .sought phase
    · cases taken
  | read count =>
    simp only [Forwarder.step] at taken
    split at taken
    · rename_i phase
      cases count with
      | none =>
        cases taken
        exact .unread none phase
      | some n =>
        simp only at taken
        split at taken
        · rename_i inside
          cases taken
          by_cases nothing : n = 0
          · rw [if_pos nothing]
            exact .unread (some n) phase
          · rw [if_neg nothing]
            exact .chunk phase nothing inside.2
        · cases taken
    · cases taken
  | send count =>
    simp only [Forwarder.step] at taken
    split at taken
    · rename_i chunk sent phase
      cases count with
      | none =>
        cases taken
        exact .broken phase
      | some n =>
        simp only at taken
        split at taken
        · rename_i room
          cases taken
          exact .accepted phase room
        · cases taken
    · cases taken

/-- The calls on the log file that must not fail: a failure puts `pos` back to the start. -/
def Syscall.Succeeds : Syscall → Prop
  | .metadata len => len ≠ none
  | .seek done => done = true
  | _ => True

instance : DecidablePred Syscall.Succeeds := fun call =>
  match call with
  | .metadata len => inferInstanceAs (Decidable (len ≠ none))
  | .seek done => inferInstanceAs (Decidable (done = true))
  | .grow _ => .isTrue trivial
  | .connect _ => .isTrue trivial
  | .openFile _ => .isTrue trivial
  | .read _ => .isTrue trivial
  | .send _ => .isTrue trivial

def Connection.reach (c : Connection) : Nat := c.openedAt + c.accepted.length

def Connection.Ended (c : Connection) (pos : Nat) : Prop :=
  ∃ start length, c.interrupted = some (start, length) ∧ start ≤ pos ∧ c.reach ≤ start + length

def Phase.sent : Phase → Nat
  | .sending _ sent => sent
  | _ => 0

def Phase.between : Phase → Bool
  | .opening => true
  | .sizing => true
  | .seeking => true
  | .reading => true
  | _ => false

/-- What the connections, the newest first, have accepted of the file's first `pos` bytes. -/
structure Ledger (file : List UInt8) (pos : Nat) (connections : List Connection) : Prop where
  segments : ∀ c ∈ connections, IsSegment file c.openedAt c.accepted
  covered : ∀ i < pos, ∃ c ∈ connections, c.openedAt ≤ i ∧ i < c.reach
  ended : connections.Pairwise fun newer older => older.Ended newer.openedAt

structure Consistent (s : Forwarder) : Prop where
  bound : s.pos ≤ s.file.length
  ledger : Ledger s.file s.pos s.connections
  closed : s.phase = .connecting → ∀ c ∈ s.connections, c.Ended s.pos
  current : s.phase ≠ .connecting →
    ∃ c older, s.connections = c :: older ∧ c.openedAt ≤ s.pos ∧ c.reach = s.pos + s.phase.sent
  chunk : ∀ chunk sent, s.phase = .sending chunk sent → sent < chunk.length ∧ IsSegment s.file s.pos chunk

theorem Connection.Ended.mono {c : Connection} {pos later : Nat} (ended : c.Ended pos) (after : pos ≤ later) :
    c.Ended later := by
  obtain ⟨start, length, interrupted, before, short⟩ := ended
  exact ⟨start, length, interrupted, Nat.le_trans before after, short⟩

theorem Phase.between_spec {p : Phase} (between : p.between = true) :
    p ≠ .connecting ∧ p.sent = 0 ∧ ∀ chunk sent, p ≠ .sending chunk sent := by
  cases p with
  | connecting => cases between
  | sending chunk sent => cases between
  | _ => simp [Phase.sent]

namespace Ledger

variable {file : List UInt8} {pos : Nat} {c d : Connection} {connections older : List Connection}

theorem grow (kept : Ledger file pos connections) (bytes : List UInt8) :
    Ledger (file ++ bytes) pos connections where
  segments c member := (kept.segments c member).grow bytes
  covered := kept.covered
  ended := kept.ended

theorem connect (kept : Ledger file pos connections) (closed : ∀ c ∈ connections, c.Ended pos) :
    Ledger file pos (⟨pos, [], none⟩ :: connections) := by
  constructor
  · intro c member
    rcases List.mem_cons.mp member with fresh | old
    · subst c
      exact IsSegment.empty _ _
    · exact kept.segments c old
  · intro i below
    obtain ⟨c, member, within⟩ := kept.covered i below
    exact ⟨c, List.mem_cons_of_mem _ member, within⟩
  · exact List.pairwise_cons.mpr ⟨closed, kept.ended⟩

theorem replace (kept : Ledger file pos (c :: older)) (opened : d.openedAt = c.openedAt)
    (further : c.reach ≤ d.reach) (segment : IsSegment file d.openedAt d.accepted) :
    Ledger file pos (d :: older) := by
  constructor
  · intro e member
    rcases List.mem_cons.mp member with fresh | old
    · subst e
      exact segment
    · exact kept.segments e (List.mem_cons_of_mem _ old)
  · intro i below
    obtain ⟨e, member, above, within⟩ := kept.covered i below
    rcases List.mem_cons.mp member with fresh | old
    · subst e
      refine ⟨d, List.mem_cons_self, ?_, ?_⟩
      · omega
      · omega
    · exact ⟨e, List.mem_cons_of_mem _ old, above, within⟩
  · obtain ⟨before, rest⟩ := List.pairwise_cons.mp kept.ended
    apply List.pairwise_cons.mpr
    rw [opened]
    exact ⟨before, rest⟩

theorem advance (kept : Ledger file pos (c :: older)) (opened : c.openedAt ≤ pos) {later : Nat}
    (reached : later ≤ c.reach) : Ledger file later (c :: older) := by
  constructor
  · exact kept.segments
  · intro i below
    by_cases before : i < pos
    · exact kept.covered i before
    · refine ⟨c, List.mem_cons_self, ?_, ?_⟩
      · omega
      · omega
  · exact kept.ended

end Ledger

namespace Consistent

variable {s t : Forwarder}

theorem start (file : List UInt8) : Consistent (.start file) where
  bound := Nat.zero_le _
  ledger := by
    constructor
    · simp [Forwarder.start]
    · simp [Forwarder.start]
    · exact List.Pairwise.nil
  closed := by simp [Forwarder.start]
  current := by simp [Forwarder.start]
  chunk := by simp [Forwarder.start]

theorem grow (kept : Consistent s) (bytes : List UInt8) : Consistent { s with file := s.file ++ bytes } := by
  have bound := kept.bound
  constructor
  · show s.pos ≤ (s.file ++ bytes).length
    rw [List.length_append]
    omega
  · exact kept.ledger.grow bytes
  · exact kept.closed
  · exact kept.current
  · intro chunk sent phase
    obtain ⟨short, segment⟩ := kept.chunk chunk sent phase
    exact ⟨short, segment.grow bytes⟩

theorem move (kept : Consistent s) {p : Phase} (left : s.phase.between = true) (right : p.between = true) :
    Consistent { s with phase := p } := by
  obtain ⟨connected, nothing, _⟩ := Phase.between_spec left
  obtain ⟨connected', nothing', reading⟩ := Phase.between_spec right
  constructor
  · exact kept.bound
  · exact kept.ledger
  · intro phase
    exact absurd phase connected'
  · intro _
    have current := kept.current connected
    rw [nothing] at current
    show ∃ c older, s.connections = c :: older ∧ c.openedAt ≤ s.pos ∧ c.reach = s.pos + p.sent
    rw [nothing']
    exact current
  · intro chunk sent phase
    exact absurd phase (reading chunk sent)

theorem connect (kept : Consistent s) (phase : s.phase = .connecting) :
    Consistent { s with phase := .opening, connections := ⟨s.pos, [], none⟩ :: s.connections } := by
  constructor
  · exact kept.bound
  · exact kept.ledger.connect (kept.closed phase)
  · intro phase'
    cases phase'
  · intro _
    exact ⟨_, _, rfl, Nat.le_refl _, rfl⟩
  · intro chunk sent phase'
    cases phase'

theorem sized (kept : Consistent s) (phase : s.phase = .sizing) : Consistent (s.sized s.file.length) := by
  have ahead : ¬ s.file.length < s.pos := Nat.not_lt.mpr kept.bound
  have between : s.phase.between = true := by rw [phase]; rfl
  unfold Forwarder.sized
  simp only [if_neg ahead]
  split
  · exact kept.move between rfl
  · exact kept.move between rfl

theorem readChunk (kept : Consistent s) (phase : s.phase = .reading) {n : Nat} (nonempty : n ≠ 0)
    (inside : s.pos + n ≤ s.file.length) :
    Consistent { s with phase := .sending ((s.file.drop s.pos).take n) 0 } := by
  constructor
  · exact kept.bound
  · exact kept.ledger
  · intro phase'
    cases phase'
  · intro _
    have current := kept.current (by rw [phase]; simp)
    rw [phase] at current
    exact current
  · intro chunk sent phase'
    cases phase'
    constructor
    · rw [List.length_take, List.length_drop]
      omega
    · exact List.take_prefix _ _

theorem sending (kept : Consistent s) {chunk : List UInt8} {sent : Nat} (phase : s.phase = .sending chunk sent) :
    ∃ c older, s.connections = c :: older ∧ c.openedAt ≤ s.pos ∧ c.reach = s.pos + sent := by
  have current := kept.current (by rw [phase]; simp)
  rw [phase] at current
  exact current

theorem disconnect (kept : Consistent s) {chunk : List UInt8} {sent : Nat}
    (phase : s.phase = .sending chunk sent) : Consistent (s.disconnect chunk) := by
  obtain ⟨c, older, shape, opened, reach⟩ := kept.sending phase
  obtain ⟨short, _⟩ := kept.chunk chunk sent phase
  have ledger := kept.ledger
  rw [shape] at ledger
  have connections : (s.disconnect chunk).connections =
      { c with interrupted := some (s.pos, chunk.length) } :: older := by
    simp [Forwarder.disconnect, shape]
  constructor
  · exact kept.bound
  · rw [connections]
    exact ledger.replace rfl (Nat.le_refl _) (ledger.segments c List.mem_cons_self)
  · intro _
    rw [connections]
    intro d member
    rcases List.mem_cons.mp member with fresh | old
    · subst d
      refine ⟨s.pos, chunk.length, rfl, Nat.le_refl _, ?_⟩
      show c.reach ≤ s.pos + chunk.length
      omega
    · exact ((List.pairwise_cons.mp ledger.ended).1 d old).mono opened
  · intro phase'
    exact absurd rfl phase'
  · intro _ _ phase'
    cases phase'

theorem accept (kept : Consistent s) {chunk : List UInt8} {sent n : Nat}
    (phase : s.phase = .sending chunk sent) (room : n ≤ chunk.length - sent) :
    Consistent (s.accept chunk sent n) := by
  obtain ⟨c, older, shape, opened, reach⟩ := kept.sending phase
  obtain ⟨short, segment⟩ := kept.chunk chunk sent phase
  have ledger := kept.ledger
  rw [shape] at ledger
  let grown : Connection := { c with accepted := c.accepted ++ (chunk.drop sent).take n }
  have connections : s.connections.modifyHead (fun c =>
      { c with accepted := c.accepted ++ (chunk.drop sent).take n }) = grown :: older := by
    rw [shape]
    rfl
  have reached : grown.reach = s.pos + (sent + n) := by
    have width : ((chunk.drop sent).take n).length = n := by
      rw [List.length_take, List.length_drop]
      omega
    change c.openedAt + (c.accepted ++ (chunk.drop sent).take n).length = _
    rw [List.length_append, width, ← Nat.add_assoc]
    change c.reach + n = _
    omega
  have extended : Ledger s.file s.pos (grown :: older) := by
    have further : c.reach ≤ grown.reach := by omega
    apply ledger.replace (d := grown) rfl further
    apply (ledger.segments c List.mem_cons_self).extend
    change IsSegment s.file c.reach _
    rw [reach]
    exact segment.part sent n
  unfold Forwarder.accept
  simp only [connections]
  split
  · rename_i more
    constructor
    · exact kept.bound
    · exact extended
    · intro phase'
      cases phase'
    · intro _
      exact ⟨grown, older, rfl, opened, reached⟩
    · intro chunk' sent' phase'
      cases phase'
      exact ⟨more, segment⟩
  · have whole : sent + n = chunk.length := by omega
    rw [whole] at reached
    constructor
    · exact segment.length_le kept.bound
    · exact extended.advance opened (Nat.le_of_eq reached.symm)
    · intro phase'
      cases phase'
    · intro _
      exact ⟨grown, older, rfl, Nat.le_trans opened (Nat.le_add_right _ _), reached⟩
    · intro chunk' sent' phase'
      cases phase'

theorem step (kept : Consistent s) {call : Syscall} (succeeds : call.Succeeds)
    (taken : s.step call = some t) : Consistent t := by
  cases step_cases taken with
  | grew bytes => exact kept.grow bytes
  | refused phase => exact kept
  | connected phase => exact kept.connect phase
  | missing phase => exact kept
  | opened phase => exact kept.move (by rw [phase]; rfl) rfl
  | sized phase => exact kept.sized phase
  | unsized phase => exact absurd rfl succeeds
  | sought phase => exact kept.move (by rw [phase]; rfl) rfl
  | unsought phase => cases succeeds
  | unread count phase => exact kept.move (by rw [phase]; rfl) rfl
  | chunk phase nonempty inside => exact kept.readChunk phase nonempty inside
  | accepted phase room => exact kept.accept phase room
  | broken phase => exact kept.disconnect phase

theorem pos_le (kept : Consistent s) {call : Syscall} (succeeds : call.Succeeds)
    (taken : s.step call = some t) : s.pos ≤ t.pos := by
  cases step_cases taken with
  | sized phase =>
    have ahead : ¬ s.file.length < s.pos := Nat.not_lt.mpr kept.bound
    unfold Forwarder.sized
    simp only [if_neg ahead]
    split
    · exact Nat.le_refl _
    · exact Nat.le_refl _
  | unsized phase => exact absurd rfl succeeds
  | unsought phase => cases succeeds
  | accepted phase room =>
    unfold Forwarder.accept
    simp only
    split
    · exact Nat.le_refl _
    · exact Nat.le_add_right _ _
  | _ => exact Nat.le_refl _

end Consistent

abbrev ForwarderRun (s : Forwarder) : List (Forwarder × Syscall) → Forwarder → Prop :=
  Run (fun s call t => s.step call = some t) s

structure Recorded (trace : List (Forwarder × Syscall)) (c : Connection) : Prop where
  opened : ∃ m, (m, .connect true) ∈ trace ∧ m.pos = c.openedAt
  broken : ∀ start length, c.interrupted = some (start, length) →
    ∃ m chunk sent, (m, .send none) ∈ trace ∧ m.phase = .sending chunk sent ∧ m.pos = start ∧
      chunk.length = length

theorem Recorded.extend {trace : List (Forwarder × Syscall)} {c : Connection} (kept : Recorded trace c)
    (last : Forwarder × Syscall) : Recorded (trace ++ [last]) c := by
  constructor
  · obtain ⟨m, member, same⟩ := kept.opened
    exact ⟨m, List.mem_append_left _ member, same⟩
  · intro start length interrupted
    obtain ⟨m, chunk, sent, member, shape⟩ := kept.broken start length interrupted
    exact ⟨m, chunk, sent, List.mem_append_left _ member, shape⟩

variable {s t : Forwarder} {call : Syscall} {trace : List (Forwarder × Syscall)}

theorem sized_connections (size : Nat) : (s.sized size).connections = s.connections := by
  unfold Forwarder.sized
  dsimp only
  by_cases behind : size ≤ if size < s.pos then 0 else s.pos
  · rw [if_pos behind]
  · rw [if_neg behind]

theorem mem_accept {c : Connection} {chunk : List UInt8} {sent n : Nat}
    (member : c ∈ (s.accept chunk sent n).connections) :
    ∃ d ∈ s.connections, c.openedAt = d.openedAt ∧ c.interrupted = d.interrupted := by
  unfold Forwarder.accept at member
  simp only at member
  have changed : c ∈ s.connections.modifyHead fun d =>
      { d with accepted := d.accepted ++ (chunk.drop sent).take n } := by
    split at member
    · exact member
    · exact member
  cases shape : s.connections with
  | nil =>
    rw [shape] at changed
    cases changed
  | cons d older =>
    rw [shape] at changed
    rcases List.mem_cons.mp changed with fresh | old
    · subst c
      exact ⟨d, List.mem_cons_self, rfl, rfl⟩
    · exact ⟨c, List.mem_cons_of_mem _ old, rfl, rfl⟩

theorem recorded_step (kept : ∀ c ∈ s.connections, Recorded trace c) (taken : s.step call = some t) :
    ∀ c ∈ t.connections, Recorded (trace ++ [(s, call)]) c := by
  have here : (s, call) ∈ trace ++ [(s, call)] := List.mem_append_right _ (List.mem_singleton.mpr rfl)
  intro c member
  cases step_cases taken with
  | connected phase =>
    rcases List.mem_cons.mp member with fresh | old
    · subst c
      constructor
      · exact ⟨s, here, rfl⟩
      · intro start length interrupted
        cases interrupted
    · exact (kept c old).extend _
  | sized phase =>
    rw [sized_connections] at member
    exact (kept c member).extend _
  | unsized phase =>
    rw [sized_connections] at member
    exact (kept c member).extend _
  | accepted phase room =>
    obtain ⟨d, old, opened, interrupted⟩ := mem_accept member
    constructor
    · rw [opened]
      exact ((kept d old).extend _).opened
    · rw [interrupted]
      exact ((kept d old).extend _).broken
  | @broken chunk sent phase =>
    unfold Forwarder.disconnect at member
    cases shape : s.connections with
    | nil =>
      rw [shape] at member
      cases member
    | cons d older =>
      rw [shape] at member kept
      rcases List.mem_cons.mp member with fresh | old
      · subst c
        constructor
        · exact ((kept d List.mem_cons_self).extend _).opened
        · intro start length interrupted
          cases interrupted
          exact ⟨s, chunk, sent, here, phase, rfl, rfl⟩
      · exact (kept c (List.mem_cons_of_mem _ old)).extend _
  | _ => exact (kept c member).extend _

structure Told (trace : List (Forwarder × Syscall)) (s : Forwarder) : Prop where
  consistent : Consistent s
  behind : ∀ taken ∈ trace, taken.1.pos ≤ s.pos
  recorded : ∀ c ∈ s.connections, Recorded trace c

theorem told_of_run {file : List UInt8} (run : ForwarderRun (.start file) trace t)
    (succeeds : ∀ taken ∈ trace, taken.2.Succeeds) : Told trace t := by
  apply run.history (I := Told)
  · constructor
    · exact Consistent.start file
    · intro taken member
      cases member
    · intro c member
      cases member
  · intro before m call n _ shape step kept
    have works := succeeds _ (Run.last_mem shape)
    have further := kept.consistent.pos_le works step
    constructor
    · exact kept.consistent.step works step
    · intro taken member
      rcases List.mem_append.mp member with earlier | last
      · exact Nat.le_trans (kept.behind taken earlier) further
      · rw [List.mem_singleton.mp last]
        exact further
    · exact recorded_step kept.recorded step

/-- Whatever the calls return, `pos` never goes back or past the end of the file, each byte below it
    has been accepted on some connection, a connection carries one segment of the file from `pos` as it
    was opened, and what two connections share lies in the chunk that broke the earlier one. -/
theorem log_forwarder_skips_no_byte (file : List UInt8) (trace : List (Forwarder × Syscall)) (t : Forwarder)
    (run : ForwarderRun (.start file) trace t) (succeeds : ∀ taken ∈ trace, taken.2.Succeeds) :
    (∀ taken ∈ trace, taken.1.pos ≤ t.pos) ∧ t.pos ≤ t.file.length ∧
    (∀ i < t.pos, ∃ c ∈ t.connections, c.openedAt ≤ i ∧ i < c.reach ∧
      c.accepted[i - c.openedAt]? = t.file[i]?) ∧
    (∀ c ∈ t.connections, IsSegment t.file c.openedAt c.accepted ∧
      ∃ m, (m, .connect true) ∈ trace ∧ m.pos = c.openedAt) ∧
    t.connections.Pairwise fun newer older =>
      ∀ i, older.openedAt ≤ i → i < older.reach → newer.openedAt ≤ i → i < newer.reach →
        ∃ m chunk sent, (m, .send none) ∈ trace ∧ m.phase = .sending chunk sent ∧
          older.interrupted = some (m.pos, chunk.length) ∧ m.pos ≤ i ∧ i < m.pos + chunk.length := by
  have told := told_of_run run succeeds
  have ledger := told.consistent.ledger
  refine ⟨told.behind, told.consistent.bound, ?_, ?_, ?_⟩
  · intro i below
    obtain ⟨c, member, above, within⟩ := ledger.covered i below
    exact ⟨c, member, above, within, (ledger.segments c member).getElem? above within⟩
  · intro c member
    exact ⟨ledger.segments c member, (told.recorded c member).opened⟩
  · apply ledger.ended.imp_of_mem
    intro newer older _ member ended i _ within above _
    obtain ⟨start, length, interrupted, before, short⟩ := ended
    obtain ⟨m, chunk, sent, taken, phase, pos, width⟩ := (told.recorded older member).broken start length interrupted
    subst start length
    refine ⟨m, chunk, sent, taken, phase, interrupted, ?_, ?_⟩
    · omega
    · omega

def Forwarder.follow (s : Forwarder) : List Syscall → Option (List (Forwarder × Syscall) × Forwarder)
  | [] => some ([], s)
  | call :: calls =>
    match s.step call with
    | none => none
    | some m => (m.follow calls).map fun run => ((s, call) :: run.1, run.2)

theorem Forwarder.follow_run {calls : List Syscall} {s t : Forwarder} {trace : List (Forwarder × Syscall)}
    (followed : s.follow calls = some (trace, t)) : ForwarderRun s trace t := by
  induction calls generalizing s trace with
  | nil =>
    cases followed
    exact .nil
  | cons call calls ih =>
    unfold Forwarder.follow at followed
    cases taken : s.step call with
    | none =>
      rw [taken] at followed
      cases followed
    | some m =>
      rw [taken] at followed
      obtain ⟨⟨rest, last⟩, later, same⟩ := Option.map_eq_some_iff.mp followed
      cases same
      exact .cons taken (ih later)

def brokenCalls : List Syscall :=
  [.connect true, .openFile true, .metadata (some 3), .seek true, .read (some 3), .send (some 2), .send none,
    .connect false, .connect true, .grow [4], .openFile true, .metadata (some 4), .seek true, .read (some 4),
    .send (some 4)]

theorem broken_chunk_sent_again :
    ∃ trace t, ForwarderRun (.start [1, 2, 3]) trace t ∧ (∀ taken ∈ trace, taken.2.Succeeds) ∧
      t.connections = [⟨0, [1, 2, 3, 4], none⟩, ⟨0, [1, 2], some (0, 3)⟩] ∧ t.pos = 4 ∧
      ∀ i < t.pos, ∃ c ∈ t.connections, c.openedAt ≤ i ∧ i < c.reach ∧
        c.accepted[i - c.openedAt]? = t.file[i]? := by
  obtain ⟨⟨trace, t⟩, followed⟩ := Option.isSome_iff_exists.mp
    (show ((Forwarder.start [1, 2, 3]).follow brokenCalls).isSome = true by decide)
  have run := Forwarder.follow_run followed
  have succeeds : ∀ taken ∈ trace, taken.2.Succeeds := by
    have all : ∀ found ∈ (Forwarder.start [1, 2, 3]).follow brokenCalls, ∀ taken ∈ found.1, taken.2.Succeeds := by
      decide
    exact all (trace, t) followed
  have final : ((Forwarder.start [1, 2, 3]).follow brokenCalls).map (·.2) =
      some ⟨.opening, 4, [1, 2, 3, 4], [⟨0, [1, 2, 3, 4], none⟩, ⟨0, [1, 2], some (0, 3)⟩]⟩ := by
    decide
  rw [followed] at final
  have skips := log_forwarder_skips_no_byte [1, 2, 3] trace t run succeeds
  cases final
  exact ⟨trace, _, run, succeeds, rfl, rfl, skips.2.2.1⟩

end Boot
