import Pinaivu.Coordinator.Registration

namespace Coordinator

open Wire Async

inductive EnclavePhase where
  | waiting
  | faltered
  | named (id : String)
  | owesWrite (id : String)
  | owesPut (id : String)
  | ended

def EnclavePhase.Midway : EnclavePhase → Prop
  | .owesWrite _ => True
  | .owesPut _ => True
  | _ => False

/-- Registration asks the sidecar, PUTs the id and then writes it; an admin request writes first. -/
def EnclaveWriter.allowed : EnclaveWriter → EnclavePhase → EnclaveCall → Prop
  | .registration, .waiting, op => op = .getHealth ∨ (∃ ms, op = .sleep ms) ∨ ∃ a, op = .postRegister a
  | .registration, .faltered, op => op = .getHealth ∨ (∃ ms, op = .sleep ms) ∨ ∃ a, op = .postRegister a
  | .registration, .named id, op => op = .putEnclaveId id
  | .registration, .owesWrite id, op => ∃ digest, op = .writeOnChain ⟨digest, id⟩
  | .admin _, .waiting, op => (∃ reply, op = .respond reply) ∨ ∃ enclave, op = .writeOnChain enclave
  | .admin _, .owesPut id, op => op = .buildClient ∨ op = .putEnclaveId id
  | .admin _, .faltered, op => ∃ reply, op = .respond reply
  | .admin _, .ended, op => ∃ reply, op = .respond reply
  | _, _, _ => False

def EnclavePhase.advance : EnclavePhase → (op : EnclaveCall) → EnclaveAnswer op → EnclavePhase
  | phase, .getHealth, status => if (status.map isSuccess).getD false then phase else .faltered
  | _, .postRegister _, .error _ => .faltered
  | _, .postRegister _, .ok parsed =>
    let id := parsed.enclaveObjectId.getD "<missing>"
    if id ≠ "<missing>" then .named id else .owesWrite id
  | .named id, .putEnclaveId _, _ => .owesWrite id
  | _, .putEnclaveId _, _ => .ended
  | .owesWrite _, .writeOnChain _, _ => .ended
  | _, .writeOnChain enclave, _ => .owesPut enclave.enclaveObjectId
  | phase, .buildClient, built => if built then phase else .faltered
  | phase, _, _ => phase

def EnclaveWriter.typestate (writer : EnclaveWriter) : Typestate EnclaveCall EnclaveAnswer EnclavePhase where
  allowed := writer.allowed
  advance := EnclavePhase.advance

def EnclaveWriter.Ends : EnclaveWriter → EnclavePhase → Prop
  | .registration, phase => phase = .ended ∨ phase = .faltered
  | .admin _, phase => phase = .waiting ∨ phase = .ended ∨ phase = .faltered

def EnclavePhase.Asking (phase : EnclavePhase) : Prop := phase = .waiting ∨ phase = .faltered

theorem EnclavePhase.Asking.may {phase : EnclavePhase} (asking : phase.Asking) {op : EnclaveCall}
    (asks : op = .getHealth ∨ (∃ ms, op = .sleep ms) ∨ ∃ a, op = .postRegister a) :
    EnclaveWriter.registration.typestate.allowed phase op := by
  rcases asking with rfl | rfl <;> exact asks

theorem waitReady_obeys (attempts : Nat) {phase : EnclavePhase} (asking : phase.Asking) :
    (waitReady (attempts + 1)).Obeys EnclaveWriter.registration.typestate
      (fun s result => s.Asking ∧ (result ≠ .ok () → s = .faltered)) phase := by
  induction attempts generalizing phase with
  | zero =>
    refine ⟨asking.may (.inl rfl), fun status => ?_⟩
    change Routine.Obeys _ _ (if (status.map isSuccess).getD false then _ else _ : EnclaveTask _)
      (if (status.map isSuccess).getD false then phase else .faltered)
    split
    · exact ⟨asking, fun failed => absurd rfl failed⟩
    · exact ⟨.inr (.inl ⟨500, rfl⟩), fun _ => ⟨.inr rfl, fun _ => rfl⟩⟩
  | succ attempts ih =>
    refine ⟨asking.may (.inl rfl), fun status => ?_⟩
    change Routine.Obeys _ _ (if (status.map isSuccess).getD false then _ else _ : EnclaveTask _)
      (if (status.map isSuccess).getD false then phase else .faltered)
    split
    · exact ⟨asking, fun failed => absurd rfl failed⟩
    · exact ⟨.inr (.inl ⟨500, rfl⟩), fun _ => ih (.inr rfl)⟩

theorem registerEnclave_obeys (attestation : String) {phase : EnclavePhase} (asking : phase.Asking) :
    (registerEnclave attestation).Obeys EnclaveWriter.registration.typestate
      (fun s result => match result with
        | .ok reg => s = .owesWrite reg.enclaveObjectId
        | .error _ => s = .faltered) phase := by
  refine ⟨asking.may (.inr (.inr ⟨attestation, rfl⟩)), fun answer => ?_⟩
  have moved (parsed : RegisterEnclaveResp) : EnclaveWriter.registration.typestate.advance phase
      (.postRegister attestation) (.ok parsed) =
      if parsed.enclaveObjectId.getD "<missing>" ≠ "<missing>" then
        .named (parsed.enclaveObjectId.getD "<missing>")
      else .owesWrite (parsed.enclaveObjectId.getD "<missing>") := by
    rcases asking with rfl | rfl <;> rfl
  cases answer with
  | error e => rcases asking with rfl | rfl <;> rfl
  | ok parsed =>
    rw [moved]
    change Routine.Obeys _ _ (if parsed.enclaveObjectId.getD "<missing>" ≠ "<missing>" then _ else _ :
      EnclaveTask _) _
    split
    · exact ⟨rfl, fun _ => rfl⟩
    · rfl

theorem registerLoop_obeys (attestation : String) (attempts backoff : Nat) {phase : EnclavePhase}
    (asking : phase.Asking) :
    (registerLoop attestation (attempts + 1) backoff).Obeys EnclaveWriter.registration.typestate
      (fun s _ => EnclaveWriter.registration.Ends s) phase := by
  induction attempts generalizing phase backoff with
  | zero =>
    apply (registerEnclave_obeys attestation asking).seq
    intro s result ended
    cases result with
    | ok reg => subst ended; exact ⟨⟨reg.txDigest, rfl⟩, fun _ => .inl rfl⟩
    | error e => exact .inr ended
  | succ attempts ih =>
    apply (registerEnclave_obeys attestation asking).seq
    intro s result ended
    cases result with
    | ok reg => subst ended; exact ⟨⟨reg.txDigest, rfl⟩, fun _ => .inl rfl⟩
    | error e => subst ended; exact ⟨.inr (.inl ⟨backoff, rfl⟩), fun _ => ih _ (.inr rfl)⟩

theorem spawnRegistration_obeys (attestation : String) :
    (spawnRegistration attestation).Obeys EnclaveWriter.registration.typestate
      (fun s _ => EnclaveWriter.registration.Ends s) .waiting := by
  apply (waitReady_obeys 59 (.inl rfl)).seq
  intro s result ended
  cases result with
  | error e => exact .inr (ended.2 nofun)
  | ok => exact registerLoop_obeys attestation 4 2000 ended.1

theorem setEnclaveId_obeys (env : Option String) (headers : HeaderMap) (req : SetEnclaveIdReq) (k : Nat) :
    (setEnclaveId env headers req).Obeys (EnclaveWriter.admin k).typestate
      (fun s _ => (EnclaveWriter.admin k).Ends s) .waiting := by
  unfold setEnclaveId
  cases checkSecret env headers with
  | error reply => exact ⟨.inl ⟨_, rfl⟩, fun _ => .inl rfl⟩
  | ok secret =>
    dsimp only
    split
    · exact ⟨.inl ⟨_, rfl⟩, fun _ => .inl rfl⟩
    · refine ⟨.inr ⟨_, rfl⟩, fun _ => ⟨.inl rfl, fun built => ?_⟩⟩
      cases built with
      | true => exact ⟨.inr rfl, fun reply => ⟨⟨_, rfl⟩, fun _ => .inr (.inl rfl)⟩⟩
      | false => exact ⟨⟨_, rfl⟩, fun _ => .inr (.inr rfl)⟩

def EnclaveCall.Succeeds : (op : EnclaveCall) → EnclaveAnswer op → Prop
  | .getHealth, status => (status.map isSuccess).getD false = true
  | .postRegister _, answer => ∃ parsed, answer = .ok parsed
  | .putEnclaveId _, status => (status.map isSuccess).getD false = true
  | .buildClient, built => built = true
  | _, _ => True

def Succeeds (taken : EnclavePool × EnclaveLabel) : Prop :=
  match taken.2 with
  | .spawn _ _ => True
  | .call _ op answer => op.Succeeds answer

def EnclaveWriter.midway : EnclaveWriter → EnclaveTask Unit → Bool
  | .registration, .call (.writeOnChain _) _ => true
  | .admin _, .call .buildClient _ => true
  | .admin _, .call (.putEnclaveId _) _ => true
  | _, _ => false

def EnclavePool.Quiet (p : EnclavePool) (writer : EnclaveWriter) : Prop :=
  ∀ other ≠ writer, other.midway (p.tasks other) = false

def EnclaveCall.Undisturbed (quiet : Prop) : (op : EnclaveCall) → EnclaveAnswer op → Prop
  | .postRegister _, .ok parsed => parsed.enclaveObjectId.getD "<missing>" ≠ "<missing>"
  | .putEnclaveId id, _ => jsTrimmed id = id ∧ quiet
  | .writeOnChain _, _ => quiet
  | _, _ => True

/-- No other writer is midway when an id is PUT or written, the registration's reply has an id, and
    the sidecar's trim leaves the ids as they are. -/
def Undisturbed (taken : EnclavePool × EnclaveLabel) : Prop :=
  match taken.2 with
  | .spawn _ _ => True
  | .call writer op answer => op.Undisturbed (EnclavePool.Quiet taken.1 writer) answer

structure Consistent (g : EnclaveWriter → EnclavePhase) (ids : EnclaveIds) : Prop where
  steady : ∀ writer, g writer ≠ .faltered
  alone : ∀ writer other, (g writer).Midway → (g other).Midway → writer = other
  put : ∀ writer id, g writer = .owesWrite id → ids.active = id
  written : ∀ writer id, g writer = .owesPut id → ∃ digest, ids.onChain = some ⟨digest, id⟩
  settled : (∀ writer, ¬ (g writer).Midway) → g .registration = .ended → ids.Agree

namespace Consistent

variable {g : EnclaveWriter → EnclavePhase} {ids after : EnclaveIds} {writer : EnclaveWriter}
  {phase : EnclavePhase}

theorem quiet (kept : Consistent g ids) (before : ¬ (g writer).Midway) (next : ¬ phase.Midway)
    (steady : phase ≠ .faltered) (finished : writer = .registration → phase = .ended → g writer = .ended) :
    Consistent (Function.update g writer phase) ids := by
  have midway (other : EnclaveWriter) : ((Function.update g writer phase) other).Midway ↔ (g other).Midway := by
    by_cases own : other = writer
    · subst other
      rw [Function.update_self]
      exact iff_of_false next before
    · rw [Function.update_of_ne own]
  have owes (other : EnclaveWriter) (owing : ((Function.update g writer phase) other).Midway) :
      Function.update g writer phase other = g other := by
    apply Function.update_of_ne
    intro same
    subst same
    exact before ((midway other).mp owing)
  refine ⟨fun other => ?_, fun a b first second => ?_, fun other id owing => ?_, fun other id owing => ?_,
    fun idle ended => ?_⟩
  · by_cases own : other = writer
    · subst other
      rwa [Function.update_self]
    · rw [Function.update_of_ne own]
      exact kept.steady other
  · exact kept.alone a b ((midway a).mp first) ((midway b).mp second)
  · exact kept.put other id (owes other (owing ▸ trivial) ▸ owing)
  · exact kept.written other id (owes other (owing ▸ trivial) ▸ owing)
  · refine kept.settled (fun other => (midway other).not.mp (idle other)) ?_
    by_cases own : EnclaveWriter.registration = writer
    · subst writer
      rw [Function.update_self] at ended
      exact finished rfl ended
    · rwa [Function.update_of_ne own] at ended

theorem others_idle (idle : ∀ other ≠ writer, ¬ (g other).Midway) {other : EnclaveWriter}
    (owing : (Function.update g writer phase other).Midway) : other = writer := by
  by_contra own
  rw [Function.update_of_ne own] at owing
  exact idle other own owing

theorem enter (kept : Consistent g ids) (idle : ∀ other ≠ writer, ¬ (g other).Midway) (midway : phase.Midway)
    (put : ∀ id, phase = .owesWrite id → after.active = id)
    (written : ∀ id, phase = .owesPut id → ∃ digest, after.onChain = some ⟨digest, id⟩) :
    Consistent (Function.update g writer phase) after := by
  refine ⟨fun other => ?_, fun a b first second => ?_, fun other id owing => ?_, fun other id owing => ?_,
    fun free => ?_⟩
  · by_cases own : other = writer
    · subst other
      rw [Function.update_self]
      intro same
      subst same
      exact midway
    · rw [Function.update_of_ne own]
      exact kept.steady other
  · rw [others_idle idle first, others_idle idle second]
  · obtain rfl := others_idle idle (owing ▸ trivial : (Function.update g writer phase other).Midway)
    rw [Function.update_self] at owing
    exact put id owing
  · obtain rfl := others_idle idle (owing ▸ trivial : (Function.update g writer phase other).Midway)
    rw [Function.update_self] at owing
    exact written id owing
  · have own := free writer
    rw [Function.update_self] at own
    exact absurd midway own

theorem leave (kept : Consistent g ids) (idle : ∀ other ≠ writer, ¬ (g other).Midway) (agree : after.Agree) :
    Consistent (Function.update g writer .ended) after := by
  have none_midway (other : EnclaveWriter) : ¬ (Function.update g writer .ended other).Midway := by
    intro owing
    obtain rfl := others_idle idle owing
    rw [Function.update_self] at owing
    exact owing
  refine ⟨fun other => ?_, fun a _ first => absurd first (none_midway a), fun other id owing => ?_,
    fun other id owing => ?_, fun _ _ => agree⟩
  · by_cases own : other = writer
    · subst other
      rw [Function.update_self]
      nofun
    · rw [Function.update_of_ne own]
      exact kept.steady other
  · exact absurd (owing ▸ trivial) (none_midway other)
  · exact absurd (owing ▸ trivial) (none_midway other)

end Consistent

theorem midway_of_phase {writer : EnclaveWriter} {task : EnclaveTask Unit} {phase : EnclavePhase}
    (obeys : task.Obeys writer.typestate (fun s _ => writer.Ends s) phase) (midway : phase.Midway) :
    writer.midway task = true := by
  cases writer with
  | registration =>
    cases phase with
    | owesWrite id =>
      cases task with
      | done a => exact obeys.elim nofun nofun
      | call op next =>
        obtain ⟨digest, rfl⟩ := obeys.1
        rfl
    | owesPut id =>
      cases task with
      | done a => exact obeys.elim nofun nofun
      | call op next => exact obeys.1.elim
    | _ => exact midway.elim
  | admin k =>
    cases phase with
    | owesWrite id =>
      cases task with
      | done a => rcases obeys with ended | ended | ended <;> cases ended
      | call op next => exact obeys.1.elim
    | owesPut id =>
      cases task with
      | done a => rcases obeys with ended | ended | ended <;> cases ended
      | call op next => rcases obeys.1 with rfl | rfl <;> rfl
    | _ => exact midway.elim

theorem put_sets_active {ids after : EnclaveIds} {id : String} {status : EnclaveAnswer (.putEnclaveId id)}
    (effect : ids.effect (.putEnclaveId id) status after)
    (succeeds : EnclaveCall.Succeeds (.putEnclaveId id) status) (kept : jsTrimmed id = id) :
    after = { ids with active := id } := by
  cases status with
  | none => cases succeeds
  | some status =>
    rcases effect with ⟨rfl, _⟩ | ⟨rfl, answered⟩
    · cases succeeds
    · by_cases blank : id = ""
      · subst id
        rw [answered] at succeeds
        cases succeeds
      · simp only [Sidecar.setEnclaveId, kept, if_neg blank]

theorem idle_of_quiet {g : EnclaveWriter → EnclavePhase} {p : EnclavePool} {writer : EnclaveWriter}
    (obey : Pool.Obey EnclaveWriter.typestate EnclaveWriter.Ends g p) (quiet : EnclavePool.Quiet p writer)
    (other : EnclaveWriter) (apart : other ≠ writer) : ¬ (g other).Midway := by
  intro midway
  have busy := midway_of_phase (obey other) midway
  rw [quiet other apart] at busy
  cases busy

theorem Consistent.step_waiting {g : EnclaveWriter → EnclavePhase} {p : EnclavePool} {after : EnclaveIds}
    {writer : EnclaveWriter} {op : EnclaveCall} {answer : EnclaveAnswer op} (kept : Consistent g p.shared)
    (obey : Pool.Obey EnclaveWriter.typestate EnclaveWriter.Ends g p) (at_phase : g writer = .waiting)
    (allowed : writer.allowed .waiting op) (effect : p.shared.effect op answer after)
    (succeeds : op.Succeeds answer) (undisturbed : op.Undisturbed (EnclavePool.Quiet p writer) answer) :
    Consistent (Function.update g writer (EnclavePhase.waiting.advance op answer)) after := by
  have before : ¬ (g writer).Midway := by rw [at_phase]; exact id
  cases writer with
  | registration =>
    rcases allowed with rfl | ⟨ms, rfl⟩ | ⟨attestation, rfl⟩
    · subst effect
      have moved : EnclavePhase.waiting.advance .getHealth answer = .waiting := if_pos succeeds
      rw [moved]
      exact kept.quiet before id nofun fun _ => nofun
    · subst effect
      exact kept.quiet before id nofun fun _ => nofun
    · subst effect
      obtain ⟨parsed, rfl⟩ := succeeds
      have moved : EnclavePhase.waiting.advance (.postRegister attestation) (.ok parsed) =
          .named (parsed.enclaveObjectId.getD "<missing>") := if_pos undisturbed
      rw [moved]
      exact kept.quiet before id nofun fun _ => nofun
  | admin k =>
    rcases allowed with ⟨reply, rfl⟩ | ⟨enclave, rfl⟩
    · subst effect
      exact kept.quiet before id nofun nofun
    · subst effect
      refine kept.enter (idle_of_quiet obey undisturbed) trivial nofun ?_
      intro id owing
      cases owing
      exact ⟨_, rfl⟩

theorem Consistent.step {g : EnclaveWriter → EnclavePhase} {p : EnclavePool} {after : EnclaveIds}
    {writer : EnclaveWriter} {op : EnclaveCall} {answer : EnclaveAnswer op} (kept : Consistent g p.shared)
    (obey : Pool.Obey EnclaveWriter.typestate EnclaveWriter.Ends g p) (allowed : writer.allowed (g writer) op)
    (effect : p.shared.effect op answer after) (succeeds : op.Succeeds answer)
    (undisturbed : op.Undisturbed (EnclavePool.Quiet p writer) answer) :
    Consistent (Function.update g writer ((g writer).advance op answer)) after := by
  cases at_phase : g writer with
  | faltered => exact absurd at_phase (kept.steady writer)
  | waiting =>
    rw [at_phase] at allowed
    exact kept.step_waiting obey at_phase allowed effect succeeds undisturbed
  | named id =>
    rw [at_phase] at allowed
    cases writer with
    | registration =>
      obtain rfl := allowed
      rw [put_sets_active effect succeeds undisturbed.1]
      refine kept.enter (idle_of_quiet obey undisturbed.2) trivial ?_ nofun
      intro id owing
      cases owing
      rfl
    | admin k => exact allowed.elim
  | owesWrite id =>
    rw [at_phase] at allowed
    cases writer with
    | registration =>
      obtain ⟨digest, rfl⟩ := allowed
      subst effect
      exact kept.leave (idle_of_quiet obey undisturbed) ⟨_, rfl, (kept.put _ _ at_phase).symm⟩
    | admin k => exact allowed.elim
  | owesPut id =>
    rw [at_phase] at allowed
    cases writer with
    | registration => exact allowed.elim
    | admin k =>
      rcases allowed with rfl | rfl
      · subst effect
        have moved : (EnclavePhase.owesPut id).advance .buildClient answer = g (.admin k) := by
          rw [at_phase]
          exact if_pos succeeds
        rw [moved, Function.update_eq_self]
        exact kept
      · rw [put_sets_active effect succeeds undisturbed.1]
        obtain ⟨digest, found⟩ := kept.written _ _ at_phase
        exact kept.leave (idle_of_quiet obey undisturbed.2) ⟨_, found, rfl⟩
  | ended =>
    rw [at_phase] at allowed
    cases writer with
    | registration => exact allowed.elim
    | admin k =>
      obtain ⟨reply, rfl⟩ := allowed
      subst effect
      have moved : EnclavePhase.ended.advance (.respond reply) answer = g (.admin k) := at_phase.symm
      rw [moved, Function.update_eq_self]
      exact kept

theorem spawned_obeys {env : Option String} (ids : EnclaveIds) (writer : EnclaveWriter)
    (task : EnclaveTask Unit) (known : EnclaveWriter.spawns env ids writer task) :
    task.Obeys writer.typestate (fun s _ => writer.Ends s) .waiting := by
  cases writer with
  | registration => exact known.elim
  | admin k =>
    obtain ⟨headers, req, rfl⟩ := known
    exact setEnclaveId_obeys env headers req k

theorem start_obeys (attestation active : String) :
    Pool.Obey EnclaveWriter.typestate EnclaveWriter.Ends (fun _ => .waiting)
      (EnclavePool.start attestation active)
  | .registration => spawnRegistration_obeys attestation
  | .admin _ => .inl rfl

theorem start_consistent (active : String) : Consistent (fun _ => .waiting) ⟨none, active⟩ where
  steady _ := nofun
  alone _ _ midway := midway.elim
  put _ _ := nofun
  written _ _ := nofun
  settled _ := nofun

/-- Writers that never overlap leave the coordinator and the sidecar with one id. -/
theorem finished_writers_agree {env : Option String} {attestation active : String}
    {trace : List (EnclavePool × EnclaveLabel)} {p : EnclavePool}
    (run : EnclaveRuns env attestation active trace p) (finished : ∀ writer, p.tasks writer = .done ())
    (succeeds : ∀ taken ∈ trace, Succeeds taken) (undisturbed : ∀ taken ∈ trace, Undisturbed taken) :
    p.shared.Agree := by
  have kept : ∃ g, Pool.Obey EnclaveWriter.typestate EnclaveWriter.Ends g p ∧ Consistent g p.shared := by
    refine run.invariant (I := fun p => ∃ g, Pool.Obey EnclaveWriter.typestate EnclaveWriter.Ends g p ∧
      Consistent g p.shared) ⟨_, start_obeys attestation active, start_consistent active⟩ ?_
    intro m label n member step given
    obtain ⟨g, obey, kept⟩ := given
    rcases obey.step step spawned_obeys with
      ⟨writer, task, rfl, ended, known, same, obeys⟩ | ⟨writer, op, answer, rfl, allowed, effect, obeys⟩
    · refine ⟨_, obeys, ?_⟩
      rw [same]
      have ready : ¬ (g writer).Midway := by
        cases writer with
        | registration => exact known.elim
        | admin k => rcases ended with at_phase | at_phase | at_phase <;> rw [at_phase] <;> exact id
      exact kept.quiet ready id nofun fun _ => nofun
    · exact ⟨_, obeys, kept.step obey allowed effect (succeeds _ member)
        (undisturbed _ member)⟩
  obtain ⟨g, obey, kept⟩ := kept
  have ended (writer : EnclaveWriter) : writer.Ends (g writer) := by
    have ends := obey writer
    rw [finished writer] at ends
    exact ends
  refine kept.settled (fun writer midway => ?_) ?_
  · have busy := midway_of_phase (obey writer) midway
    rw [finished writer] at busy
    cases writer <;> cases busy
  · exact (ended .registration).resolve_right (kept.steady _)

abbrev EnclaveSteps (env : Option String) (p : EnclavePool) (trace : List (EnclavePool × EnclaveLabel))
    (p' : EnclavePool) : Prop :=
  Async.Run (Pool.Step (EnclaveWriter.spawns env) EnclaveIds.effect) p trace p'

theorem enclave_answers {env : Option String} {tasks : EnclaveWriter → EnclaveTask Unit} {writer : EnclaveWriter}
    {ids : EnclaveIds} (op : EnclaveCall) {next : EnclaveAnswer op → EnclaveTask Unit}
    (answer : EnclaveAnswer op) (after : EnclaveIds) (effect : ids.effect op answer after) :
    Pool.Step (EnclaveWriter.spawns env) EnclaveIds.effect
      ⟨Function.update tasks writer (.call op next), ids⟩ (.call writer op answer)
      ⟨Function.update tasks writer (next answer), after⟩ := Pool.Step.call_at op answer after effect

def knownSecret : HeaderMap := ⟨[("x-sidecar-secret", ⟨[107], by simp⟩)]⟩

theorem quiet_update {tasks : EnclaveWriter → EnclaveTask Unit} {ids after : EnclaveIds} {writer : EnclaveWriter}
    (quiet : EnclavePool.Quiet ⟨tasks, ids⟩ writer) (task : EnclaveTask Unit) :
    EnclavePool.Quiet ⟨Function.update tasks writer task, after⟩ writer := by
  intro other apart
  have same : Function.update tasks writer task other = tasks other := Function.update_of_ne apart _ _
  simp only [same]
  exact quiet other apart

theorem setEnclaveId_admitted {env : Option String} {headers : HeaderMap} {secret id : String}
    {req : SetEnclaveIdReq} (admitted : checkSecret env headers = .ok secret)
    (kept : trimmed req.enclaveObjectId = id) (solid : id ≠ "") : setEnclaveId env headers req = (do
      enclaveCall (.writeOnChain ⟨req.txDigest.getD "", id⟩)
      let forwarded ← forwardEnclaveId id
      enclaveCall (.respond (.ok ⟨id, forwarded⟩))) := by
  subst kept
  simp only [setEnclaveId, admitted, if_neg solid]

theorem put_effect {id : String} (kept : jsTrimmed id = id) (solid : id ≠ "") (ids : EnclaveIds) :
    ids.effect (.putEnclaveId id) (some 200) { ids with active := id } := by
  simp [EnclaveIds.effect, Sidecar.setEnclaveId, kept, solid]

theorem admin_alone (tasks : EnclaveWriter → EnclaveTask Unit) (ids : EnclaveIds) {k : Nat}
    (free : tasks (.admin k) = .done ()) : ∃ trace,
      EnclaveSteps (some "k") ⟨tasks, ids⟩ trace ⟨tasks, ⟨some ⟨"", "0xb"⟩, "0xb"⟩⟩ ∧
        (∀ taken ∈ trace, Succeeds taken) ∧
        (EnclavePool.Quiet ⟨tasks, ids⟩ (.admin k) → ∀ taken ∈ trace, Undisturbed taken) := by
  have back : tasks = Function.update tasks (.admin k) (.done ()) := by
    rw [← free, Function.update_eq_self]
  have arrives : Pool.Step (EnclaveWriter.spawns (some "k")) EnclaveIds.effect ⟨tasks, ids⟩ _ _ :=
    .spawn free ⟨knownSecret, ⟨"0xb", none⟩, rfl⟩
  have kept : trimmed (⟨"0xb", none⟩ : SetEnclaveIdReq).enclaveObjectId = "0xb" := by decide
  have admitted : checkSecret (some "k") knownSecret = .ok "k" := by decide
  rw [Pool.setTask, setEnclaveId_admitted admitted kept (by decide)] at arrives
  have puts : Pool.Step (EnclaveWriter.spawns (some "k")) EnclaveIds.effect
      ⟨Function.update tasks (.admin k) (.call (.putEnclaveId "0xb") fun reply =>
        .call (.respond (.ok ⟨"0xb", (reply.map isSuccess).getD false⟩)) .done), _⟩ _ _ :=
    enclave_answers _ (some 200) _ (put_effect (by decide) (by decide) ⟨some ⟨"", "0xb"⟩, ids.active⟩)
  have replies : Pool.Step (EnclaveWriter.spawns (some "k")) EnclaveIds.effect
      ⟨Function.update tasks (.admin k) (.call (.respond (.ok ⟨"0xb", true⟩)) .done), _⟩ _ _ :=
    enclave_answers _ () ⟨some ⟨"", "0xb"⟩, "0xb"⟩ rfl
  rw [← back] at replies
  refine ⟨_, .cons arrives <| .cons (enclave_answers _ () ⟨some ⟨"", "0xb"⟩, ids.active⟩ rfl) <|
    .cons (enclave_answers .buildClient true _ rfl) <| .cons puts <| .one replies, ?_, ?_⟩
  · simp [Succeeds, EnclaveCall.Succeeds, isSuccess]
  · intro quiet
    have same : jsTrimmed "0xb" = "0xb" := by decide
    simp [Undisturbed, EnclaveCall.Undisturbed, quiet_update quiet, same]

def aboutToWrite : EnclaveWriter → EnclaveTask Unit :=
  Function.update (fun _ => .done ()) .registration (.call (.writeOnChain ⟨"r", "0xa"⟩) .done)

theorem idle_quiet (ids : EnclaveIds) (writer : EnclaveWriter) :
    EnclavePool.Quiet ⟨fun _ => .done (), ids⟩ writer := by
  intro other _
  cases other <;> rfl

theorem registration_alone : ∃ trace,
    EnclaveRuns (some "k") "att" "" trace ⟨aboutToWrite, ⟨none, "0xa"⟩⟩ ∧
      (∀ taken ∈ trace, Succeeds taken) ∧ ∀ taken ∈ trace, Undisturbed taken := by
  have begun : EnclavePool.start "att" "" = ⟨Function.update (fun _ => .done ()) .registration
      (spawnRegistration "att"), ⟨none, ""⟩⟩ := by
    unfold EnclavePool.start
    congr 1
    funext writer
    cases writer <;> rfl
  have puts : Pool.Step (EnclaveWriter.spawns (some "k")) EnclaveIds.effect
      ⟨Function.update (fun _ => .done ()) .registration (.call (.putEnclaveId "0xa") fun _ =>
        .call (.writeOnChain ⟨"r", "0xa"⟩) .done), _⟩ _ _ :=
    enclave_answers _ (some 200) _ (put_effect (by decide) (by decide) ⟨none, ""⟩)
  simp only [EnclaveRuns, begun]
  refine ⟨_, .cons (enclave_answers .getHealth (some 200) _ rfl) <|
    .cons (enclave_answers (.postRegister "att") (.ok ⟨"r", some "0xa"⟩) _ rfl) <| .one puts, ?_, ?_⟩
  · simp [Succeeds, EnclaveCall.Succeeds, isSuccess]
  · have same : jsTrimmed "0xa" = "0xa" := by decide
    simp [Undisturbed, EnclaveCall.Undisturbed, same, quiet_update (idle_quiet ⟨none, ""⟩ .registration)]

theorem registration_writes (ids : EnclaveIds) : Pool.Step (EnclaveWriter.spawns (some "k")) EnclaveIds.effect
    ⟨aboutToWrite, ids⟩ (.call .registration (.writeOnChain ⟨"r", "0xa"⟩) ())
    ⟨fun _ => .done (), { ids with onChain := some ⟨"r", "0xa"⟩ }⟩ := by
  have step : Pool.Step (EnclaveWriter.spawns (some "k")) EnclaveIds.effect ⟨aboutToWrite, ids⟩
      (.call .registration (.writeOnChain ⟨"r", "0xa"⟩) ()) _ :=
    enclave_answers (.writeOnChain ⟨"r", "0xa"⟩) () _ rfl
  rwa [Function.update_eq_self_iff.mpr rfl] at step

/-- The registration PUTs its id and is overtaken by an admin request before it writes the cell. -/
theorem late_write_disagrees : ∃ trace p, EnclaveRuns (some "k") "att" "" trace p ∧
    (∀ writer, p.tasks writer = .done ()) ∧ (∀ taken ∈ trace, Succeeds taken) ∧
    p.shared = ⟨some ⟨"r", "0xa"⟩, "0xb"⟩ ∧ ¬ p.shared.Agree := by
  obtain ⟨first, registers, succeeded, _⟩ := registration_alone
  obtain ⟨second, admin, answered, _⟩ := admin_alone aboutToWrite ⟨none, "0xa"⟩ (k := 0) rfl
  refine ⟨_, _, (registers.append admin).snoc (registration_writes _), fun _ => rfl, ?_, rfl, ?_⟩
  · intro taken member
    rcases List.mem_append.mp member with earlier | last
    · rcases List.mem_append.mp earlier with member | member
      · exact succeeded taken member
      · exact answered taken member
    · rw [List.mem_singleton.mp last]
      exact trivial
  · intro given
    obtain ⟨enclave, found, same⟩ := given
    cases found
    revert same
    decide

theorem admin_after_write_agrees : ∃ trace p, EnclaveRuns (some "k") "att" "" trace p ∧
    p.shared = ⟨some ⟨"", "0xb"⟩, "0xb"⟩ ∧ p.shared.Agree := by
  obtain ⟨first, registers, succeeded, calm⟩ := registration_alone
  obtain ⟨second, admin, answered, quiet⟩ := admin_alone (fun _ => .done ())
    ⟨some ⟨"r", "0xa"⟩, "0xa"⟩ (k := 0) rfl
  have run := (registers.snoc (registration_writes _)).append admin
  refine ⟨_, _, run, rfl, finished_writers_agree run (fun _ => rfl) ?_ ?_⟩
  · intro taken member
    rcases List.mem_append.mp member with earlier | member
    · rcases List.mem_append.mp earlier with member | last
      · exact succeeded taken member
      · rw [List.mem_singleton.mp last]
        exact trivial
    · exact answered taken member
  · intro taken member
    rcases List.mem_append.mp member with earlier | member
    · rcases List.mem_append.mp earlier with member | last
      · exact calm taken member
      · rw [List.mem_singleton.mp last]
        exact quiet_update (idle_quiet ⟨none, ""⟩ .registration) _
    · exact quiet (idle_quiet _ _) taken member

end Coordinator
