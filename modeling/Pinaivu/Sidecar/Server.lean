import Pinaivu.Wire.Http

namespace Sidecar

open Wire

/-- `SIDECAR_SECRET` as the server reads it at its start; without one it exits. -/
def startSecret (env : Option String) : Option String :=
  let secret := jsTrimmed (env.getD "")
  if secret = "" then none else some secret

/-- The auth middleware; `timingSafeEqual` compares buffers of one length. -/
def authorise (secret path : String) (headers : HeaderMap) : Except ErrorReply Unit :=
  if path = "/health" then .ok ()
  else
    let supplied := jsTrimmed ((headers.joined "x-sidecar-secret").getD "")
    if supplied = "" then .error ⟨401, "missing X-Sidecar-Secret"⟩
    else if (utf8 supplied).length ≠ (utf8 secret).length ∨ utf8 supplied ≠ utf8 secret then
      .error ⟨401, "bad X-Sidecar-Secret"⟩
    else .ok ()

/-- `PUT /sui/set-enclave-id`, with the id that is active before and after it. -/
def setEnclaveId (active id : String) : String × Except ErrorReply Unit :=
  let id := jsTrimmed id
  if id = "" then (active, .error ⟨400, "enclave_object_id required"⟩) else (id, .ok ())

theorem authorise_ok_iff {env : Option String} {secret path : String} (started : startSecret env = some secret)
    (guarded : path ≠ "/health") (headers : HeaderMap) :
    authorise secret path headers = .ok () ↔
      jsTrimmed ((headers.joined "x-sidecar-secret").getD "") = secret ∧ secret ≠ "" := by
  have solid : secret ≠ "" := by
    unfold startSecret at started
    dsimp only at started
    split at started
    · cases started
    · rename_i full
      rwa [← Option.some.inj started]
  unfold authorise
  rw [if_neg guarded]
  dsimp only
  split
  · rename_i blank
    rw [blank]
    simp [solid.symm]
  · split
    · rename_i apart
      have different : jsTrimmed ((headers.joined "x-sidecar-secret").getD "") ≠ secret := by
        intro same
        simp [same] at apart
      simp [different]
    · rename_i same
      push Not at same
      simp [utf8_injective same.2, solid]

theorem authorise_needs_header {env : Option String} {secret path : String}
    (started : startSecret env = some secret) (guarded : path ≠ "/health") {headers : HeaderMap}
    (missing : headers.get "x-sidecar-secret" = none) : authorise secret path headers ≠ .ok () := by
  have absent : headers.joined "x-sidecar-secret" = none := by
    unfold HeaderMap.joined
    rw [HeaderMap.get, Option.map_eq_none_iff, List.find?_eq_none] at missing
    rw [List.filter_eq_nil_iff.mpr missing]
  rw [Ne, authorise_ok_iff started guarded, absent]
  intro given
  obtain ⟨blank, solid⟩ := given
  exact solid blank.symm

end Sidecar
