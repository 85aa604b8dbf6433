import Pinaivu.Sidecar.Server

namespace Coordinator

open Wire

/-- The secret `init` leaves in the environment: the pushed value, else fresh entropy in hexadecimal,
    and nothing when the entropy source fails. -/
def bootSecret (pushed : Option String) (entropy : Except String (List UInt8)) : String :=
  match pushed with
  | some secret => secret
  | none => String.ofList (hexEncode (entropy.toOption.getD []))

def constantTimeEq (a b : List UInt8) : Bool :=
  if a.length ≠ b.length then false
  else (a.zip b).foldl (fun diff (x, y) => diff ||| (x ^^^ y)) (0 : UInt8) = 0

def suppliedSecret (headers : HeaderMap) : String :=
  trimmed (((headers.get "x-sidecar-secret").bind HeaderValue.toStr).getD "")

/-- `env` is `std::env::var("SIDECAR_SECRET")`. -/
def checkSecret (env : Option String) (headers : HeaderMap) : Except ErrorReply String :=
  match env with
  | none => .error ⟨503, "SIDECAR_SECRET not configured"⟩
  | some raw =>
    let expected := trimmed raw
    let supplied := suppliedSecret headers
    if (utf8 supplied).length ≠ (utf8 expected).length ∨
        !constantTimeEq (utf8 supplied) (utf8 expected) then
      .error ⟨401, "bad or missing X-Sidecar-Secret"⟩
    else .ok expected

theorem or_xor_eq_zero (diff x y : UInt8) : diff ||| (x ^^^ y) = 0 ↔ diff = 0 ∧ x = y := by
  rw [UInt8.or_eq_zero_iff, UInt8.xor_eq_zero_iff]

theorem foldl_diff_eq_zero : ∀ (pairs : List (UInt8 × UInt8)) (diff : UInt8),
    pairs.foldl (fun diff (x, y) => diff ||| (x ^^^ y)) diff = 0 ↔ diff = 0 ∧ ∀ p ∈ pairs, p.1 = p.2
  | [], diff => by simp
  | (x, y) :: pairs, diff => by
    rw [List.foldl_cons, foldl_diff_eq_zero pairs, or_xor_eq_zero, List.forall_mem_cons, and_assoc]

theorem constantTimeEq_iff (a b : List UInt8) : constantTimeEq a b = true ↔ a = b := by
  unfold constantTimeEq
  split
  · rename_i lengths
    simp only [Bool.false_eq_true, false_iff]
    intro equal
    subst equal
    exact lengths rfl
  · rename_i lengths
    rw [decide_eq_true_iff, foldl_diff_eq_zero]
    push Not at lengths
    constructor
    · intro given
      obtain ⟨_, same⟩ := given
      apply List.ext_getElem lengths
      intro i left right
      exact same (a[i], b[i]) (List.mem_iff_getElem.mpr ⟨i, by simp [left, right], by simp⟩)
    · intro equal
      subst equal
      refine ⟨rfl, ?_⟩
      intro pair member
      obtain ⟨i, _, here⟩ := List.mem_iff_getElem.mp member
      rw [List.getElem_zip] at here
      rw [← here]

theorem checkSecret_ok_iff (raw : String) (headers : HeaderMap) :
    (∃ secret, checkSecret (some raw) headers = .ok secret) ↔ suppliedSecret headers = trimmed raw := by
  unfold checkSecret
  dsimp only
  split
  · rename_i apart
    simp only [reduceCtorEq, exists_false, false_iff]
    intro same
    rw [same] at apart
    simp [(constantTimeEq_iff _ _).mpr rfl] at apart
  · rename_i same
    push Not at same
    have equal : constantTimeEq (utf8 (suppliedSecret headers)) (utf8 (trimmed raw)) = true := by
      simpa using same.2
    simp only [Except.ok.injEq, exists_eq', true_iff]
    exact utf8_injective ((constantTimeEq_iff _ _).mp equal)

def CarriesSecret (raw : String) (headers : HeaderMap) : Prop :=
  ∃ value, headers.get "x-sidecar-secret" = some value ∧
    trimBy isAsciiSpace value.bytes = utf8 (trimmed raw) ∧ trimmed raw ≠ ""

def AdmitsRealSecretOnly (raw : String) (headers : HeaderMap) : Prop :=
  (∃ secret, checkSecret (some raw) headers = .ok secret) ↔ CarriesSecret raw headers

theorem trimmed_ascii {raw : String} (ascii : ∀ c ∈ raw.toList, c.toNat < 128) :
    ∀ b ∈ utf8 (trimmed raw), b.toNat < 128 := by
  have chars : ∀ c ∈ (trimmed raw).toList, c.toNat < 128 := by
    rw [trimmed, String.toList_ofList]
    intro c member
    exact ascii c (trimBy_subset isWhitespace member)
  rw [utf8_ascii chars]
  intro b member
  obtain ⟨c, inside, rfl⟩ := List.mem_map.mp member
  have bound := chars c inside
  rw [UInt8.toNat_ofNat_of_lt' (Nat.lt_trans bound (by decide))]
  exact bound

theorem suppliedSecret_visible {headers : HeaderMap} {value : HeaderValue}
    (found : headers.get "x-sidecar-secret" = some value) (visible : value.visible = true) :
    utf8 (suppliedSecret headers) = trimBy isAsciiSpace value.bytes := by
  have ascii : ∀ b ∈ value.bytes, b.toNat < 128 := by
    intro b member
    have below := of_decide_eq_true (List.all_eq_true.mp visible b member)
    omega
  rw [suppliedSecret, found, Option.bind_some, HeaderValue.toStr, if_pos visible, Option.getD_some,
    trimmed_latin1 ascii, utf8_latin1]
  intro b member
  exact ascii b (trimBy_subset _ member)

theorem visible_of_carried {raw : String} (ascii : ∀ c ∈ raw.toList, c.toNat < 128) {value : HeaderValue}
    (same : trimBy isAsciiSpace value.bytes = utf8 (trimmed raw)) : value.visible = true := by
  refine List.all_eq_true.mpr fun b member => decide_eq_true ?_
  cases space : isAsciiSpace b with
  | true =>
    simp only [isAsciiSpace, Bool.or_eq_true, Bool.and_eq_true, decide_eq_true_eq, UInt8.le_iff_toNat_le] at space
    rcases space with ⟨_, small⟩ | rfl
    · exact Nat.lt_of_le_of_lt small (by decide)
    · decide
  | false =>
    have kept := mem_trimBy_of_solid member space
    rw [same] at kept
    have bound := trimmed_ascii ascii b kept
    rcases value.legal b member with printable | tab <;> omega

theorem suppliedSecret_unread {headers : HeaderMap}
    (unread : (headers.get "x-sidecar-secret").bind HeaderValue.toStr = none) :
    suppliedSecret headers = "" := by
  rw [suppliedSecret, unread]
  rfl

/-- The claimed condition and the code agree unless secret and header are both blank; the sidecar
    turns down every request without the header. -/
theorem checkSecret_admits_real_secret (raw : String) (ascii : ∀ c ∈ raw.toList, c.toNat < 128)
    (headers : HeaderMap) :
    (AdmitsRealSecretOnly raw headers ↔ trimmed raw ≠ "" ∨
      ∃ value, headers.get "x-sidecar-secret" = some value ∧ value.visible = true ∧
        trimBy isAsciiSpace value.bytes ≠ []) ∧
    ∀ env secret path, Sidecar.startSecret env = some secret → path ≠ "/health" →
      headers.get "x-sidecar-secret" = none → Sidecar.authorise secret path headers ≠ .ok () := by
  refine ⟨?_, fun env secret path started guarded missing =>
    Sidecar.authorise_needs_header started guarded missing⟩
  rw [AdmitsRealSecretOnly, checkSecret_ok_iff, ← utf8_injective.eq_iff]
  by_cases readable : ∃ value, headers.get "x-sidecar-secret" = some value ∧ value.visible = true
  · rcases readable with ⟨value, found, visible⟩
    rw [suppliedSecret_visible found visible]
    simp only [CarriesSecret, found, Option.some.injEq, exists_eq_left', visible, true_and]
    constructor
    · intro agrees
      by_contra both
      push Not at both
      have blank : utf8 (trimmed raw) = [] := by rw [both.1]; rfl
      exact (agrees.mp (by rw [both.2, blank])).2 both.1
    · intro solid
      refine ⟨fun same => ⟨same, ?_⟩, fun carried => carried.1⟩
      intro blank
      rw [blank] at same
      exact solid.elim (fun full => full blank) fun full => full same
  · have unread : (headers.get "x-sidecar-secret").bind HeaderValue.toStr = none := by
      cases found : headers.get "x-sidecar-secret" with
      | none => rfl
      | some value =>
        have hidden : value.visible = false := by
          by_contra visible
          exact readable ⟨value, found, by simpa using visible⟩
        simp [HeaderValue.toStr, hidden]
    have uncarried : ¬ CarriesSecret raw headers := by
      intro given
      obtain ⟨value, found, same, _⟩ := given
      exact readable ⟨value, found, visible_of_carried ascii same⟩
    have blind : ¬ ∃ value, headers.get "x-sidecar-secret" = some value ∧ value.visible = true ∧
        trimBy isAsciiSpace value.bytes ≠ [] := by
      intro given
      obtain ⟨value, found, visible, _⟩ := given
      exact readable ⟨value, found, visible⟩
    rw [suppliedSecret_unread unread, utf8_injective.eq_iff, iff_false_right uncarried, or_iff_left blind,
      ne_comm]

/-- Without entropy the secret is empty, and a request that carries no header at all is admitted. -/
theorem empty_secret_admits_anyone :
    bootSecret none (.error "NSM init failed") = "" ∧ checkSecret (some "") ⟨[]⟩ = .ok "" ∧
      ¬ AdmitsRealSecretOnly "" ⟨[]⟩ ∧ Sidecar.startSecret (some "") = none := by
  have admitted : checkSecret (some "") ⟨[]⟩ = .ok "" := by decide
  refine ⟨by decide, admitted, ?_, by decide⟩
  intro only
  obtain ⟨value, found, _⟩ := only.mp ⟨_, admitted⟩
  cases found

theorem missing_header_turned_down :
    AdmitsRealSecretOnly "s3cret" ⟨[]⟩ ∧ ¬ ∃ secret, checkSecret (some "s3cret") ⟨[]⟩ = .ok secret := by
  have only : AdmitsRealSecretOnly "s3cret" ⟨[]⟩ :=
    (checkSecret_admits_real_secret "s3cret" (by simp) ⟨[]⟩).1.mpr (.inl (by decide))
  refine ⟨only, ?_⟩
  intro admitted
  obtain ⟨value, found, _⟩ := only.mp admitted
  cases found

end Coordinator
