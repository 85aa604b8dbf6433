import Mathlib.Algebra.Order.Field.Basic
import Mathlib.Tactic.Linarith
import Pinaivu.Coordinator.Auction
import Pinaivu.Selection.LastMax

namespace Coordinator

open Protocol Selection

section Ranking

variable {α : Type} [LinearOrder α]

def compareScored (score : InferenceBid → α) (a b : InferenceBid) : Ordering :=
  match cmp (score a) (score b) with
  | .eq =>
    match cmp b.pricePer1k.value a.pricePer1k.value with
    | .eq => cmp b.latencyMs a.latencyMs
    | other => other
  | other => other

def warmthOf (warmthMap : WarmthMap) (bid : InferenceBid) : ℚ := (warmthMap bid.nodePeerId.value).getD 0

def pickWinnerScored (score : InferenceBid → ℚ → α) (bids : List InferenceBid) (warmthMap : WarmthMap) :
    Option InferenceBid :=
  maxBy (compareScored fun bid => score bid (warmthOf warmthMap bid)) bids

def rank (score : InferenceBid → α) (bid : InferenceBid) : α ×ₗ ℕᵒᵈ ×ₗ ℕᵒᵈ :=
  toLex (score bid, toLex (OrderDual.toDual bid.pricePer1k.value.toNat, OrderDual.toDual bid.latencyMs.toNat))

/-- A higher score, or else a lower price, or else a lower latency. -/
def Beats (score : InferenceBid → α) (a b : InferenceBid) : Prop :=
  score b < score a ∨ score a = score b ∧ (a.pricePer1k.value < b.pricePer1k.value ∨
    a.pricePer1k.value = b.pricePer1k.value ∧ a.latencyMs < b.latencyMs)

variable {score : InferenceBid → α} {bids : List InferenceBid} {a b w : InferenceBid}

theorem cmp_prices (a b : UInt64) : cmp a b = cmp (OrderDual.toDual b.toNat) (OrderDual.toDual a.toNat) := by
  rw [cmp_toDual]
  change (if a < b then Ordering.lt else if b < a then .gt else .eq) =
    if a.toNat < b.toNat then Ordering.lt else if b.toNat < a.toNat then .gt else .eq
  simp only [UInt64.lt_iff_toNat_lt]

theorem cmp_latencies (a b : UInt32) : cmp a b = cmp (OrderDual.toDual b.toNat) (OrderDual.toDual a.toNat) := by
  rw [cmp_toDual]
  change (if a < b then Ordering.lt else if b < a then .gt else .eq) =
    if a.toNat < b.toNat then Ordering.lt else if b.toNat < a.toNat then .gt else .eq
  simp only [UInt32.lt_iff_toNat_lt]

theorem compareScored_orderedBy (score : InferenceBid → α) : OrderedBy (compareScored score) (rank score) := by
  intro a b
  unfold compareScored rank
  rw [cmp_prices, cmp_latencies]
  have outer := cmp_lex (score a) (score b)
    (toLex (OrderDual.toDual a.pricePer1k.value.toNat, OrderDual.toDual a.latencyMs.toNat))
    (toLex (OrderDual.toDual b.pricePer1k.value.toNat, OrderDual.toDual b.latencyMs.toNat))
  rw [← cmp_lex] at outer
  exact outer

theorem beats_iff : Beats score a b ↔ rank score b < rank score a := by
  unfold Beats rank
  rw [Prod.Lex.toLex_lt_toLex, Prod.Lex.toLex_lt_toLex]
  simp only [OrderDual.toDual_lt_toDual, UInt64.lt_iff_toNat_lt, UInt32.lt_iff_toNat_lt, EmbeddingLike.apply_eq_iff_eq,
    UInt64.toNat_inj, eq_comm (a := b.pricePer1k.value), eq_comm (a := score b)]

theorem maxBy_eq_none {order : InferenceBid → InferenceBid → Ordering} : maxBy order bids = none ↔ bids = [] := by
  cases bids with
  | nil => exact ⟨fun _ => rfl, fun _ => rfl⟩
  | cons first rest => exact ⟨nofun, nofun⟩

theorem maxBy_lastMax (found : maxBy (compareScored score) bids = some w) : LastMax (rank score) bids w := by
  cases bids with
  | nil => cases found
  | cons first rest =>
    rw [← Option.some.inj found]
    exact foldl_lastMax (compareScored_orderedBy score) first rest

theorem beats_of_lt (above : score b < score a) : Beats score a b := .inl above

omit [LinearOrder α] in
theorem rank_eq_iff : rank score a = rank score b ↔
    score a = score b ∧ a.pricePer1k.value = b.pricePer1k.value ∧ a.latencyMs = b.latencyMs := by
  unfold rank
  simp only [EmbeddingLike.apply_eq_iff_eq, Prod.mk.injEq, UInt64.toNat_inj, UInt32.toNat_inj]

end Ranking

theorem compareBids_eq (warmthMap : WarmthMap) :
    compareBids warmthMap = compareScored fun bid => scoreBidWithWarmth bid (warmthOf warmthMap bid) := rfl

theorem winner_lastMax {bids : List InferenceBid} {warmthMap : WarmthMap} {w : InferenceBid}
    (found : pickWinnerWithWarmth bids warmthMap = some w) :
    LastMax (rank fun bid => scoreBidWithWarmth bid (warmthOf warmthMap bid)) bids w := by
  rw [pickWinnerWithWarmth, compareBids_eq] at found
  exact maxBy_lastMax found

/-- The winner is the last bid that none beats, whatever linear order the scores are in; `score_bid_with_warmth`
    is one of the score functions. -/
theorem winner_is_last_maximum (bids : List InferenceBid) (warmthMap : WarmthMap) :
    pickWinnerWithWarmth bids warmthMap = pickWinnerScored scoreBidWithWarmth bids warmthMap ∧
      ∀ (α : Type) [LinearOrder α] (score : InferenceBid → ℚ → α),
        let value := fun bid => score bid (warmthOf warmthMap bid)
        (pickWinnerScored score bids warmthMap = none ↔ bids = []) ∧
          ∀ w, pickWinnerScored score bids warmthMap = some w →
            w ∈ bids ∧ (∀ b ∈ bids, ¬ Beats value b w) ∧
              (∃ before after, bids = before ++ w :: after ∧ ∀ b ∈ after, Beats value w b) ∧
              ∀ other, bids.Perm other → ∃ w', pickWinnerScored score other warmthMap = some w' ∧
                value w' = value w ∧ w'.pricePer1k.value = w.pricePer1k.value ∧ w'.latencyMs = w.latencyMs := by
  refine ⟨rfl, ?_⟩
  intro α _ score value
  refine ⟨maxBy_eq_none, ?_⟩
  intro w found
  have last : LastMax (rank value) bids w := maxBy_lastMax found
  refine ⟨last.mem, ?_, ?_, ?_⟩
  · intro b member beaten
    exact absurd (beats_iff.mp beaten) (not_lt.mpr (last.le member))
  · obtain ⟨before, after, shape, _, later⟩ := last
    exact ⟨before, after, shape, fun b member => beats_iff.mpr (later b member)⟩
  · intro other same
    cases found' : pickWinnerScored score other warmthMap with
    | none =>
      rw [maxBy_eq_none.mp found'] at same
      rw [same.eq_nil] at last
      exact absurd last.mem List.not_mem_nil
    | some w' => exact ⟨w', rfl, rank_eq_iff.mp (last.perm same (maxBy_lastMax found'))⟩

def bidAt (peer : String) (price : UInt64) (latency : UInt32) (reputation : ℚ) : InferenceBid where
  requestId := ⟨Vector.replicate 16 0⟩
  nodePeerId := ⟨peer⟩
  pricePer1k := ⟨price⟩
  latencyMs := latency
  reputation := reputation
  httpEndpoint := "http://node-" ++ peer ++ ".test"
  payoutAddress := "0x" ++ peer
  nodeX25519Pubkey := none

theorem cheapest_sample_wins :
    let bids := [bidAt "A" 100 500 (1 / 2), bidAt "B" 50 300 (9 / 10), bidAt "C" 80 400 (7 / 10)]
    let value := fun bid => scoreBidWithWarmth bid (warmthOf (fun _ => none) bid)
    pickWinnerWithWarmth bids (fun _ => none) = some (bidAt "B" 50 300 (9 / 10)) ∧
      ∀ b ∈ bids, ¬ Beats value b (bidAt "B" 50 300 (9 / 10)) := by
  intro bids value
  have found : pickWinnerScored scoreBidWithWarmth bids (fun _ => none) = some (bidAt "B" 50 300 (9 / 10)) := by
    decide +kernel
  obtain ⟨same, winners⟩ := winner_is_last_maximum bids fun _ => none
  exact ⟨same.trans found, ((winners ℚ scoreBidWithWarmth).2 _ found).2.1⟩

variable {n m : Nat}

theorem inverse_zero : inverse 0 = 0 := rfl

theorem inverse_lt (positive : 0 < n) (less : n < m) : inverse m < inverse n := by
  rw [inverse, inverse, if_pos positive, if_pos (positive.trans less)]
  exact one_div_lt_one_div_of_lt (Nat.cast_pos.mpr positive) (Nat.cast_lt.mpr less)

theorem inverse_le (less : n ≤ m) (neutral : n = 0 → m = 0) : inverse m ≤ inverse n := by
  rcases Nat.eq_zero_or_pos n with zero | positive
  · rw [zero, neutral zero]
  · rcases less.eq_or_lt with rfl | strict
    · exact le_rfl
    · exact (inverse_lt positive strict).le

theorem clampUnit_eq {v : ℚ} (low : 0 ≤ v) (high : v ≤ 1) : clampUnit v = v := by
  rw [clampUnit, if_neg (not_lt.mpr low), if_neg (not_lt.mpr high)]

/-- At least as good in every respect. -/
structure AsGood (warmthMap : WarmthMap) (a b : InferenceBid) : Prop where
  cheap : a.pricePer1k.value ≤ b.pricePer1k.value
  fast : a.latencyMs ≤ b.latencyMs
  reputable : b.reputation ≤ a.reputation
  warm : warmthOf warmthMap b ≤ warmthOf warmthMap a

def Improves (warmthMap : WarmthMap) (a b : InferenceBid) : Prop :=
  a.pricePer1k.value < b.pricePer1k.value ∨ a.latencyMs < b.latencyMs ∨ b.reputation < a.reputation ∨
    warmthOf warmthMap b < warmthOf warmthMap a

/-- A zero price or latency contributes nothing, so it is no advantage over a positive one. -/
structure Comparable (a b : InferenceBid) : Prop where
  price : a.pricePer1k.value = 0 → b.pricePer1k.value = 0
  latency : a.latencyMs = 0 → b.latencyMs = 0

def UnitMap (warmthMap : WarmthMap) : Prop := ∀ peer v, warmthMap peer = some v → 0 ≤ v ∧ v ≤ 1

variable {warmthMap : WarmthMap} {a b : InferenceBid}

theorem clampUnit_warmthOf (unit : UnitMap warmthMap) (bid : InferenceBid) :
    clampUnit (warmthOf warmthMap bid) = warmthOf warmthMap bid := by
  unfold warmthOf
  cases found : warmthMap bid.nodePeerId.value with
  | none => rfl
  | some v => exact clampUnit_eq (unit _ v found).1 (unit _ v found).2

theorem toNat_zero_price (comparable : Comparable a b) (zero : a.pricePer1k.value.toNat = 0) :
    b.pricePer1k.value.toNat = 0 := by
  rw [comparable.price (UInt64.toNat_inj.mp zero)]
  rfl

theorem toNat_zero_latency (comparable : Comparable a b) (zero : a.latencyMs.toNat = 0) : b.latencyMs.toNat = 0 := by
  rw [comparable.latency (UInt32.toNat_inj.mp zero)]
  rfl

theorem score_lt_of_dominates (unit : UnitMap warmthMap) (good : AsGood warmthMap a b) (comparable : Comparable a b)
    (improves : Improves warmthMap a b) :
    scoreBidWithWarmth b (warmthOf warmthMap b) < scoreBidWithWarmth a (warmthOf warmthMap a) := by
  have price := inverse_le (UInt64.le_iff_toNat_le.mp good.cheap) (toNat_zero_price comparable)
  have latency := inverse_le (UInt32.le_iff_toNat_le.mp good.fast) (toNat_zero_latency comparable)
  have reputation := good.reputable
  have warmth := good.warm
  unfold scoreBidWithWarmth weightPriceW weightLatencyW weightReputationW weightWarmth
  rw [clampUnit_warmthOf unit, clampUnit_warmthOf unit]
  rcases improves with cheaper | faster | higher | warmer
  · rw [UInt64.lt_iff_toNat_lt] at cheaper
    have positive : 0 < a.pricePer1k.value.toNat := by
      by_contra zero
      have := toNat_zero_price comparable (by omega)
      omega
    have strict := inverse_lt positive cheaper
    linarith
  · rw [UInt32.lt_iff_toNat_lt] at faster
    have positive : 0 < a.latencyMs.toNat := by
      by_contra zero
      have := toNat_zero_latency comparable (by omega)
      omega
    have strict := inverse_lt positive faster
    linarith
  · linarith
  · linarith

/-- A bid that dominates all others wins, where no zero price or latency is set against a positive one. -/
theorem dominating_bid_wins (bids : List InferenceBid) (warmthMap : WarmthMap) (unit : UnitMap warmthMap)
    (best : InferenceBid) (member : best ∈ bids)
    (dominates : ∀ b ∈ bids, b ≠ best → AsGood warmthMap best b ∧ Improves warmthMap best b)
    (comparable : ∀ b ∈ bids, Comparable best b) : pickWinnerWithWarmth bids warmthMap = some best := by
  cases found : pickWinnerWithWarmth bids warmthMap with
  | none =>
    rw [maxBy_eq_none.mp found] at member
    exact absurd member List.not_mem_nil
  | some w =>
    have last := winner_lastMax found
    by_contra different
    have apart : w ≠ best := fun same => different (congrArg some same)
    obtain ⟨good, improves⟩ := dominates w last.mem apart
    have beaten := score_lt_of_dominates unit good (comparable w last.mem) improves
    exact absurd (beats_iff.mp (beats_of_lt beaten)) (not_lt.mpr (last.le member))

theorem dominating_sample_wins :
    let bids := [bidAt "A" 0 800 (2 / 5), bidAt "B" 0 300 (9 / 10), bidAt "C" 0 500 (3 / 5)]
    let warmthMap : WarmthMap := fun peer =>
      if peer = "B" then some (3 / 4) else if peer = "C" then some (1 / 4) else none
    UnitMap warmthMap ∧ pickWinnerWithWarmth bids warmthMap = some (bidAt "B" 0 300 (9 / 10)) := by
  intro bids warmthMap
  have unit : UnitMap warmthMap := by
    intro peer v found
    simp only [warmthMap] at found
    split at found
    · cases found
      norm_num
    · split at found
      · cases found
        norm_num
      · cases found
  refine ⟨unit, dominating_bid_wins bids _ unit (bidAt "B" 0 300 (9 / 10)) (by simp [bids]) ?_ ?_⟩
  · intro b member _
    simp only [bids, List.mem_cons, List.not_mem_nil, or_false] at member
    rcases member with rfl | rfl | rfl
    · exact ⟨⟨by decide, by decide, by decide +kernel, by decide +kernel⟩, .inr (.inl (by decide))⟩
    · contradiction
    · exact ⟨⟨by decide, by decide, by decide +kernel, by decide +kernel⟩, .inr (.inl (by decide))⟩
  · intro b member
    simp only [bids, List.mem_cons, List.not_mem_nil, or_false] at member
    rcases member with rfl | rfl | rfl
    all_goals exact ⟨fun _ => rfl, fun zero => absurd zero (by decide)⟩

/-- A free node against one that asks for 50, alike in everything else: the price term of the free one is zero. -/
theorem free_bid_loses :
    let bids := [bidAt "A" 0 300 (9 / 10), bidAt "B" 50 300 (9 / 10)]
    UnitMap (fun _ => none) ∧ (∀ b ∈ bids, 0 ≤ b.reputation ∧ b.reputation ≤ 1) ∧
      (∀ b ∈ bids, b ≠ bidAt "A" 0 300 (9 / 10) →
        AsGood (fun _ => none) (bidAt "A" 0 300 (9 / 10)) b ∧
          Improves (fun _ => none) (bidAt "A" 0 300 (9 / 10)) b) ∧
      pickWinnerWithWarmth bids (fun _ => none) = some (bidAt "B" 50 300 (9 / 10)) := by
  intro bids
  refine ⟨nofun, ?_, ?_, by decide +kernel⟩
  · intro b member
    simp only [bids, List.mem_cons, List.not_mem_nil, or_false] at member
    rcases member with rfl | rfl <;> decide +kernel
  · intro b member apart
    simp only [bids, List.mem_cons, List.not_mem_nil, or_false] at member
    rcases member with rfl | rfl
    · contradiction
    · exact ⟨⟨by decide, by decide, le_rfl, le_rfl⟩, .inl (by decide)⟩

def priceGain (a b : InferenceBid) : ℚ := inverse a.pricePer1k.value.toNat - inverse b.pricePer1k.value.toNat

def serviceGain (a b : InferenceBid) : ℚ :=
  inverse b.latencyMs.toNat - inverse a.latencyMs.toNat + (b.reputation - a.reputation)

/-- The service of `b` is worth between 4/3 and 7/5 of the price of `a`: one formula prefers `b`, the other `a`. -/
def Contested (a b : InferenceBid) : Prop :=
  0 < priceGain a b ∧
    if b.pricePer1k.value = 0 then 4 * priceGain a b ≤ 3 * serviceGain a b ∧ 5 * serviceGain a b < 7 * priceGain a b
    else 4 * priceGain a b < 3 * serviceGain a b ∧ 5 * serviceGain a b ≤ 7 * priceGain a b

def coldScore (bid : InferenceBid) : ℚ := scoreBidWithWarmth bid (warmthOf (fun _ => none) bid)

theorem scoreBid_sub (a b : InferenceBid) :
    scoreBid a - scoreBid b = 4 / 10 * priceGain a b - 3 / 10 * serviceGain a b := by
  unfold scoreBid priceGain serviceGain weightPrice weightLatency weightReputation
  ring

theorem coldScore_sub (a b : InferenceBid) :
    coldScore a - coldScore b = 35 / 100 * priceGain a b - 25 / 100 * serviceGain a b := by
  unfold coldScore scoreBidWithWarmth priceGain serviceGain weightPriceW weightLatencyW weightReputationW warmthOf
  simp only [Option.getD_none]
  ring

theorem priceGain_swap (a b : InferenceBid) : priceGain b a = -priceGain a b := (neg_sub _ _).symm

theorem cmp_of_priceGain (gain : 0 < priceGain a b) :
    cmp b.pricePer1k.value a.pricePer1k.value = if b.pricePer1k.value = 0 then .lt else .gt := by
  rw [priceGain, sub_pos] at gain
  rw [cmp_prices, cmp_toDual]
  by_cases free : b.pricePer1k.value = 0
  · rw [free, UInt64.toNat_zero, inverse_zero] at gain
    rw [if_pos free, free, UInt64.toNat_zero, cmp_eq_lt_iff]
    by_contra none
    rw [Nat.eq_zero_of_not_pos none, inverse_zero] at gain
    exact absurd gain (lt_irrefl _)
  · rw [if_neg free, cmp_eq_gt_iff]
    have positive : 0 < b.pricePer1k.value.toNat := by
      by_contra none
      exact free (UInt64.toNat_inj.mp (Nat.eq_zero_of_not_pos none))
    by_contra more
    rcases (not_lt.mp more).eq_or_lt with same | less
    · rw [same] at gain
      exact absurd gain (lt_irrefl _)
    · exact absurd (inverse_lt positive less) (not_lt.mpr gain.le)

theorem compareScored_of_priceGain (score : InferenceBid → ℚ) (gain : 0 < priceGain a b) :
    compareScored score a b =
      if (if b.pricePer1k.value = 0 then 0 < score a - score b else 0 ≤ score a - score b) then .gt else .lt := by
  unfold compareScored
  rw [cmp_of_priceGain gain]
  by_cases free : b.pricePer1k.value = 0
  · rcases lt_trichotomy (score a) (score b) with less | same | more
    · rw [(cmp_eq_lt_iff _ _).mpr less]
      simp only [if_pos free]
      rw [if_neg (by linarith)]
    · rw [(cmp_eq_eq_iff _ _).mpr same]
      simp only [if_pos free]
      rw [if_neg (by linarith)]
    · rw [(cmp_eq_gt_iff _ _).mpr more]
      simp only [if_pos free]
      rw [if_pos (by linarith)]
  · rcases lt_trichotomy (score a) (score b) with less | same | more
    · rw [(cmp_eq_lt_iff _ _).mpr less]
      simp only [if_neg free]
      rw [if_neg (by linarith)]
    · rw [(cmp_eq_eq_iff _ _).mpr same]
      simp only [if_neg free]
      rw [if_pos (by linarith)]
    · rw [(cmp_eq_gt_iff _ _).mpr more]
      simp only [if_neg free]
      rw [if_pos (by linarith)]

theorem preferred_iff (p q : Prop) [Decidable p] [Decidable q] :
    (if p then Ordering.gt else .lt) = (if q then .gt else .lt) ↔ (p ↔ q) := by
  by_cases left : p <;> by_cases right : q <;> simp [left, right]

theorem compare_agrees_iff (gain : 0 < priceGain a b) :
    compareScored coldScore a b = compareScored scoreBid a b ↔ ¬ Contested a b := by
  rw [compareScored_of_priceGain coldScore gain, compareScored_of_priceGain scoreBid gain, coldScore_sub, scoreBid_sub,
    preferred_iff, Contested]
  generalize priceGain a b = price at gain
  generalize serviceGain a b = service
  split_ifs
  all_goals
    constructor
    · intro agree given
      obtain ⟨_, low, high⟩ := given
      have original := agree.mp (by linarith)
      linarith
    · intro settled
      refine ⟨fun cold => ?_, fun original => by linarith⟩
      by_contra against
      exact settled ⟨gain, by linarith, by linarith⟩

theorem compareScored_swap (score : InferenceBid → ℚ) (a b : InferenceBid) :
    compareScored score b a = (compareScored score a b).swap := by
  rw [compareScored_orderedBy, compareScored_orderedBy, cmp_swap]

theorem compare_agrees_of_same_price (level : priceGain a b = 0) :
    compareScored coldScore a b = compareScored scoreBid a b := by
  have cold := coldScore_sub a b
  have original := scoreBid_sub a b
  rw [level] at cold original
  have same : cmp (coldScore a) (coldScore b) = cmp (scoreBid a) (scoreBid b) := by
    rcases lt_trichotomy (scoreBid a) (scoreBid b) with less | equal | more
    · rw [(cmp_eq_lt_iff _ _).mpr less, cmp_eq_lt_iff]
      linarith
    · rw [(cmp_eq_eq_iff _ _).mpr equal, cmp_eq_eq_iff]
      linarith
    · rw [(cmp_eq_gt_iff _ _).mpr more, cmp_eq_gt_iff]
      linarith
  unfold compareScored
  rw [same]

theorem ranked_alike_iff (a b : InferenceBid) :
    compareScored coldScore a b = compareScored scoreBid a b ↔ ¬ Contested a b ∧ ¬ Contested b a := by
  rcases lt_trichotomy (priceGain a b) 0 with loss | level | gain
  · have gain : 0 < priceGain b a := by
      rw [priceGain_swap]
      exact neg_pos.mpr loss
    have uncontested : ¬ Contested a b := fun contested => absurd contested.1 (not_lt.mpr loss.le)
    rw [compareScored_swap coldScore b a, compareScored_swap scoreBid b a, Ordering.swap_inj, compare_agrees_iff gain]
    exact ⟨fun settled => ⟨uncontested, settled⟩, And.right⟩
  · have uncontested : ¬ Contested a b := fun contested => absurd contested.1 (not_lt.mpr level.le)
    have unanswered : ¬ Contested b a := by
      intro contested
      rw [Contested, priceGain_swap, level, neg_zero] at contested
      exact absurd contested.1 (lt_irrefl _)
    exact ⟨fun _ => ⟨uncontested, unanswered⟩, fun _ => compare_agrees_of_same_price level⟩
  · have unanswered : ¬ Contested b a := by
      intro contested
      rw [Contested, priceGain_swap, neg_pos] at contested
      exact absurd gain (not_lt.mpr contested.1.le)
    rw [compare_agrees_iff gain]
    exact ⟨fun settled => ⟨settled, unanswered⟩, And.left⟩

/-- The cold auction ranks the bids, and picks its winner, as the three-term formula does exactly when no bid is
    contested by another. -/
theorem cold_auction_is_original_iff (bids : List InferenceBid) :
    ((∀ a ∈ bids, ∀ b ∈ bids, compareBids (fun _ => none) a b = compareScored scoreBid a b) ∧
        ∀ w, pickWinnerWithWarmth bids (fun _ => none) = some w → ∀ b ∈ bids, ¬ Beats scoreBid b w) ↔
      ∀ a ∈ bids, ∀ b ∈ bids, ¬ Contested a b := by
  have cold : compareBids (fun _ => none) = compareScored coldScore := rfl
  rw [cold]
  constructor
  · intro given a left b right
    obtain ⟨alike, _⟩ := given
    exact ((ranked_alike_iff a b).mp (alike a left b right)).1
  · intro settled
    have alike (a : InferenceBid) (left : a ∈ bids) (b : InferenceBid) (right : b ∈ bids) :
        compareScored coldScore a b = compareScored scoreBid a b :=
      (ranked_alike_iff a b).mpr ⟨settled a left b right, settled b right a left⟩
    refine ⟨alike, ?_⟩
    intro w found b member beaten
    have last := winner_lastMax found
    have original : compareScored scoreBid w b = .lt := by
      rw [compareScored_orderedBy, cmp_eq_lt_iff]
      exact beats_iff.mp beaten
    rw [← alike w last.mem b member, compareScored_orderedBy, cmp_eq_lt_iff] at original
    exact absurd original (not_lt.mpr (last.le member))

/-- The cheap bid wins the cold auction, the reputable one the original. -/
theorem reputable_bid_loses_cold :
    let bids := [bidAt "A" 2 100 (1 / 2), bidAt "B" 4 100 (27 / 32)]
    pickWinnerWithWarmth bids (fun _ => none) = some (bidAt "A" 2 100 (1 / 2)) ∧
      Beats scoreBid (bidAt "B" 4 100 (27 / 32)) (bidAt "A" 2 100 (1 / 2)) ∧
      maxBy (compareScored scoreBid) bids = some (bidAt "B" 4 100 (27 / 32)) := by
  refine ⟨by decide +kernel, .inl (by decide +kernel), by decide +kernel⟩

end Coordinator
