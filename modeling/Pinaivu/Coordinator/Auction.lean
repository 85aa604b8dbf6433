import Mathlib.Data.Rat.Defs
import Mathlib.Algebra.Order.Field.Rat
import Mathlib.Order.Compare
import Pinaivu.Protocol.Messages

namespace Coordinator

open Protocol

def weightPrice : ℚ := 4 / 10
def weightLatency : ℚ := 3 / 10
def weightReputation : ℚ := 3 / 10

def weightPriceW : ℚ := 35 / 100
def weightLatencyW : ℚ := 25 / 100
def weightReputationW : ℚ := 25 / 100
def weightWarmth : ℚ := 15 / 100

abbrev WarmthMap := String → Option ℚ

def warmthForTier (tier : String) : ℚ :=
  if tier = "gpu" then 1
  else if tier = "cpu" then 7 / 10
  else if tier = "disk" then 4 / 10
  else 0

/-- Scores are exact: the source computes them in `f32`. -/
def inverse (n : Nat) : ℚ := if 0 < n then 1 / (n : ℚ) else 0

def scoreBid (bid : InferenceBid) : ℚ :=
  weightPrice * inverse bid.pricePer1k.value.toNat + weightLatency * inverse bid.latencyMs.toNat +
    weightReputation * bid.reputation

def clampUnit (warmth : ℚ) : ℚ := if warmth < 0 then 0 else if 1 < warmth then 1 else warmth

def scoreBidWithWarmth (bid : InferenceBid) (warmth : ℚ) : ℚ :=
  weightPriceW * inverse bid.pricePer1k.value.toNat + weightLatencyW * inverse bid.latencyMs.toNat +
    weightReputationW * bid.reputation + weightWarmth * clampUnit warmth

def compareBids (warmthMap : WarmthMap) (a b : InferenceBid) : Ordering :=
  let wa := (warmthMap a.nodePeerId.value).getD 0
  let wb := (warmthMap b.nodePeerId.value).getD 0
  match cmp (scoreBidWithWarmth a wa) (scoreBidWithWarmth b wb) with
  | .eq =>
    match cmp b.pricePer1k.value a.pricePer1k.value with
    | .eq => cmp b.latencyMs a.latencyMs
    | other => other
  | other => other

/-- `Iterator::max_by`: the later of two equal elements stays. -/
def maxBy (order : InferenceBid → InferenceBid → Ordering) : List InferenceBid → Option InferenceBid
  | [] => none
  | first :: rest =>
    some (rest.foldl (fun best bid => if order best bid = .gt then best else bid) first)

def pickWinnerWithWarmth (bids : List InferenceBid) (warmthMap : WarmthMap) : Option InferenceBid :=
  maxBy (compareBids warmthMap) bids

def pickWinner (bids : List InferenceBid) : Option InferenceBid := pickWinnerWithWarmth bids fun _ => none

def warmthMap (rows : List (String × String)) : WarmthMap :=
  rows.foldl (fun found row => Function.update found row.1 (some (warmthForTier row.2))) fun _ => none

end Coordinator
