import Mathlib.Data.Finset.Card
import Mathlib.Data.List.Infix
import Pinaivu.Wire.Json
import Pinaivu.Coordinator.RegistryTrace

namespace Coordinator

open Protocol Wire Store PeerRegistry

structure ModelPricing where
  inputPer1mTokensNanox : UInt64
  outputPer1mTokensNanox : UInt64
  deriving DecidableEq, Repr

structure ModelObject where
  id : String
  object : String
  ownedBy : String
  nodesAvailable : Nat
  pricing : ModelPricing
  deriving DecidableEq, Repr

structure ModelList where
  object : String
  data : List ModelObject
  deriving DecidableEq, Repr

/-- The order in which a hash map gives out its slots. -/
structure IterationOrder (α : Type) where
  arrange : List α → List α
  perm : ∀ slots, (arrange slots).Perm slots

def mentions (id part : String) : Bool := part.toList <:+: id.toList

def baselinePricing (modelId : String) : ModelPricing :=
  if mentions modelId "72b" || mentions modelId "72B" then ⟨50000, 150000⟩
  else if mentions modelId "32b" || mentions modelId "32B" then ⟨20000, 60000⟩
  else ⟨5000, 15000⟩

def modelCounts (snapshot : List (PeerId × PeerEntry)) : List (String × Nat) :=
  snapshot.foldl (fun counts slot => slot.2.capabilities.models.foldl bump counts) []

def modelObject (counted : String × Nat) : ModelObject where
  pricing := baselinePricing counted.1
  object := "model"
  ownedBy := "pinaivu"
  nodesAvailable := counted.2
  id := counted.1

/-- Rust compares texts by their bytes. -/
def idLe (a b : ModelObject) : Bool := utf8 a.id ≤ utf8 b.id

def listModels (peers : IterationOrder (PeerId × PeerEntry)) (models : IterationOrder (String × Nat))
    (registry : PeerRegistry) : ModelList where
  object := "list"
  data :=
    let snapshot := peers.arrange registry.snapshot
    ((models.arrange (modelCounts snapshot)).map modelObject).mergeSort idLe

def advertised (slots : List (PeerId × PeerEntry)) : List String :=
  slots.flatMap fun slot => slot.2.capabilities.models

def advertisers (registry : PeerRegistry) (id : String) : Finset PeerId :=
  ((registry.snapshot.filter fun slot => id ∈ slot.2.capabilities.models).map (·.1)).toFinset

def idsIncrease (list : ModelList) : Prop := (list.data.map (·.id)).Pairwise fun a b => utf8 a < utf8 b

theorem modelCounts_eq_tally (snapshot : List (PeerId × PeerEntry)) :
    modelCounts snapshot = (advertised snapshot).foldl bump [] := by
  unfold modelCounts advertised
  rw [List.foldl_flatMap]

theorem mem_modelCounts (snapshot : List (PeerId × PeerEntry)) (id : String) (count : Nat) :
    (id, count) ∈ modelCounts snapshot ↔ id ∈ advertised snapshot ∧ count = (advertised snapshot).count id := by
  rw [modelCounts_eq_tally, mem_iff_lookup (distinct_tally _), lookup_tally]
  by_cases member : id ∈ advertised snapshot
  · simp [member, eq_comm]
  · simp [member]

theorem idLe_trans (a b c : ModelObject) (first : idLe a b = true) (second : idLe b c = true) :
    idLe a c = true := by
  unfold idLe at first second ⊢
  rw [decide_eq_true_eq] at first second ⊢
  exact List.le_trans first second

theorem idLe_total (a b : ModelObject) : (idLe a b || idLe b a) = true := by
  unfold idLe
  rw [Bool.or_eq_true, decide_eq_true_eq, decide_eq_true_eq]
  exact List.le_total (utf8 a.id) (utf8 b.id)

section Listing

variable (peers : IterationOrder (PeerId × PeerEntry)) (models : IterationOrder (String × Nat))
  (registry : PeerRegistry)

theorem listModels_perm : (listModels peers models registry).data.Perm
    ((modelCounts (peers.arrange registry.snapshot)).map modelObject) :=
  (List.mergeSort_perm _ idLe).trans ((models.perm _).map modelObject)

theorem count_advertised (id : String) :
    (advertised (peers.arrange registry.snapshot)).count id = (advertised registry.snapshot).count id := by
  unfold advertised
  exact ((peers.perm registry.snapshot).flatMap_right _).count_eq id

theorem mem_advertised (id : String) :
    id ∈ advertised (peers.arrange registry.snapshot) ↔ id ∈ advertised registry.snapshot := by
  unfold advertised
  exact ((peers.perm registry.snapshot).flatMap_right _).mem_iff

theorem mem_listModels (entry : ModelObject) : entry ∈ (listModels peers models registry).data ↔
    entry.id ∈ advertised registry.snapshot ∧
      entry = modelObject (entry.id, (advertised registry.snapshot).count entry.id) := by
  rw [(listModels_perm peers models registry).mem_iff, List.mem_map]
  constructor
  · intro listed
    obtain ⟨⟨id, count⟩, counted, same⟩ := listed
    subst entry
    rw [mem_modelCounts, mem_advertised, count_advertised] at counted
    apply And.intro counted.1
    rw [counted.2]
    rfl
  · intro listed
    apply Exists.intro (entry.id, (advertised registry.snapshot).count entry.id)
    apply And.intro _ listed.2.symm
    rw [mem_modelCounts, mem_advertised, count_advertised]
    exact ⟨listed.1, rfl⟩

theorem listed_of_advertised {id : String} (member : id ∈ advertised registry.snapshot) :
    modelObject (id, (advertised registry.snapshot).count id) ∈ (listModels peers models registry).data :=
  (mem_listModels peers models registry _).mpr ⟨member, rfl⟩

theorem listModels_ids_nodup : ((listModels peers models registry).data.map (·.id)).Nodup := by
  have keys := ((listModels_perm peers models registry).map (·.id)).nodup_iff
  rw [keys, List.map_map, modelCounts_eq_tally]
  exact distinct_tally _

theorem listModels_increase : idsIncrease (listModels peers models registry) := by
  have sorted := List.pairwise_mergeSort idLe_trans idLe_total
    ((models.arrange (modelCounts (peers.arrange registry.snapshot))).map modelObject)
  have different := List.pairwise_map.mp (listModels_ids_nodup peers models registry)
  unfold idsIncrease
  rw [List.pairwise_map]
  apply (List.Pairwise.and sorted different).imp
  intro a b ordered
  obtain ⟨least, apart⟩ := ordered
  unfold idLe at least
  rw [decide_eq_true_eq] at least
  by_contra notLess
  exact apart (utf8_injective (List.le_antisymm least notLess))

theorem mem_ids_listModels (id : String) : id ∈ (listModels peers models registry).data.map (·.id) ↔
    ∃ slot ∈ registry.snapshot, id ∈ slot.2.capabilities.models := by
  rw [List.mem_map, ← List.mem_flatMap]
  constructor
  · intro listed
    obtain ⟨entry, member, same⟩ := listed
    subst id
    exact ((mem_listModels peers models registry entry).mp member).1
  · intro member
    exact ⟨_, listed_of_advertised peers models registry member, rfl⟩

theorem card_advertisers (distinct : Distinct registry.snapshot) (id : String) :
    (advertisers registry id).card =
      (registry.snapshot.map fun slot => slot.2.capabilities.models).countP (id ∈ ·) := by
  unfold advertisers
  rw [List.toFinset_card_of_nodup (distinct.filter _), List.length_map, List.countP_map,
    List.countP_eq_length_filter]
  rfl

theorem listModels_counts_iff (distinct : Distinct registry.snapshot) :
    (∀ entry ∈ (listModels peers models registry).data,
      entry.nodesAvailable = (advertisers registry entry.id).card) ↔
      ∀ slot ∈ registry.snapshot, slot.2.capabilities.models.Nodup := by
  have counts (id : String) : (advertised registry.snapshot).count id = (advertisers registry id).card ↔
      ∀ slot ∈ registry.snapshot, slot.2.capabilities.models.count id ≤ 1 := by
    rw [card_advertisers registry distinct]
    unfold advertised
    rw [List.flatMap_def, count_flatten_eq_iff, List.forall_mem_map]
  constructor
  · intro counted slot member
    rw [List.nodup_iff_count_le_one]
    intro id
    by_cases listed : id ∈ advertised registry.snapshot
    · have entry := listed_of_advertised peers models registry listed
      exact (counts id).mp (counted _ entry) slot member
    · have absent : id ∉ slot.2.capabilities.models := by
        intro inside
        exact listed (List.mem_flatMap.mpr ⟨slot, member, inside⟩)
      rw [List.count_eq_zero_of_not_mem absent]
      omega
  · intro once entry member
    have shape := ((mem_listModels peers models registry entry).mp member).2
    have number : entry.nodesAvailable = (advertised registry.snapshot).count entry.id := by
      rw [shape]
      rfl
    rw [number, counts]
    intro slot inside
    exact List.nodup_iff_count_le_one.mp (once slot inside) entry.id

end Listing

/-- In every order of both maps, the model list is strictly sorted and names exactly the advertised
    models; its counts are of nodes exactly if no registered peer repeats a model. -/
theorem model_list_counts_nodes_iff (ttl : UInt64) (calls : List RegistryCall)
    (peers : IterationOrder (PeerId × PeerEntry)) (models : IterationOrder (String × Nat)) :
    let registry := after ttl calls
    let list := listModels peers models registry
    idsIncrease list ∧
    (∀ id, id ∈ list.data.map (·.id) ↔ ∃ slot ∈ registry.snapshot, id ∈ slot.2.capabilities.models) ∧
    ((idsIncrease list ∧
        (∀ id, id ∈ list.data.map (·.id) ↔
          ∃ slot ∈ registry.snapshot, id ∈ slot.2.capabilities.models) ∧
        ∀ entry ∈ list.data, entry.nodesAvailable = (advertisers registry entry.id).card) ↔
      ∀ slot ∈ registry.snapshot, slot.2.capabilities.models.Nodup) := by
  intro registry list
  have increase : idsIncrease list := listModels_increase peers models registry
  have named (id : String) : id ∈ list.data.map (·.id) ↔
      ∃ slot ∈ registry.snapshot, id ∈ slot.2.capabilities.models :=
    mem_ids_listModels peers models registry id
  apply And.intro increase
  apply And.intro named
  rw [← listModels_counts_iff peers models registry (after_distinct ttl calls)]
  constructor
  · intro property
    exact property.2.2
  · intro counted
    exact ⟨increase, named, counted⟩

def IterationOrder.given (α : Type) : IterationOrder α := ⟨id, fun slots => .refl slots⟩

def repeatedAnnouncement : RegistryCall :=
  .upsert ⟨"12D3KooWNode"⟩ ⟨⟨"A"⟩, ["qwen-72b", "qwen-72b"], 4⟩ [] 1700000000000

theorem repeated_model_counts_twice :
    let registry := after 60000 [repeatedAnnouncement]
    (∃ entry ∈ (listModels (.given _) (.given _) registry).data,
      entry.id = "qwen-72b" ∧ entry.nodesAvailable = 2) ∧ (advertisers registry "qwen-72b").card = 1 := by
  intro registry
  apply And.intro
  · apply Exists.intro (modelObject ("qwen-72b", 2))
    apply And.intro
    · rw [mem_listModels]
      decide
    · decide
  · decide

end Coordinator
