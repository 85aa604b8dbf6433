import Mathlib.Data.List.Induction
import Pinaivu.Async.Run
import Pinaivu.Store.Slots
import Pinaivu.Coordinator.PeerRegistry

namespace Coordinator

open Protocol Async Store

inductive RegistryCall where
  | upsert (peer : PeerId) (capabilities : NodeCapabilities) (addrs : List Multiaddr) (nowMs : UInt64)
  | observeAddrs (peer : PeerId) (addrs : List Multiaddr)
  | evictStale (nowMs : UInt64)

namespace PeerRegistry

def perform (registry : PeerRegistry) : RegistryCall → PeerRegistry
  | .upsert peer capabilities addrs nowMs => registry.upsert peer capabilities addrs nowMs
  | .observeAddrs peer addrs => registry.observeAddrs peer addrs
  | .evictStale nowMs => registry.evictStale nowMs

def after (ttl : UInt64) (calls : List RegistryCall) : PeerRegistry := calls.foldl perform (new ttl)

end PeerRegistry

namespace RegistryCall

def Upserts (peer : PeerId) (call : RegistryCall) : Prop :=
  ∃ capabilities addrs nowMs, call = .upsert peer capabilities addrs nowMs

def Expires (ttl seen : UInt64) (call : RegistryCall) : Prop :=
  ∃ nowMs, call = .evictStale nowMs ∧ seen.toNat < nowMs.toNat - ttl.toNat

def Passes (peer : PeerId) (addr : Multiaddr) : RegistryCall → Prop
  | .upsert p _ addrs _ => p = peer ∧ addr ∈ addrs
  | .observeAddrs p addrs => p = peer ∧ addr ∈ addrs
  | .evictStale _ => False

def isObserve : RegistryCall → Bool
  | .observeAddrs _ _ => true
  | _ => false

end RegistryCall

/-- The last upsert of a peer, which no later eviction found too old. -/
def LastSeen (ttl : UInt64) (calls : List RegistryCall) (peer : PeerId) (capabilities : NodeCapabilities)
    (seen : UInt64) : Prop :=
  Since (fun call => ∃ addrs, call = .upsert peer capabilities addrs seen)
    (fun call => call.Upserts peer ∨ call.Expires ttl seen) calls

def Listed (ttl : UInt64) (calls : List RegistryCall) (peer : PeerId) : Prop :=
  ∃ capabilities seen, LastSeen ttl calls peer capabilities seen

/-- The calls from the one that created the peer's present entry on. -/
def SinceCreation (ttl : UInt64) (calls : List RegistryCall) (peer : PeerId) (since : List RegistryCall) :
    Prop :=
  ∃ before, calls = before ++ since ∧ ¬ Listed ttl before peer ∧
    ∀ part, part ≠ [] → part <+: since → Listed ttl (before ++ part) peer

def nextEntry (ttl : UInt64) (peer : PeerId) (entry : Option PeerEntry) : RegistryCall → Option PeerEntry
  | .upsert p capabilities addrs nowMs =>
    if p = peer then
      some ⟨capabilities, (entry.map fun e => pushMissing e.multiaddrs addrs).getD addrs, nowMs⟩
    else entry
  | .observeAddrs p addrs =>
    if p = peer then entry.map fun e => { e with multiaddrs := pushMissing e.multiaddrs addrs } else entry
  | .evictStale nowMs => entry.filter fun e => nowMs.toNat - ttl.toNat ≤ e.lastSeenMs.toNat

def nextStamp (ttl : UInt64) (peer : PeerId) (stamp : Option (NodeCapabilities × UInt64)) :
    RegistryCall → Option (NodeCapabilities × UInt64)
  | .upsert p capabilities _ nowMs => if p = peer then some (capabilities, nowMs) else stamp
  | .observeAddrs _ _ => stamp
  | .evictStale nowMs => stamp.filter fun seen => nowMs.toNat - ttl.toNat ≤ seen.2.toNat

def PeerEntry.stamp (entry : PeerEntry) : NodeCapabilities × UInt64 := (entry.capabilities, entry.lastSeenMs)

theorem nextEntry_stamp (ttl : UInt64) (peer : PeerId) (entry : Option PeerEntry) (call : RegistryCall) :
    (nextEntry ttl peer entry call).map PeerEntry.stamp =
      nextStamp ttl peer (entry.map PeerEntry.stamp) call := by
  cases call with
  | upsert p capabilities addrs nowMs =>
    rw [nextEntry, nextStamp]
    by_cases meant : p = peer
    · rw [if_pos meant, if_pos meant]
      rfl
    · rw [if_neg meant, if_neg meant]
  | observeAddrs p addrs =>
    rw [nextEntry, nextStamp]
    by_cases meant : p = peer
    · rw [if_pos meant]
      cases entry with
      | none => rfl
      | some e => rfl
    · rw [if_neg meant]
  | evictStale nowMs =>
    rw [nextEntry, nextStamp]
    cases entry with
    | none => rfl
    | some e =>
      by_cases kept : nowMs.toNat - ttl.toNat ≤ e.lastSeenMs.toNat
      · simp [Option.filter, PeerEntry.stamp, kept]
      · simp [Option.filter, PeerEntry.stamp, kept]

variable {ttl : UInt64} {calls : List RegistryCall} {peer : PeerId}

theorem lastSeen_iff (capabilities : NodeCapabilities) (seen : UInt64) :
    calls.foldl (nextStamp ttl peer) none = some (capabilities, seen) ↔
      LastSeen ttl calls peer capabilities seen := by
  induction calls using List.reverseRecOn with
  | nil =>
    constructor
    · intro stamped
      cases stamped
    · intro last
      exact absurd last not_since_nil
  | append_singleton calls call ih =>
    unfold LastSeen at ih ⊢
    rw [List.foldl_append, since_snoc, ← ih]
    change nextStamp ttl peer (calls.foldl (nextStamp ttl peer) none) call = _ ↔ _
    cases call with
    | upsert p c addrs nowMs =>
      rw [nextStamp]
      by_cases meant : p = peer
      · subst p
        have closes : (RegistryCall.upsert peer c addrs nowMs).Upserts peer := ⟨c, addrs, nowMs, rfl⟩
        simp [closes]
      · have other : ¬ (RegistryCall.upsert p c addrs nowMs).Upserts peer := by
          intro upserts
          obtain ⟨_, _, _, same⟩ := upserts
          cases same
          exact meant rfl
        simp [RegistryCall.Expires, meant, other]
    | observeAddrs p addrs => simp [nextStamp, RegistryCall.Upserts, RegistryCall.Expires]
    | evictStale nowMs =>
      simp [nextStamp, RegistryCall.Upserts, RegistryCall.Expires, Option.filter_eq_some_iff]

theorem listed_iff : (calls.foldl (nextStamp ttl peer) none).isSome = true ↔ Listed ttl calls peer := by
  rw [Option.isSome_iff_exists]
  constructor
  · intro stamped
    obtain ⟨⟨capabilities, seen⟩, stamped⟩ := stamped
    exact ⟨capabilities, seen, (lastSeen_iff capabilities seen).mp stamped⟩
  · intro listed
    obtain ⟨capabilities, seen, last⟩ := listed
    exact ⟨(capabilities, seen), (lastSeen_iff capabilities seen).mpr last⟩

theorem stamp_without_observes :
    (calls.filter fun call => !call.isObserve).foldl (nextStamp ttl peer) none =
      calls.foldl (nextStamp ttl peer) none := by
  rw [List.foldl_filter]
  congr 1
  funext stamp call
  cases call with
  | upsert p capabilities addrs nowMs => rfl
  | observeAddrs p addrs => rfl
  | evictStale nowMs => rfl

theorem mem_pushMissing (known more : List Multiaddr) (addr : Multiaddr) :
    addr ∈ pushMissing known more ↔ addr ∈ known ∨ addr ∈ more := by
  induction more generalizing known with
  | nil => simp [pushMissing]
  | cons first more ih =>
    change addr ∈ pushMissing (if known.contains first then known else known ++ [first]) more ↔ _
    rw [ih, List.mem_cons]
    by_cases there : known.contains first = true
    · rw [if_pos there]
      have member := List.contains_iff_mem.mp there
      constructor
      · intro either
        rcases either with old | new
        · exact .inl old
        · exact .inr (.inr new)
      · intro either
        rcases either with old | same | new
        · exact .inl old
        · subst first
          exact .inl member
        · exact .inr new
    · rw [if_neg there, List.mem_append, List.mem_singleton, or_assoc]

namespace PeerRegistry

theorem cutoff_le_iff (registry : PeerRegistry) (nowMs seen : UInt64) :
    registry.cutoff nowMs ≤ seen ↔ nowMs.toNat - registry.ttl.toNat ≤ seen.toNat := by
  unfold cutoff
  rw [UInt64.le_iff_toNat_le]
  by_cases past : registry.ttl ≤ nowMs
  · rw [if_pos past, UInt64.toNat_sub_of_le _ _ past]
  · rw [if_neg past]
    rw [UInt64.le_iff_toNat_le] at past
    simp only [UInt64.toNat_zero]
    omega

theorem upsert_inner (registry : PeerRegistry) (peer : PeerId) (capabilities : NodeCapabilities)
    (addrs : List Multiaddr) (nowMs : UInt64) :
    (registry.upsert peer capabilities addrs nowMs).inner =
      if registry.get peer = none then registry.inner ++ [(peer, ⟨capabilities, addrs, nowMs⟩)]
      else change registry.inner peer fun entry =>
        ⟨capabilities, pushMissing entry.multiaddrs addrs, nowMs⟩ := by
  unfold upsert
  cases registry.get peer with
  | none => rfl
  | some entry => rfl

theorem observeAddrs_inner (registry : PeerRegistry) (peer : PeerId) (addrs : List Multiaddr) :
    (registry.observeAddrs peer addrs).inner = change registry.inner peer fun entry =>
      { entry with multiaddrs := pushMissing entry.multiaddrs addrs } := rfl

theorem perform_ttl (registry : PeerRegistry) (call : RegistryCall) :
    (registry.perform call).ttl = registry.ttl := by
  cases call with
  | upsert peer capabilities addrs nowMs =>
    change (registry.upsert peer capabilities addrs nowMs).ttl = registry.ttl
    unfold upsert
    cases registry.get peer with
    | none => rfl
    | some entry => rfl
  | observeAddrs peer addrs => rfl
  | evictStale nowMs => rfl

theorem perform_distinct {registry : PeerRegistry} (distinct : Distinct registry.inner)
    (call : RegistryCall) : Distinct (registry.perform call).inner := by
  cases call with
  | upsert peer capabilities addrs nowMs =>
    change Distinct (registry.upsert peer capabilities addrs nowMs).inner
    rw [upsert_inner]
    split
    · rename_i absent
      exact distinct.snoc absent _
    · exact distinct.change peer _
  | observeAddrs peer addrs =>
    change Distinct (registry.observeAddrs peer addrs).inner
    rw [observeAddrs_inner]
    exact distinct.change peer _
  | evictStale nowMs => exact distinct.filter _

theorem get_perform {registry : PeerRegistry} (distinct : Distinct registry.inner) (call : RegistryCall)
    (peer : PeerId) :
    (registry.perform call).get peer = nextEntry registry.ttl peer (registry.get peer) call := by
  cases call with
  | upsert p capabilities addrs nowMs =>
    change lookup (registry.upsert p capabilities addrs nowMs).inner peer = _
    rw [upsert_inner, nextEntry]
    by_cases meant : p = peer
    · subst peer
      rw [if_pos rfl]
      split
      · rename_i absent
        rw [lookup_snoc, if_pos rfl]
        change (registry.get p).or _ = _
        rw [absent]
        rfl
      · rename_i present
        obtain ⟨entry, found⟩ := Option.ne_none_iff_exists'.mp present
        rw [lookup_change, if_pos rfl]
        change (registry.get p).map _ = _
        rw [found]
        rfl
    · rw [if_neg meant]
      split
      · rw [lookup_snoc, if_neg meant, Option.or_none]
        rfl
      · rw [lookup_change, if_neg meant]
        rfl
  | observeAddrs p addrs =>
    change lookup (registry.observeAddrs p addrs).inner peer = _
    rw [observeAddrs_inner, lookup_change, nextEntry]
    rfl
  | evictStale nowMs =>
    change lookup (registry.inner.filter fun slot => registry.cutoff nowMs ≤ slot.2.lastSeenMs) peer = _
    rw [lookup_filter distinct fun entry => registry.cutoff nowMs ≤ entry.lastSeenMs, nextEntry]
    show (registry.get peer).filter _ = _
    congr 1
    funext entry
    rw [decide_eq_decide]
    exact cutoff_le_iff registry nowMs entry.lastSeenMs

theorem after_snoc (ttl : UInt64) (calls : List RegistryCall) (call : RegistryCall) :
    after ttl (calls ++ [call]) = (after ttl calls).perform call := by
  unfold after
  rw [List.foldl_append]
  rfl

theorem after_ttl (ttl : UInt64) (calls : List RegistryCall) : (after ttl calls).ttl = ttl := by
  induction calls using List.reverseRecOn with
  | nil => rfl
  | append_singleton calls call ih => rw [after_snoc, perform_ttl, ih]

theorem after_distinct (ttl : UInt64) (calls : List RegistryCall) : Distinct (after ttl calls).inner := by
  induction calls using List.reverseRecOn with
  | nil => exact List.nodup_nil
  | append_singleton calls call ih =>
    rw [after_snoc]
    exact perform_distinct ih call

theorem get_after_snoc (ttl : UInt64) (calls : List RegistryCall) (call : RegistryCall) (peer : PeerId) :
    (after ttl (calls ++ [call])).get peer = nextEntry ttl peer ((after ttl calls).get peer) call := by
  rw [after_snoc, get_perform (after_distinct ttl calls), after_ttl]

theorem get_after_stamp (ttl : UInt64) (calls : List RegistryCall) (peer : PeerId) :
    ((after ttl calls).get peer).map PeerEntry.stamp = calls.foldl (nextStamp ttl peer) none := by
  induction calls using List.reverseRecOn with
  | nil => rfl
  | append_singleton calls call ih =>
    rw [get_after_snoc, nextEntry_stamp, ih, List.foldl_append]
    rfl

theorem get_after_isSome (ttl : UInt64) (calls : List RegistryCall) (peer : PeerId) :
    ((after ttl calls).get peer).isSome = true ↔ Listed ttl calls peer := by
  rw [← listed_iff, ← get_after_stamp, Option.isSome_map]

end PeerRegistry

open PeerRegistry

theorem nextEntry_addrs {ttl : UInt64} {peer : PeerId} {entry : Option PeerEntry} {call : RegistryCall}
    {e : PeerEntry} (next : nextEntry ttl peer entry call = some e) (addr : Multiaddr) :
    addr ∈ e.multiaddrs ↔ (∃ old, entry = some old ∧ addr ∈ old.multiaddrs) ∨ call.Passes peer addr := by
  cases call with
  | upsert p capabilities addrs nowMs =>
    rw [nextEntry] at next
    by_cases meant : p = peer
    · rw [if_pos meant, Option.some.injEq] at next
      subst e
      cases entry with
      | none => simp [RegistryCall.Passes, meant]
      | some old => simp [RegistryCall.Passes, meant, mem_pushMissing]
    · rw [if_neg meant] at next
      simp [RegistryCall.Passes, meant, next]
  | observeAddrs p addrs =>
    rw [nextEntry] at next
    by_cases meant : p = peer
    · rw [if_pos meant, Option.map_eq_some_iff] at next
      obtain ⟨old, present, same⟩ := next
      subst e
      simp [RegistryCall.Passes, meant, present, mem_pushMissing]
    · rw [if_neg meant] at next
      simp [RegistryCall.Passes, meant, next]
  | evictStale nowMs =>
    rw [nextEntry, Option.filter_eq_some_iff] at next
    simp [RegistryCall.Passes, next.1]

variable {since : List RegistryCall} {call : RegistryCall}

theorem SinceCreation.first (fresh : ¬ Listed ttl calls peer) (listed : Listed ttl (calls ++ [call]) peer) :
    SinceCreation ttl (calls ++ [call]) peer [call] := by
  apply Exists.intro calls
  apply And.intro rfl
  apply And.intro fresh
  intro part nonempty shape
  rcases List.prefix_concat_iff.mp (show part <+: [] ++ [call] from shape) with whole | nothing
  · rw [whole]
    exact listed
  · exact absurd (List.prefix_nil.mp nothing) nonempty

theorem SinceCreation.snoc (created : SinceCreation ttl calls peer since)
    (listed : Listed ttl (calls ++ [call]) peer) :
    SinceCreation ttl (calls ++ [call]) peer (since ++ [call]) := by
  obtain ⟨before, shape, fresh, lives⟩ := created
  apply Exists.intro before
  apply And.intro (by rw [shape, List.append_assoc])
  apply And.intro fresh
  intro part nonempty within
  rcases List.prefix_concat_iff.mp within with whole | inside
  · rw [whole, ← List.append_assoc, ← shape]
    exact listed
  · exact lives part nonempty inside

theorem SinceCreation.length_le {other : List RegistryCall} (left : SinceCreation ttl calls peer since)
    (right : SinceCreation ttl calls peer other) : since.length ≤ other.length := by
  obtain ⟨before, shape, _, lives⟩ := left
  obtain ⟨before', shape', fresh, _⟩ := right
  by_contra longer
  have lengths : before.length + since.length = before'.length + other.length := by
    rw [← List.length_append, ← List.length_append, ← shape, ← shape']
  have within : before <+: before' :=
    List.prefix_of_prefix_length_le ⟨since, shape.symm⟩ ⟨other, shape'.symm⟩ (by omega)
  obtain ⟨part, shorter⟩ := within
  subst before'
  rw [shape, List.append_assoc] at shape'
  have inside := List.append_cancel_left shape'
  rw [List.length_append] at lengths
  apply fresh
  apply lives part
  · intro empty
    rw [empty, List.length_nil] at lengths
    omega
  · exact ⟨other, inside.symm⟩

theorem SinceCreation.unique {other : List RegistryCall} (left : SinceCreation ttl calls peer since)
    (right : SinceCreation ttl calls peer other) : since = other := by
  have lengths := Nat.le_antisymm (left.length_le right) (right.length_le left)
  obtain ⟨before, shape, _⟩ := left
  obtain ⟨before', shape', _⟩ := right
  exact (List.append_inj' (shape.symm.trans shape') lengths).2

theorem addrs_since_creation {ttl : UInt64} {calls : List RegistryCall} {peer : PeerId} {e : PeerEntry}
    (found : (after ttl calls).get peer = some e) :
    ∃ since, SinceCreation ttl calls peer since ∧
      ∀ addr, addr ∈ e.multiaddrs ↔ ∃ call ∈ since, call.Passes peer addr := by
  induction calls using List.reverseRecOn generalizing e with
  | nil => cases found
  | append_singleton calls call ih =>
    have listed : Listed ttl (calls ++ [call]) peer := by
      rw [← get_after_isSome, found]
      rfl
    rw [get_after_snoc] at found
    have addrs := nextEntry_addrs found
    cases present : (after ttl calls).get peer with
    | none =>
      have fresh : ¬ Listed ttl calls peer := by
        rw [← get_after_isSome, present]
        simp
      apply Exists.intro [call]
      apply And.intro (SinceCreation.first fresh listed)
      intro addr
      rw [addrs, present]
      simp
    | some old =>
      obtain ⟨since, created, known⟩ := ih present
      apply Exists.intro (since ++ [call])
      apply And.intro (created.snoc listed)
      intro addr
      rw [addrs, present]
      simp [known, or_and_right, exists_or]

/-- The registry is what its calls say: who is listed, since when, with what, and under which
    addresses; and no call of `observe_addrs` has a part in the first three. -/
theorem registry_equals_trace (ttl : UInt64) (calls : List RegistryCall) (peer : PeerId) :
    ((∃ e, (after ttl calls).get peer = some e) ↔ Listed ttl calls peer) ∧
    (∀ e, (after ttl calls).get peer = some e →
      LastSeen ttl calls peer e.capabilities e.lastSeenMs ∧
      (∃ since, SinceCreation ttl calls peer since) ∧
      ∀ since, SinceCreation ttl calls peer since →
        ∀ addr, addr ∈ e.multiaddrs ↔ ∃ call ∈ since, call.Passes peer addr) ∧
    ((after ttl calls).get peer).map PeerEntry.stamp =
      ((after ttl (calls.filter fun call => !call.isObserve)).get peer).map PeerEntry.stamp := by
  refine ⟨?_, ?_, ?_⟩
  · rw [← get_after_isSome, Option.isSome_iff_exists]
  · intro e found
    have stamped := get_after_stamp ttl calls peer
    rw [found] at stamped
    obtain ⟨since, created, addrs⟩ := addrs_since_creation found
    refine ⟨(lastSeen_iff _ _).mp stamped.symm, ⟨since, created⟩, ?_⟩
    intro other also
    rw [also.unique created]
    exact addrs
  · rw [get_after_stamp, get_after_stamp, stamp_without_observes]

end Coordinator
