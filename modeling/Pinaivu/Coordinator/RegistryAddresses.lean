import Pinaivu.Coordinator.RegistryTrace

namespace Coordinator

open Protocol Store PeerRegistry

def UniqueAddrs (registry : PeerRegistry) : Prop :=
  (∀ peer e, registry.get peer = some e → e.multiaddrs.Nodup) ∧
    ∀ slot ∈ registry.snapshot, slot.2.multiaddrs.Nodup

/-- Every upsert that finds no entry of its peer passes each address once. -/
def CreatesUnique (ttl : UInt64) (calls : List RegistryCall) : Prop :=
  ∀ before peer capabilities addrs nowMs later,
    calls = before ++ .upsert peer capabilities addrs nowMs :: later →
      (after ttl before).get peer = none → addrs.Nodup

theorem pushMissing_nodup {known : List Multiaddr} (once : known.Nodup) (more : List Multiaddr) :
    (pushMissing known more).Nodup := by
  induction more generalizing known with
  | nil => exact once
  | cons first more ih =>
    change (pushMissing (if known.contains first then known else known ++ [first]) more).Nodup
    apply ih
    by_cases there : known.contains first = true
    · rw [if_pos there]
      exact once
    · rw [if_neg there, ← List.concat_eq_append]
      apply List.Nodup.concat _ once
      intro member
      exact there (List.contains_iff_mem.mpr member)

theorem nextEntry_nodup {ttl : UInt64} {peer : PeerId} {entry : Option PeerEntry} {call : RegistryCall}
    {e : PeerEntry} (next : nextEntry ttl peer entry call = some e)
    (known : ∀ old, entry = some old → old.multiaddrs.Nodup)
    (creates : ∀ capabilities addrs nowMs, call = .upsert peer capabilities addrs nowMs → entry = none →
      addrs.Nodup) : e.multiaddrs.Nodup := by
  cases call with
  | upsert p capabilities addrs nowMs =>
    rw [nextEntry] at next
    by_cases meant : p = peer
    · subst p
      rw [if_pos rfl, Option.some.injEq] at next
      subst e
      cases entry with
      | none => exact creates capabilities addrs nowMs rfl rfl
      | some old => exact pushMissing_nodup (known old rfl) addrs
    · rw [if_neg meant] at next
      exact known e next
  | observeAddrs p addrs =>
    rw [nextEntry] at next
    by_cases meant : p = peer
    · rw [if_pos meant, Option.map_eq_some_iff] at next
      obtain ⟨old, present, same⟩ := next
      subst e
      exact pushMissing_nodup (known old present) addrs
    · rw [if_neg meant] at next
      exact known e next
  | evictStale nowMs =>
    rw [nextEntry, Option.filter_eq_some_iff] at next
    exact known e next.1

theorem CreatesUnique.earlier {ttl : UInt64} {calls reached : List RegistryCall}
    (creates : CreatesUnique ttl calls) (within : reached <+: calls) : CreatesUnique ttl reached := by
  obtain ⟨rest, shape⟩ := within
  intro before peer capabilities addrs nowMs later split absent
  apply creates before peer capabilities addrs nowMs (later ++ rest) _ absent
  rw [← shape, split, List.append_assoc, List.cons_append]

theorem after_unique {ttl : UInt64} {calls : List RegistryCall} (creates : CreatesUnique ttl calls)
    {peer : PeerId} {e : PeerEntry} (found : (after ttl calls).get peer = some e) : e.multiaddrs.Nodup := by
  induction calls using List.reverseRecOn generalizing e with
  | nil => cases found
  | append_singleton calls call ih =>
    rw [get_after_snoc] at found
    apply nextEntry_nodup found
    · intro old present
      exact ih (creates.earlier (List.prefix_append calls [call])) present
    · intro capabilities addrs nowMs same absent
      exact creates calls peer capabilities addrs nowMs [] (by rw [same]) absent

theorem after_uniqueAddrs {ttl : UInt64} {calls : List RegistryCall} (creates : CreatesUnique ttl calls) :
    UniqueAddrs (after ttl calls) := by
  constructor
  · intro peer e found
    exact after_unique creates found
  · intro slot member
    exact after_unique creates ((mem_iff_lookup (after_distinct ttl calls) slot.1 slot.2).mp member)

/-- No state of a sequence of calls lists an address twice exactly if none of its calls creates an
    entry from a list that repeats one. -/
theorem registry_addrs_unique_iff (ttl : UInt64) (calls : List RegistryCall) :
    (∀ reached, reached <+: calls → UniqueAddrs (after ttl reached)) ↔ CreatesUnique ttl calls := by
  constructor
  · intro unique before peer capabilities addrs nowMs later shape absent
    have reached : before ++ [.upsert peer capabilities addrs nowMs] <+: calls := by
      apply Exists.intro later
      rw [shape, List.append_assoc]
      rfl
    apply (unique _ reached).1 peer ⟨capabilities, addrs, nowMs⟩
    rw [get_after_snoc, absent, nextEntry, if_pos rfl]
    rfl
  · intro creates reached within
    exact after_uniqueAddrs (creates.earlier within)

theorem repeated_address_kept :
    ¬ UniqueAddrs (after 60000 [.upsert ⟨"12D3KooWNode"⟩ ⟨⟨"A"⟩, [], 4⟩
      ["/ip4/127.0.0.1/tcp/9000", "/ip4/127.0.0.1/tcp/9000"] 1700000000000]) := by
  intro unique
  have once := unique.1 ⟨"12D3KooWNode"⟩ _ rfl
  simp at once

end Coordinator
