import Hy2Link.Interleaving.Table
import Hy2Link.Protocol

/-! # The address pool

`IPAllocator` of the server: which virtual addresses are handed out, to which
device, and under which lease.  A zero lease time means that an active data
plane holds the address; only other leases are ever reaped.

`Tables` are the maps of the allocator as the code keeps them.  `Valid` is
what ties them together, and `IPAllocator` is the tables with that proof, so
no other module has to argue about the maps again.
-/

namespace Hy2Link.Server

open Interleaving List Finmap

def dhcpLeaseTTL : Time := 5 * minute

abbrev DeviceID := String

/-- `active` is the zero time of the code. -/
inductive Lease
  | active
  | until (deadline : Time)
deriving DecidableEq

namespace Allocator

/-- `usedIPs` is a `map[string]bool` that only ever holds `true`; `freeIPs` is
a stack whose top is the last element. -/
structure Tables where
  usedIPs : Finset IPv4
  freeIPs : List IPv4
  nextIP : IPv4
  startIP : IPv4
  endIP : IPv4
  deviceIP : Table DeviceID IPv4
  vipToDevice : Table IPv4 DeviceID
  leases : Table IPv4 Lease
  leaseTTL : Time

/-- The loop of `pickFreeLocked` over the cursor `nextIP`: the address found
and the new cursor.  The bound counts the addresses there are; the loop of the
code would exceed it only by finding all of them used. -/
def scan (used : Finset IPv4) (last : IPv4) : Nat → IPv4 → Option IPv4 × IPv4
  | 0, cursor => (none, cursor)
  | fuel + 1, cursor =>
    if cursor ≤ last then
      if cursor ∈ used then scan used last fuel (cursor + 1) else (some cursor, cursor + 1)
    else (none, cursor)

def Tables.choose (a : Tables) : Option IPv4 × Tables :=
  match a.freeIPs.getLast? with
  | some vip => (some vip, { a with freeIPs := a.freeIPs.dropLast })
  | none =>
    let found := scan a.usedIPs a.endIP (2 ^ 32) a.nextIP
    (found.1, { a with nextIP := found.2 })

def Tables.pickFreeLocked (a : Tables) (now : Time) : Option IPv4 × Tables :=
  match a.choose with
  | (none, a) => (none, a)
  | (some vip, a) =>
    (some vip, { a with
      usedIPs := insert vip a.usedIPs
      leases := a.leases.insert vip (.until (now + a.leaseTTL)) })

def Tables.renewLeaseLocked (a : Tables) (now : Time) (vip : IPv4) : Tables :=
  if a.leases.lookup vip = some .active then a
  else { a with leases := a.leases.insert vip (.until (now + a.leaseTTL)) }

def Tables.allocateByDeviceID (a : Tables) (now : Time) (device : DeviceID) :
    Option IPv4 × Tables :=
  match a.deviceIP.lookup device with
  | some vip => (some vip, a.renewLeaseLocked now vip)
  | none =>
    match a.pickFreeLocked now with
    | (none, a) => (none, a)
    | (some vip, a) =>
      (some vip, { a with
        deviceIP := a.deviceIP.insert device vip
        vipToDevice := a.vipToDevice.insert vip device })

def Tables.markLeaseActive (a : Tables) (vip : IPv4) : Tables :=
  if vip ∈ a.leases then { a with leases := a.leases.insert vip .active } else a

def Tables.forgetDevice (a : Tables) (vip : IPv4) : Tables :=
  match a.vipToDevice.lookup vip with
  | none => a
  | some device =>
    { a with
      vipToDevice := a.vipToDevice.erase vip
      deviceIP := a.deviceIP.erase device }

def Tables.appendFreeLocked (a : Tables) (vip : IPv4) : Tables :=
  if vip ∈ a.freeIPs then a else { a with freeIPs := a.freeIPs ++ [vip] }

def Tables.releaseVIPLocked (a : Tables) (vip : IPv4) : Tables :=
  let a := a.forgetDevice vip
  let a := { a with leases := a.leases.erase vip }
  if vip ∈ a.usedIPs then
    { a with usedIPs := a.usedIPs.erase vip }.appendFreeLocked vip
  else a

def Tables.expired (a : Tables) (now : Time) (vip : IPv4) : Bool :=
  match a.leases.lookup vip with
  | some (.until deadline) => deadline ≤ now
  | _ => false

/-- `order` is the order in which the loop meets the keys of the lease map. -/
def Tables.reapExpiredLeases (a : Tables) (now : Time) (order : List IPv4) : Tables :=
  order.foldl (fun a vip => if a.expired now vip then a.releaseVIPLocked vip else a) a

/-- An address is used exactly while it has a lease, the free stack holds
unused addresses without repetition, and the two device maps are inverse to
each other on used addresses. -/
structure Tables.Valid (a : Tables) : Prop where
  leased : ∀ vip, vip ∈ a.usedIPs ↔ vip ∈ a.leases
  free_unused : ∀ vip ∈ a.freeIPs, vip ∉ a.usedIPs
  free_nodup : a.freeIPs.Nodup
  device : ∀ d vip, a.deviceIP.lookup d = some vip ↔ a.vipToDevice.lookup vip = some d
  device_used : ∀ d vip, a.deviceIP.lookup d = some vip → vip ∈ a.usedIPs

variable {a : Tables}

theorem scan_unused (h : (scan used last fuel cursor).1 = some vip) : vip ∉ used := by
  induction fuel generalizing cursor with
  | zero => cases h
  | succ fuel ih =>
    simp only [scan] at h
    split at h
    · split at h
      · exact ih h
      next hunused =>
        obtain rfl : cursor = vip := Option.some.inj h
        exact hunused
    · cases h

section

variable (h : a.Valid)
include h

open Tables

theorem Tables.Valid.choose_valid : a.choose.2.Valid := by
  unfold choose
  split
  · exact { h with
      free_unused := fun vip hvip => h.free_unused vip (mem_of_mem_dropLast hvip)
      free_nodup := h.free_nodup.sublist (dropLast_sublist _) }
  · exact { h with }

theorem Tables.Valid.choose_fresh (hvip : a.choose.1 = some vip) :
    vip ∉ a.choose.2.usedIPs ∧ vip ∉ a.choose.2.freeIPs := by
  unfold choose at hvip ⊢
  split at hvip
  next top htop =>
    obtain rfl : top = vip := Option.some.inj hvip
    have hfree : a.freeIPs = a.freeIPs.dropLast ++ [top] :=
      (dropLast_append_getLast? top htop).symm
    refine ⟨h.free_unused top (mem_of_getLast? htop), fun hmem => ?_⟩
    have hnodup := h.free_nodup
    rw [hfree, nodup_append] at hnodup
    exact hnodup.2.2 top hmem top (mem_singleton_self top) rfl
  next hnone =>
    refine ⟨scan_unused hvip, ?_⟩
    have hempty : a.freeIPs = [] := getLast?_eq_none_iff.1 hnone
    simp [hempty]

omit h in
theorem choose_frame (a : Tables) :
    a.choose.2.usedIPs = a.usedIPs ∧ a.choose.2.leases = a.leases ∧
      a.choose.2.deviceIP = a.deviceIP ∧ a.choose.2.vipToDevice = a.vipToDevice := by
  unfold Tables.choose
  split <;> exact ⟨rfl, rfl, rfl, rfl⟩

theorem Tables.Valid.device_of_unused (hvip : vip ∉ a.usedIPs) :
    a.vipToDevice.lookup vip = none := by
  cases hd : a.vipToDevice.lookup vip with
  | none => rfl
  | some d => exact absurd (h.device_used d vip ((h.device d vip).2 hd)) hvip

theorem Tables.Valid.use (hfree : vip ∉ a.freeIPs) (lease : Lease) :
    { a with
      usedIPs := insert vip a.usedIPs
      leases := a.leases.insert vip lease : Tables }.Valid := by
  refine { h with leased := fun v => ?_, free_unused := fun v hv => ?_, device_used := ?_ }
  · rw [Finset.mem_insert, mem_insert, h.leased v]
  · rw [Finset.mem_insert, not_or]
    exact ⟨fun heq => hfree (heq ▸ hv), h.free_unused v hv⟩
  · intro d v hd
    exact Finset.mem_insert_of_mem (h.device_used d v hd)

theorem Tables.Valid.setLease (hvip : vip ∈ a.usedIPs) (lease : Lease) :
    { a with leases := a.leases.insert vip lease : Tables }.Valid := by
  refine { h with leased := fun v => ?_ }
  rw [mem_insert, ← h.leased v]
  constructor
  · exact Or.inr
  · rintro (rfl | hv)
    · exact hvip
    · exact hv

theorem Tables.Valid.pickFreeLocked_valid : (a.pickFreeLocked now).2.Valid := by
  unfold pickFreeLocked
  split
  next b hchoose =>
    have hvalid := h.choose_valid
    rw [hchoose] at hvalid
    exact hvalid
  next vip b hchoose =>
    have hvalid := h.choose_valid
    have hfresh := h.choose_fresh (congrArg Prod.fst hchoose)
    rw [hchoose] at hvalid hfresh
    exact hvalid.use hfresh.2 _

theorem pickFreeLocked_spec (hpick : a.pickFreeLocked now = (some vip, b)) :
    vip ∉ a.usedIPs ∧ b.usedIPs = insert vip a.usedIPs ∧
      b.leases = a.leases.insert vip (.until (now + b.leaseTTL)) ∧
      b.deviceIP = a.deviceIP ∧ b.vipToDevice = a.vipToDevice := by
  unfold pickFreeLocked at hpick
  have hframe := choose_frame a
  split at hpick <;> cases hpick
  next v c hchoose =>
    have hfresh := h.choose_fresh (congrArg Prod.fst hchoose)
    rw [hchoose] at hframe hfresh
    simp only at hframe hfresh
    obtain ⟨hused, hleases, hdevice, hvip⟩ := hframe
    refine ⟨hused ▸ hfresh.1, ?_, ?_, hdevice, hvip⟩
    · simp only [hused]
    · simp only [hleases]

omit h in
theorem pickFreeLocked_none (hpick : a.pickFreeLocked now = (none, b)) :
    b.usedIPs = a.usedIPs ∧ b.leases = a.leases := by
  unfold pickFreeLocked at hpick
  have hframe := choose_frame a
  split at hpick <;> cases hpick
  next c hchoose =>
    rw [hchoose] at hframe
    exact ⟨hframe.1, hframe.2.1⟩

theorem Tables.Valid.renewLeaseLocked_valid (hvip : vip ∈ a.usedIPs) :
    (a.renewLeaseLocked now vip).Valid := by
  unfold renewLeaseLocked
  split
  · exact h
  · exact h.setLease hvip _

theorem Tables.Valid.enterDevice (hd : a.deviceIP.lookup d = none)
    (hvip : a.vipToDevice.lookup vip = none) (hused : vip ∈ a.usedIPs) :
    { a with
      deviceIP := a.deviceIP.insert d vip
      vipToDevice := a.vipToDevice.insert vip d : Tables }.Valid := by
  refine { h with device := fun d' v => ?_, device_used := fun d' v hv => ?_ }
  · simp only [lookup_insert_eq_some]
    constructor
    · rintro (⟨rfl, rfl⟩ | ⟨hne, hv⟩)
      · exact .inl ⟨rfl, rfl⟩
      · refine .inr ⟨fun heq => ?_, (h.device d' v).1 hv⟩
        simp [heq, h.device, hvip] at hv
    · rintro (⟨rfl, rfl⟩ | ⟨hne, hv⟩)
      · exact .inl ⟨rfl, rfl⟩
      · refine .inr ⟨fun heq => ?_, (h.device d' v).2 hv⟩
        simp [heq, ← h.device, hd] at hv
  · rcases lookup_insert_eq_some.1 hv with ⟨-, rfl⟩ | ⟨-, hv⟩
    · exact hused
    · exact h.device_used d' v hv

theorem Tables.Valid.allocateByDeviceID_valid (device : DeviceID) :
    (a.allocateByDeviceID now device).2.Valid := by
  unfold allocateByDeviceID
  split
  next vip hdevice => exact h.renewLeaseLocked_valid (h.device_used device vip hdevice)
  next hdevice =>
    have hvalid : (a.pickFreeLocked now).2.Valid := h.pickFreeLocked_valid
    split
    next b hpick =>
      rw [hpick] at hvalid
      exact hvalid
    next vip b hpick =>
      rw [hpick] at hvalid
      obtain ⟨hunused, hused, -, hdevices, hvips⟩ := pickFreeLocked_spec h hpick
      refine hvalid.enterDevice (hdevices ▸ hdevice) (hvips ▸ h.device_of_unused hunused) ?_
      rw [hused]
      exact Finset.mem_insert_self vip _

theorem Tables.Valid.markLeaseActive_valid (vip : IPv4) : (a.markLeaseActive vip).Valid := by
  unfold markLeaseActive
  split
  next hvip => exact h.setLease ((h.leased vip).2 hvip) _
  · exact h

omit h in
theorem forgetDevice_frame (a : Tables) (vip : IPv4) :
    (a.forgetDevice vip).usedIPs = a.usedIPs ∧ (a.forgetDevice vip).leases = a.leases ∧
      (a.forgetDevice vip).freeIPs = a.freeIPs := by
  unfold forgetDevice
  split <;> exact ⟨rfl, rfl, rfl⟩

theorem Tables.Valid.forgetDevice_lookup (vip v : IPv4) (d : DeviceID) :
    ((a.forgetDevice vip).deviceIP.lookup d = some v ↔
      v ≠ vip ∧ a.deviceIP.lookup d = some v) ∧
    ((a.forgetDevice vip).vipToDevice.lookup v = some d ↔
      v ≠ vip ∧ a.vipToDevice.lookup v = some d) := by
  unfold forgetDevice
  split
  next hnone =>
    have hne : a.vipToDevice.lookup v = some d → v ≠ vip := by
      intro hd heq
      rw [heq, hnone] at hd
      cases hd
    refine ⟨⟨fun hd => ⟨hne ((h.device d v).1 hd), hd⟩, And.right⟩,
      ⟨fun hd => ⟨hne hd, hd⟩, And.right⟩⟩
  next owner howner =>
    refine ⟨?_, lookup_erase_eq_some⟩
    rw [lookup_erase_eq_some]
    refine and_congr_left fun hd => not_congr ⟨fun heq => ?_, fun heq => ?_⟩
    · rw [heq, (h.device owner vip).2 howner] at hd
      exact (Option.some.inj hd).symm
    · rw [heq, h.device, howner] at hd
      exact (Option.some.inj hd).symm

theorem Tables.Valid.releaseVIPLocked_valid (vip : IPv4) : (a.releaseVIPLocked vip).Valid := by
  obtain ⟨hused, hleases, hfree⟩ := forgetDevice_frame a vip
  have hdevice : ∀ d v, (a.forgetDevice vip).deviceIP.lookup d = some v ↔
      (a.forgetDevice vip).vipToDevice.lookup v = some d := by
    intro d v
    rw [(h.forgetDevice_lookup vip v d).1, (h.forgetDevice_lookup vip v d).2, h.device d v]
  have hkept : ∀ d v, (a.forgetDevice vip).deviceIP.lookup d = some v →
      v ≠ vip ∧ v ∈ a.usedIPs := by
    intro d v hd
    obtain ⟨hne, hd⟩ := ((h.forgetDevice_lookup vip v d).1).1 hd
    exact ⟨hne, h.device_used d v hd⟩
  unfold releaseVIPLocked
  simp only [hused]
  split
  next hvip =>
    have hnotfree : vip ∉ a.freeIPs := fun hmem => h.free_unused vip hmem hvip
    simp only [appendFreeLocked, hfree, hnotfree, if_false]
    refine ⟨fun v => ?_, fun v hv => ?_, ?_, hdevice, fun d v hd => ?_⟩
    · simp only [hleases, Finset.mem_erase, mem_erase, h.leased v]
    · simp only [Finset.mem_erase, not_and]
      intro hne hvused
      rcases mem_append.1 hv with hv | hv
      · exact h.free_unused v hv hvused
      · exact hne (mem_singleton.1 hv)
    · refine nodup_append.2 ⟨h.free_nodup, nodup_singleton vip, ?_⟩
      intro v hv w hw heq
      rw [mem_singleton.1 hw] at heq
      exact hnotfree (heq ▸ hv)
    · simp only [Finset.mem_erase]
      exact hkept d v hd
  next hvip =>
    refine ⟨fun v => ?_, fun v hv => ?_, ?_, hdevice, fun d v hd => ?_⟩
    · simp only [hleases, mem_erase, ← h.leased v]
      refine ⟨fun hv => ⟨fun heq => hvip (heq ▸ hv), hv⟩, And.right⟩
    · rw [hfree] at hv
      exact h.free_unused v hv
    · rw [hfree]
      exact h.free_nodup
    · exact (hkept d v hd).2

theorem Tables.Valid.reapExpiredLeases_valid (order : List IPv4) :
    (a.reapExpiredLeases now order).Valid := by
  unfold reapExpiredLeases
  induction order generalizing a with
  | nil => exact h
  | cons vip rest ih =>
    rw [foldl_cons]
    split
    · exact ih (h.releaseVIPLocked_valid vip)
    · exact ih h

end

end Allocator

/-- The allocator of the server: its tables, which are always valid. -/
structure IPAllocator extends Allocator.Tables where
  valid : toTables.Valid

namespace IPAllocator

variable (a : IPAllocator)

/-- A fresh allocator for the pool `start` to `last`, as `SetIPPool` leaves it. -/
def setIPPool (start last : IPv4) : IPAllocator where
  usedIPs := ∅
  freeIPs := []
  nextIP := start
  startIP := start
  endIP := last
  deviceIP := ∅
  vipToDevice := ∅
  leases := ∅
  leaseTTL := dhcpLeaseTTL
  valid :=
    { leased := fun vip => by simp [notMem_empty]
      free_unused := by simp
      free_nodup := nodup_nil
      device := by simp
      device_used := by simp }

def allocateByDeviceID (now : Time) (device : DeviceID) : Option IPv4 × IPAllocator :=
  let result := a.toTables.allocateByDeviceID now device
  (result.1, ⟨result.2, a.valid.allocateByDeviceID_valid device⟩)

def markLeaseActive (vip : IPv4) : IPAllocator :=
  ⟨a.toTables.markLeaseActive vip, a.valid.markLeaseActive_valid vip⟩

def isLeased (vip : IPv4) : Bool := vip ∈ a.usedIPs

def releaseByVirtualIP (vip : IPv4) : IPAllocator :=
  ⟨a.toTables.releaseVIPLocked vip, a.valid.releaseVIPLocked_valid vip⟩

def reapExpiredLeases (now : Time) (order : List IPv4) : IPAllocator :=
  ⟨a.toTables.reapExpiredLeases now order, a.valid.reapExpiredLeases_valid order⟩

/-- The sections under the allocator's mutex that the handlers enter. -/
inductive Op : Type → Type
  | isLeased (vip : IPv4) : Op Bool
  | markLeaseActive (vip : IPv4) : Op Unit
  | releaseByVirtualIP (vip : IPv4) : Op Unit
  | allocateByDeviceID (device : DeviceID) : Op (Option IPv4)

def exec (now : Time) {Result : Type} : Op Result → IPAllocator × Result
  | .isLeased vip => (a, a.isLeased vip)
  | .markLeaseActive vip => (a.markLeaseActive vip, ())
  | .releaseByVirtualIP vip => (a.releaseByVirtualIP vip, ())
  | .allocateByDeviceID device =>
    ((a.allocateByDeviceID now device).2, (a.allocateByDeviceID now device).1)

/-- The lease of an address; the other modules look at the allocator only
through this function. -/
def lease (vip : IPv4) : Option Lease := a.leases.lookup vip

theorem isLeased_iff (vip : IPv4) : a.isLeased vip = true ↔ (a.lease vip).isSome := by
  rw [isLeased, decide_eq_true_iff, a.valid.leased vip, lease, lookup_isSome]

theorem lease_setIPPool (start last vip : IPv4) : (setIPPool start last).lease vip = none :=
  lookup_empty vip

theorem lease_releaseByVirtualIP (vip v : IPv4) :
    (a.releaseByVirtualIP vip).lease v = if v = vip then none else a.lease v := by
  have hleases : (a.releaseByVirtualIP vip).leases = a.leases.erase vip := by
    have hframe := Allocator.forgetDevice_frame a.toTables vip
    simp only [releaseByVirtualIP, Allocator.Tables.releaseVIPLocked,
      Allocator.Tables.appendFreeLocked, hframe.2.1]
    split
    · split <;> rfl
    · rfl
  rw [lease, hleases]
  split
  next heq => rw [heq, lookup_erase]
  next hne => rw [lookup_erase_ne hne, lease]

theorem lease_markLeaseActive (vip v : IPv4) :
    (a.markLeaseActive vip).lease v =
      if v = vip then (a.lease v).map fun _ => .active else a.lease v := by
  simp only [lease, markLeaseActive, Allocator.Tables.markLeaseActive]
  by_cases hvip : vip ∈ a.leases
  · simp only [hvip, if_true]
    split
    next heq =>
      obtain ⟨l, hl⟩ := mem_iff.1 hvip
      rw [heq, lookup_insert, hl, Option.map_some]
    next hne => rw [lookup_insert_of_ne _ hne]
  · simp only [hvip, if_false]
    split
    next heq => rw [heq, lookup_eq_none.2 hvip, Option.map_none]
    · rfl

/-- An allocation leaves a lease as it is, unless it answers with that
address; an active lease it never touches. -/
theorem lease_allocateByDeviceID (now : Time) (device : DeviceID) (v : IPv4) :
    (a.allocateByDeviceID now device).2.lease v = a.lease v ∨
      (a.allocateByDeviceID now device).1 = some v ∧ a.lease v ≠ some .active ∧
        ∃ deadline, (a.allocateByDeviceID now device).2.lease v = some (.until deadline) := by
  simp only [lease, allocateByDeviceID, Allocator.Tables.allocateByDeviceID]
  split
  next vip hdevice =>
    simp only [Allocator.Tables.renewLeaseLocked]
    split
    · exact .inl rfl
    next hactive =>
      by_cases hv : v = vip
      · subst hv
        exact .inr ⟨rfl, hactive, _, lookup_insert _⟩
      · exact .inl (lookup_insert_of_ne _ hv)
  · split
    next b hpick =>
      rw [(Allocator.pickFreeLocked_none hpick).2]
      exact .inl rfl
    next vip b hpick =>
      obtain ⟨hunused, -, hleases, -⟩ := Allocator.pickFreeLocked_spec a.valid hpick
      simp only [hleases]
      by_cases hv : v = vip
      · subst hv
        have hnone : a.leases.lookup v = none := by
          rw [lookup_eq_none, ← a.valid.leased v]
          exact hunused
        exact .inr ⟨rfl, by simp [hnone], _, lookup_insert _⟩
      · exact .inl (lookup_insert_of_ne _ hv)

theorem reapExpiredLeases_cons (now : Time) (vip : IPv4) (rest : List IPv4) :
    a.reapExpiredLeases now (vip :: rest) =
      (if a.expired now vip then a.releaseByVirtualIP vip else a).reapExpiredLeases now rest := by
  simp only [reapExpiredLeases, Allocator.Tables.reapExpiredLeases, foldl_cons]
  split <;> rfl

theorem expired_congr {b : IPAllocator} (h : b.lease v = a.lease v) :
    b.expired now v = a.expired now v := by
  unfold lease at h
  unfold Allocator.Tables.expired
  rw [h]

theorem lease_reapExpiredLeases (order : List IPv4) (h : v ∈ order → a.expired now v = false) :
    (a.reapExpiredLeases now order).lease v = a.lease v := by
  induction order generalizing a with
  | nil => rfl
  | cons vip rest ih =>
    rw [reapExpiredLeases_cons]
    split
    next hvip =>
      have hne : v ≠ vip := by
        rintro rfl
        simp [h mem_cons_self] at hvip
      have hrelease : (a.releaseByVirtualIP vip).lease v = a.lease v := by
        rw [lease_releaseByVirtualIP, if_neg hne]
      rw [ih _ fun hv => (expired_congr a hrelease).trans (h (mem_cons_of_mem vip hv)), hrelease]
    · exact ih a fun hv => h (mem_cons_of_mem vip hv)

theorem lease_of_reap (order : List IPv4) {lease : Lease}
    (h : (a.reapExpiredLeases now order).lease v = some lease) : a.lease v = some lease := by
  induction order generalizing a with
  | nil => exact h
  | cons vip rest ih =>
    rw [reapExpiredLeases_cons] at h
    have hfirst := ih _ h
    split at hfirst
    · rw [lease_releaseByVirtualIP] at hfirst
      split at hfirst
      · cases hfirst
      · exact hfirst
    · exact hfirst

def Op.releases {Result : Type} (vip : IPv4) : Op Result → Bool
  | .releaseByVirtualIP v => v = vip
  | _ => false

section Exec

variable {a} {Result : Type}

theorem exec_active (hop : op.releases v = false) (hactive : a.lease v = some .active) :
    (a.exec now op).1.lease v = some .active := by
  cases op with
  | isLeased vip => exact hactive
  | markLeaseActive vip =>
    simp only [exec, lease_markLeaseActive, hactive]
    split <;> rfl
  | releaseByVirtualIP vip =>
    have hne : v ≠ vip := Ne.symm (of_decide_eq_false hop)
    simp only [exec, lease_releaseByVirtualIP, if_neg hne, hactive]
  | allocateByDeviceID device =>
    rcases a.lease_allocateByDeviceID now device v with hsame | ⟨-, hother, -⟩
    · exact hsame.trans hactive
    · exact absurd hactive hother

theorem exec_leased (hop : op.releases v = false) (hleased : (a.lease v).isSome) :
    ((a.exec now op).1.lease v).isSome := by
  cases op with
  | isLeased vip => exact hleased
  | markLeaseActive vip =>
    simp only [exec, lease_markLeaseActive]
    split
    · rw [Option.isSome_map]
      exact hleased
    · exact hleased
  | releaseByVirtualIP vip =>
    have hne : v ≠ vip := Ne.symm (of_decide_eq_false hop)
    simp only [exec, lease_releaseByVirtualIP, if_neg hne]
    exact hleased
  | allocateByDeviceID device =>
    rcases a.lease_allocateByDeviceID now device v with hsame | ⟨-, -, deadline, huntil⟩
    · simp only [exec, hsame]
      exact hleased
    · simp only [exec, huntil, Option.isSome_some]

end Exec

end IPAllocator

end Hy2Link.Server
