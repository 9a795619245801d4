import Hy2Link.Server.Allocator
import Hy2Link.Interleaving.Run
import Hy2Link.EndpointText

/-! # The address pool over whole runs

After `SetIPPool` the cursor `nextIP` walks from the start of the pool to its
end.  What the cursor has passed is used or free, an address is used exactly
while it has a device and a lease, and nothing outside the pool is handed out.
The successor of 255.255.255.255 is 0.0.0.0, so all of this needs a pool that
ends before the last address there is.
-/

namespace Hy2Link.Server

open Interleaving List

/-- The calls of the allocator.  An address comes as a text; `order` is the
order in which the reaper meets the leases. -/
inductive PoolCall
  | allocateByDeviceID (device : DeviceID)
  | markLeaseActive (vip : List Char)
  | reapExpiredLeases (order : List IPv4)
  | releaseByVirtualIP (vip : List Char)
deriving DecidableEq

/-- The allocator with the addresses it has returned so far. -/
structure Pool where
  allocator : IPAllocator
  returned : List IPv4

namespace Pool

def setIPPool (start last : IPv4) : Pool := ⟨.setIPPool start last, []⟩

/-- The keys of the tables are printed addresses, so a text that is none is
not found in any of them. -/
def onAddress (a : IPAllocator) (vip : List Char) (f : IPv4 → IPAllocator) : IPAllocator :=
  match Text.parseIPv4 vip with
  | some v => f v
  | none => a

def call (p : Pool) (now : Time) : PoolCall → Pool
  | .allocateByDeviceID device =>
    let result := p.allocator.allocateByDeviceID now device
    ⟨result.2, p.returned ++ result.1.toList⟩
  | .markLeaseActive vip =>
    { p with allocator := onAddress p.allocator vip p.allocator.markLeaseActive }
  | .reapExpiredLeases order =>
    { p with allocator := p.allocator.reapExpiredLeases now order }
  | .releaseByVirtualIP vip =>
    { p with allocator := onAddress p.allocator vip p.allocator.releaseByVirtualIP }

def next (p : Pool) (timed : Time × PoolCall) : Option Pool := some (p.call timed.1 timed.2)

end Pool

/-! ## The cursor -/

namespace Allocator

/-- The addresses from `start` up to the cursor are those that are used or
free, and every used one has a device. -/
structure Tables.Dense (start last : IPv4) (a : Tables) : Prop where
  endIP : a.endIP = last
  reached : start ≤ a.nextIP
  bounded : a.nextIP ≤ last + 1
  passed : ∀ v, v ∈ a.usedIPs ∨ v ∈ a.freeIPs ↔ start ≤ v ∧ v < a.nextIP
  named : ∀ v ∈ a.usedIPs, ∃ d, a.vipToDevice.lookup v = some d

variable {a b : Tables} {now : Time}

theorem scan_of_unused (h : cursor ∉ used) (fuel : Nat) :
    scan used last (fuel + 1) cursor =
      if cursor ≤ last then (some cursor, cursor + 1) else (none, cursor) := by
  rw [scan, if_neg h]

theorem Tables.Dense.next_unused (h : a.Dense start last) : a.nextIP ∉ a.usedIPs := by
  intro hused
  have hlt := ((h.passed a.nextIP).1 (.inl hused)).2
  exact absurd hlt (BitVec.lt_irrefl _)

open Tables

theorem choose_of_unused (hunused : a.nextIP ∉ a.usedIPs) (hfree : a.freeIPs = []) :
    a.choose = if a.nextIP ≤ a.endIP then (some a.nextIP, { a with nextIP := a.nextIP + 1 })
      else (none, a) := by
  have hscan : scan a.usedIPs a.endIP (2 ^ 32) a.nextIP =
      if a.nextIP ≤ a.endIP then (some a.nextIP, a.nextIP + 1) else (none, a.nextIP) :=
    scan_of_unused hunused (2 ^ 32 - 1)
  have hnone : a.freeIPs.getLast? = none := by rw [hfree, getLast?_nil]
  simp only [Tables.choose, hnone, hscan]
  split <;> rfl

theorem Tables.Dense.choose_passed (h : a.Dense start last) (hlast : last ≠ 0xffffffff)
    (hchoose : a.choose = (found, b)) :
    b.endIP = last ∧ start ≤ b.nextIP ∧ b.nextIP ≤ last + 1 ∧
      ∀ v, (v ∈ a.usedIPs ∨ v ∈ b.freeIPs) ∨ found = some v ↔ start ≤ v ∧ v < b.nextIP := by
  cases hfree : a.freeIPs.getLast? with
  | some top =>
    simp only [choose, hfree] at hchoose
    cases hchoose
    refine ⟨h.endIP, h.reached, h.bounded, fun v => ?_⟩
    have hstack : a.freeIPs = a.freeIPs.dropLast ++ [top] :=
      (dropLast_append_getLast? top hfree).symm
    rw [← h.passed v, or_assoc, or_congr_right]
    rw [hstack, mem_append, mem_singleton, Option.some.injEq, eq_comm]
    simp
  | none =>
    have hempty : a.freeIPs = [] := getLast?_eq_none_iff.1 hfree
    have hpassed := h.passed
    have hreached := h.reached
    have hbounded := h.bounded
    rw [choose_of_unused h.next_unused hempty] at hchoose
    split at hchoose
    next hle =>
      rw [h.endIP] at hle
      cases hchoose
      refine ⟨h.endIP, ?_, ?_, fun v => ?_⟩
      · bv_omega
      · bv_omega
      · rw [hpassed v, Option.some.injEq]
        bv_omega
    next hle =>
      cases hchoose
      refine ⟨h.endIP, hreached, hbounded, fun v => ?_⟩
      rw [hpassed v]
      simp

theorem Tables.Dense.pickFreeLocked_passed (h : a.Dense start last) (hlast : last ≠ 0xffffffff)
    (hpick : a.pickFreeLocked now = (found, b)) :
    b.endIP = last ∧ start ≤ b.nextIP ∧ b.nextIP ≤ last + 1 ∧
      ∀ v, (v ∈ a.usedIPs ∨ v ∈ b.freeIPs) ∨ found = some v ↔ start ≤ v ∧ v < b.nextIP := by
  unfold pickFreeLocked at hpick
  split at hpick <;> cases hpick
  next c hchoose =>
    exact h.choose_passed hlast hchoose
  next v c hchoose =>
    obtain ⟨hend, hreached, hbounded, hpassed⟩ := h.choose_passed hlast hchoose
    exact ⟨hend, hreached, hbounded, hpassed⟩

theorem pickFreeLocked_none_devices (hpick : a.pickFreeLocked now = (none, b)) :
    b.vipToDevice = a.vipToDevice := by
  unfold pickFreeLocked at hpick
  have hframe := choose_frame a
  split at hpick <;> cases hpick
  next c hchoose =>
    rw [hchoose] at hframe
    exact hframe.2.2.2

theorem Tables.Dense.allocateByDeviceID (hvalid : a.Valid) (h : a.Dense start last)
    (hlast : last ≠ 0xffffffff) (device : DeviceID) :
    (a.allocateByDeviceID now device).2.Dense start last ∧
      ∀ v, (a.allocateByDeviceID now device).1 = some v → start ≤ v ∧ v ≤ last := by
  have hrange : ∀ v w : IPv4, v < w → w ≤ last + 1 → v ≤ last := by
    intro v w hv hw
    bv_omega
  unfold Tables.allocateByDeviceID
  split
  next vip hdevice =>
    refine ⟨?_, ?_⟩
    · unfold renewLeaseLocked
      split
      · exact h
      · exact { h with }
    · intro v hv
      obtain rfl : vip = v := Option.some.inj hv
      have hin := (h.passed vip).1 (.inl (hvalid.device_used device vip hdevice))
      exact ⟨hin.1, hrange vip _ hin.2 h.bounded⟩
  next hdevice =>
    split
    next b hpick =>
      obtain ⟨hend, hreached, hbounded, hpassed⟩ := h.pickFreeLocked_passed hlast hpick
      have hused := (pickFreeLocked_none hpick).1
      refine ⟨⟨hend, hreached, hbounded, fun v => ?_, fun v hv => ?_⟩, by simp⟩
      · rw [← hpassed v, hused]
        simp
      · rw [hused] at hv
        rw [pickFreeLocked_none_devices hpick]
        exact h.named v hv
    next vip b hpick =>
      obtain ⟨hend, hreached, hbounded, hpassed⟩ := h.pickFreeLocked_passed hlast hpick
      obtain ⟨-, hused, -, -, hvips⟩ := pickFreeLocked_spec hvalid hpick
      refine ⟨⟨hend, hreached, hbounded, fun v => ?_, fun v hv => ?_⟩, ?_⟩
      · rw [← hpassed v]
        simp only [hused, Finset.mem_insert, Option.some.injEq]
        tauto
      · simp only [hused, Finset.mem_insert] at hv
        simp only [hvips, lookup_insert_eq_some]
        rcases hv with rfl | hv
        · exact ⟨device, .inl ⟨rfl, rfl⟩⟩
        · by_cases heq : v = vip
          · exact ⟨device, .inl ⟨heq, rfl⟩⟩
          · obtain ⟨d, hd⟩ := h.named v hv
            exact ⟨d, .inr ⟨heq, hd⟩⟩
      · intro v hv
        have hin := (hpassed v).1 (.inr hv)
        exact ⟨hin.1, hrange v _ hin.2 hbounded⟩

theorem allocateByDeviceID_fresh (hdevice : a.deviceIP.lookup device = none)
    (hunused : a.nextIP ∉ a.usedIPs) (hfree : a.freeIPs = []) (hle : a.nextIP ≤ a.endIP) :
    a.allocateByDeviceID now device =
      (some a.nextIP, { a with
        nextIP := a.nextIP + 1
        usedIPs := insert a.nextIP a.usedIPs
        leases := a.leases.insert a.nextIP (.until (now + a.leaseTTL))
        deviceIP := a.deviceIP.insert device a.nextIP
        vipToDevice := a.vipToDevice.insert a.nextIP device }) := by
  simp only [allocateByDeviceID, hdevice, pickFreeLocked,
    choose_of_unused hunused hfree, if_pos hle]

theorem Tables.Dense.markLeaseActive (h : a.Dense start last) (vip : IPv4) :
    (a.markLeaseActive vip).Dense start last := by
  unfold Tables.markLeaseActive
  split
  · exact { h with }
  · exact h

theorem forgetDevice_cursor (a : Tables) (vip : IPv4) :
    (a.forgetDevice vip).nextIP = a.nextIP ∧ (a.forgetDevice vip).endIP = a.endIP := by
  unfold forgetDevice
  split <;> exact ⟨rfl, rfl⟩

theorem Tables.Dense.releaseVIPLocked (hvalid : a.Valid) (h : a.Dense start last) (vip : IPv4) :
    (a.releaseVIPLocked vip).Dense start last := by
  obtain ⟨hused, -, hfree⟩ := forgetDevice_frame a vip
  obtain ⟨hnext, hend⟩ := forgetDevice_cursor a vip
  have hnamed : ∀ v ∈ a.usedIPs, v ≠ vip →
      ∃ d, (a.forgetDevice vip).vipToDevice.lookup v = some d := by
    intro v hv hne
    obtain ⟨d, hd⟩ := h.named v hv
    exact ⟨d, (hvalid.forgetDevice_lookup vip v d).2.2 ⟨hne, hd⟩⟩
  unfold Tables.releaseVIPLocked
  simp only [hused]
  split
  next hvip =>
    have hnotfree : vip ∉ a.freeIPs := fun hmem => hvalid.free_unused vip hmem hvip
    simp only [appendFreeLocked, hfree, hnotfree, if_false]
    refine ⟨hend.trans h.endIP, hnext ▸ h.reached, hnext ▸ h.bounded, fun v => ?_, fun v hv => ?_⟩
    · simp only [hnext, ← h.passed v, Finset.mem_erase, mem_append, mem_singleton]
      by_cases heq : v = vip
      · subst heq
        simp [hvip]
      · simp [heq]
    · obtain ⟨hne, hv⟩ := Finset.mem_erase.1 hv
      exact hnamed v hv hne
  next hvip =>
    refine ⟨hend.trans h.endIP, hnext ▸ h.reached, hnext ▸ h.bounded, fun v => ?_, fun v hv => ?_⟩
    · simp only [hfree, hnext, h.passed v]
    · exact hnamed v hv fun heq => hvip (heq ▸ hv)

theorem Tables.Dense.reapExpiredLeases (hvalid : a.Valid) (h : a.Dense start last)
    (order : List IPv4) : (a.reapExpiredLeases now order).Dense start last := by
  unfold Tables.reapExpiredLeases
  induction order generalizing a with
  | nil => exact h
  | cons vip rest ih =>
    rw [foldl_cons]
    split
    · exact ih (hvalid.releaseVIPLocked_valid vip) (h.releaseVIPLocked hvalid vip)
    · exact ih hvalid h

end Allocator

/-! ## Runs -/

namespace Pool

structure Consistent (start last : IPv4) (p : Pool) : Prop where
  inverse : ∀ d v, p.allocator.deviceIP.lookup d = some v ↔
    p.allocator.vipToDevice.lookup v = some d
  device_used : ∀ v, v ∈ p.allocator.vipToDevice ↔ v ∈ p.allocator.usedIPs
  used_leased : ∀ v, v ∈ p.allocator.usedIPs ↔ v ∈ p.allocator.leases
  free_nodup : p.allocator.freeIPs.Nodup
  free_unused : ∀ v ∈ p.allocator.freeIPs, v ∉ p.allocator.usedIPs
  passed : ∀ v, v ∈ p.allocator.usedIPs ∨ v ∈ p.allocator.freeIPs ↔
    start ≤ v ∧ v < p.allocator.nextIP
  returned : ∀ v ∈ p.returned, start ≤ v ∧ v ≤ last

variable {p q : Pool} {start last : IPv4}

structure Sound (start last : IPv4) (p : Pool) : Prop where
  dense : p.allocator.toTables.Dense start last
  returned : ∀ v ∈ p.returned, start ≤ v ∧ v ≤ last

theorem setIPPool_sound (hle : start ≤ last) (hlast : last ≠ 0xffffffff) :
    (setIPPool start last).Sound start last := by
  refine ⟨⟨rfl, BitVec.le_refl _, ?_, fun v => ?_, ?_⟩, ?_⟩
  · simp only [setIPPool, IPAllocator.setIPPool]
    bv_omega
  · simp only [setIPPool, IPAllocator.setIPPool, Finset.notMem_empty, not_mem_nil, or_self,
      false_iff]
    bv_omega
  · simp [setIPPool, IPAllocator.setIPPool]
  · simp [setIPPool]

theorem onAddress_dense (h : a.toTables.Dense start last)
    (hf : ∀ v, (f v).toTables.Dense start last) (vip : List Char) :
    (onAddress a vip f).toTables.Dense start last := by
  unfold onAddress
  split
  · exact hf _
  · exact h

theorem Sound.call (h : p.Sound start last) (hlast : last ≠ 0xffffffff) (now : Time)
    (c : PoolCall) : (p.call now c).Sound start last := by
  have hvalid := p.allocator.valid
  cases c with
  | allocateByDeviceID device =>
    obtain ⟨hdense, hreturned⟩ := h.dense.allocateByDeviceID hvalid hlast device
    refine ⟨hdense, fun v hv => ?_⟩
    rcases mem_append.1 hv with hv | hv
    · exact h.returned v hv
    · exact hreturned v (Option.mem_toList.1 hv)
  | markLeaseActive vip =>
    exact ⟨onAddress_dense h.dense (fun v => h.dense.markLeaseActive v) vip, h.returned⟩
  | reapExpiredLeases order => exact ⟨h.dense.reapExpiredLeases hvalid order, h.returned⟩
  | releaseByVirtualIP vip =>
    exact ⟨onAddress_dense h.dense (fun v => h.dense.releaseVIPLocked hvalid v) vip, h.returned⟩

theorem run_sound (hle : start ≤ last) (hlast : last ≠ 0xffffffff)
    (hrun : run next (setIPPool start last) calls = some p) : p.Sound start last := by
  refine run_stable ?_ (setIPPool_sound hle hlast) hrun
  intro p timed q hp hnext
  rw [next, Option.some.injEq] at hnext
  exact hnext ▸ hp.call hlast timed.1 timed.2

theorem Sound.consistent (h : p.Sound start last) : p.Consistent start last := by
  have hvalid := p.allocator.valid
  refine ⟨hvalid.device, fun v => ?_, hvalid.leased, hvalid.free_nodup, hvalid.free_unused,
    h.dense.passed, h.returned⟩
  rw [Finmap.mem_iff]
  constructor
  · rintro ⟨d, hd⟩
    exact hvalid.device_used d v ((hvalid.device d v).2 hd)
  · exact h.dense.named v

/-! ## Filling the pool -/

def device (i : Nat) : DeviceID := String.ofList (replicate i 'd')

theorem device_injective : Function.Injective device := by
  intro i j h
  have hlength := congrArg length (String.ofList_injective h)
  simpa using hlength

def requests (rs : List (Time × DeviceID)) : List (Time × PoolCall) :=
  rs.map fun r => (r.1, .allocateByDeviceID r.2)

def allocations (n : Nat) : List (Time × PoolCall) :=
  requests ((range n).map fun i => (0, device i))

/-- The pool after its first `n` addresses have been handed out in order. -/
structure Filled (start last : IPv4) (n : Nat) (p : Pool) : Prop where
  endIP : p.allocator.endIP = last
  free : p.allocator.freeIPs = []
  cursor : p.allocator.nextIP = start + BitVec.ofNat 32 n
  used : ∀ v, v ∈ p.allocator.usedIPs ↔ ∃ i < n, v = start + BitVec.ofNat 32 i
  fresh : ∀ i, n ≤ i → p.allocator.deviceIP.lookup (device i) = none
  returned : ∀ i < n, start + BitVec.ofNat 32 i ∈ p.returned

theorem setIPPool_filled (start last : IPv4) : (setIPPool start last).Filled start last 0 := by
  refine ⟨rfl, rfl, ?_, ?_, ?_, ?_⟩ <;> simp [setIPPool, IPAllocator.setIPPool]

theorem Filled.next_unused (h : p.Filled start last n) (hn : start.toNat + n < 2 ^ 32) :
    p.allocator.nextIP ∉ p.allocator.usedIPs := by
  rw [h.used, h.cursor]
  rintro ⟨i, hi, heq⟩
  have hnat := congrArg BitVec.toNat heq
  simp only [BitVec.toNat_add, BitVec.toNat_ofNat] at hnat
  omega

theorem Filled.allocate (h : p.Filled start last n) (hn : start.toNat + n ≤ last.toNat) :
    (p.call 0 (.allocateByDeviceID (device n))).Filled start last (n + 1) := by
  have hlt := last.isLt
  have hle : p.allocator.nextIP ≤ p.allocator.endIP := by
    rw [h.cursor, h.endIP, BitVec.le_def, BitVec.toNat_add, BitVec.toNat_ofNat]
    omega
  have hsucc : start + BitVec.ofNat 32 n + 1 = start + BitVec.ofNat 32 (n + 1) := by
    rw [BitVec.ofNat_add, ← BitVec.add_assoc]
    rfl
  have hfresh := @Allocator.allocateByDeviceID_fresh p.allocator.toTables 0 (device n)
    (h.fresh n le_rfl) (h.next_unused (by omega)) h.free hle
  simp only [call, IPAllocator.allocateByDeviceID, hfresh]
  refine ⟨h.endIP, h.free, ?_, fun v => ?_, fun i hi => ?_, fun i hi => ?_⟩
  · exact (congrArg (· + 1) h.cursor).trans hsucc
  · simp only [Finset.mem_insert, h.used, h.cursor]
    constructor
    · rintro (rfl | ⟨i, hi, rfl⟩)
      · exact ⟨n, Nat.lt_succ_self n, rfl⟩
      · exact ⟨i, by omega, rfl⟩
    · rintro ⟨i, hi, rfl⟩
      rcases Nat.lt_succ_iff_lt_or_eq.1 hi with hi | rfl
      · exact .inr ⟨i, hi, rfl⟩
      · exact .inl rfl
  · have hne : device i ≠ device n := fun heq => by
      have := device_injective heq
      omega
    rw [Finmap.lookup_insert_of_ne _ hne]
    exact h.fresh i (by omega)
  · simp only [Option.toList_some, mem_append, mem_singleton, h.cursor]
    rcases Nat.lt_succ_iff_lt_or_eq.1 hi with hi | rfl
    · exact .inl (h.returned i hi)
    · exact .inr rfl

/-- The pool can be emptied from one end to the other. -/
theorem exists_filled (hn : start.toNat + n ≤ last.toNat + 1) :
    ∃ p, run next (setIPPool start last) (allocations n) = some p ∧ p.Filled start last n := by
  induction n with
  | zero => exact ⟨_, rfl, setIPPool_filled start last⟩
  | succ n ih =>
    obtain ⟨p, hrun, hfilled⟩ := ih (by omega)
    refine ⟨_, ?_, hfilled.allocate (by omega)⟩
    rw [allocations, requests, range_succ, map_append, map_append, run_append,
      ← requests, ← allocations, hrun]
    rfl

theorem exists_returned (hstart : start ≤ v) (hlast : v ≤ last) :
    ∃ n p, run next (setIPPool start last) (allocations n) = some p ∧ v ∈ p.returned := by
  rw [BitVec.le_def] at hstart hlast
  have hlt := v.isLt
  obtain ⟨p, hrun, hfilled⟩ := @exists_filled start last (v.toNat - start.toNat + 1) (by omega)
  have hv : start + BitVec.ofNat 32 (v.toNat - start.toNat) = v := by
    apply BitVec.eq_of_toNat_eq
    rw [BitVec.toNat_add, BitVec.toNat_ofNat]
    omega
  exact ⟨_, p, hrun, hv ▸ hfilled.returned (v.toNat - start.toNat) (Nat.lt_succ_self _)⟩

/-- Once 255.255.255.255 has been handed out, the cursor is back at 0.0.0.0. -/
theorem exists_inconsistent (start : IPv4) :
    ∃ n p, run next (setIPPool start 0xffffffff) (allocations n) = some p ∧
      ¬ p.Consistent start 0xffffffff := by
  have hlt := start.isLt
  have hend : (0xffffffff : IPv4).toNat = 2 ^ 32 - 1 := rfl
  obtain ⟨p, hrun, hfilled⟩ := @exists_filled start 0xffffffff (2 ^ 32 - start.toNat) (by omega)
  refine ⟨_, p, hrun, fun hcons => ?_⟩
  have hcursor : p.allocator.nextIP = 0 := by
    rw [hfilled.cursor]
    apply BitVec.eq_of_toNat_eq
    rw [BitVec.toNat_add, BitVec.toNat_ofNat, show (0 : IPv4).toNat = 0 from rfl]
    omega
  have hused : start ∈ p.allocator.usedIPs := (hfilled.used start).2 ⟨0, by omega, by simp⟩
  have hpassed := ((hcons.passed start).1 (.inl hused)).2
  rw [hcursor] at hpassed
  exact BitVec.not_lt_zero hpassed

theorem returned_of_empty (hlt : last < start)
    (hrun : run next (setIPPool start last) (requests rs) = some p) : p.returned = [] := by
  have hstep : ∀ (rs : List (Time × DeviceID)) (p q : Pool), p.Filled start last 0 →
      p.allocator.deviceIP = ∅ → p.returned = [] →
      run next p (requests rs) = some q → q.returned = [] := by
    intro rs
    induction rs with
    | nil =>
      intro p q _ _ hreturned hrun
      obtain rfl : p = q := Option.some.inj hrun
      exact hreturned
    | cons r rest ih =>
      intro p q hfilled hdevices hreturned hrun
      have hunused : p.allocator.nextIP ∉ p.allocator.usedIPs := by simp [hfilled.used]
      have hgt : ¬ p.allocator.nextIP ≤ p.allocator.endIP := by
        rw [hfilled.cursor, hfilled.endIP]
        bv_omega
      have hchoose := Allocator.choose_of_unused hunused hfilled.free
      rw [if_neg hgt] at hchoose
      have hcall : p.call r.1 (.allocateByDeviceID r.2) = p := by
        simp only [call, IPAllocator.allocateByDeviceID, Allocator.Tables.allocateByDeviceID,
          Allocator.Tables.pickFreeLocked, hdevices, Finmap.lookup_empty, hchoose]
        simp
      rw [requests, map_cons, run_cons_eq_some] at hrun
      obtain ⟨p', hp', hrest⟩ := hrun
      rw [next, hcall, Option.some.injEq] at hp'
      exact ih p q hfilled hdevices hreturned (hp' ▸ hrest)
  exact hstep rs _ p (setIPPool_filled start last) rfl rfl hrun

/-- The tables agree with each other and with the cursor after every run of
calls, and every address returned lies in the pool, exactly when the pool does
not reach the end of the address space. -/
theorem pool_consistent (start last : IPv4) (hle : start ≤ last) :
    (∀ calls p, run next (setIPPool start last) calls = some p → p.Consistent start last) ↔
      last ≠ 0xffffffff := by
  constructor
  · rintro h rfl
    obtain ⟨n, p, hrun, hbad⟩ := exists_inconsistent start
    exact hbad (h _ p hrun)
  · intro hlast calls p hrun
    exact (run_sound hle hlast hrun).consistent

theorem pool_consistent_default :
    (0x0a000064 : IPv4) ≤ 0x0a0000c8 ∧
      ∀ calls p, run next (setIPPool 0x0a000064 0x0a0000c8) calls = some p →
        p.Consistent 0x0a000064 0x0a0000c8 :=
  ⟨by decide, (pool_consistent 0x0a000064 0x0a0000c8 (by decide)).2 (by decide)⟩

/-- The pool that consists of the last address hands out 0.0.0.0 to the second
device. -/
theorem pool_wraps_around :
    ¬ ∀ start last : IPv4, start ≤ last → ∀ calls p,
      run next (setIPPool start last) calls = some p → p.Consistent start last := by
  intro h
  obtain ⟨p, hrun, hzero⟩ : ∃ p, run next (setIPPool 0xffffffff 0xffffffff)
      [(0, .allocateByDeviceID "first"), (0, .allocateByDeviceID "second")] = some p ∧
        (0 : IPv4) ∈ p.returned := by
    decide +kernel
  have hin := (h _ _ (BitVec.le_refl _) _ p hrun).returned 0 hzero
  revert hin
  decide

end Pool

end Hy2Link.Server
