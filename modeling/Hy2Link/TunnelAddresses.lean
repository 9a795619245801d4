import Hy2Link.Client.DhcpReply
import Hy2Link.Server.AddressPool
import Hy2Link.Server.Config
import Hy2Link.Server.Packet

/-! # The addresses of an accepted configuration

The manager sets up the allocator from a configuration that `Validate` has
accepted.  An address it hands out is of use when the client accepts it with
the configured mask, when the relay takes it as a destination, and when it is
not the address of the server itself.  `Validate` looks at the texts one by
one; whether the addresses are of use depends on the pool as a whole.
-/

namespace Hy2Link.Config

open Interleaving Text Server ServerConfig Pool

inductive SetupError
  | badPool
  | badMask (mask : List Char)
deriving DecidableEq

def SetupError.text : SetupError → String
  | .badPool => "无效 IP 地址"
  | .badMask mask => "无效子网掩码（必须是 IPv4）: " ++ String.ofList mask

def emptyPool : Pool := setIPPool 1 0

def setIPPool (start last : List Char) : Except SetupError Pool :=
  match parseIP start, parseIP last with
  | some start, some last =>
    match start.to4, last.to4 with
    | some start, some last => .ok (Pool.setIPPool start last)
    | _, _ => .ok emptyPool
  | _, _ => .error .badPool

def setSubnetMask (mask : List Char) : Except SetupError IPv4 :=
  match parseTo4 mask with
  | some mask => .ok mask
  | none => .error (.badMask mask)

/-- The allocator as the manager sets it up: the pool and the mask that goes
out with each address. -/
structure AddressService where
  pool : Pool
  subnetMask : IPv4

def AddressService.getSubnetMask (service : AddressService) : List Char :=
  dotted service.subnetMask

def ServerConfig.serve (c : ServerConfig) : Except SetupError AddressService := do
  let pool ← setIPPool c.ipPoolStart c.ipPoolEnd
  let mask ← setSubnetMask c.subnetMask
  return ⟨pool, mask⟩

/-! ## Addresses of use -/

/-- The client accepts the address, the relay forwards to it, and it is not
that of the server. -/
structure ServerConfig.Usable (c : ServerConfig) (mask : List Char) (v : IPv4) : Prop where
  accepted : Client.validateTunnelIPv4 (dotted v) mask = .ok ()
  forwarded : isBroadcastOrMulticast v = false
  notServer : c.serverTunEnabled = true → parseIP c.serverTunIP ≠ some (IP.ofIPv4 v)

/-- The allocator of the configuration hands out an address, and only usable
ones. -/
structure ServerConfig.HandsOutUsable (c : ServerConfig) (service : AddressService) : Prop where
  some_address : ∃ rs p, run next service.pool (requests rs) = some p ∧ p.returned ≠ []
  usable : ∀ rs p, run next service.pool (requests rs) = some p →
    ∀ v ∈ p.returned, c.Usable service.getSubnetMask v

/-- The pool lies in one block of 256 addresses and stops before its last one,
it holds neither 0.0.0.0 nor a multicast address nor the address of the
server, and the mask is between /8 and /30. -/
structure ServerConfig.UsablePool (c : ServerConfig) (start last mask : IPv4) : Prop where
  ordered : start ≤ last
  block : start.toNat / 256 = last.toNat / 256
  below : last.toNat % 256 ≠ 255
  specified : start.toNat ≠ 0
  unicast : start.toNat / 2 ^ 28 ≠ 0xe
  mask : Client.ReasonableMask mask
  notServer : c.serverTunEnabled = true →
    ∀ v, parseIP c.serverTunIP = some (IP.ofIPv4 v) → v < start ∨ last < v

theorem isBroadcastOrMulticast_eq_false (v : IPv4) :
    isBroadcastOrMulticast v = false ↔
      v.toNat / 2 ^ 28 ≠ 0xe ∧ v.toNat % 256 ≠ 255 ∧ v.toNat ≠ 0 := by
  have hlt := v.isLt
  have hlast : (v &&& 0xff#32).toNat = v.toNat % 256 := by
    rw [BitVec.toNat_and]
    exact Nat.and_two_pow_sub_one_eq_mod v.toNat 8
  have hfirst : (v >>> 24).toNat = v.toNat / 2 ^ 24 := by
    rw [BitVec.toNat_ushiftRight, Nat.shiftRight_eq_div_pow]
  simp only [isBroadcastOrMulticast, Bool.or_eq_false_iff, Bool.and_eq_false_iff,
    decide_eq_false_iff_not, BitVec.le_def, ← BitVec.toNat_inj, hlast, hfirst, BitVec.toNat_ofNat]
  omega

theorem ushiftRight_28 (v : IPv4) : v >>> 28 = 0xe ↔ v.toNat / 2 ^ 28 = 0xe := by
  rw [← BitVec.toNat_inj, BitVec.toNat_ushiftRight, Nat.shiftRight_eq_div_pow]
  rfl

variable {c : ServerConfig} {start last mask v : IPv4}

theorem ServerConfig.serve_eq (hstart : parseTo4 c.ipPoolStart = some start)
    (hlast : parseTo4 c.ipPoolEnd = some last) (hmask : parseTo4 c.subnetMask = some mask) :
    c.serve = .ok ⟨Pool.setIPPool start last, mask⟩ := by
  obtain ⟨s, hs, hs4⟩ := Option.bind_eq_some_iff.1 hstart
  obtain ⟨l, hl, hl4⟩ := Option.bind_eq_some_iff.1 hlast
  simp only [serve, setIPPool, setSubnetMask, hs, hl, hs4, hl4, hmask]
  rfl

theorem ServerConfig.mask_of_serve (h : c.serve = .ok service) :
    ∃ mask, parseTo4 c.subnetMask = some mask := by
  cases hmask : parseTo4 c.subnetMask with
  | some mask => exact ⟨mask, rfl⟩
  | none =>
    simp only [serve, setSubnetMask, hmask] at h
    cases hpool : setIPPool c.ipPoolStart c.ipPoolEnd with
    | error | ok =>
      rw [hpool] at h
      cases h

theorem ServerConfig.usable_iff :
    c.Usable (dotted mask) v ↔
      (v.toNat / 2 ^ 28 ≠ 0xe ∧ v.toNat % 256 ≠ 255 ∧ v.toNat ≠ 0) ∧ Client.ReasonableMask mask ∧
        (c.serverTunEnabled = true → parseIP c.serverTunIP ≠ some (IP.ofIPv4 v)) := by
  constructor
  · rintro ⟨haccepted, hforwarded, hserver⟩
    rw [Client.validateTunnelIPv4_dotted] at haccepted
    exact ⟨(isBroadcastOrMulticast_eq_false v).1 hforwarded, haccepted.2.2.2, hserver⟩
  · rintro ⟨hbytes, hmask, hserver⟩
    refine ⟨?_, (isBroadcastOrMulticast_eq_false v).2 hbytes, hserver⟩
    rw [Client.validateTunnelIPv4_dotted]
    refine ⟨?_, ?_, ?_, hmask⟩
    · rintro rfl
      exact hbytes.2.2 rfl
    · exact fun h => hbytes.1 ((ushiftRight_28 v).1 h)
    · rintro rfl
      exact hbytes.2.1 rfl

/-- Every address of a usable pool is usable: the block they share has one
first byte, and only its last address ends in 255. -/
theorem ServerConfig.UsablePool.usable (h : c.UsablePool start last mask) (hstart : start ≤ v)
    (hlast : v ≤ last) : c.Usable (dotted mask) v := by
  have hblock := h.block
  have hbelow := h.below
  have hspecified := h.specified
  have hunicast := h.unicast
  rw [BitVec.le_def] at hstart hlast
  refine usable_iff.2 ⟨⟨?_, ?_, ?_⟩, h.mask, fun htun hserver => ?_⟩
  · omega
  · omega
  · omega
  · rcases h.notServer htun v hserver with hlt | hlt
    · rw [BitVec.lt_def] at hlt
      omega
    · rw [BitVec.lt_def] at hlt
      omega

/-- If all addresses of a pool are usable, so is the pool: otherwise one of its
bounds, or the last address of the first block, is a counterexample. -/
theorem ServerConfig.usablePool_of_forall (hle : start ≤ last)
    (h : ∀ v, start ≤ v → v ≤ last → c.Usable (dotted mask) v) :
    c.UsablePool start last mask := by
  have hstart := usable_iff.1 (h start (BitVec.le_refl _) hle)
  have hlast := usable_iff.1 (h last hle (BitVec.le_refl _))
  have hlt := last.isLt
  refine ⟨hle, ?_, hlast.1.2.1, hstart.1.2.2, hstart.1.1, hstart.2.1, fun htun v hserver => ?_⟩
  · by_contra hne
    rw [BitVec.le_def] at hle
    have hv : (BitVec.ofNat 32 (start.toNat / 256 * 256 + 255)).toNat =
        start.toNat / 256 * 256 + 255 := by
      rw [BitVec.toNat_ofNat]
      omega
    have husable := h (BitVec.ofNat 32 (start.toNat / 256 * 256 + 255))
      (by rw [BitVec.le_def, hv]; omega) (by rw [BitVec.le_def, hv]; omega)
    have hbytes := (usable_iff.1 husable).1.2.1
    rw [hv] at hbytes
    omega
  · by_contra hin
    rw [not_or, BitVec.not_lt, BitVec.not_lt] at hin
    exact (usable_iff.1 (h v hin.1 hin.2)).2.2 htun hserver

theorem ServerConfig.handsOutUsable_iff :
    c.HandsOutUsable ⟨Pool.setIPPool start last, mask⟩ ↔ c.UsablePool start last mask := by
  constructor
  · rintro ⟨⟨rs, p, hrun, hreturned⟩, husable⟩
    have hle : start ≤ last := by
      by_contra hgt
      exact hreturned (returned_of_empty (BitVec.not_le.1 hgt) hrun)
    refine usablePool_of_forall hle fun v hstart hlast => ?_
    obtain ⟨n, q, hq, hv⟩ := exists_returned hstart hlast
    exact husable _ q hq v hv
  · intro h
    have hbelow := h.below
    have hlast : last ≠ 0xffffffff := by
      rintro rfl
      exact hbelow rfl
    refine ⟨?_, fun rs p hrun v hv => ?_⟩
    · obtain ⟨n, p, hrun, hv⟩ := exists_returned (BitVec.le_refl start) h.ordered
      exact ⟨_, p, hrun, List.ne_nil_of_mem hv⟩
    · have hin := (run_sound h.ordered hlast hrun).returned v hv
      exact h.usable hin.1 hin.2

/-- An accepted configuration hands out an address, and only usable addresses,
exactly when its pool and its mask are usable as a whole. -/
theorem hands_out_usable (c : ServerConfig) (hvalid : c.validate = .ok ()) :
    (∃ service, c.serve = .ok service ∧ c.HandsOutUsable service) ↔
      ∃ start last mask, parseTo4 c.ipPoolStart = some start ∧
        parseTo4 c.ipPoolEnd = some last ∧ parseTo4 c.subnetMask = some mask ∧
        c.UsablePool start last mask := by
  have hpool := (validate_eq_ok.1 hvalid).2.1
  obtain ⟨⟨start, hstart⟩, ⟨last, hlast⟩, -⟩ := checkPool_eq_ok.1 hpool
  constructor
  · rintro ⟨service, hserve, husable⟩
    obtain ⟨mask, hmask⟩ := mask_of_serve hserve
    rw [serve_eq hstart hlast hmask, Except.ok.injEq] at hserve
    exact ⟨start, last, mask, hstart, hlast, hmask, handsOutUsable_iff.1 (hserve ▸ husable)⟩
  · rintro ⟨start', last', mask, hstart', hlast', hmask, husable⟩
    exact ⟨_, serve_eq hstart' hlast' hmask, handsOutUsable_iff.2 husable⟩

def shortened : ServerConfig := { default with ipPoolEnd := "192.168.30.254".toList }

theorem hands_out_usable_shortened :
    shortened.validate = .ok () ∧
      ∃ service, shortened.serve = .ok service ∧ shortened.HandsOutUsable service :=
  ⟨by decide +kernel, (hands_out_usable shortened (by decide +kernel)).2
    ⟨0xc0a81e0b, 0xc0a81efe, 0xffffff00, by decide +kernel, by decide +kernel, by decide +kernel,
      { ordered := by decide
        block := by decide
        below := by decide
        specified := by decide
        unicast := by decide
        mask := ⟨24, by decide, by decide, by decide⟩
        notServer := by simp [shortened, ServerConfig.default] }⟩⟩

/-- The default configuration hands out 192.168.30.255, which the relay drops
as a broadcast address. -/
theorem default_hands_out_broadcast :
    ¬ ∀ c : ServerConfig, c.validate = .ok () →
      ∃ service, c.serve = .ok service ∧ c.HandsOutUsable service := by
  intro h
  obtain ⟨service, hserve, husable⟩ := h .default (by decide +kernel)
  have hdefault : default.serve = .ok ⟨Pool.setIPPool 0xc0a81e0b 0xc0a81eff, 0xffffff00⟩ :=
    serve_eq (by decide +kernel) (by decide +kernel) (by decide +kernel)
  rw [hdefault, Except.ok.injEq] at hserve
  obtain ⟨n, p, hrun, hv⟩ := @Pool.exists_returned 0xc0a81e0b 0xc0a81eff 0xc0a81eff
    (by decide) (by decide)
  rw [← hserve] at husable
  have hforwarded := (husable.usable _ p hrun _ hv).forwarded
  revert hforwarded
  decide

end Hy2Link.Config
