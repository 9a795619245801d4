import Hy2Link.Text

/-! # The configuration of the server

`ServerConfig` with `Validate`, which the manager calls before it starts the
server and before it takes over a configuration from the panel.  A refusal is
a value that carries what its message prints.
-/

namespace Hy2Link.Config

open Text

/-! ## Port ranges -/

inductive PortError
  | empty
  | badStart (s : List Char)
  | badEnd (s : List Char)
  | badRange (lo hi : Int)
  | badPort (s : List Char)
  | outOfRange (port : Int)
deriving DecidableEq

def PortError.text : PortError → String
  | .empty => "空端口"
  | .badStart s => "无效起始端口: " ++ quoted s
  | .badEnd s => "无效结束端口: " ++ quoted s
  | .badRange lo hi => "端口范围越界: " ++ toString lo ++ "-" ++ toString hi
  | .badPort s => "无效端口: " ++ quoted s
  | .outOfRange port => "端口越界: " ++ toString port

def parsePortRange (s : List Char) : Except PortError (Int × Int) :=
  let s := trimSpace s
  if s = [] then .error .empty
  else
    match index '-' s with
    | some i =>
      match atoi (trimSpace (s.take i)) with
      | none => .error (.badStart (s.take i))
      | some lo =>
        match atoi (trimSpace (s.drop (i + 1))) with
        | none => .error (.badEnd (s.drop (i + 1)))
        | some hi =>
          if lo < 1 || 65535 < hi || hi < lo then .error (.badRange lo hi) else .ok (lo, hi)
    | none =>
      match atoi s with
      | none => .error (.badPort s)
      | some p => if p < 1 || 65535 < p then .error (.outOfRange p) else .ok (p, p)

example : parsePortRange " 42300 - 42800".toList = .ok (42300, 42800) := by decide +kernel

/-! ## Versions -/

def isValidSemVer (v : List Char) : Bool :=
  let parts := v.splitOn '.'
  parts.length = 3 && parts.all fun p => p ≠ [] && (atoi p).isSome

def semVerParts (v : List Char) : List Int := (v.splitOn '.').map fun p => (atoi p).getD 0

def compareSemVer (a b : List Char) : Ordering := compare (semVerParts a) (semVerParts b)

/-! ## The configuration -/

structure ServerConfig where
  port : Int
  portVPN : Int
  ipPoolStart : List Char
  ipPoolEnd : List Char
  subnetMask : List Char
  serverTunEnabled : Bool
  serverTunIP : List Char
  serverTunMask : List Char
  tcpSplitEnabled : Bool
  tcpSplitPorts : List Int
  udpReliableEnabled : Bool
  udpReliablePorts : List (List Char)
  udpUnreliableEnabled : Bool
  udpUnreliablePorts : List (List Char)
  minClientVersion : List Char
  maxClientVersion : List Char
  obfsEnabled : Bool
  obfsPassword : List Char
  p2pEnabled : Bool
  stunPort : Int
deriving DecidableEq

inductive UDPKind
  | reliable
  | unreliable
deriving DecidableEq

inductive ConfigError
  | port
  | portVPN
  | samePorts
  | ipPoolStart (s : List Char)
  | ipPoolEnd (s : List Char)
  | subnetMask (s : List Char)
  | serverTunIP (s : List Char)
  | serverTunMask (s : List Char)
  | noSplitPorts
  | splitPort (port : Int)
  | splitPortTwice (port : Int)
  | noUDPPorts (kind : UDPKind)
  | udpPort (kind : UDPKind) (s : List Char) (error : PortError)
  | obfsPassword (length : Nat)
  | minClientVersion (s : List Char)
  | maxClientVersion (s : List Char)
  | versionOrder (min max : List Char)
deriving DecidableEq

def UDPKind.text : UDPKind → String
  | .reliable => "UDP 可靠端口"
  | .unreliable => "UDP 不可靠端口"

def ConfigError.text : ConfigError → String
  | .port => "数据端口必须在 1-65535 之间"
  | .portVPN => "控制端口必须在 1-65535 之间"
  | .samePorts => "数据端口和控制端口不能相同"
  | .ipPoolStart s => "IP 池起始地址无效: " ++ String.ofList s
  | .ipPoolEnd s => "IP 池结束地址无效: " ++ String.ofList s
  | .subnetMask s => "子网掩码无效: " ++ String.ofList s
  | .serverTunIP s => "服务端 TUN IP 无效: " ++ String.ofList s
  | .serverTunMask s => "服务端 TUN 掩码无效: " ++ String.ofList s
  | .noSplitPorts => "启用 TCP 连接拆分时，端口列表不能为空"
  | .splitPort p => "TCP 拆分端口无效: " ++ toString p ++ "（必须在 1-65535 之间）"
  | .splitPortTwice p => "TCP 拆分端口重复: " ++ toString p
  | .noUDPPorts kind => "启用 " ++ kind.text ++ "时，端口/范围列表不能为空"
  | .udpPort kind s error =>
    kind.text ++ "无效: " ++ String.ofList s ++ "（" ++ error.text ++ "）"
  | .obfsPassword length =>
    "启用混淆时，混淆密码至少 4 字节（当前 " ++ toString length ++ " 字节）"
  | .minClientVersion s => "最低客户端版本格式无效: " ++ String.ofList s ++ "（应为 X.Y.Z）"
  | .maxClientVersion s => "最高客户端版本格式无效: " ++ String.ofList s ++ "（应为 X.Y.Z）"
  | .versionOrder min max =>
    "最低客户端版本 (" ++ String.ofList min ++ ") 不能大于最高版本 (" ++ String.ofList max ++ ")"

variable {ports : List (List Char)}

namespace ServerConfig

/-- `DefaultConfig`, without the fields that nothing here reads. -/
def default : ServerConfig where
  port := 8443
  portVPN := 8444
  ipPoolStart := "192.168.30.11".toList
  ipPoolEnd := "192.168.30.255".toList
  subnetMask := "255.255.255.0".toList
  serverTunEnabled := false
  serverTunIP := "192.168.30.10".toList
  serverTunMask := "255.255.255.0".toList
  tcpSplitEnabled := false
  tcpSplitPorts := [22345, 443]
  udpReliableEnabled := false
  udpReliablePorts := ["42300-42800".toList]
  udpUnreliableEnabled := false
  udpUnreliablePorts := ["50000-50550".toList]
  minClientVersion := []
  maxClientVersion := []
  obfsEnabled := false
  obfsPassword := []
  p2pEnabled := true
  stunPort := 3478

def badPort (p : Int) : Bool := p < 1 || 65535 < p

def checkPorts (c : ServerConfig) : Except ConfigError Unit :=
  if badPort c.port then .error .port
  else if badPort c.portVPN then .error .portVPN
  else if c.port = c.portVPN then .error .samePorts
  else .ok ()

def checkPool (c : ServerConfig) : Except ConfigError Unit :=
  if (parseTo4 c.ipPoolStart).isNone then .error (.ipPoolStart c.ipPoolStart)
  else if (parseTo4 c.ipPoolEnd).isNone then .error (.ipPoolEnd c.ipPoolEnd)
  else if (parseIP c.subnetMask).isNone then .error (.subnetMask c.subnetMask)
  else .ok ()

def checkTun (c : ServerConfig) : Except ConfigError Unit :=
  if !c.serverTunEnabled then .ok ()
  else if (parseIP c.serverTunIP).isNone then .error (.serverTunIP c.serverTunIP)
  else if (parseIP c.serverTunMask).isNone then .error (.serverTunMask c.serverTunMask)
  else .ok ()

/-- The loop over the split ports; `seen` are those before the current one. -/
def checkSplitPorts (seen : List Int) : List Int → Except ConfigError Unit
  | [] => .ok ()
  | p :: rest =>
    if badPort p then .error (.splitPort p)
    else if p ∈ seen then .error (.splitPortTwice p)
    else checkSplitPorts (p :: seen) rest

def checkTCPSplit (c : ServerConfig) : Except ConfigError Unit :=
  if !c.tcpSplitEnabled then .ok ()
  else if c.tcpSplitPorts = [] then .error .noSplitPorts
  else checkSplitPorts [] c.tcpSplitPorts

def checkRanges (kind : UDPKind) : List (List Char) → Except ConfigError Unit
  | [] => .ok ()
  | s :: rest =>
    match parsePortRange s with
    | .error error => .error (.udpPort kind s error)
    | .ok _ => checkRanges kind rest

def checkUDP (kind : UDPKind) (enabled : Bool) (ports : List (List Char)) :
    Except ConfigError Unit :=
  if !enabled then .ok ()
  else if ports = [] then .error (.noUDPPorts kind)
  else checkRanges kind ports

def checkUDPReliable (c : ServerConfig) : Except ConfigError Unit :=
  checkUDP .reliable c.udpReliableEnabled c.udpReliablePorts

def checkUDPUnreliable (c : ServerConfig) : Except ConfigError Unit :=
  checkUDP .unreliable c.udpUnreliableEnabled c.udpUnreliablePorts

def checkObfs (c : ServerConfig) : Except ConfigError Unit :=
  if c.obfsEnabled && byteLength c.obfsPassword < 4 then
    .error (.obfsPassword (byteLength c.obfsPassword))
  else .ok ()

def limits (v : List Char) : Bool := v ≠ [] && v ≠ "0.0.0".toList

def checkVersions (c : ServerConfig) : Except ConfigError Unit :=
  let minVer := trimSpace c.minClientVersion
  let maxVer := trimSpace c.maxClientVersion
  if limits minVer && !isValidSemVer minVer then .error (.minClientVersion minVer)
  else if limits maxVer && !isValidSemVer maxVer then .error (.maxClientVersion maxVer)
  else if limits minVer && limits maxVer && compareSemVer minVer maxVer = .gt then
    .error (.versionOrder minVer maxVer)
  else .ok ()

/-- The checks in the order of the code; the first that fails is reported. -/
def validate (c : ServerConfig) : Except ConfigError Unit := do
  c.checkPorts
  c.checkPool
  c.checkTun
  c.checkTCPSplit
  c.checkUDPReliable
  c.checkUDPUnreliable
  c.checkObfs
  c.checkVersions

example : default.validate = .ok () := by decide +kernel

/-! ## What an accepted configuration satisfies -/

theorem check_then_eq_ok {x : Except ε Unit} {f : Unit → Except ε β} {b : β} :
    (x >>= f) = .ok b ↔ x = .ok () ∧ f () = .ok b := by
  cases x with
  | error | ok => simp [bind, Except.bind]

variable {c : ServerConfig}

theorem validate_eq_ok :
    c.validate = .ok () ↔
      c.checkPorts = .ok () ∧ c.checkPool = .ok () ∧ c.checkTun = .ok () ∧
        c.checkTCPSplit = .ok () ∧ c.checkUDPReliable = .ok () ∧
        c.checkUDPUnreliable = .ok () ∧ c.checkObfs = .ok () ∧ c.checkVersions = .ok () := by
  simp only [validate, check_then_eq_ok]

theorem checkPool_eq_ok :
    c.checkPool = .ok () ↔
      (∃ start, parseTo4 c.ipPoolStart = some start) ∧
        (∃ last, parseTo4 c.ipPoolEnd = some last) ∧ ∃ mask, parseIP c.subnetMask = some mask := by
  unfold checkPool
  cases parseTo4 c.ipPoolStart <;> cases parseTo4 c.ipPoolEnd <;> cases parseIP c.subnetMask <;>
    simp

theorem checkSplitPorts_eq_ok {seen ports : List Int} :
    checkSplitPorts seen ports = .ok () ↔
      (∀ p ∈ ports, 1 ≤ p ∧ p ≤ 65535) ∧ ports.Nodup ∧ ∀ p ∈ ports, p ∉ seen := by
  induction ports generalizing seen with
  | nil => simp [checkSplitPorts]
  | cons p rest ih =>
    unfold checkSplitPorts
    split
    next hbad =>
      simp only [badPort, Bool.or_eq_true, decide_eq_true_eq] at hbad
      simp only [reduceCtorEq, false_iff, List.mem_cons, forall_eq_or_imp]
      omega
    next hgood =>
      simp only [badPort, Bool.or_eq_true, decide_eq_true_eq, not_or, Int.not_lt] at hgood
      split
      next hseen =>
        simp only [reduceCtorEq, false_iff]
        exact fun h => h.2.2 p List.mem_cons_self hseen
      next hnew =>
        rw [ih]
        simp only [List.mem_cons, forall_eq_or_imp, List.nodup_cons, not_or]
        constructor
        · rintro ⟨hrange, hnodup, hold⟩
          exact ⟨⟨hgood, hrange⟩, ⟨fun hp => (hold p hp).1 rfl, hnodup⟩, hnew,
            fun q hq => (hold q hq).2⟩
        · rintro ⟨⟨-, hrange⟩, ⟨hp, hnodup⟩, -, hold⟩
          exact ⟨hrange, hnodup, fun q hq => ⟨fun heq => hp (heq ▸ hq), hold q hq⟩⟩

theorem checkRanges_eq_ok :
    checkRanges kind ports = .ok () ↔ ∀ s ∈ ports, ∃ range, parsePortRange s = .ok range := by
  induction ports with
  | nil => simp [checkRanges]
  | cons s rest ih =>
    unfold checkRanges
    cases hparse : parsePortRange s with
    | error e => simp [hparse]
    | ok range =>
      simp only [ih, List.mem_cons, forall_eq_or_imp, hparse]
      exact ⟨fun h => ⟨⟨range, rfl⟩, h⟩, And.right⟩

theorem splitPorts_of_check (h : c.checkTCPSplit = .ok ()) (henabled : c.tcpSplitEnabled = true) :
    c.tcpSplitPorts ≠ [] ∧ c.tcpSplitPorts.Nodup ∧
      ∀ p ∈ c.tcpSplitPorts, 1 ≤ p ∧ p ≤ 65535 := by
  unfold checkTCPSplit at h
  simp only [henabled, Bool.not_true, Bool.false_eq_true, if_false] at h
  split at h
  · cases h
  next hne =>
    obtain ⟨hports, hnodup, -⟩ := checkSplitPorts_eq_ok.1 h
    exact ⟨hne, hnodup, hports⟩

theorem ranges_of_check (h : checkUDP kind enabled ports = .ok ()) (henabled : enabled = true) :
    ports ≠ [] ∧ ∀ s ∈ ports, ∃ range, parsePortRange s = .ok range := by
  unfold checkUDP at h
  simp only [henabled, Bool.not_true, Bool.false_eq_true, if_false] at h
  split at h
  · cases h
  next hne => exact ⟨hne, checkRanges_eq_ok.1 h⟩

end ServerConfig

end Hy2Link.Config
