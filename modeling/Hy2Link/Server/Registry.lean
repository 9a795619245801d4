import Hy2Link.Server.DataPlane

/-! # The signalling registry

`SignalRegistry`: what the clients have reported about themselves, with a
lifetime of its own, and the outgoing end of the signalling stream that is
currently attached for a virtual address.  The P2P switch of the server stands
with it, because every use of the registry asks for it first.
-/

namespace Hy2Link.Server

open Interleaving Text

def signalEntryTTL : Time := 5 * minute

def metadataLen : Nat := 32

/-! ## Validation -/

/-- Why a report is refused; each error names the field it is about. -/
inductive UpdateError
  | publicAddrEmpty
  | publicAddrForm (detail : AddrError)
  | publicAddrIP (host : List Char)
  | publicAddrUnspecified (host : List Char)
  | publicAddrPort (port : List Char)
  | natType (text : String)
  | metadataLength (length : Nat)
  | metadataHex
deriving DecidableEq

def validatePublicAddr (addr : String) : Except UpdateError Unit :=
  if addr = "" then .error .publicAddrEmpty
  else
    match splitHostPort addr.toList with
    | .error detail => .error (.publicAddrForm detail)
    | .ok (host, port) =>
      match parseIP host with
      | none => .error (.publicAddrIP host)
      | some ip =>
        if ip.isUnspecified then .error (.publicAddrUnspecified host)
        else
          match atoi port with
          | none => .error (.publicAddrPort port)
          | some p => if p < 1 || 65535 < p then .error (.publicAddrPort port) else .ok ()

def validNATTypes : List String :=
  ["full-cone", "restricted-cone", "port-restricted", "symmetric", "unknown"]

def validNATType (s : String) : Bool := s ∈ validNATTypes

/-- The empty text is valid and means that no metadata is reported. -/
def normalizeMetadata (s : String) : Except UpdateError String :=
  let text := trimSpace (s.toList.map Char.toLower)
  let length := (String.ofList text).utf8ByteSize
  if text = [] then .ok ""
  else if length ≠ metadataLen * 2 then .error (.metadataLength length)
  else if text.all fun c => (hexDigit c).isSome then .ok (String.ofList text)
  else .error .metadataHex

/-- The checks of `Update` in their order; the answer is the normalized
metadata. -/
def validateReport (publicAddr natType metadata : String) : Except UpdateError String :=
  match validatePublicAddr publicAddr with
  | .error e => .error e
  | .ok () =>
    if validNATType natType then normalizeMetadata metadata
    else .error (.natType natType)

/-! ## Tables -/

structure PeerInfo where
  publicAddr : String
  natType : String
  metadata : String
  lastSeen : Time
deriving DecidableEq

/-- The signalling stream number `index` of a control connection that serves
the clientStream `stream`. -/
structure Sink where
  conn : ConnId
  index : Nat
  stream : StreamId
deriving DecidableEq

/-- An accepted report, with the clientStream whose signalling stream carried
it. -/
structure Report where
  stream : StreamId
  publicAddr : String
  natType : String
  metadata : String
deriving DecidableEq

/-- `reports` is a history variable: the code keeps no such list and no
operation reads it. -/
structure SignalTables where
  p2pEnabled : Bool
  peers : Table IPv4 PeerInfo
  sinks : Table IPv4 Sink
  reports : List Report

/-- `Get` reads the entry first and looks at the clock after it has given the
lock back; `readPeer` and `dropExpired` are these two halves. -/
inductive SignalOp : Type → Type
  | p2pOn : SignalOp Bool
  | readPeer (vip : IPv4) : SignalOp (Option PeerInfo)
  | dropExpired (vip : IPv4) (info : PeerInfo) : SignalOp Bool
  | update (stream : StreamId) (vip : IPv4) (publicAddr natType metadata : String) :
      SignalOp (Except UpdateError Unit)
  | attachSink (vip : IPv4) (sink : Sink) : SignalOp Unit
  | detachSink (vip : IPv4) (sink : Sink) : SignalOp Bool
  | hasSink (vip : IPv4) : SignalOp Bool
  | selectSink (vip : IPv4) : SignalOp (Option Sink)

def PeerInfo.stale (info : PeerInfo) (now : Time) : Bool := signalEntryTTL < now - info.lastSeen

namespace SignalTables

variable (r : SignalTables)

def empty (p2pEnabled : Bool) : SignalTables := ⟨p2pEnabled, ∅, ∅, []⟩

/-- Metadata of an existing entry survives a report without metadata. -/
def inherited (vip : IPv4) (metadata : String) : String :=
  match r.peers.lookup vip with
  | some old => if metadata = "" then old.metadata else metadata
  | none => metadata

def update (now : Time) (stream : StreamId) (vip : IPv4)
    (publicAddr natType metadata : String) : SignalTables × Except UpdateError Unit :=
  match validateReport publicAddr natType metadata with
  | .error e => (r, .error e)
  | .ok normalized =>
    ({ r with
      peers := r.peers.insert vip
        { publicAddr, natType, metadata := r.inherited vip normalized, lastSeen := now }
      reports := r.reports ++ [{ stream, publicAddr, natType, metadata := normalized }] },
     .ok ())

def removeStale (vip : IPv4) (now : Time) : SignalTables :=
  match r.peers.lookup vip with
  | some cur => if cur.stale now then { r with peers := r.peers.erase vip } else r
  | none => r

def dropExpired (now : Time) (vip : IPv4) (info : PeerInfo) : SignalTables × Bool :=
  if info.stale now then (r.removeStale vip now, false) else (r, true)

def attachSink (vip : IPv4) (sink : Sink) : SignalTables :=
  { r with sinks := r.sinks.insert vip sink }

/-- Only the sink that is still attached is removed. -/
def detachSink (vip : IPv4) (sink : Sink) : SignalTables × Bool :=
  if r.sinks.lookup vip = some sink then ({ r with sinks := r.sinks.erase vip }, true)
  else (r, false)

def exec (now : Time) {Result : Type} : SignalOp Result → SignalTables × Result
  | .p2pOn => (r, r.p2pEnabled)
  | .readPeer vip => (r, r.peers.lookup vip)
  | .dropExpired vip info => r.dropExpired now vip info
  | .update stream vip publicAddr natType metadata =>
    r.update now stream vip publicAddr natType metadata
  | .attachSink vip sink => (r.attachSink vip sink, ())
  | .detachSink vip sink => r.detachSink vip sink
  | .hasSink vip => (r, (r.sinks.lookup vip).isSome)
  | .selectSink vip => (r, r.sinks.lookup vip)

/-- `EnableP2PSignal`: switching off also removes every sink. -/
def enableP2PSignal (enabled : Bool) : SignalTables :=
  { r with p2pEnabled := enabled, sinks := if enabled then r.sinks else ∅ }

end SignalTables

/-! ## What an operation can do -/

/-- The address and the type of NAT come from one report of the clientStream,
metadata that is there from some report of it. -/
structure Reported (r : SignalTables) (stream : StreamId) (info : PeerInfo) : Prop where
  address : ∃ report ∈ r.reports, report.stream = stream ∧
    report.publicAddr = info.publicAddr ∧ report.natType = info.natType
  metadata : info.metadata ≠ "" → ∃ report ∈ r.reports, report.stream = stream ∧
    report.metadata = info.metadata

theorem Reported.mono (h : Reported r stream info)
    (hreports : ∀ report ∈ r.reports, report ∈ r'.reports) : Reported r' stream info := by
  refine ⟨?_, fun hmetadata => ?_⟩
  · obtain ⟨report, hmem, hreport⟩ := h.address
    exact ⟨report, hreports report hmem, hreport⟩
  · obtain ⟨report, hmem, hreport⟩ := h.metadata hmetadata
    exact ⟨report, hreports report hmem, hreport⟩

/-- The operation is a report of the clientStream `stream` for the address. -/
def SignalOp.Updates {Result : Type} (stream : StreamId) (vip : IPv4) : SignalOp Result → Prop
  | .update s v _ _ _ => s = stream ∧ v = vip
  | _ => False

def SignalOp.Attaches {Result : Type} (vip : IPv4) (sink : Sink) : SignalOp Result → Prop
  | .attachSink v s => v = vip ∧ s = sink
  | _ => False

namespace SignalTables

variable {r : SignalTables} {Result : Type}

@[simp] theorem removeStale_reports (vip : IPv4) (now : Time) :
    (r.removeStale vip now).reports = r.reports := by
  unfold removeStale
  split
  · split <;> rfl
  · rfl

@[simp] theorem removeStale_sinks (vip : IPv4) (now : Time) :
    (r.removeStale vip now).sinks = r.sinks := by
  unfold removeStale
  split
  · split <;> rfl
  · rfl

theorem removeStale_peers (h : (r.removeStale vip at_).peers.lookup v = some info) :
    r.peers.lookup v = some info := by
  unfold removeStale at h
  split at h
  · split at h
    · exact (lookup_erase_eq_some.1 h).2
    · exact h
  · exact h

theorem dropExpired_fst (r : SignalTables) (now : Time) (vip : IPv4) (info : PeerInfo) :
    (r.dropExpired now vip info).1 = r ∨
      (r.dropExpired now vip info).1 = r.removeStale vip now := by
  unfold dropExpired
  split
  · exact .inr rfl
  · exact .inl rfl

theorem reported_update (hvalid : validateReport addr nat metadata = .ok normalized)
    (hold : ∀ old, r.peers.lookup vip = some old → Reported r stream old) :
    Reported (r.update now stream vip addr nat metadata).1 stream
      ⟨addr, nat, r.inherited vip normalized, now⟩ := by
  have hupdate : (r.update now stream vip addr nat metadata).1.reports =
      r.reports ++ [⟨stream, addr, nat, normalized⟩] := by
    simp only [update, hvalid]
  have hnew : (⟨stream, addr, nat, normalized⟩ : Report) ∈
      (r.update now stream vip addr nat metadata).1.reports := by
    rw [hupdate]
    exact List.mem_append_right _ List.mem_cons_self
  refine ⟨⟨_, hnew, rfl, rfl, rfl⟩, fun hmetadata => ?_⟩
  dsimp only at hmetadata ⊢
  unfold inherited at hmetadata ⊢
  split at hmetadata
  next old hlookup =>
    split at hmetadata
    · obtain ⟨report, hmem, hreport⟩ := (hold old hlookup).metadata hmetadata
      refine ⟨report, ?_, ?_⟩
      · rw [hupdate]
        exact List.mem_append_left _ hmem
      · rw [if_pos ‹_›]
        exact hreport
    · refine ⟨_, hnew, rfl, ?_⟩
      rw [if_neg ‹_›]
  · exact ⟨_, hnew, rfl, rfl⟩

theorem exec_reports (h : report ∈ r.reports) : report ∈ (r.exec now op).1.reports := by
  cases op with
  | dropExpired vip info =>
    change report ∈ (r.dropExpired now vip info).1.reports
    rcases dropExpired_fst r now vip info with heq | heq
    · rw [heq]
      exact h
    · rw [heq, removeStale_reports]
      exact h
  | update stream vip addr nat metadata =>
    simp only [exec, update]
    split
    · exact h
    · exact List.mem_append_left _ h
  | detachSink vip sink =>
    simp only [exec, detachSink]
    split <;> exact h
  | _ => exact h

theorem exec_peers (h : (r.exec now op).1.peers.lookup vip = some info) :
    r.peers.lookup vip = some info ∨
      ∃ stream, op.Updates stream vip ∧
        ((∀ old, r.peers.lookup vip = some old → Reported r stream old) →
          Reported (r.exec now op).1 stream info) := by
  cases op with
  | dropExpired v old =>
    rcases dropExpired_fst r now v old with heq | heq
    · exact .inl (heq ▸ h)
    · exact .inl (removeStale_peers (heq ▸ h))
  | update stream v addr nat metadata =>
    cases hvalid : validateReport addr nat metadata with
    | error e =>
      simp only [exec, update, hvalid] at h
      exact .inl h
    | ok normalized =>
      have hpeers := h
      simp only [exec, update, hvalid] at hpeers
      rcases lookup_insert_eq_some.1 hpeers with ⟨rfl, rfl⟩ | ⟨-, hold⟩
      · exact .inr ⟨stream, ⟨rfl, rfl⟩, reported_update hvalid⟩
      · exact .inl hold
  | detachSink v sink =>
    simp only [exec, detachSink] at h
    split at h <;> exact .inl h
  | _ => exact .inl h

theorem exec_sinks (h : (r.exec now op).1.sinks.lookup vip = some sink) :
    r.sinks.lookup vip = some sink ∨ op.Attaches vip sink := by
  cases op with
  | dropExpired v old =>
    rcases dropExpired_fst r now v old with heq | heq
    · exact .inl (heq ▸ h)
    · exact .inl (removeStale_sinks v now ▸ heq ▸ h)
  | update stream v addr nat metadata =>
    simp only [exec, update] at h
    split at h <;> exact .inl h
  | attachSink v s =>
    rcases lookup_insert_eq_some.1 h with ⟨rfl, rfl⟩ | ⟨-, hold⟩
    · exact .inr ⟨rfl, rfl⟩
    · exact .inl hold
  | detachSink v s =>
    simp only [exec, detachSink] at h
    split at h
    · exact .inl (lookup_erase_eq_some.1 h).2
    · exact .inl h
  | _ => exact .inl h

end SignalTables

example : validateReport "203.0.113.7" "symmetric" "" =
    .error (.publicAddrForm .missingPort) := by decide +kernel

end Hy2Link.Server
