import Hy2Link.Server.DataPlane
import Hy2Link.TextRules

/-! # Registration frames

The first stream of a plane connection carries four lines: the connection
type, the mode, the username and the virtual address.  The client joins them;
the server reads at most 512 bytes, cuts them at the line feeds and trims each
line.
-/

namespace Hy2Link

open Text Server

namespace Server

def Plane.connType : Plane → List Char
  | .data => "data".toList
  | .dataMatch => "data-match".toList
  | .dataGameTCP => "data-game-tcp".toList
  | .dataGame => "data-game".toList
  | .ctrl => "ctrl".toList

def maxRegFrameSize : Nat := 512

inductive FrameError
  | empty
  | tooLarge
deriving DecidableEq

def FrameError.text : FrameError → String
  | .empty => "空注册帧"
  | .tooLarge => "注册帧过大: >512 字节"

/-- The stream delivers the whole frame, up to one byte more than fits. -/
def readRegFrame (data : List Char) : Except FrameError (List Char) :=
  if byteLength data = 0 then .error .empty
  else if maxRegFrameSize < byteLength data then .error .tooLarge
  else .ok (trimSpace data)

/-- Why a connection is closed before its plane is set up. -/
inductive RegRefusal
  | noRegister
  | invalidRegister
  | unauthorized
deriving DecidableEq

def RegRefusal.text : RegRefusal → String
  | .noRegister => "no register"
  | .invalidRegister => "invalid register"
  | .unauthorized => "unauthorized"

def dataPlaneOf (connType : List Char) : Option Plane :=
  [Plane.data, .dataMatch, .dataGameTCP, .dataGame].find? fun plane => plane.connType = connType

/-- The frame with its address as one.  Another text is no key of the lease
table, and `AuthorizeDataPlane` refuses it. -/
def registration (plane : Option Plane) (peerIP : String) (username vip : List Char) :
    Except RegRefusal Registration :=
  match parseIPv4 (trimSpace vip) with
  | none => .error .unauthorized
  | some v => .ok ⟨plane, peerIP, String.ofList (trimSpace username), v⟩

/-- `handleDataConn` up to the call of `authorizePlane`. -/
def readDataConn (peerIP : String) (data : List Char) : Except RegRefusal Registration :=
  match readRegFrame data with
  | .error _ => .error .noRegister
  | .ok regData =>
    match splitN '\n' 4 regData with
    | [connType, _, username, vip] =>
      registration (dataPlaneOf (trimSpace connType)) peerIP username vip
    | _ => .error .invalidRegister

/-- `handleCtrlConn` up to the call of `authorizePlane`. -/
def readCtrlConn (peerIP : String) (data : List Char) : Except RegRefusal Registration :=
  match readRegFrame data with
  | .error _ => .error .noRegister
  | .ok regData =>
    match splitN '\n' 4 regData with
    | [connType, _, username, vip] =>
      if connType ≠ "ctrl".toList then .error .invalidRegister
      else registration (some .ctrl) peerIP username vip
    | _ => .error .invalidRegister

/-- The protocol of the connection decides who reads the frame. -/
def readRegistration (plane : Plane) (peerIP : String) (data : List Char) :
    Except RegRefusal Registration :=
  match plane with
  | .ctrl => readCtrlConn peerIP data
  | _ => readDataConn peerIP data

end Server

namespace Client

def clientMode (username : List Char) : List Char :=
  if username ≠ [] then "multi".toList else "single".toList

/-- What the client writes to the first stream of a plane connection. -/
def regFrame (plane : Plane) (username : List Char) (vip : IPv4) : List Char :=
  plane.connType ++ '\n' :: (clientMode username ++ '\n' :: (username ++ '\n' :: dotted vip))

def authString (username password version : List Char) : List Char :=
  username ++ ':' :: password ++ versionMarker ++ version

end Client

/-! ## Reading what the client writes -/

section

open Client

theorem connType_tight (plane : Plane) : Tight plane.connType := by
  rw [← trimSpace_eq_self_iff]
  cases plane <;> decide +kernel

theorem dataPlaneOf_connType (hplane : plane ≠ .ctrl) :
    dataPlaneOf plane.connType = some plane := by
  cases plane with
  | ctrl => exact absurd rfl hplane
  | _ => decide +kernel

theorem regFrame_tight : Tight (regFrame plane username vip) := by
  have htype : plane.connType ≠ [] := by cases plane <;> decide +kernel
  have hvip : dotted vip ≠ [] := by simp [dotted]
  have htight := (connType_tight plane).append (tight_dotted vip) htype hvip
    ('\n' :: (clientMode username ++ '\n' :: (username ++ ['\n'])))
  simpa [regFrame] using htight

theorem splitN_regFrame (hline : '\n' ∉ username) :
    splitN '\n' 4 (regFrame plane username vip) =
      [plane.connType, clientMode username, username, dotted vip] := by
  have htype : '\n' ∉ plane.connType := by cases plane <;> decide +kernel
  have hmode : '\n' ∉ clientMode username := by
    unfold clientMode
    split <;> decide +kernel
  rw [regFrame, splitN_append 2 htype, splitN_append 1 hmode, splitN_append 0 hline]
  rfl

theorem readRegistration_regFrame (hline : '\n' ∉ username) (htight : Tight username)
    (hsize : byteLength (regFrame plane username vip) ≤ maxRegFrameSize) :
    readRegistration plane peerIP (regFrame plane username vip) =
      .ok ⟨some plane, peerIP, String.ofList username, vip⟩ := by
  have hsome : byteLength (regFrame plane username vip) ≠ 0 := by
    rw [regFrame, byteLength_append]
    have htype : byteLength plane.connType ≠ 0 := by cases plane <;> decide +kernel
    omega
  have hread : readRegFrame (regFrame plane username vip) = .ok (regFrame plane username vip) := by
    rw [readRegFrame, if_neg hsome, if_neg (Nat.not_lt.2 hsize), regFrame_tight.trimSpace]
  have hfields : registration (some plane) peerIP username (dotted vip) =
      .ok ⟨some plane, peerIP, String.ofList username, vip⟩ := by
    rw [registration, trimSpace_dotted, parseIPv4_dotted, htight.trimSpace]
  unfold readRegistration
  split
  · rw [readCtrlConn, hread]
    dsimp only
    rw [splitN_regFrame hline]
    exact hfields
  next hctrl =>
    rw [readDataConn, hread]
    dsimp only
    rw [splitN_regFrame hline]
    dsimp only
    rw [(connType_tight plane).trimSpace, dataPlaneOf_connType hctrl]
    exact hfields

theorem fits_of_readRegFrame (h : readRegFrame data = .ok regData) :
    byteLength data ≤ maxRegFrameSize := by
  unfold readRegFrame at h
  split at h
  · cases h
  · split at h
    · cases h
    next hsize => exact Nat.not_lt.1 hsize

theorem username_of_registration (hname : '\n' ∉ name)
    (h : registration plane peerIP name vip = .ok reg) :
    '\n' ∉ reg.username.toList ∧ Tight reg.username.toList := by
  unfold registration at h
  split at h <;> cases h
  · rw [String.toList_ofList]
    exact ⟨fun hmem => hname (mem_of_mem_trimSpace hmem), tight_trimSpace name⟩

theorem third_line (h : splitN '\n' 4 s = [connType, mode, name, vip]) : '\n' ∉ name := by
  apply @not_mem_of_mem_splitN '\n' 4 s
  rw [h]
  simp

theorem of_readRegistration (h : readRegistration plane peerIP data = .ok reg) :
    '\n' ∉ reg.username.toList ∧ Tight reg.username.toList ∧
      byteLength data ≤ maxRegFrameSize := by
  unfold readRegistration at h
  split at h
  · unfold readCtrlConn at h
    split at h
    · cases h
    next regData hframe =>
      split at h
      next connType mode name vip hpieces =>
        split at h
        · cases h
        · obtain ⟨hline, htight⟩ := username_of_registration (third_line hpieces) h
          exact ⟨hline, htight, fits_of_readRegFrame hframe⟩
      · cases h
  · unfold readDataConn at h
    split at h
    · cases h
    next regData hframe =>
      split at h
      next connType mode name vip hpieces =>
        obtain ⟨hline, htight⟩ := username_of_registration (third_line hpieces) h
        exact ⟨hline, htight, fits_of_readRegFrame hframe⟩
      · cases h

end

end Hy2Link
