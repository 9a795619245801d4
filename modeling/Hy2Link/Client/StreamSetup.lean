import Mathlib.Data.List.Perm.Subperm
import Mathlib.Data.List.Nodup
import Hy2Link.StreamFrames
import Hy2Link.Text

/-! # The streams of a direct path

The initiator of a direct path opens three streams, and the first frame on each
says what the stream is for.  QUIC shows the streams to the responder in any
order, so it goes by these declarations alone.
-/

namespace Hy2Link.Client

open Framing List

inductive StreamKind
  | bulk
  | crit
  | ctrl
deriving DecidableEq

namespace StreamKind

def text : StreamKind → List Char
  | .bulk => "bulk".toList
  | .crit => "crit".toList
  | .ctrl => "ctrl".toList

def ofText (s : List Char) : Option StreamKind :=
  [bulk, crit, ctrl].find? fun kind => kind.text = s

theorem ofText_text (kind : StreamKind) : ofText kind.text = some kind := by
  cases kind <;> rfl

end StreamKind

def streamKinds : List StreamKind := [.bulk, .crit, .ctrl]

theorem StreamKind.mem_streamKinds (kind : StreamKind) : kind ∈ streamKinds := by
  cases kind <;> decide

structure StreamDecl where
  type : List Char
  kind : List Char
deriving DecidableEq

/-- What `json.Marshal` makes of the declaration of a stream. -/
def declBytes (kind : StreamKind) : List UInt8 :=
  asciiBytes ("\x7b\"t\":\"stream\",\"k\":\"".toList ++ kind.text ++ "\"\x7d".toList)

/-- A JSON reader, of which only this is asked: it reads the declarations that
`json.Marshal` writes. -/
structure DeclReader where
  unmarshal : List UInt8 → Option StreamDecl
  unmarshal_declBytes : ∀ kind, unmarshal (declBytes kind) = some ⟨"stream".toList, kind.text⟩

/-- The number of a stream, the same at both ends. -/
abbrev StreamRef := Nat

structure Slots where
  bulk : Option StreamRef
  crit : Option StreamRef
  ctrl : Option StreamRef
deriving DecidableEq

variable {slots out : Slots}

namespace Slots

def empty : Slots := ⟨none, none, none⟩

def get (slots : Slots) : StreamKind → Option StreamRef
  | .bulk => slots.bulk
  | .crit => slots.crit
  | .ctrl => slots.ctrl

def set (slots : Slots) (kind : StreamKind) (s : StreamRef) : Slots :=
  match kind with
  | .bulk => { slots with bulk := some s }
  | .crit => { slots with crit := some s }
  | .ctrl => { slots with ctrl := some s }

@[simp] theorem get_empty (kind : StreamKind) : empty.get kind = none := by
  cases kind <;> rfl

theorem get_set (slots : Slots) (kind other : StreamKind) (s : StreamRef) :
    (slots.set kind s).get other = if other = kind then some s else slots.get other := by
  cases kind <;> cases other <;> rfl

theorem ext_get (h : ∀ kind, slots.get kind = slots'.get kind) : slots = slots' := by
  obtain ⟨bulk, crit, ctrl⟩ := slots
  obtain rfl : bulk = slots'.bulk := h .bulk
  obtain rfl : crit = slots'.crit := h .crit
  obtain rfl : ctrl = slots'.ctrl := h .ctrl
  rfl

def assign (slots : Slots) (streams : List (StreamKind × StreamRef)) : Slots :=
  streams.foldl (fun slots stream => slots.set stream.1 stream.2) slots

theorem get_assign_of_notMem (h : kind ∉ streams.map Prod.fst) :
    (slots.assign streams).get kind = slots.get kind := by
  induction streams generalizing slots with
  | nil => rfl
  | cons stream rest ih =>
    rw [map_cons, mem_cons, not_or] at h
    exact (ih h.2).trans (by rw [get_set, if_neg h.1])

theorem get_assign_of_mem (hnodup : (streams.map Prod.fst).Nodup) (h : (kind, s) ∈ streams) :
    (slots.assign streams).get kind = some s := by
  induction streams generalizing slots with
  | nil => cases h
  | cons stream rest ih =>
    rw [map_cons, nodup_cons] at hnodup
    rcases mem_cons.1 h with rfl | h
    · refine (get_assign_of_notMem hnodup.1).trans ?_
      rw [get_set, if_pos rfl]
    · exact ih hnodup.2 h

theorem isNone_get_assign (hlength : streams.length = 3) (hnodup : (streams.map Prod.fst).Nodup)
    (kind : StreamKind) : ((empty.assign streams).get kind).isNone = false := by
  have hperm : (streams.map Prod.fst).Perm streamKinds := by
    apply (hnodup.subperm fun kind _ => kind.mem_streamKinds).perm_of_length_le
    rw [length_map, hlength]
    rfl
  obtain ⟨⟨other, s⟩, hs, rfl⟩ := mem_map.1 (hperm.mem_iff.2 kind.mem_streamKinds)
  rw [get_assign_of_mem hnodup hs]
  rfl

end Slots

/-! ## The initiator -/

structure Opened where
  stream : StreamRef
  written : List UInt8

/-- The loop of `openStreams`; the connection numbers its streams. -/
def openLoop : StreamRef → List StreamKind → Slots → List Opened × Slots
  | _, [], slots => ([], slots)
  | next, kind :: rest, slots =>
    let opened : Opened := ⟨next, (writeFrameToStream [] (declBytes kind)).2⟩
    let (more, slots) := openLoop (next + 1) rest (slots.set kind next)
    (opened :: more, slots)

/-- `openStreams` on a connection that works. -/
def openStreams (next : StreamRef) : List Opened × Slots := openLoop next streamKinds .empty

/-! ## The responder -/

/-- A stream that `AcceptStream` has returned, with what arrives on it before the
deadline. -/
structure Accepted where
  stream : StreamRef
  incoming : Stream StreamFault

inductive SetupError
  | accept (i want : Nat)
  | declaration (i want : Nat) (e : FrameError StreamFault)
  | malformed (i want : Nat)
  | duplicate (kind : StreamKind)
  | unknown (kind : List Char)
  | missing (bulk crit ctrl : Bool)
deriving DecidableEq

/-- The texts, without the error that is wrapped. -/
def SetupError.text : SetupError → String
  | .accept i want => "接受第 " ++ toString i ++ "/" ++ toString want ++ " 条流失败"
  | .declaration i want _ => "读取第 " ++ toString i ++ "/" ++ toString want ++ " 条流的声明失败"
  | .malformed i want => "第 " ++ toString i ++ "/" ++ toString want ++ " 条流的声明非法"
  | .duplicate kind => String.ofList kind.text ++ " 流重复声明"
  | .unknown kind => "未知的流声明 " ++ Text.quoted kind
  | .missing bulk crit ctrl =>
    "缺少必需的流（bulk=" ++ toString bulk ++ " crit=" ++ toString crit ++ " ctrl=" ++
      toString ctrl ++ "）"

def declRoom : Nat := 512

/-- The loop of `acceptStreams`, with the streams that are still wanted. -/
def acceptLoop (reader : DeclReader) (want : Nat) :
    Nat → Slots → List Accepted → Except SetupError Slots
  | 0, slots, _ => .ok slots
  | left + 1, _, [] => .error (.accept (want - left) want)
  | left + 1, slots, s :: rest =>
    match (readFrame declRoom s.incoming).1 with
    | .error e => .error (.declaration (want - left) want e)
    | .ok pkt =>
      match reader.unmarshal pkt with
      | none => .error (.malformed (want - left) want)
      | some d =>
        if d.type ≠ "stream".toList then .error (.malformed (want - left) want)
        else
          match StreamKind.ofText d.kind with
          | none => .error (.unknown d.kind)
          | some kind =>
            if (slots.get kind).isSome then .error (.duplicate kind)
            else acceptLoop reader want left (slots.set kind s.stream) rest

def acceptStreams (reader : DeclReader) (arrivals : List Accepted) : Except SetupError Slots :=
  match acceptLoop reader streamKinds.length streamKinds.length .empty arrivals with
  | .error e => .error e
  | .ok slots =>
    if slots.bulk.isNone || slots.crit.isNone || slots.ctrl.isNone then
      .error (.missing slots.bulk.isSome slots.crit.isSome slots.ctrl.isSome)
    else .ok slots

/-- What a stream is declared for, if its first frame is a declaration. -/
def declared (reader : DeclReader) (s : Accepted) : Option StreamKind :=
  match (readFrame declRoom s.incoming).1 with
  | .error _ => none
  | .ok pkt =>
    ((reader.unmarshal pkt).filter fun d => d.type = "stream".toList).bind fun d =>
      StreamKind.ofText d.kind

theorem acceptLoop_cons_of_declared (h : declared reader s = some kind)
    (hfree : slots.get kind = none) :
    acceptLoop reader want (left + 1) slots (s :: rest) =
      acceptLoop reader want left (slots.set kind s.stream) rest := by
  unfold declared at h
  split at h
  · cases h
  next pkt hread =>
    rw [acceptLoop, hread]
    obtain ⟨d, hd, hkind⟩ := Option.bind_eq_some_iff.1 h
    obtain ⟨hunmarshal, htype⟩ := Option.filter_eq_some_iff.1 hd
    simp [hunmarshal, of_decide_eq_true htype, hkind, hfree]

theorem acceptLoop_cons_eq_ok (h : acceptLoop reader want (left + 1) slots (s :: rest) = .ok out) :
    ∃ kind, declared reader s = some kind ∧ slots.get kind = none := by
  rw [acceptLoop] at h
  split at h
  · cases h
  next pkt hread =>
    rw [declared, hread]
    split at h
    · cases h
    next d hunmarshal =>
      split at h
      · cases h
      next htype =>
        split at h
        · cases h
        next kind hkind =>
          split at h
          · cases h
          next hfree =>
            rw [not_not] at htype
            refine ⟨kind, ?_, by simpa using hfree⟩
            dsimp only
            rw [hunmarshal, Option.filter_some, if_pos (decide_eq_true htype)]
            exact hkind

/-- The loop succeeds on streams that are declared for different roles, all of
them free, and only on such. -/
theorem acceptLoop_eq_ok_iff :
    acceptLoop reader want left slots arrivals = .ok out ↔
      ∃ kinds : List StreamKind, kinds.length = left ∧ kinds.Nodup ∧
        (∀ kind ∈ kinds, slots.get kind = none) ∧ left ≤ arrivals.length ∧
        (arrivals.take left).map (declared reader) = kinds.map some ∧
        out = slots.assign (kinds.zip ((arrivals.take left).map Accepted.stream)) := by
  induction left generalizing slots arrivals with
  | zero =>
    simp only [acceptLoop, length_eq_zero_iff]
    constructor
    · intro h
      cases h
      exact ⟨[], by simp [Slots.assign]⟩
    · rintro ⟨kinds, rfl, -, -, -, -, rfl⟩
      rfl
  | succ left ih =>
    cases arrivals with
    | nil =>
      simp only [acceptLoop, reduceCtorEq, false_iff]
      rintro ⟨kinds, -, -, -, hlength, -⟩
      cases hlength
    | cons s rest =>
      constructor
      · intro h
        obtain ⟨kind, hkind, hfree⟩ := acceptLoop_cons_eq_ok h
        rw [acceptLoop_cons_of_declared hkind hfree, ih] at h
        obtain ⟨kinds, rfl, hnodup, hrest, hlength, hdeclared, rfl⟩ := h
        have hnew : kind ∉ kinds := by
          intro hmem
          have := hrest kind hmem
          rw [Slots.get_set, if_pos rfl] at this
          cases this
        refine ⟨kind :: kinds, rfl, nodup_cons.2 ⟨hnew, hnodup⟩, ?_, ?_, ?_, ?_⟩
        · rw [forall_mem_cons]
          refine ⟨hfree, fun other hother => ?_⟩
          have hget := hrest other hother
          have hne : other ≠ kind := fun heq => hnew (heq ▸ hother)
          rwa [Slots.get_set, if_neg hne] at hget
        · simpa using hlength
        · simp [hkind, hdeclared]
        · rfl
      · rintro ⟨kinds, hlength, hnodup, hfree, hle, hdeclared, rfl⟩
        cases kinds with
        | nil => cases hlength
        | cons kind kinds =>
          rw [nodup_cons] at hnodup
          rw [forall_mem_cons] at hfree
          simp only [take_succ_cons, map_cons, cons.injEq] at hdeclared
          rw [acceptLoop_cons_of_declared hdeclared.1 hfree.1, ih]
          refine ⟨kinds, by simpa using hlength, hnodup.2, fun other hother => ?_,
            by simpa using hle, hdeclared.2, rfl⟩
          have hne : other ≠ kind := fun heq => hnodup.1 (heq ▸ hother)
          rw [Slots.get_set, if_neg hne]
          exact hfree.2 other hother

theorem acceptStreams_eq_ok_iff :
    acceptStreams reader arrivals = .ok out ↔
      ∃ kinds : List StreamKind, kinds.length = 3 ∧ kinds.Nodup ∧ 3 ≤ arrivals.length ∧
        (arrivals.take 3).map (declared reader) = kinds.map some ∧
        out = Slots.empty.assign (kinds.zip ((arrivals.take 3).map Accepted.stream)) := by
  have hloop : acceptStreams reader arrivals = .ok out ↔
      acceptLoop reader 3 3 .empty arrivals = .ok out := by
    rw [acceptStreams, show streamKinds.length = 3 from rfl]
    cases hres : acceptLoop reader 3 3 .empty arrivals with
    | error e => rfl
    | ok slots =>
      obtain ⟨kinds, hlength, hnodup, -, hle, -, hslots⟩ := acceptLoop_eq_ok_iff.1 hres
      have hfilled (kind : StreamKind) : (slots.get kind).isNone = false := by
        rw [hslots]
        apply Slots.isNone_get_assign
        · simp [hlength, hle]
        · rwa [map_fst_zip (by simp; omega)]
      have hbulk : slots.bulk.isNone = false := hfilled .bulk
      have hcrit : slots.crit.isNone = false := hfilled .crit
      have hctrl : slots.ctrl.isNone = false := hfilled .ctrl
      simp only [hbulk, hcrit, hctrl, Bool.or_false, Bool.false_eq_true, if_false]
  rw [hloop, acceptLoop_eq_ok_iff]
  simp

/-! ## The handshake -/

section Handshake

variable (reader : DeclReader)

theorem declared_of_declBytes (h : s.incoming.bytes = frame (declBytes kind) ++ later) :
    declared reader s = some kind := by
  have hlength : (declBytes kind).length ≤ 26 := by cases kind <;> decide
  have hread := (readFrame_frame maxFrameSize declRoom (by omega) (by unfold maxFrameSize; omega)
    (by unfold declRoom; omega) h).1
  rw [declared, readFrame, hread]
  dsimp only
  rw [reader.unmarshal_declBytes, Option.filter_some, if_pos (decide_eq_true rfl)]
  exact kind.ofText_text

def roleNumber (next : StreamRef) : StreamKind → StreamRef
  | .bulk => next
  | .crit => next + 1
  | .ctrl => next + 2

def numberRole (next s : StreamRef) : StreamKind :=
  if s = next then .bulk else if s = next + 1 then .crit else .ctrl

theorem numberRole_roleNumber (next : StreamRef) (kind : StreamKind) :
    numberRole next (roleNumber next kind) = kind := by
  cases kind <;> simp [numberRole, roleNumber]

theorem openStreams_fst (next : StreamRef) :
    (openStreams next).1 =
      streamKinds.map fun kind => ⟨roleNumber next kind, frame (declBytes kind)⟩ := by
  have hwrite (kind : StreamKind) :
      (writeFrameToStream [] (declBytes kind)).2 = frame (declBytes kind) := by
    have hlength : (declBytes kind).length ≤ maxFrameSize := by cases kind <;> decide
    rw [writeFrameToStream_of_le hlength, nil_append]
  simp only [openStreams, openLoop, streamKinds, hwrite, map_cons, map_nil, roleNumber]

theorem get_openStreams (next : StreamRef) (kind : StreamKind) :
    (openStreams next).2.get kind = some (roleNumber next kind) := by
  cases kind <;> rfl

/-- **Every stream gets the role it was declared for.**  In whatever order the
three streams of `openStreams` become visible, and however their bytes are cut,
`acceptStreams` ends with the streams where the initiator has them.  A role that
is declared twice, a first frame that declares no role, or a stream that does not
come, make it fail. -/
theorem stream_handshake (next : StreamRef) (arrivals more : List Accepted)
    (horder : (arrivals.map Accepted.stream).Perm ((openStreams next).1.map Opened.stream))
    (harrived : ∀ s ∈ arrivals, ∀ opened ∈ (openStreams next).1, s.stream = opened.stream →
      ∃ later, s.incoming.bytes = opened.written ++ later) :
    acceptStreams reader (arrivals ++ more) = .ok (openStreams next).2 ∧
      ∀ accepted : List Accepted,
        (accepted.length < streamKinds.length ∨
          (∃ s ∈ accepted.take streamKinds.length, declared reader s = none) ∨
          ¬ ((accepted.take streamKinds.length).map (declared reader)).Nodup) →
        ∃ e, acceptStreams reader accepted = .error e := by
  rw [openStreams_fst] at horder harrived
  rw [map_map] at horder
  constructor
  · have hdeclared : ∀ s ∈ arrivals, declared reader s = some (numberRole next s.stream) := by
      intro s hs
      obtain ⟨kind, hkind, hnumber⟩ := mem_map.1 (horder.subset (mem_map_of_mem hs))
      obtain ⟨later, hbytes⟩ := harrived s hs _ (mem_map_of_mem hkind) hnumber.symm
      rw [← hnumber, declared_of_declBytes reader hbytes]
      exact congrArg some (numberRole_roleNumber next kind).symm
    have hkinds : ((arrivals.map Accepted.stream).map (numberRole next)).Perm streamKinds := by
      refine (horder.map (numberRole next)).trans (List.Perm.of_eq ?_)
      rw [map_map]
      exact (map_congr_left fun kind _ => numberRole_roleNumber next kind).trans
        (map_id _)
    have hnodup := hkinds.nodup_iff.2 (by decide)
    have hlength : arrivals.length = 3 := by simpa [streamKinds] using horder.length_eq
    rw [acceptStreams_eq_ok_iff, take_left' hlength]
    refine ⟨(arrivals.map Accepted.stream).map (numberRole next), hkinds.length_eq, hnodup,
      by simp [hlength], ?_, ?_⟩
    · rw [map_map, map_map]
      exact map_congr_left hdeclared
    · apply Slots.ext_get
      intro kind
      have hmem : roleNumber next kind ∈ arrivals.map Accepted.stream :=
        horder.mem_iff.2 (mem_map_of_mem kind.mem_streamKinds)
      rw [get_openStreams, Slots.get_assign_of_mem]
      · rwa [map_fst_zip (by simp)]
      · rw [← map_prod_right_eq_zip, mem_map]
        exact ⟨_, hmem, by rw [numberRole_roleNumber]⟩
  · intro accepted hbad
    cases hres : acceptStreams reader accepted with
    | error e => exact ⟨e, rfl⟩
    | ok out =>
      obtain ⟨kinds, -, hnodup, hle, hdeclared, -⟩ := acceptStreams_eq_ok_iff.1 hres
      rcases hbad with hshort | ⟨s, hs, hnone⟩ | hdup
      · exact absurd hle (Nat.not_le.2 hshort)
      · have hmem : none ∈ kinds.map some := by
          rw [← hdeclared, ← hnone]
          exact mem_map_of_mem hs
        simp at hmem
      · refine absurd ?_ hdup
        rw [show streamKinds.length = 3 from rfl, hdeclared]
        exact hnodup.map (Option.some_injective _)

end Handshake

/-- A reader that knows the three declarations and nothing else. -/
def exactReader : DeclReader where
  unmarshal pkt :=
    (streamKinds.find? fun kind => declBytes kind = pkt).map fun kind =>
      ⟨"stream".toList, kind.text⟩
  unmarshal_declBytes kind := by cases kind <;> decide

/-- The control stream comes first and in two pieces, the bulk stream with data
behind its declaration. -/
def threeArrivals : List Accepted :=
  [⟨2, ⟨[(frame (declBytes .ctrl)).take 3, (frame (declBytes .ctrl)).drop 3], some .timeout⟩⟩,
    ⟨0, ⟨[frame (declBytes .bulk) ++ [0, 0, 0, 0]], some .timeout⟩⟩,
    ⟨1, ⟨[frame (declBytes .crit)], some .timeout⟩⟩]

theorem stream_handshake_ctrl_first :
    acceptStreams exactReader threeArrivals = .ok ⟨some 0, some 1, some 2⟩ := by
  have hresult := (stream_handshake exactReader 0 threeArrivals [] ?_ ?_).1
  · rwa [append_nil] at hresult
  · rw [openStreams_fst]
    decide
  · intro s hs opened hopened hnumber
    rw [openStreams_fst] at hopened
    have hcut : ∀ s ∈ threeArrivals, ∀ kind ∈ streamKinds, s.stream = roleNumber 0 kind →
        ∃ later ∈ [[], [0, 0, 0, 0]], s.incoming.bytes = frame (declBytes kind) ++ later := by
      decide
    obtain ⟨kind, hkind, rfl⟩ := mem_map.1 hopened
    obtain ⟨later, -, hbytes⟩ := hcut s hs kind hkind hnumber
    exact ⟨later, hbytes⟩

end Hy2Link.Client
