import Mathlib.Data.Finset.Sort
import Hy2Link.Interleaving.Run
import Hy2Link.Client.PeerTable

/-! # The laws of the quality table

What holds in every sequence of calls: the table stays within its bound, no
expired record is handed out, a record keeps its dates as long as nothing ends
it and lets one forced retry through, and what is dropped for room is a record
that was touched least recently.
-/

namespace Hy2Link.Client.Quality

open Interleaving PeerTable Option Finmap

namespace PeerTable

variable {t t' : PeerTable}

/-! ## The bound -/

theorem access_m (t : PeerTable) (now : Time) :
    (t.access now).m = t.m ∨ (t.access now).m = t.m.filter fun _ q => q.fresh now := by
  unfold access
  dsimp only
  split
  · exact .inr rfl
  · exact .inl rfl

theorem access_keys_subset (t : PeerTable) (now : Time) : (t.access now).m.keys ⊆ t.m.keys := by
  rcases access_m t now with h | h
  · rw [h]
  · rw [h]
    exact keys_filter_subset

theorem access_lookup (hq : t.m.lookup vip = some q) (hfresh : q.fresh now = true) :
    (t.access now).m.lookup vip = some q := by
  rcases access_m t now with h | h
  · rw [h]
    exact hq
  · rw [h]
    exact lookup_filter_eq_some.2 ⟨hq, hfresh⟩

theorem victim_eq_some (h : t.victim order incoming = some vip) :
    vip ∈ t.m ∧ incoming ∉ t.m ∧ ∀ other ∈ t.m, t.lastTouch vip ≤ t.lastTouch other := by
  unfold victim at h
  split at h
  · cases h
  split at h
  · cases h
  next hfull hnew =>
    refine ⟨(order.complete t.m vip).1 (List.argmin_mem h), ?_, ?_⟩
    · intro hmem
      exact hnew (lookup_isSome.2 hmem)
    · intro other hother
      exact List.le_of_mem_argmin ((order.complete t.m other).2 hother) h

theorem victim_eq_none (h : t.victim order incoming = none) :
    t.m.keys.card < peerTableMaxEntries ∨ incoming ∈ t.m := by
  unfold victim at h
  split at h
  next hroom => exact .inl hroom
  split at h
  next hold => exact .inr (lookup_isSome.1 hold)
  next hfull hnew =>
    -- an empty iteration belongs to an empty table, which is not full
    have hnil : order.keys t.m = [] := List.argmin_eq_none.1 h
    have hempty : t.m.keys = ∅ := by
      refine Finset.eq_empty_of_forall_notMem fun k hk => ?_
      have := (order.complete t.m k).2 (mem_keys.1 hk)
      rw [hnil] at this
      cases this
    rw [hempty] at hfull
    exact absurd (by decide) hfull

theorem card_evict_insert (order : Iteration) (incoming : IPv4)
    (hcard : t.m.keys.card ≤ peerTableMaxEntries) :
    ((t.evictIfFullLocked order incoming).m.insert incoming q).keys.card ≤
      peerTableMaxEntries := by
  rw [keys_insert]
  unfold evictIfFullLocked
  cases hvictim : t.victim order incoming with
  | none =>
    rcases victim_eq_none hvictim with hroom | hold
    · exact (Finset.card_insert_le _ _).trans hroom
    · dsimp only
      rwa [Finset.insert_eq_of_mem (mem_keys.2 hold)]
  | some old =>
    have hmem : old ∈ t.m.keys := mem_keys.2 (victim_eq_some hvictim).1
    have hpos : 0 < t.m.keys.card := Finset.card_pos.2 ⟨old, hmem⟩
    have herase : (t.m.keys.erase old).card = t.m.keys.card - 1 := Finset.card_erase_of_mem hmem
    refine (Finset.card_insert_le _ _).trans ?_
    dsimp only
    rw [keys_erase, herase]
    omega

theorem card_insert_of_lookup (hq : t.m.lookup vip = some q) (q' : PeerQuality) :
    (t.m.insert vip q').keys.card = t.m.keys.card := by
  rw [keys_insert, Finset.insert_eq_of_mem (mem_keys_iff.2 ⟨q, hq⟩)]

theorem card_call (now : Time) (call : Call) (hcard : t.m.keys.card ≤ peerTableMaxEntries) :
    (t.call now call).m.keys.card ≤ peerTableMaxEntries := by
  have haccess : (t.access now).m.keys.card ≤ peerTableMaxEntries :=
    (Finset.card_le_card (access_keys_subset t now)).trans hcard
  have hlookup (vip : IPv4) : (t.lookup now vip).1.m.keys.card ≤ peerTableMaxEntries := by
    unfold lookup
    dsimp only
    split
    · exact haccess
    next q hq =>
      dsimp only
      rw [card_insert_of_lookup (filter_eq_some_iff.1 hq).1]
      exact haccess
  cases call with
  | record order vip o =>
    simp only [call, record]
    split
    next old hold =>
      dsimp only
      rw [card_insert_of_lookup (filter_eq_some_iff.1 hold).1]
      exact haccess
    next => exact card_evict_insert order vip haccess
  | lookup vip | unpunchable vip => exact hlookup vip
  | peek vip => exact hcard
  | tryConsumeForcedRetry vip =>
    simp only [call, tryConsumeForcedRetry]
    split
    · exact hcard
    next q hq =>
      split
      · exact hcard
      · dsimp only
        rw [card_insert_of_lookup (filter_eq_some_iff.1 hq).1]
        exact hcard

/-! ## One record -/

/-- The same record later on: its conclusion and its dates have stayed, and a
chance that was used is not given back. -/
structure Continues (q q' : PeerQuality) : Prop where
  kind : q'.kind = q.kind
  «at» : q'.at = q.at
  expire : q'.expire = q.expire
  used : q.forcedRetryUsed = true → q'.forcedRetryUsed = true

theorem Continues.refl (q : PeerQuality) : Continues q q := ⟨rfl, rfl, rfl, id⟩

theorem Continues.trans (h : Continues q q') (h' : Continues q' q'') : Continues q q'' :=
  ⟨h'.kind.trans h.kind, h'.at.trans h.at, h'.expire.trans h.expire, fun hu => h'.used (h.used hu)⟩

/-- The call comes before the record of `vip` expires, is no record of another
conclusion, and does not drop it for room. -/
structure Undisturbed (vip : IPv4) (q : PeerQuality) (t : PeerTable) (call : Time × Call) :
    Prop where
  unexpired : call.1 < q.expire
  sameKind : ∀ order o, call.2 = .record order vip o → o.kind = q.kind
  kept : t.evicted call.1 call.2 ≠ some vip

theorem Undisturbed.congr {call : Time × Call} (h : Undisturbed vip q t call)
    (hq : Continues q q') : Undisturbed vip q' t call :=
  ⟨hq.expire ▸ h.unexpired, fun order o ho => (h.sameKind order o ho).trans hq.kind.symm, h.kept⟩

section

variable (hq : t.m.lookup vip = some q)
include hq

theorem lookup_continues (hfresh : q.fresh now = true)
    (other : IPv4) :
    ∃ q', (t.lookup now other).1.m.lookup vip = some q' ∧ Continues q q' := by
  have haccess := access_lookup hq hfresh
  unfold lookup
  dsimp only
  split
  next => exact ⟨q, haccess, .refl q⟩
  next found hfound =>
    by_cases hvip : vip = other
    · subst hvip
      rw [haccess] at hfound
      obtain rfl := some.inj (filter_eq_some_iff.1 hfound).1
      exact ⟨_, lookup_insert _, ⟨rfl, rfl, rfl, id⟩⟩
    · exact ⟨q, (lookup_insert_of_ne _ hvip).trans haccess, .refl q⟩

theorem evict_lookup (hkept : t.victim order incoming ≠ some vip) :
    (t.evictIfFullLocked order incoming).m.lookup vip = some q := by
  unfold evictIfFullLocked
  cases hvictim : t.victim order incoming with
  | none => exact hq
  | some old =>
    have hne : vip ≠ old := by
      rintro rfl
      exact hkept hvictim
    exact (lookup_erase_ne hne).trans hq

theorem call_continues {call : Time × Call}
    (h : Undisturbed vip q t call) :
    ∃ q', (t.call call.1 call.2).m.lookup vip = some q' ∧ Continues q q' := by
  obtain ⟨now, call⟩ := call
  obtain ⟨hunexpired, hsame, hkept⟩ := h
  have hfresh : q.fresh now = true := decide_eq_true hunexpired
  have haccess := access_lookup hq hfresh
  cases call with
  | record order other o =>
    simp only [call, record]
    by_cases hvip : vip = other
    · subst hvip
      have hrepeats : q.repeats now o = true := by
        simp [PeerQuality.repeats, hfresh, (hsame order o rfl)]
      rw [haccess, filter_some_pos hrepeats]
      exact ⟨_, lookup_insert _, ⟨rfl, rfl, rfl, id⟩⟩
    · split
      next old hold => exact ⟨q, (lookup_insert_of_ne _ hvip).trans haccess, .refl q⟩
      next hnone =>
        have hvictim : (t.access now).victim order other ≠ some vip := by
          simpa [evicted, hnone] using hkept
        exact ⟨q, (lookup_insert_of_ne _ hvip).trans (evict_lookup haccess hvictim), .refl q⟩
  | lookup other | unpunchable other => exact lookup_continues hq hfresh other
  | peek other => exact ⟨q, hq, .refl q⟩
  | tryConsumeForcedRetry other =>
    simp only [call, tryConsumeForcedRetry]
    split
    next => exact ⟨q, hq, .refl q⟩
    next found hfound =>
      split
      · exact ⟨q, hq, .refl q⟩
      · by_cases hvip : vip = other
        · subst hvip
          rw [hq] at hfound
          obtain rfl := some.inj (filter_eq_some_iff.1 hfound).1
          exact ⟨_, lookup_insert _, ⟨rfl, rfl, rfl, fun _ => rfl⟩⟩
        · exact ⟨q, (lookup_insert_of_ne _ hvip).trans hq, .refl q⟩

theorem run_continues
    (hcalls : Along step (Undisturbed vip q) t calls) (hrun : run step t calls = some t') :
    ∃ q', t'.m.lookup vip = some q' ∧ Continues q q' := by
  refine @run_invariant _ _ step (Undisturbed vip q)
    (fun s => ∃ q', s.m.lookup vip = some q' ∧ Continues q q') ?_ t t' calls
    ⟨q, hq, .refl q⟩ hcalls hrun
  rintro s call next ⟨q', hq', hcontinues⟩ hcall hnext
  obtain rfl := some.inj hnext
  obtain ⟨q'', hq'', hnext⟩ := call_continues hq' (hcall.congr hcontinues)
  exact ⟨q'', hq'', hcontinues.trans hnext⟩

end

/-! ## The forced retry -/

/-- A call of `tryConsumeForcedRetry` sets the flag of the record. -/
def Spends (t : PeerTable) (now : Time) (vip : IPv4) : Prop :=
  ∃ q q', t.m.lookup vip = some q ∧ q.forcedRetryUsed = false ∧
    (t.tryConsumeForcedRetry now vip).1.m.lookup vip = some q' ∧ q'.forcedRetryUsed = true

section

variable (hq : t.m.lookup vip = some q)
include hq

theorem kind_of_spends (h : t.Spends now vip) : q.kind = .unpunchable := by
  obtain ⟨q₁, q', hq₁, hunused, hq', hused⟩ := h
  obtain rfl := some.inj (hq.symm.trans hq₁)
  unfold tryConsumeForcedRetry at hq'
  split at hq'
  next =>
    obtain rfl := some.inj (hq.symm.trans hq')
    simp [hunused] at hused
  next found hfound =>
    rw [hq] at hfound
    obtain ⟨hsome, hkind⟩ := filter_eq_some_iff.1 hfound
    obtain rfl := some.inj hsome
    simp only [Bool.and_eq_true, decide_eq_true_eq] at hkind
    exact hkind.1

theorem tryConsumeForcedRetry_used (hkind : q.kind = .unpunchable)
    (hfresh : now < q.expire) (hused : q.forcedRetryUsed = true) :
    t.tryConsumeForcedRetry now vip = (t, false) := by
  have hfilter : ((t.m.lookup vip).filter fun q => q.kind = .unpunchable && q.fresh now) =
      some q := by
    rw [hq, filter_some_pos]
    simp [hkind, PeerQuality.fresh, hfresh]
  unfold tryConsumeForcedRetry
  rw [hfilter]
  exact if_pos hused

/-- After a call that has used the chance of a record, every other one is
refused while the record lasts. -/
theorem refused_after_spent
    (hcalls : Along step (Undisturbed vip q) t
      (first ++ (now, .tryConsumeForcedRetry vip) :: middle ++
        [(again, .tryConsumeForcedRetry vip)])) (hfirst : run step t first = some t₁)
    (hspent : t₁.Spends now vip)
    (hmiddle : run step t₁ ((now, .tryConsumeForcedRetry vip) :: middle) = some t₂) :
    t₂.tryConsumeForcedRetry again vip = (t₂, false) := by
  rw [List.append_assoc, along_append] at hcalls
  obtain ⟨hbefore, hrest⟩ := hcalls
  have hrest := hrest t₁ hfirst
  rw [along_append] at hrest
  obtain ⟨hduring, hlast⟩ := hrest
  have hlast := (hlast t₂ hmiddle).1
  -- the record as the chance is used
  obtain ⟨q₁, hq₁, hcontinues⟩ := run_continues hq hbefore hfirst
  have hkind := kind_of_spends hq₁ hspent
  obtain ⟨-, q₂, -, -, hq₂, hused⟩ := hspent
  obtain ⟨q₂', hq₂', hcall⟩ := call_continues hq₁ (hduring.1.congr hcontinues)
  obtain rfl : q₂ = q₂' := some.inj (hq₂.symm.trans hq₂')
  -- and what it has become when the other call comes
  obtain ⟨next, hnext, hrun⟩ := run_cons_eq_some.1 hmiddle
  obtain rfl := some.inj hnext
  have hsince := hcontinues.trans hcall
  obtain ⟨q₃, hq₃, hlater⟩ :=
    run_continues hq₂ ((hduring.2 _ rfl).imp fun s c hc => hc.congr hsince) hrun
  have hend := hsince.trans hlater
  refine tryConsumeForcedRetry_used hq₃ ?_ (hend.expire ▸ hlast.unexpired) (hlater.used hused)
  rw [hlater.kind, hcall.kind, hkind]

end

theorem not_spends_of_refused (h : t.tryConsumeForcedRetry now vip = (t, false)) :
    ¬ t.Spends now vip := by
  rintro ⟨q, q', hq, hunused, hq', hused⟩
  rw [h] at hq'
  obtain rfl := some.inj (hq.symm.trans hq')
  simp [hunused] at hused

/-! ## What is handed out and what is dropped -/

theorem fresh_of_peek (h : t.peek now vip = some q) : now < q.expire :=
  of_decide_eq_true (filter_eq_some_iff.1 h).2

theorem fresh_of_lookup (h : (t.lookup now vip).2 = some q) : now < q.expire := by
  unfold lookup at h
  dsimp only at h
  split at h <;> cases h
  next found hfound =>
    exact of_decide_eq_true (filter_eq_some_iff.1 hfound).2

theorem lastTouch_of_lookup (hq : t.m.lookup vip = some q) : t.lastTouch vip = q.lastTouch := by
  simp [lastTouch, hq]

/-- What a call drops for room is gone, and was touched least recently. -/
theorem evicted_oldest {call : Call} (h : t.evicted now call = some vip) :
    (t.call now call).m.lookup vip = none ∧
      ∃ q, (t.access now).m.lookup vip = some q ∧
        ∀ other q', (t.access now).m.lookup other = some q' → q.lastTouch ≤ q'.lastTouch := by
  cases call with
  | record order incoming o =>
    simp only [evicted] at h
    split at h
    · cases h
    next hnone =>
      obtain ⟨hmem, hnew, holdest⟩ := victim_eq_some h
      obtain ⟨q, hq⟩ := mem_iff.1 hmem
      constructor
      · have hne : vip ≠ incoming := by
          rintro rfl
          exact hnew hmem
        simp only [call, record, not_isSome_iff_eq_none.1 hnone, evictIfFullLocked, h]
        rw [lookup_insert_of_ne _ hne, lookup_erase]
      · refine ⟨q, hq, fun other q' hq' => ?_⟩
        have hle := holdest other (mem_of_lookup_eq_some hq')
        rwa [lastTouch_of_lookup hq, lastTouch_of_lookup hq'] at hle
  | _ => cases h

/-- **The laws of the quality table**, after every sequence of calls. -/
theorem quality_table_laws {calls : List (Time × Call)} {t : PeerTable}
    (hrun : run step newPeerTable calls = some t) :
    -- the bound
    t.m.keys.card ≤ peerTableMaxEntries ∧
    -- nothing that has expired is handed out
    (∀ now vip q, (t.lookup now vip).2 = some q ∨ t.peek now vip = some q → now < q.expire) ∧
    -- a record keeps its dates as long as nothing ends it
    (∀ vip q, t.m.lookup vip = some q → ∀ later t',
      Along step (Undisturbed vip q) t later → run step t later = some t' →
      ∃ q', t'.m.lookup vip = some q' ∧ q'.at = q.at ∧ q'.expire = q.expire) ∧
    -- and its chance is used by one call at most
    (∀ vip q, t.m.lookup vip = some q → ∀ first now middle again t₁ t₂,
      Along step (Undisturbed vip q) t (first ++ (now, .tryConsumeForcedRetry vip) :: middle ++
        [(again, .tryConsumeForcedRetry vip)]) →
      run step t first = some t₁ → t₁.Spends now vip →
      run step t₁ ((now, .tryConsumeForcedRetry vip) :: middle) = some t₂ →
      (t₂.tryConsumeForcedRetry again vip).2 = false ∧ ¬ t₂.Spends again vip) ∧
    -- what is dropped for room was touched least recently
    (∀ now call vip, t.evicted now call = some vip →
      (t.call now call).m.lookup vip = none ∧
        ∃ q, (t.access now).m.lookup vip = some q ∧
          ∀ other q', (t.access now).m.lookup other = some q' → q.lastTouch ≤ q'.lastTouch) := by
  refine ⟨?_, ?_, ?_, ?_, fun now call vip h => evicted_oldest h⟩
  · refine @run_stable _ _ step (fun s => s.m.keys.card ≤ peerTableMaxEntries) ?_ _ _ _ ?_ hrun
    · rintro s ⟨now, call⟩ next hcard hnext
      obtain rfl := some.inj hnext
      exact card_call now call hcard
    · decide
  · rintro now vip q (hq | hq)
    · exact fresh_of_lookup hq
    · exact fresh_of_peek hq
  · intro vip q hq later t' hlater hrun'
    obtain ⟨q', hq', hcontinues⟩ := run_continues hq hlater hrun'
    exact ⟨q', hq', hcontinues.at, hcontinues.expire⟩
  · intro vip q hq first now middle again t₁ t₂ hcalls hfirst hspent hmiddle
    have hrefused := refused_after_spent hq hcalls hfirst hspent hmiddle
    exact ⟨congrArg Prod.snd hrefused, not_spends_of_refused hrefused⟩

end PeerTable

/-- The entries by their addresses. -/
def ascending : Iteration where
  keys m := (m.keys.image BitVec.toNat).sort.map (BitVec.ofNat 32)
  complete m vip := by
    simp [mem_keys]

def symmetricPeer : IPv4 := 0x0a000003

/-- A peer behind a symmetric NAT is recorded. -/
def recordedOnce : List (Time × Call) :=
  [(second, .record ascending symmetricPeer
    ⟨.unpunchable, Punch.Reason.natSymmetric.code, 0, 0, "", ""⟩)]

def triedOnce : List (Time × Call) :=
  [(minute, .tryConsumeForcedRetry symmetricPeer), (minute, .unpunchable symmetricPeer)]

/-- The peer is tried once more, and not a second time. -/
theorem quality_table_laws_tried_once :
    ∃ t q t', run step newPeerTable recordedOnce = some t ∧
      t.m.lookup symmetricPeer = some q ∧ run step t triedOnce = some t' ∧
      (t'.tryConsumeForcedRetry (2 * minute) symmetricPeer).2 = false ∧
      ∃ q', t'.m.lookup symmetricPeer = some q' ∧ q'.expire = q.expire := by
  obtain ⟨t, hrun, q, hq, hexpire, hunused, q', hq', hused⟩ : ∃ t,
      run step newPeerTable recordedOnce = some t ∧
      ∃ q, t.m.lookup symmetricPeer = some q ∧ 2 * minute < q.expire ∧ q.forcedRetryUsed = false ∧
      ∃ q', (t.tryConsumeForcedRetry minute symmetricPeer).1.m.lookup symmetricPeer = some q' ∧
        q'.forcedRetryUsed = true := by
    decide +kernel
  have hcalls : Along step (PeerTable.Undisturbed symmetricPeer q) t
      (triedOnce ++ [(2 * minute, .tryConsumeForcedRetry symmetricPeer)]) := by
    refine along_of_forall fun t call hcall => ?_
    simp only [triedOnce, List.cons_append, List.nil_append, List.mem_cons, List.not_mem_nil,
      or_false] at hcall
    rcases hcall with rfl | rfl | rfl
    · exact ⟨(by decide : minute < 2 * minute).trans hexpire, nofun, nofun⟩
    · exact ⟨(by decide : minute < 2 * minute).trans hexpire, nofun, nofun⟩
    · exact ⟨hexpire, nofun, nofun⟩
  obtain ⟨-, -, hkeeps, honce, -⟩ := quality_table_laws hrun
  obtain ⟨q₂, hq₂, -, hexpire₂⟩ := hkeeps _ q hq triedOnce _ (along_append.1 hcalls).1 rfl
  exact ⟨t, q, _, hrun, hq, rfl, (honce _ q hq [] minute [(minute, .unpunchable symmetricPeer)]
    (2 * minute) t _ hcalls rfl ⟨q, q', hq, hunused, hq', hused⟩ rfl).1, q₂, hq₂, hexpire₂⟩

end Hy2Link.Client.Quality
