import Hy2Link.Admin.Panel
import Hy2Link.Interleaving.History
import Hy2Link.Limits.SlidingWindow

/-! # Failed logins in a window

The limiter lets a login through while fewer than five failures of its address
are recorded, and a failure is recorded two calls later; logins that are on
their way are not counted.  When the table is full, the failures of a new
address are not recorded at all.  Where neither happens, the failures between
two resets are limited in every window.
-/

namespace Hy2Link.Admin

open Interleaving SlidingWindow LoginLimiter List

/-- The times of the failed verifications of an address since its last reset,
brought up to date. -/
def failuresSince (ip : String) (cfg : PanelConfig) (action : PanelAction) (times : List Time) :
    List Time :=
  match action with
  | .step n _ =>
    match cfg.threads.lookup n with
    | some (.login (.verify ip' username password)) =>
      if ip' = ip && !cfg.shared.users.verifyAdmin username password then
        times ++ [cfg.shared.now]
      else times
    | some (.login (.reset ip' _ _)) => if ip' = ip then [] else times
    | some (.change (.reset ip' _)) => if ip' = ip then [] else times
    | _ => times
  | _ => times

/-- At the end of the run the failures since the last reset are limited. -/
def FailuresLimited (setup : PanelSetup) (ip : String) (actions : List PanelAction) : Prop :=
  ∀ cfg times,
    run (recording setup.next (failuresSince ip)) (setup.initial, []) actions = some (cfg, times) →
      Limited loginWindow maxLoginAttempts times

/-- A login of the address that has been let through and not been verified. -/
def PanelLocal.verifying (ip : String) : PanelLocal → Bool
  | .login (.verify ip' _ _) => ip' = ip
  | _ => false

/-- A login of the address that has failed and not been recorded. -/
def PanelLocal.failing (ip : String) : PanelLocal → Bool
  | .login (.recordFail ip') => ip' = ip
  | _ => false

def verifyingCount (ip : String) (threads : Table Nat PanelLocal) : Nat :=
  threads.countEntries fun _ l => l.verifying ip

def failingCount (ip : String) (threads : Table Nat PanelLocal) : Nat :=
  threads.countEntries fun _ l => l.failing ip

/-- A login of the address is let through only if the recorded failures and
the logins on their way leave room for it, and a failure finds room in the
table. -/
def countsLogins (ip : String) (cfg : PanelConfig) : PanelAction → Bool
  | .step n _ =>
    match cfg.threads.lookup n with
    | some (.login (.allow ip' (some _))) =>
      ip' ≠ ip || maxLoginAttempts ≤ cfg.shared.limiter.live ip cfg.shared.now ||
        cfg.shared.limiter.live ip cfg.shared.now + verifyingCount ip cfg.threads +
          failingCount ip cfg.threads < maxLoginAttempts
    | some (.login (.recordFail ip')) => ip' ≠ ip || cfg.shared.limiter.hasRoom ip cfg.shared.now
    | _ => true
  | _ => true

/-! ## What the limiter knows -/

namespace LoginLimiter

variable {l l' : LoginLimiter}

/-- Up to `failing` of them, the recent failures are counted in the entry of
the address, and those after its last time are not in it. -/
def Records (l : LoginLimiter) (ip : String) (now : Time) (times : List Time) (failing : Nat) :
    Prop :=
  match l.attempts.lookup ip with
  | none => (recent loginWindow now times).length ≤ failing
  | some info =>
    (recent loginWindow now times).length ≤ info.count + failing ∧
      (times.filter fun t => info.lastTry < t).length ≤ failing

theorem Records.live (h : l.Records ip now times failing) :
    (recent loginWindow now times).length ≤ l.live ip now + failing := by
  unfold Records at h
  unfold LoginLimiter.live
  cases hinfo : l.attempts.lookup ip with
  | none =>
    simp only [hinfo] at h ⊢
    omega
  | some info =>
    simp only [hinfo] at h ⊢
    split
    next hstale =>
      rw [Nat.zero_add]
      exact (length_recent_le_after (of_decide_eq_true hstale)).trans h.2
    · exact h.1

theorem Records.mono (h : l.Records ip now times failing) (hle : now ≤ later) :
    l.Records ip later times failing := by
  have hrecent := @length_recent_le loginWindow now later times hle
  unfold Records at h ⊢
  cases hinfo : l.attempts.lookup ip with
  | none =>
    simp only [hinfo] at h ⊢
    exact hrecent.trans h
  | some info =>
    simp only [hinfo] at h ⊢
    exact ⟨hrecent.trans h.1, h.2⟩

/-- The entry of the address is as before, or it was stale and has gone. -/
inductive Keeps (ip : String) (now : Time) (l l' : LoginLimiter) : Prop
  | same (h : l'.attempts.lookup ip = l.attempts.lookup ip)
  | dropped (hinfo : l.attempts.lookup ip = some info)
      (hstale : info.stale now = true) (h : l'.attempts.lookup ip = none)

theorem Records.keeps (h : l.Records ip now times failing) (hkeeps : Keeps ip now l l') :
    l'.Records ip now times failing := by
  cases hkeeps with
  | same heq =>
    unfold Records at h ⊢
    rw [heq]
    exact h
  | dropped hinfo hstale hnone =>
    unfold Records at h ⊢
    rw [hinfo] at h
    rw [hnone]
    exact (length_recent_le_after (of_decide_eq_true hstale)).trans h.2

theorem keeps_allow : Keeps ip now l (l.allow ip' now).1 := by
  unfold allow
  split
  · exact .same rfl
  next info hinfo =>
    split
    next hstale =>
      by_cases hip : ip = ip'
      · subst hip
        exact .dropped hinfo hstale (Finmap.lookup_erase _ _)
      · exact .same (Finmap.lookup_erase_ne hip)
    · exact .same rfl

theorem allow_of_full (h : maxLoginAttempts ≤ l.live ip now) : (l.allow ip now).2 ≠ true := by
  unfold live at h
  unfold allow
  cases hinfo : l.attempts.lookup ip with
  | none =>
    simp only [hinfo, maxLoginAttempts] at h
    omega
  | some info =>
    simp only [hinfo] at h ⊢
    split
    next hstale =>
      simp only [hstale, if_true, maxLoginAttempts] at h
      omega
    next hlive =>
      rw [if_neg hlive] at h
      simp [h]

theorem keeps_cleanup : Keeps ip now l (l.cleanup now) := by
  have hlookup : (l.cleanup now).attempts.lookup ip =
      (l.attempts.lookup ip).filter fun info => !info.stale now := lookup_filter
  cases hinfo : l.attempts.lookup ip with
  | none =>
    refine .same ?_
    rw [hlookup, hinfo]
    rfl
  | some info =>
    cases hstale : info.stale now with
    | true =>
      refine .dropped hinfo hstale ?_
      rw [hlookup, hinfo]
      simp [hstale]
    | false =>
      refine .same ?_
      rw [hlookup, hinfo]
      simp [hstale]

theorem keeps_recordFail (hip : ip ≠ ip') : Keeps ip now l (l.recordFail ip' now) := by
  unfold recordFail
  split
  · exact .same (Finmap.lookup_insert_of_ne _ hip)
  · have hcleaned : Keeps ip now l
        (if maxLimiterEntries ≤ l.size then l.cleanup now else l) := by
      split
      · exact keeps_cleanup
      · exact .same rfl
    dsimp only
    generalize (if maxLimiterEntries ≤ l.size then l.cleanup now else l) = cleaned at hcleaned ⊢
    split
    · exact hcleaned
    · have hinsert : (cleaned.attempts.insert ip' ⟨1, now⟩).lookup ip =
          cleaned.attempts.lookup ip := Finmap.lookup_insert_of_ne _ hip
      cases hcleaned with
      | same h => exact .same (hinsert.trans h)
      | dropped hinfo hstale h => exact .dropped hinfo hstale (hinsert.trans h)

theorem recordFail_lookup (hroom : l.hasRoom ip now = true) :
    (l.recordFail ip now).attempts.lookup ip =
      some ⟨((l.attempts.lookup ip).map AttemptInfo.count).getD 0 + 1, now⟩ := by
  unfold recordFail
  cases hinfo : l.attempts.lookup ip with
  | some info => exact Finmap.lookup_insert _
  | none =>
    simp only [hasRoom, hinfo, Option.isSome_none, Bool.false_or, Bool.or_eq_true,
      decide_eq_true_eq] at hroom
    have hsize : ¬ maxLimiterEntries ≤
        (if maxLimiterEntries ≤ l.size then l.cleanup now else l).size := by
      split <;> omega
    dsimp only
    rw [if_neg hsize]
    exact Finmap.lookup_insert _

theorem recordFail_full (hinfo : l.attempts.lookup ip = none) (hroom : l.hasRoom ip now = false) :
    (l.recordFail ip now).attempts.lookup ip = none := by
  simp only [hasRoom, hinfo, Option.isSome_none, Bool.false_or, Bool.or_eq_false_iff,
    decide_eq_false_iff_not, not_lt] at hroom
  simp only [recordFail, hinfo, hroom.1, hroom.2, if_true]
  cases (keeps_cleanup : Keeps ip now l (l.cleanup now)) with
  | same h => exact h.trans hinfo
  | dropped hsome => rw [hinfo] at hsome; cases hsome

theorem Records.recordFail (h : l.Records ip now times (failing + 1))
    (hpast : ∀ t ∈ times, t ≤ now) (hroom : l.hasRoom ip now = true) :
    (l.recordFail ip now).Records ip now times failing := by
  have hafter : (times.filter fun t => now < t) = [] :=
    filter_eq_nil_iff.2 fun t ht => by simpa using hpast t ht
  unfold Records at h ⊢
  rw [recordFail_lookup hroom]
  dsimp only
  rw [hafter]
  refine ⟨?_, Nat.zero_le _⟩
  cases hinfo : l.attempts.lookup ip with
  | none =>
    simp only [hinfo] at h
    simp only [Option.map_none, Option.getD_none]
    omega
  | some info =>
    simp only [hinfo] at h
    simp only [Option.map_some, Option.getD_some]
    omega

theorem Records.recordExtra (h : l.Records ip now times failing)
    (hpast : ∀ t ∈ times, t ≤ now) : (l.recordFail ip now).Records ip now times failing := by
  cases hroom : l.hasRoom ip now with
  | true =>
    refine Records.recordFail ?_ hpast hroom
    unfold Records at h ⊢
    split
    next hinfo =>
      simp only [hinfo] at h
      omega
    next info hinfo =>
      simp only [hinfo] at h
      omega
  | false =>
    have hinfo : l.attempts.lookup ip = none := by
      simp only [hasRoom, Bool.or_eq_false_iff, Option.isSome_eq_false_iff] at hroom
      simpa using hroom.1.1
    exact h.keeps (.same ((recordFail_full hinfo hroom).trans hinfo.symm))

theorem Records.reset (hnil : times = []) : (l.reset ip).Records ip now times failing := by
  subst hnil
  unfold Records LoginLimiter.reset
  rw [Finmap.lookup_erase]
  exact Nat.zero_le _

theorem Records.fail (h : l.Records ip now times failing) :
    l.Records ip now (times ++ [now]) (failing + 1) := by
  have hrecent : (recent loginWindow now (times ++ [now])).length =
      (recent loginWindow now times).length + 1 := by
    rw [recent_append, length_append]
    simp [recent]
  unfold Records at h ⊢
  rw [hrecent]
  cases hinfo : l.attempts.lookup ip with
  | none =>
    simp only [hinfo] at h ⊢
    omega
  | some info =>
    simp only [hinfo] at h ⊢
    refine ⟨by omega, ?_⟩
    rw [filter_append, length_append]
    exact Nat.add_le_add h.2 (length_filter_le _ _)

end LoginLimiter

/-! ## The limit -/

/-- The limiter records the failures of the address, and every login of it
that is being verified may still fail. -/
structure Guarded (l : LoginLimiter) (ip : String) (now : Time) (times : List Time)
    (verifying failing : Nat) : Prop where
  past : ∀ t ∈ times, t ≤ now
  records : l.Records ip now times failing
  room : (recent loginWindow now times).length + verifying ≤ maxLoginAttempts
  limited : Limited loginWindow maxLoginAttempts times

section

variable (h : Guarded l ip now times verifying failing)
include h

theorem Guarded.keeps
    (hkeeps : LoginLimiter.Keeps ip now l l') : Guarded l' ip now times verifying failing :=
  ⟨h.past, h.records.keeps hkeeps, h.room, h.limited⟩

theorem Guarded.tick (hle : now ≤ now') : Guarded l ip now' times verifying failing := by
  refine ⟨fun t ht => (h.past t ht).trans hle, h.records.mono hle, ?_, h.limited⟩
  exact (Nat.add_le_add_right (length_recent_le hle) _).trans h.room

theorem Guarded.allow
    (hroom : l.live ip now + verifying + failing < maxLoginAttempts) :
    Guarded (l.allow ip now).1 ip now times (verifying + 1) failing := by
  refine ⟨h.past, h.records.keeps keeps_allow, ?_, h.limited⟩
  have hlive := h.records.live
  omega

end

theorem Guarded.verified (h : Guarded l ip now times (verifying + 1) failing) :
    Guarded l ip now times verifying failing :=
  ⟨h.past, h.records, (Nat.le_succ _).trans h.room, h.limited⟩

theorem Guarded.failed (h : Guarded l ip now times (verifying + 1) failing) :
    Guarded l ip now (times ++ [now]) verifying (failing + 1) := by
  have hroom : (recent loginWindow now times).length < maxLoginAttempts :=
    Nat.lt_of_lt_of_le (Nat.lt_add_of_pos_right (Nat.succ_pos _)) h.room
  refine ⟨?_, h.records.fail, ?_, h.limited.append_now hroom⟩
  · intro t ht
    rcases mem_append.1 ht with ht | ht
    · exact h.past t ht
    · exact (mem_singleton.1 ht).le
  · rw [recent_append, length_append]
    have hone : (recent loginWindow now [now]).length ≤ 1 := length_filter_le _ _
    have := h.room
    omega

theorem Guarded.recordFail (h : Guarded l ip now times verifying (failing + 1))
    (hroom : l.hasRoom ip now = true) :
    Guarded (l.recordFail ip now) ip now times verifying failing :=
  ⟨h.past, h.records.recordFail h.past hroom, h.room, h.limited⟩

theorem Guarded.recordExtra (h : Guarded l ip now times verifying failing) :
    Guarded (l.recordFail ip now) ip now times verifying failing :=
  ⟨h.past, h.records.recordExtra h.past, h.room, h.limited⟩

theorem Guarded.reset (h : Guarded l ip now times verifying failing) :
    Guarded (l.reset ip) ip now [] verifying failing := by
  refine ⟨fun t ht => absurd ht not_mem_nil, .reset rfl, ?_, limited_nil⟩
  exact (Nat.add_le_add_right (Nat.zero_le _) _).trans h.room

/-! ## Steps -/

variable {setup : PanelSetup} {ip : String}

def PanelGuarded (ip : String) (cfg : PanelConfig) (times : List Time) : Prop :=
  Guarded cfg.shared.limiter ip cfg.shared.now times (verifyingCount ip cfg.threads)
    (failingCount ip cfg.threads)

section Counts

variable {threads : Table Nat PanelLocal}

theorem verifyingCount_update (hl : threads.lookup n = some l) :
    verifyingCount ip (threads.insert n l') + (if l.verifying ip then 1 else 0) =
      verifyingCount ip threads + if l'.verifying ip then 1 else 0 :=
  countEntries_update hl

theorem failingCount_update (hl : threads.lookup n = some l) :
    failingCount ip (threads.insert n l') + (if l.failing ip then 1 else 0) =
      failingCount ip threads + if l'.failing ip then 1 else 0 :=
  countEntries_update hl

end Counts

section

variable (h : PanelGuarded ip cfg times)
include h

open PanelLocal

theorem PanelGuarded.login
    (hok : countsLogins ip cfg (.step n disk) = true)
    (hlocal : cfg.threads.lookup n = some (.login pc)) (hstep : LoginStep cfg.shared pc p pc') :
    PanelGuarded ip ⟨p, cfg.threads.insert n (.login pc')⟩
      (failuresSince ip cfg (.step n disk) times) := by
  have hv := @verifyingCount_update ip cfg.threads n (.login pc) (.login pc') hlocal
  have hf := @failingCount_update ip cfg.threads n (.login pc) (.login pc') hlocal
  unfold PanelGuarded at h ⊢
  simp only [countsLogins, failuresSince, hlocal] at hok ⊢
  cases hstep with
  | badMethod hmethod | post hmethod | create =>
    simp only [verifying, failing, Bool.false_eq_true, if_false,
      Nat.add_zero] at hv hf
    rw [hv, hf]
    exact h
  | tooMany | undecodable =>
    simp only [verifying, failing, Bool.false_eq_true, if_false,
      Nat.add_zero] at hv hf
    rw [hv, hf]
    exact h.keeps keeps_allow
  | @allowed ip' username password hallow =>
    simp only [verifying, failing, Bool.false_eq_true, if_false,
      Nat.add_zero, decide_eq_true_eq] at hv hf
    rw [hv, hf]
    by_cases hip : ip' = ip
    · subst hip
      simp only [ne_eq, not_true_eq_false, decide_false, Bool.false_or, Bool.or_eq_true,
        decide_eq_true_eq] at hok
      rcases hok with hfull | hroom
      · exact absurd hallow (allow_of_full hfull)
      · simp only [if_true]
        exact h.allow hroom
    · simp only [if_neg hip, Nat.add_zero]
      exact h.keeps keeps_allow
  | @verified ip' username password hverify =>
    simp only [verifying, failing, Bool.false_eq_true, if_false,
      Nat.add_zero, decide_eq_true_eq] at hv hf
    simp only [hverify, Bool.not_true, Bool.and_false, Bool.false_eq_true, if_false]
    rw [← hv] at h
    rw [hf]
    by_cases hip : ip' = ip
    · simp only [if_pos hip] at h
      exact h.verified
    · simp only [if_neg hip, Nat.add_zero] at h
      exact h
  | @failed ip' username password hverify =>
    simp only [verifying, failing, Bool.false_eq_true, if_false,
      Nat.add_zero, decide_eq_true_eq] at hv hf
    simp only [hverify, Bool.not_false, Bool.and_true, decide_eq_true_eq]
    rw [← hv] at h
    rw [hf]
    by_cases hip : ip' = ip
    · simp only [if_pos hip] at h ⊢
      exact h.failed
    · simp only [if_neg hip, Nat.add_zero] at h ⊢
      exact h
  | @recordFail ip' =>
    simp only [verifying, failing, Bool.false_eq_true, if_false,
      Nat.add_zero, decide_eq_true_eq] at hv hf
    rw [← hf] at h
    rw [hv]
    by_cases hip : ip' = ip
    · subst hip
      simp only [ne_eq, not_true_eq_false, decide_false, Bool.false_or] at hok
      simp only [if_true] at h
      exact h.recordFail hok
    · simp only [if_neg hip, Nat.add_zero] at h
      exact h.keeps (keeps_recordFail (Ne.symm hip))
  | @reset ip' username password =>
    simp only [verifying, failing, Bool.false_eq_true, if_false,
      Nat.add_zero] at hv hf
    rw [hv, hf]
    by_cases hip : ip' = ip
    · subst hip
      simp only [if_true]
      exact h.reset
    · simp only [if_neg hip]
      exact h.keeps (.same (Finmap.lookup_erase_ne (Ne.symm hip)))

theorem PanelGuarded.change
    (hlocal : cfg.threads.lookup n = some (.change pc))
    (hstep : ChangeStep disk cfg.shared pc p pc') :
    PanelGuarded ip ⟨p, cfg.threads.insert n (.change pc')⟩
      (failuresSince ip cfg (.step n disk) times) := by
  have hv := @verifyingCount_update ip cfg.threads n (.change pc) (.change pc') hlocal
  have hf := @failingCount_update ip cfg.threads n (.change pc) (.change pc') hlocal
  simp only [verifying, failing, Bool.false_eq_true, if_false,
    Nat.add_zero] at hv hf
  unfold PanelGuarded at h ⊢
  simp only [failuresSince, hlocal, hv, hf]
  cases hstep with
  | refused | allowed => exact h.keeps keeps_allow
  | @recordFail ip' err =>
    by_cases hip : ip' = ip
    · subst hip
      exact h.recordExtra
    · exact h.keeps (keeps_recordFail (Ne.symm hip))
  | @reset ip' newPwd =>
    by_cases hip : ip' = ip
    · subst hip
      simp only [if_true]
      exact h.reset
    · simp only [if_neg hip]
      exact h.keeps (.same (Finmap.lookup_erase_ne (Ne.symm hip)))
  | _ => exact h

/-- A step of the panel keeps the count of failures within the limit. -/
theorem PanelGuarded.next (hok : countsLogins ip cfg action = true)
    (hnext : setup.next cfg action = some cfg') :
    PanelGuarded ip cfg' (failuresSince ip cfg action times) := by
  cases panelStep_of_next hnext with
  | @spawn n l hfresh hspawn =>
    have hidle : l.verifying ip = false ∧ l.failing ip = false := by
      unfold panelSpawnable at hspawn
      split at hspawn
      · exact ⟨rfl, rfl⟩
      · exact ⟨rfl, rfl⟩
      · cases hspawn
    have hv : verifyingCount ip (cfg.threads.insert n l) = verifyingCount ip cfg.threads :=
      (countEntries_new hfresh).trans (by simp [hidle, verifyingCount])
    have hf : failingCount ip (cfg.threads.insert n l) = failingCount ip cfg.threads :=
      (countEntries_new hfresh).trans (by simp [hidle, failingCount])
    unfold PanelGuarded at h ⊢
    simp only [hv, hf]
    exact h
  | login hlocal hstep => exact h.login hok hlocal hstep
  | change hlocal hstep => exact h.change hlocal hstep
  | @env e =>
    cases e with
    | tick elapsed => exact Guarded.tick h (Nat.le_add_right _ _)
    | cleanLimiter => exact Guarded.keeps h keeps_cleanup
    | _ => exact h

end

theorem initial_guarded : PanelGuarded ip setup.initial [] := by
  refine ⟨fun t ht => absurd ht not_mem_nil, ?_, ?_, limited_nil⟩
  · exact Nat.zero_le _
  · exact Nat.zero_le _

def RecordGuarded (ip : String) (s : PanelConfig × List Time) : Prop := PanelGuarded ip s.1 s.2

theorem RecordGuarded.next (h : RecordGuarded ip s) (hok : countsLogins ip s.1 action = true)
    (hnext : recording setup.next (failuresSince ip) s action = some t) : RecordGuarded ip t := by
  obtain ⟨hstep, hrecord⟩ := recording_eq_some.1 hnext
  unfold RecordGuarded
  rw [hrecord]
  exact PanelGuarded.next h hok hstep

/-- As long as a login is let through only when those on their way leave room for
it, at most `maxLoginAttempts` logins of an address fail in any window. -/
theorem failures_limited {actions : List PanelAction}
    (hok : Along setup.next (fun cfg action => countsLogins ip cfg action = true) setup.initial
      actions) :
    FailuresLimited setup ip actions := by
  intro cfg times hrun
  have hstart : RecordGuarded ip (setup.initial, []) := initial_guarded
  have hguarded : RecordGuarded ip (cfg, times) :=
    run_invariant (fun _ _ _ h hok hnext => h.next hok hnext) hstart (hok.recording []) hrun
  exact hguarded.limited

/-- Five logins with a wrong password, one after the other, and a sixth that
is not let through. -/
theorem failures_limited_in_turn :
    ((run (recording rootPanel.next (failuresSince "192.0.2.7")) (rootPanel.initial, [])
      ((range 6).flatMap fun n => panelLogin n 2 "root" "guess" ++
        if n < 5 then panelSteps n 2 else [])).any fun s => s.2 = replicate 5 0) = true ∧
    FailuresLimited rootPanel "192.0.2.7"
      ((range 6).flatMap fun n => panelLogin n 2 "root" "guess" ++
        if n < 5 then panelSteps n 2 else []) :=
  ⟨by decide +kernel, failures_limited (by decide +kernel)⟩

/-- Six logins are let through before the first of them fails. -/
theorem six_failures_at_once :
    ¬ FailuresLimited rootPanel "192.0.2.7"
      ((range 6).flatMap (fun n => panelLogin n 2 "root" "guess") ++
        (range 6).flatMap fun n => panelSteps n 1) := by
  intro h
  obtain ⟨⟨cfg, _⟩, hrun, rfl⟩ : ∃ s,
      run (recording rootPanel.next (failuresSince "192.0.2.7")) (rootPanel.initial, [])
        ((range 6).flatMap (fun n => panelLogin n 2 "root" "guess") ++
          (range 6).flatMap fun n => panelSteps n 1) = some s ∧
      s.2 = replicate 6 0 := by
    decide +kernel
  have hlimited := h cfg _ hrun 0
  revert hlimited
  decide

end Hy2Link.Admin
