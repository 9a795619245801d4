import Hy2Link.Server.Logins

/-! # How long a ban lasts

`recordFailure` bans an address for `banDuration`.  `Authenticate` asks for the
ban only at its start, and `recordSuccess` removes the ban together with the
failures; a call that passed the question before the ban therefore lifts it
when it succeeds.  As long as no call records its success while its address is
banned, every call that starts during the ban is refused.
-/

namespace Hy2Link.Server

open Interleaving AuthTables

/-! ## Bans -/

def AuthTables.inForce (a : AuthTables) (ip : String) (now : Time) : Bool :=
  match a.bannedUntil.lookup ip with
  | none => false
  | some deadline => now ≤ deadline

def setsBan (ip : String) (cfg : ServerConfig) : ServerAction → Bool
  | .step (.login n) _ =>
    cfg.threads.lookup (.login n) = some (.login (.fail ip)) &&
      maxFailCount ≤ (cfg.shared.auth.failCount.lookup ip).getD 0 + 1
  | _ => false

/-- No call from the address records its success while the address is banned. -/
def sparesBan (ip : String) (cfg : ServerConfig) : ServerAction → Bool
  | .step (.login n) _ =>
    match cfg.threads.lookup (.login n) with
    | some (.login (.succeed ip' _)) => ip' ≠ ip || !cfg.shared.auth.inForce ip cfg.shared.now
    | _ => true
  | _ => true

/-- After a ban at time `t`, every call from the address whose first section
comes before `t + banDuration` returns false. -/
def BanPersists (setup : Setup) (ip : String) (actions : List ServerAction) : Prop :=
  ∀ front action middle m choice back before after cfg auth last,
    actions = front ++ action :: (middle ++ .step (.login m) choice :: back) →
    run setup.next setup.initial front = some before → setsBan ip before action = true →
    setup.next before action = some after → run setup.next after middle = some cfg →
    cfg.threads.lookup (.login m) = some (.login (.start ip auth)) →
    cfg.shared.now < before.shared.now + banDuration →
    run setup.next cfg (.step (.login m) choice :: back) = some last →
    last.threads.lookup (.login m) = some (.login .refused)

/-- The time is past the deadline, or the address is banned up to the deadline
at least. -/
def AuthTables.BannedThrough (a : AuthTables) (ip : String) (deadline now : Time) : Prop :=
  deadline < now ∨ ∃ d, a.bannedUntil.lookup ip = some d ∧ deadline ≤ d

namespace AuthTables

variable {a a' : AuthTables}

section

variable (h : a.BannedThrough ip deadline now)
include h

theorem BannedThrough.congr
    (heq : a'.bannedUntil = a.bannedUntil) : a'.BannedThrough ip deadline now := by
  simpa only [BannedThrough, heq] using h

theorem BannedThrough.mono (hle : now ≤ later) : a.BannedThrough ip deadline later :=
  h.imp_left fun hlt => hlt.trans_le hle

theorem BannedThrough.isBanned (ip' : String) :
    (a.isBanned ip' now).1.BannedThrough ip deadline now := by
  rcases h with hlt | ⟨d, hd, hle⟩
  · exact .inl hlt
  unfold AuthTables.isBanned
  split
  · exact .inr ⟨d, hd, hle⟩
  next d' hd' =>
    split
    next hexpired =>
      by_cases hip : ip = ip'
      · subst hip
        rw [hd, Option.some.injEq] at hd'
        exact .inl (hle.trans_lt (hd' ▸ hexpired))
      · exact .inr ⟨d, (Finmap.lookup_erase_ne hip).trans hd, hle⟩
    · exact .inr ⟨d, hd, hle⟩

theorem BannedThrough.recordFailure (ip' : String)
    (hdeadline : deadline ≤ now + banDuration) :
    (a.recordFailure ip' now).BannedThrough ip deadline now := by
  rcases h with hlt | ⟨d, hd, hle⟩
  · exact .inl hlt
  unfold AuthTables.recordFailure
  dsimp only
  split
  · by_cases hip : ip = ip'
    · subst hip
      exact .inr ⟨_, Finmap.lookup_insert _, hdeadline⟩
    · exact .inr ⟨d, (Finmap.lookup_insert_of_ne _ hip).trans hd, hle⟩
  · exact .inr ⟨d, hd, hle⟩

theorem BannedThrough.recordSuccess
    (hspare : ip' = ip → a.inForce ip now = false) :
    (a.recordSuccess ip').BannedThrough ip deadline now := by
  rcases h with hlt | ⟨d, hd, hle⟩
  · exact .inl hlt
  by_cases hip : ip = ip'
  · have hno := hspare hip.symm
    simp only [inForce, hd, decide_eq_false_iff_not, not_le] at hno
    exact .inl (hle.trans_lt hno)
  · exact .inr ⟨d, (Finmap.lookup_erase_ne hip).trans hd, hle⟩

omit h in
theorem bannedThrough_recordFailure
    (hcount : maxFailCount ≤ (a.failCount.lookup ip).getD 0 + 1) :
    (a.recordFailure ip now).BannedThrough ip (now + banDuration) now := by
  refine .inr ⟨now + banDuration, ?_, le_rfl⟩
  simp only [recordFailure, if_pos hcount]
  exact Finmap.lookup_insert _

theorem isBanned_of_bannedThrough (hle : now ≤ deadline) : (a.isBanned ip now).2 = true := by
  rcases h with hlt | ⟨d, hd, hd'⟩
  · exact absurd hlt (not_lt.2 hle)
  · simp only [isBanned, hd, if_neg (not_lt.2 (hle.trans hd'))]

end

end AuthTables

/-! ## Steps -/

section Steps

variable {setup : Setup}

theorem HandlerStep.bannedUntil (h : HandlerStep conn reg choice s pc s' pc') :
    s'.auth.bannedUntil = s.auth.bannedUntil := by
  cases h with
  | claimed hmu hclaim =>
    unfold claimOwner
    rw [if_pos hclaim]
  | releaseSession hmu =>
    unfold AuthTables.releaseSession
    split <;> rfl
  | _ => rfl

/-- The ban of an address up to a deadline that no later failure falls short
of. -/
structure BanHolds (ip : String) (deadline : Time) (cfg : ServerConfig) : Prop where
  banned : cfg.shared.auth.BannedThrough ip deadline cfg.shared.now
  recent : deadline ≤ cfg.shared.now + banDuration

theorem BanHolds.login (h : s.auth.BannedThrough ip deadline s.now)
    (hrecent : deadline ≤ s.now + banDuration)
    (hspare : ∀ username, pc = .succeed ip username → s.auth.inForce ip s.now = false)
    (hstep : LoginStep gate s pc s' pc') : s'.auth.BannedThrough ip deadline s'.now := by
  cases hstep with
  | banned | malformed | credential => exact h.isBanned _
  | succeed hmu =>
    refine h.recordSuccess fun heq => ?_
    subst heq
    exact hspare _ rfl
  | fail hmu => exact h.recordFailure _ hrecent
  | register hmu => exact h.congr rfl
  | _ => exact h

theorem BanHolds.env (h : s.auth.BannedThrough ip deadline s.now) (henv : environment s e = some s')
    :
    s'.auth.BannedThrough ip deadline s'.now ∧ s.now ≤ s'.now := by
  cases e with
  | tick elapsed =>
    cases henv
    exact ⟨h.mono (Nat.le_add_right _ _), Nat.le_add_right _ _⟩
  | sweepBan ip' =>
    simp only [environment, Option.ite_none_right_eq_some, Option.some.injEq] at henv
    obtain ⟨-, rfl⟩ := henv
    exact ⟨h.isBanned ip', le_rfl⟩
  | sweepKey key =>
    simp only [environment, Option.ite_none_right_eq_some, Option.some.injEq] at henv
    obtain ⟨-, rfl⟩ := henv
    refine ⟨h.congr ?_, le_rfl⟩
    unfold sweepKey
    split <;> rfl
  | sweepOwner vip =>
    simp only [environment, Option.ite_none_right_eq_some, Option.some.injEq] at henv
    obtain ⟨-, rfl⟩ := henv
    refine ⟨h.congr ?_, le_rfl⟩
    unfold sweepOwner
    split <;> rfl
  | reap at_ order | sweepPeer vip at_ =>
    simp only [environment, Option.ite_none_right_eq_some, Option.some.injEq] at henv
    obtain ⟨-, rfl⟩ := henv
    exact ⟨h, le_rfl⟩
  | _ =>
    cases henv
    exact ⟨h, le_rfl⟩

theorem BanHolds.frame (h : BanHolds ip deadline cfg)
    (hstep : ServerStep setup.gate cfg (.step t choice) cfg') (hareas : Area.auth ∉ t.areas) :
    BanHolds ip deadline cfg' := by
  obtain ⟨area, harea, hframe⟩ := frame_of_step hstep
  have hauth := hframe.auth fun heq => hareas (heq ▸ harea)
  refine ⟨?_, ?_⟩
  · rw [hauth, hframe.now]
    exact h.banned
  · rw [hframe.now]
    exact h.recent

/-- A step that spares the ban keeps it. -/
theorem BanHolds.next (h : BanHolds ip deadline cfg) (hspare : sparesBan ip cfg action = true)
    (hnext : setup.next cfg action = some cfg') : BanHolds ip deadline cfg' := by
  have hstep := serverStep_of_next hnext
  cases hstep with
  | spawn hfresh hspawn => exact ⟨h.banned, h.recent⟩
  | plane hlocal hcontrol hexec =>
    have hframe := frame_of_exec hexec
    refine ⟨?_, hframe.now ▸ h.recent⟩
    rw [hframe.now]
    exact h.banned.congr (handlerStep_of_exec hcontrol hexec).bannedUntil
  | login hlocal hcontrol hexec =>
    have hframe := frame_of_exec hexec
    refine ⟨?_, hframe.now ▸ h.recent⟩
    apply BanHolds.login h.banned h.recent ?_ (loginStep_of_exec hcontrol hexec)
    rintro username rfl
    simpa [sparesBan, hlocal] using hspare
  | env henv =>
    obtain ⟨hbanned, hle⟩ := BanHolds.env h.banned henv
    exact ⟨hbanned, h.recent.trans (Nat.add_le_add_right hle _)⟩
  | _ => exact h.frame (serverStep_of_next hnext) (by simp [Thread.areas])

theorem banHolds_of_setsBan (hsets : setsBan ip cfg action = true)
    (hnext : setup.next cfg action = some cfg') :
    BanHolds ip (cfg.shared.now + banDuration) cfg' := by
  cases serverStep_of_next hnext with
  | @login n choice pc request shared result hlocal hcontrol hexec =>
    simp only [setsBan, Bool.and_eq_true, decide_eq_true_eq] at hsets
    obtain ⟨hfail, hcount⟩ := hsets
    rw [hlocal, Option.some.injEq, Local.login.injEq] at hfail
    subst hfail
    have hedge := loginStep_of_exec hcontrol hexec
    cases hcontrol
    cases hedge with
    | fail hmu => exact ⟨bannedThrough_recordFailure hcount, le_rfl⟩
  | _ => simp [setsBan] at hsets

theorem BanHolds.refuses (h : BanHolds ip deadline cfg)
    (hlocal : cfg.threads.lookup (.login n) = some (.login (.start ip auth)))
    (hnow : cfg.shared.now ≤ deadline)
    (hnext : setup.next cfg (.step (.login n) choice) = some cfg') :
    cfg'.threads.lookup (.login n) = some (.login .refused) := by
  cases serverStep_of_next hnext with
  | @login n choice pc request shared result hmine hcontrol hexec =>
    rw [hlocal, Option.some.injEq, Local.login.injEq] at hmine
    subst hmine
    cases hcontrol
    obtain ⟨a, ha, rfl⟩ := exec_auth.1 hexec
    simp only [AuthTables.exec, Option.ite_none_right_eq_some, Option.some.injEq] at ha
    obtain rfl : true = result :=
      (AuthTables.isBanned_of_bannedThrough h.banned hnow).symm.trans (congrArg Prod.snd ha.2)
    exact Finmap.lookup_insert _

end Steps

/-! ## Runs -/

section Runs

variable {setup : Setup}

/-- As long as no call that was let through before the ban succeeds after it, every
call of a banned address is refused until the ban is over. -/
theorem ban_persists
    (hspare : Along setup.next (fun cfg action => sparesBan ip cfg action = true) setup.initial
      actions) :
    BanPersists setup ip actions := by
  intro front action middle m choice back before after cfg auth last hactions hfront hsets
    hnext hmiddle hlocal hnow hlast
  subst hactions
  have hban : BanHolds ip (before.shared.now + banDuration) after := banHolds_of_setsBan hsets hnext
  -- the steps between the ban and the call spare the ban
  have hrest := ((along_append.1 hspare).2 before hfront).2 after hnext
  have hcfg : BanHolds ip (before.shared.now + banDuration) cfg :=
    run_invariant (fun _ _ _ h hok hstep => h.next hok hstep) hban (along_append.1 hrest).1 hmiddle
  obtain ⟨cfg', hcall, hback⟩ := run_cons_eq_some.1 hlast
  -- the call is refused in its first section, and that was its last
  have hrefused := hcfg.refuses hlocal hnow.le hcall
  exact run_stable (fun _ _ _ h hstep => next_ended h (fun _ => rfl) hstep) hrefused hback

/-- Five calls with a text that is not a credential, up to the last section of
the fifth. -/
def fiveFailures (ip : String) : List ServerAction :=
  (List.range 4).flatMap (fun n =>
    .spawn (.login (n + 1)) (.login (.start ip "ann")) :: steps (.login (n + 1)) 2) ++
  .spawn (.login 5) (.login (.start ip "ann")) :: steps (.login 5) 1

/-- Five failures ban the address; the call that comes then is refused with
the right password too. -/
theorem ban_persists_five_failures :
    ((run smallSetup.next smallSetup.initial (fiveFailures annData.peerIP)).any fun cfg =>
      setsBan annData.peerIP cfg (.step (.login 5) .go)) = true ∧
    BanPersists smallSetup annData.peerIP
      (fiveFailures annData.peerIP ++ .step (.login 5) .go ::
        ([.spawn (.login 6) (.login (.start annData.peerIP "ann:pw"))] ++
          .step (.login 6) .go :: [])) :=
  ⟨by decide +kernel, ban_persists (by decide +kernel)⟩

/-- Ann's call has passed the question before the ban and succeeds after it;
a further call of Ann is then accepted. -/
theorem ban_lifted :
    ¬ BanPersists smallSetup annData.peerIP
      ((.spawn (.login 0) (.login (.start annData.peerIP "ann:pw")) :: steps (.login 0) 3 ++
          fiveFailures annData.peerIP) ++ .step (.login 5) .go ::
        ((steps (.login 0) 1 ++ [.spawn (.login 6) (.login (.start annData.peerIP "ann:pw"))]) ++
          .step (.login 6) .go :: steps (.login 6) 4)) := by
  intro h
  have hrun : ((run smallSetup.next smallSetup.initial
      (.spawn (.login 0) (.login (.start annData.peerIP "ann:pw")) :: steps (.login 0) 3 ++
          fiveFailures annData.peerIP)).any fun before =>
      setsBan annData.peerIP before (.step (.login 5) .go) &&
        (smallSetup.next before (.step (.login 5) .go)).any fun after =>
          (run smallSetup.next after (steps (.login 0) 1 ++
            [.spawn (.login 6) (.login (.start annData.peerIP "ann:pw"))])).any fun cfg =>
              (cfg.threads.lookup (.login 6) =
                some (.login (.start annData.peerIP "ann:pw"))) &&
              (cfg.shared.now < before.shared.now + banDuration) &&
              (run smallSetup.next cfg (.step (.login 6) .go :: steps (.login 6) 4)).any fun last =>
                last.threads.lookup (.login 6) = some (.login (.accepted annData.key))) = true := by
    decide +kernel
  simp only [Option.any_eq_true, Bool.and_eq_true, decide_eq_true_eq] at hrun
  obtain ⟨before, hbefore, hsets, after, hafter, cfg, hcfg, ⟨hlocal, hnow⟩, last, hlast,
    haccepted⟩ := hrun
  have hrefused := h _ _ _ _ _ _ _ _ _ _ _ rfl hbefore hsets hafter hcfg hlocal hnow hlast
  simp [haccepted] at hrefused

end Runs

end Hy2Link.Server
