import Hy2Link.Server.Wiring

/-! # Auxiliary connections that replace one another

The set functions of a clientStream overwrite the pointers of a plane, and the
clear functions reset them, whichever connection they are for.  A handler
clears when its own connection has ended, at any time later, and the loop of a
game connection resets the ready flag.  A newer connection of the same plane
loses its pointers when an older one ends after it has been set.

`newer_connection_denoted` holds for the runs in which a handler or a loop
clears a plane only while the pointer of the plane is its own connection.
-/

namespace Hy2Link.Server

open Interleaving DataTables

namespace ClientStream

variable (cs : ClientStream)

def pointers : Plane → List (Option QuicStream)
  | .data => [cs.tcpStream, cs.udpStream]
  | .dataMatch => [cs.matchStream]
  | .dataGameTCP => [cs.gameTCPStream]
  | .dataGame => []
  | .ctrl => [cs.icmpStream, cs.hbStream]

def ready : Plane → Bool
  | .dataGame => cs.gameDatagramReady
  | .ctrl => cs.ctrlReady
  | _ => true

/-- The pointers of the plane are those of the connection, and it is ready. -/
def denotes (plane : Plane) (c : ConnId) : Bool :=
  cs.conn plane = some c && (cs.pointers plane).all (fun p => p.map QuicStream.conn = some c) &&
    cs.ready plane

theorem denotes_attach (c : ConnId) (plane : Plane) :
    (cs.attach c plane).denotes plane c = true := by
  cases plane <;> simp [denotes, attach, conn, pointers, ready, setBulkStreams, setMatch,
    setGameTCP, setGame, setCtrl]

theorem denotes_attach_of_ne (hne : other ≠ plane) (c c' : ConnId) :
    (cs.attach c plane).denotes other c' = cs.denotes other c' := by
  cases plane <;> cases other <;> first | rfl | exact absurd rfl hne

theorem denotes_detach_of_ne (hne : other ≠ plane) (c : ConnId) :
    (cs.detach plane).denotes other c = cs.denotes other c := by
  cases plane <;> cases other <;> first | rfl | exact absurd rfl hne

theorem denotes_clearReady_of_ne (hne : plane ≠ .dataGame) (c : ConnId) :
    cs.clearReady.denotes plane c = cs.denotes plane c := by
  cases plane <;> first | rfl | exact absurd rfl hne

end ClientStream

def denotedIn (cfg : ServerConfig) (cs : StreamId) (plane : Plane) (conn : ConnId) : Bool :=
  (cfg.shared.data.streams.lookup cs).any fun stream => stream.denotes plane conn

/-- The run after the set step of `new`: nobody sets the plane of the
clientStream again. -/
def unreplaced (cs : StreamId) (plane : Plane) (cfg : ServerConfig) : ServerAction → Bool
  | .step (.plane conn) _ =>
    match handlerAt cfg conn with
    | some (reg, .setAux x) => x ≠ cs || reg.plane ≠ some plane
    | _ => true
  | _ => true

/-- The set step of `new` on an auxiliary plane of the clientStream `cs` is
taken in the state `before`; after it the plane is not set again up to the
state `cfg`, in which the connection is open. -/
structure Newest (setup : Setup) (front rest : List ServerAction) (new : ConnId)
    (choice : Choice) (reg : Registration) (cs : StreamId) (plane : Plane)
    (before after cfg : ServerConfig) : Prop where
  reached : run setup.next setup.initial front = some before
  setting : before.threads.lookup (.plane new) = some (.plane reg (.setAux cs))
  onPlane : reg.plane = some plane
  set : setup.next before (.step (.plane new) choice) = some after
  later : run setup.next after rest = some cfg
  newest : Along setup.next (fun cfg action => unreplaced cs plane cfg action = true) after rest
  alive : new ∉ cfg.shared.data.closed

/-! ## Runs in which a connection clears its own pointers -/

/-- The connection that a plane of an object points to, if any, is `conn`. -/
def pointsOnlyTo (d : DataTables) (cs : StreamId) (plane : Plane) (conn : ConnId) : Bool :=
  (d.streams.lookup cs).all fun stream => (stream.conn plane).all fun c => c = conn

/-- The clear steps of handlers and datagram loops are taken while the plane
points to their own connection or to none. -/
def clearsOwn (cfg : ServerConfig) : ServerAction → Bool
  | .step (.plane conn) _ =>
    match handlerAt cfg conn with
    | some (reg, .clearAux cs) =>
      reg.plane.all fun plane => pointsOnlyTo cfg.shared.data cs plane conn
    | _ => true
  | .step (.datagrams conn) _ =>
    match cfg.threads.lookup (.datagrams conn) with
    | some (.datagrams cs .clearReady) => pointsOnlyTo cfg.shared.data cs .dataGame conn
    | _ => true
  | _ => true

/-- A datagram loop that is about to reset the ready flag has lost its
connection. -/
def LoopsEnded (cfg : ServerConfig) : Prop :=
  ∀ conn cs, cfg.threads.lookup (.datagrams conn) = some (.datagrams cs .clearReady) →
    conn ∈ cfg.shared.data.closed

theorem HandlerStep.stream (h : HandlerStep conn reg choice s pc s' pc') (hvalid : s.data.Valid)
    {stream : ClientStream} (hstream : s.data.streams.lookup cs = some stream) :
    s'.data.streams.lookup cs = some stream ∨
      (pc = .setBulk cs ∧ s'.data.streams.lookup cs = some (stream.attach conn .data)) ∨
      (∃ plane, pc = .setAux cs ∧ reg.plane = some plane ∧
        s'.data.streams.lookup cs = some (stream.attach conn plane)) ∨
      ∃ plane, pc = .clearAux cs ∧ reg.plane = some plane ∧
        s'.data.streams.lookup cs = some (stream.detach plane) := by
  have hmodify : ∀ x f, (s.data.modifyStream x f).streams.lookup cs = some stream ∨
      x = cs ∧ (s.data.modifyStream x f).streams.lookup cs = some (f stream) := by
    intro x f
    by_cases heq : cs = x
    · subst heq
      exact .inr ⟨rfl, modifyStream_lookup.2 (.inl ⟨rfl, stream, hstream, rfl⟩)⟩
    · exact .inl (modifyStream_lookup.2 (.inr ⟨heq, hstream⟩))
  cases h with
  | @setBulk x =>
    rcases hmodify x (fun stream => stream.attach conn .data) with hsame | ⟨rfl, hnew⟩
    · exact .inl hsame
    · exact .inr (.inl ⟨rfl, hnew⟩)
  | @setAux x plane hplane =>
    rcases hmodify x (fun stream => stream.attach conn plane) with hsame | ⟨rfl, hnew⟩
    · exact .inl hsame
    · exact .inr (.inr (.inl ⟨plane, rfl, hplane, hnew⟩))
  | @clearAux x plane hplane =>
    rcases hmodify x (fun stream => stream.detach plane) with hsame | ⟨rfl, hnew⟩
    · exact .inl hsame
    · exact .inr (.inr (.inr ⟨plane, rfl, hplane, hnew⟩))
  | unregisterStale | unregister hmine | replaced hmine =>
    left
    rw [unregisterData_streams]
    exact hstream
  | register =>
    left
    exact (Finmap.lookup_insert_of_ne _ (hvalid.fresh hstream)).trans hstream
  | _ => exact .inl hstream

theorem HandlerStep.closed (h : HandlerStep conn reg choice s pc s' pc')
    (hclosed : c ∈ s.data.closed) : c ∈ s'.data.closed := by
  cases h with
  | setBulk | setAux hplane | clearAux hplane =>
    rw [modifyStream_closed]
    exact hclosed
  | register => exact Finset.mem_union_left _ hclosed
  | closeStale | closeOld | closing | reject => exact Finset.mem_insert_of_mem hclosed
  | unregisterStale | unregister hmine | replaced hmine =>
    rw [unregisterData_closed]
    exact hclosed
  | _ => exact hclosed

section Step

variable {cfg cfg' : ServerConfig}

section

variable (hstep : ServerStep gate cfg action cfg')
include hstep

theorem closed_of_step (hclosed : c ∈ cfg.shared.data.closed) : c ∈ cfg'.shared.data.closed := by
  have hother : ∀ t choice, action = .step t choice → (∀ conn, t ≠ .plane conn) →
      c ∈ cfg'.shared.data.closed := by
    rintro t choice rfl hne
    rw [(data_of_other hstep hne).closed]
    exact hclosed
  cases hstep with
  | spawn hfresh hspawn => exact hclosed
  | plane hlocal hcontrol hexec => exact (handlerStep_of_exec hcontrol hexec).closed hclosed
  | env henv =>
    rcases data_of_environment henv with hdata | ⟨conn, -, hdata⟩
    · rw [hdata]
      exact hclosed
    · rw [hdata]
      exact Finset.mem_insert_of_mem hclosed
  | _ => exact hother _ _ rfl nofun

theorem LoopsEnded.step (h : LoopsEnded cfg) : LoopsEnded cfg' := by
  intro conn cs hlocal
  have hkeep : cfg.threads.lookup (.datagrams conn) = some (.datagrams cs .clearReady) →
      conn ∈ cfg'.shared.data.closed := fun hold => closed_of_step hstep (h conn cs hold)
  cases hstep with
  | spawn hfresh hspawn =>
    rcases lookup_insert_eq_some.1 hlocal with ⟨rfl, rfl⟩ | ⟨-, hold⟩
    · cases hspawn
    · exact hkeep hold
  | @datagrams c choice x pc request shared result hmine hcontrol hexec =>
    rcases lookup_insert_eq_some.1 hlocal with ⟨heq, hl⟩ | ⟨-, hold⟩
    · cases heq
      cases pc with
      | receiving =>
        cases hcontrol
        obtain ⟨d, hd, rfl⟩ := exec_data.1 hexec
        obtain ⟨hclosed, rfl⟩ := exec_awaitClosed.1 hd
        exact hclosed
      | clearReady =>
        cases hcontrol
        cases hl
      | done => cases hcontrol
    · exact hkeep hold
  | env henv => exact hkeep hlocal
  | _ =>
    rcases lookup_insert_eq_some.1 hlocal with ⟨heq, -⟩ | ⟨-, hold⟩
    · cases heq
    · exact hkeep hold

/-- What a step does to an object: the handlers of its connections change it,
and the datagram loops. -/
theorem stream_of_step
    (hstream : cfg.shared.data.streams.lookup cs = some stream) :
    cfg'.shared.data.streams.lookup cs = some stream ∨
      (∃ conn choice reg pc pc', action = .step (.plane conn) choice ∧
        cfg.threads.lookup (.plane conn) = some (.plane reg pc) ∧
        HandlerStep conn reg choice cfg.shared pc cfg'.shared pc') ∨
      ∃ conn choice, action = .step (.datagrams conn) choice ∧
        cfg.threads.lookup (.datagrams conn) = some (.datagrams cs .clearReady) ∧
        cfg'.shared.data.streams.lookup cs = some stream.clearReady := by
  have hareas : ∀ t choice, action = .step t choice → Area.data ∉ t.areas →
      cfg'.shared.data.streams.lookup cs = some stream := by
    rintro t choice rfl hareas
    rw [data_of_areas hstep hareas]
    exact hstream
  cases hstep with
  | spawn hfresh hspawn => exact .inl hstream
  | env henv =>
    left
    rcases data_of_environment henv with hdata | ⟨conn, -, hdata⟩
    · rw [hdata]
      exact hstream
    · rw [hdata]
      exact hstream
  | plane hlocal hcontrol hexec =>
    exact .inr (.inl ⟨_, _, _, _, _, rfl, hlocal, handlerStep_of_exec hcontrol hexec⟩)
  | @datagrams c choice x pc request shared result hlocal hcontrol hexec =>
    cases pc with
    | receiving =>
      cases hcontrol
      obtain ⟨d, hd, rfl⟩ := exec_data.1 hexec
      obtain ⟨-, rfl⟩ := exec_awaitClosed.1 hd
      exact .inl hstream
    | clearReady =>
      cases hcontrol
      obtain ⟨d, hd, rfl⟩ := exec_data.1 hexec
      cases hd
      by_cases heq : cs = x
      · subst heq
        exact .inr (.inr ⟨c, choice, rfl, hlocal,
          modifyStream_lookup.2 (.inl ⟨rfl, stream, hstream, rfl⟩)⟩)
      · exact .inl (modifyStream_lookup.2 (.inr ⟨heq, hstream⟩))
    | done => cases hcontrol
  | signal hlocal hcontrol hexec =>
    left
    rw [signal_data hcontrol hexec]
    exact hstream
  | login | dhcp | push => exact .inl (hareas _ _ rfl (by simp [Thread.areas]))

end

/-- What the run after the set step of a connection keeps: the connection is
closed, or its handler waits for its end and the plane denotes it. -/
def Kept (conn : ConnId) (reg : Registration) (cs : StreamId) (plane : Plane)
    (cfg : ServerConfig) : Prop :=
  conn ∈ cfg.shared.data.closed ∨
    cfg.threads.lookup (.plane conn) = some (.plane reg (.attached cs)) ∧
      denotedIn cfg cs plane conn = true

theorem denotedIn_iff :
    denotedIn cfg cs plane conn = true ↔
      ∃ stream, cfg.shared.data.streams.lookup cs = some stream ∧
        stream.denotes plane conn = true := by
  simp [denotedIn, Option.any_eq_true]

theorem pointsOnlyTo_denotes (hpoints : pointsOnlyTo cfg.shared.data cs plane conn = true)
    (hstream : cfg.shared.data.streams.lookup cs = some stream)
    (hdenotes : stream.denotes plane new = true) : conn = new := by
  simp only [ClientStream.denotes, Bool.and_eq_true, decide_eq_true_eq] at hdenotes
  simpa [pointsOnlyTo, hstream, hdenotes.1.1, eq_comm] using hpoints

theorem denotes_of_other (hwiring : Wiring cfg) (hended : LoopsEnded cfg)
    (hplane : plane ≠ .data) (halive : new ∉ cfg.shared.data.closed)
    (hown : clearsOwn cfg action = true) (hunreplaced : unreplaced cs plane cfg action = true)
    (hstep : ServerStep gate cfg action cfg')
    (hother : ∀ choice, action ≠ .step (.plane new) choice)
    (hstream : cfg.shared.data.streams.lookup cs = some stream)
    (hdenotes : stream.denotes plane new = true) : denotedIn cfg' cs plane new = true := by
  rw [denotedIn_iff]
  rcases stream_of_step hstep hstream with
    hsame | ⟨conn, choice, reg', pc, pc', rfl, hmover, hedge⟩ |
      ⟨conn, choice, rfl, hloop, hcleared⟩
  · exact ⟨stream, hsame, hdenotes⟩
  · rcases hedge.stream hwiring.valid hstream with
      hsame | ⟨rfl, hset⟩ | ⟨plane', rfl, hplane', hset⟩ | ⟨plane', rfl, hplane', hcleared⟩
    · exact ⟨stream, hsame, hdenotes⟩
    · exact ⟨_, hset, (stream.denotes_attach_of_ne hplane _ _).trans hdenotes⟩
    · have hne : plane ≠ plane' := by
        rintro rfl
        simp [unreplaced, handlerAt_eq_some.2 hmover, hplane'] at hunreplaced
      exact ⟨_, hset, (stream.denotes_attach_of_ne hne _ _).trans hdenotes⟩
    · -- the plane points to `new`, so only its own handler may clear it
      have hne : plane ≠ plane' := by
        rintro rfl
        simp only [clearsOwn, handlerAt_eq_some.2 hmover, hplane', Option.all_some] at hown
        obtain rfl := pointsOnlyTo_denotes hown hstream hdenotes
        exact hother choice rfl
      exact ⟨_, hcleared, (stream.denotes_detach_of_ne hne _).trans hdenotes⟩
  · have hne : plane ≠ .dataGame := by
      rintro rfl
      simp only [clearsOwn, hloop] at hown
      obtain rfl := pointsOnlyTo_denotes hown hstream hdenotes
      exact halive (hended conn cs hloop)
    exact ⟨_, hcleared, (stream.denotes_clearReady_of_ne hne _).trans hdenotes⟩

/-- A step of another connection leaves the newest one in its place. -/
theorem Kept.step (h : Kept new reg cs plane cfg) (hwiring : Wiring cfg)
    (hended : LoopsEnded cfg) (hplane : reg.plane = some plane)
    (hown : clearsOwn cfg action = true) (hunreplaced : unreplaced cs plane cfg action = true)
    (hstep : ServerStep gate cfg action cfg') : Kept new reg cs plane cfg' := by
  by_cases hclosed : new ∈ cfg.shared.data.closed
  · exact .inl (closed_of_step hstep hclosed)
  · obtain ⟨hattached, hdenoted⟩ := h.resolve_left hclosed
    obtain ⟨stream, hstream, hdenotes⟩ := denotedIn_iff.1 hdenoted
    have haux : plane ≠ .data := fun heq =>
      (hwiring.handler new reg _ hattached).1 (heq ▸ hplane)
    have hother : ∀ choice, action ≠ .step (.plane new) choice := by
      -- the handler goes on only when the connection has ended
      rintro choice rfl
      obtain ⟨reg', pc, pc', hlocal, -, hedge⟩ := plane_of_step hstep
      rw [hattached] at hlocal
      cases hlocal
      generalize cfg'.shared = s' at hedge
      cases hedge with
      | detached hgone => exact hclosed hgone
    rcases handler_of_step hstep hattached with hstays | ⟨choice, pc', haction, -⟩
    · exact .inr ⟨hstays, denotes_of_other hwiring hended haux hclosed hown hunreplaced hstep hother
        hstream hdenotes⟩
    · exact absurd haction (hother choice)

theorem Kept.set (hwiring : Wiring cfg)
    (hsetting : cfg.threads.lookup (.plane new) = some (.plane reg (.setAux cs)))
    (hplane : reg.plane = some plane)
    (hstep : ServerStep gate cfg (.step (.plane new) choice) cfg') :
    Kept new reg cs plane cfg' := by
  obtain ⟨-, stream, hstream, -⟩ := hwiring.handler new reg _ hsetting
  obtain ⟨reg', pc, pc', hlocal, hthreads, hedge⟩ := plane_of_step hstep
  obtain ⟨rfl, rfl⟩ : reg = reg' ∧ PlanePC.setAux cs = pc := by
    simpa using hsetting.symm.trans hlocal
  obtain ⟨shared, threads⟩ := cfg'
  cases hedge with
  | @setAux _ plane' hplane' =>
    obtain rfl : plane' = plane := Option.some.inj (hplane'.symm.trans hplane)
    refine .inr ⟨?_, denotedIn_iff.2 ⟨_, ?_, stream.denotes_attach new plane'⟩⟩
    · rw [hthreads]
      exact Finmap.lookup_insert _
    · exact modifyStream_lookup.2 (.inl ⟨rfl, stream, hstream, rfl⟩)

end Step

/-- In every run in which no connection clears the pointers of another one,
the pointers of a plane denote the newest connection while that is open. -/
theorem newer_connection_denoted (setup : Setup) (front rest : List ServerAction) (new : ConnId)
    (choice : Choice) (reg : Registration) (cs : StreamId) (plane : Plane)
    (before after cfg : ServerConfig)
    (hnewest : Newest setup front rest new choice reg cs plane before after cfg)
    (hsteps : Along setup.next (fun cfg action => clearsOwn cfg action = true) after rest) :
    denotedIn cfg cs plane new = true := by
  have hbase : ∀ s action next, Wiring s ∧ LoopsEnded s → setup.next s action = some next →
      Wiring next ∧ LoopsEnded next := fun s action next hs hnext =>
    ⟨hs.1.step (serverStep_of_next hnext), hs.2.step (serverStep_of_next hnext)⟩
  have hkept : ∀ s action next, (Wiring s ∧ LoopsEnded s) ∧ Kept new reg cs plane s →
      clearsOwn s action = true ∧ unreplaced cs plane s action = true →
      setup.next s action = some next →
      (Wiring next ∧ LoopsEnded next) ∧ Kept new reg cs plane next := by
    intro s action next hs hok hnext
    exact ⟨hbase s action next hs.1 hnext, hs.2.step hs.1.1 hs.1.2 hnewest.onPlane hok.1 hok.2
      (serverStep_of_next hnext)⟩
  have hbefore := run_stable hbase ⟨setup.initial_wiring, nofun⟩ hnewest.reached
  have hafter : Kept new reg cs plane after :=
    .set hbefore.1 hnewest.setting hnewest.onPlane (serverStep_of_next hnewest.set)
  have hend := run_invariant hkept ⟨hbase _ _ _ hbefore hnewest.set, hafter⟩
    (hsteps.and hnewest.newest) hnewest.later
  exact (hend.2.resolve_left hnewest.alive).2

/-! ## An older connection that ends late -/

theorem exists_newest (setup : Setup) (front rest : List ServerAction) (new : ConnId)
    (choice : Choice) (reg : Registration) (cs : StreamId) (plane : Plane)
    (test : ServerConfig → ServerConfig → Prop) (hplane : reg.plane = some plane)
    (h : ∃ before, run setup.next setup.initial front = some before ∧
      handlerAt before new = some (reg, .setAux cs) ∧
      ∃ after, setup.next before (.step (.plane new) choice) = some after ∧
      Along setup.next (fun cfg action => unreplaced cs plane cfg action = true) after rest ∧
      ∃ cfg, run setup.next after rest = some cfg ∧ new ∉ cfg.shared.data.closed ∧
        test after cfg) :
    ∃ before after cfg, Newest setup front rest new choice reg cs plane before after cfg ∧
      test after cfg := by
  obtain ⟨before, hbefore, hsetting, after, hafter, hnewest, cfg, hcfg, halive, htest⟩ := h
  exact ⟨before, after, cfg,
    ⟨hbefore, handlerAt_eq_some.1 hsetting, hplane, hafter, hcfg, hnewest, halive⟩, htest⟩

def annMatch : Registration := { annData with plane := some .dataMatch }

def replacingRun : List ServerAction :=
  annServedRun ++ connectRun 2 annMatch 9 ++ connectRun 3 annMatch 8

def endingRun : List ServerAction :=
  .env (.closeConn 2) :: steps (.plane 2) 2

/-- Connection 3 is open and the newest one, and its pointers are gone. -/
theorem newer_connection_cleared :
    ¬ ∀ (setup : Setup) front rest new choice reg cs plane before after cfg,
      Newest setup front rest new choice reg cs plane before after cfg →
      denotedIn cfg cs plane new = true := by
  intro h
  obtain ⟨before, after, cfg, hnewest, hcleared⟩ :=
    exists_newest smallSetup replacingRun endingRun 3 .go annMatch 0 .dataMatch
      (fun _ cfg => denotedIn cfg 0 .dataMatch 3 = false) rfl (by decide +kernel)
  simp [h _ _ _ _ _ _ _ _ _ _ _ hnewest] at hcleared

/-- Connection 2 has ended when connection 3 is about to be set. -/
def followingRun : List ServerAction :=
  annServedRun ++ connectRun 2 annMatch 9 ++ endingRun ++ connectRun 3 annMatch 8

def visitingRun : List ServerAction :=
  connectRun 4 { annData with plane := some .ctrl } 9 ++ .env (.closeConn 4) :: steps (.plane 4) 2

theorem newer_connection_denoted_match :
    ∃ before after cfg,
      Newest smallSetup followingRun visitingRun 3 .go annMatch 0 .dataMatch before after cfg ∧
        denotedIn cfg 0 .dataMatch 3 = true := by
  obtain ⟨before, after, cfg, hnewest, hsteps⟩ :=
    exists_newest smallSetup followingRun visitingRun 3 .go annMatch 0 .dataMatch
      (fun after _ => Along smallSetup.next
        (fun cfg action => clearsOwn cfg action = true) after visitingRun) rfl (by decide +kernel)
  exact ⟨before, after, cfg, hnewest, newer_connection_denoted _ _ _ _ _ _ _ _ _ _ _ hnewest hsteps⟩

end Hy2Link.Server
