import Hy2Link.Admin.Sessions
import Hy2Link.Interleaving.System
import Hy2Link.Store.Users

/-! # Logins and password changes of the panel

`handleLogin` and `handleChangePassword` as threads over the store, the
sessions and the limiter.  One step is one call of a method of these objects;
what a handler does between two calls belongs to the step before.  The other
requests of the panel, the cleanup loops and the clock are events.
-/

namespace Hy2Link.Admin

open Interleaving Accounts

structure Panel where
  now : Time
  users : Store
  sessions : SessionManager
  limiter : LoginLimiter

/-- `skip` is a step without a call. -/
inductive PanelOp : Type → Type
  | skip : PanelOp Unit
  | allow (ip : String) : PanelOp Bool
  | recordFail (ip : String) : PanelOp Unit
  | reset (ip : String) : PanelOp Unit
  | verifyAdmin (username password : String) : PanelOp Bool
  | changeAdminPassword (oldPwd newPwd : String) (disk : Disk) : PanelOp (Option StoreError)
  | createSession : PanelOp Token
  | validate (token : Option Token) : PanelOp Bool
  | deleteAll : PanelOp Unit

def Panel.exec (p : Panel) {Result : Type} : PanelOp Result → Panel × Result
  | .skip => (p, ())
  | .allow ip => ({ p with limiter := (p.limiter.allow ip p.now).1 }, (p.limiter.allow ip p.now).2)
  | .recordFail ip => ({ p with limiter := p.limiter.recordFail ip p.now }, ())
  | .reset ip => ({ p with limiter := p.limiter.reset ip }, ())
  | .verifyAdmin username password => (p, p.users.verifyAdmin username password)
  | .changeAdminPassword oldPwd newPwd disk =>
    ({ p with users := (p.users.changeAdminPassword oldPwd newPwd disk).1 },
      (p.users.changeAdminPassword oldPwd newPwd disk).2)
  | .createSession =>
    ({ p with sessions := (p.sessions.create p.now).1 }, (p.sessions.create p.now).2)
  | .validate token =>
    ({ p with sessions := (p.sessions.validate token p.now).1 },
      (p.sessions.validate token p.now).2)
  | .deleteAll => ({ p with sessions := p.sessions.deleteAll }, ())

/-! ## Handlers -/

/-- `body` is `none` if it is not the JSON object that the handler decodes:
username and password, or the old and the new password. -/
structure PanelRequest where
  method : String
  ip : String
  body : Option (String × String)
deriving DecidableEq

inductive Refusal
  | methodNotAllowed
  | unauthorized
  | tooManyLogins
  | tooManyAttempts
  | invalidJSON
  | wrongCredentials
  | shortPassword
  | storeError (err : StoreError)
deriving DecidableEq

def Refusal.status : Refusal → Nat
  | .methodNotAllowed => 405
  | .unauthorized => 401
  | .tooManyLogins => 429
  | .tooManyAttempts => 429
  | .invalidJSON => 400
  | .wrongCredentials => 401
  | .shortPassword => 400
  | .storeError _ => 400

/-- The value of the field `error`; the first answer is plain text. -/
def Refusal.text : Refusal → String
  | .methodNotAllowed => "method not allowed"
  | .unauthorized => "unauthorized"
  | .tooManyLogins => "登录失败次数过多，请 5 分钟后再试"
  | .tooManyAttempts => "尝试次数过多，请 5 分钟后再试"
  | .invalidJSON => "invalid json"
  | .wrongCredentials => "用户名或密码错误"
  | .shortPassword => "新密码至少 6 位"
  | .storeError err => err.text

/-- A login that has succeeded keeps the credential it has verified. -/
inductive LoginPC
  | start (request : PanelRequest)
  | allow (ip : String) (body : Option (String × String))
  | verify (ip username password : String)
  | recordFail (ip : String)
  | reset (ip username password : String)
  | create (username password : String)
  | refused (refusal : Refusal)
  | loggedIn (username password : String) (token : Token)
deriving DecidableEq

def LoginPC.decoded (ip : String) : Option (String × String) → LoginPC
  | none => .refused .invalidJSON
  | some (username, password) => .verify ip username password

/-- `handleLogin`. -/
def loginControl : LoginPC → Option (Request PanelOp LoginPC)
  | .start request =>
    some ⟨.skip, fun _ =>
      if request.method ≠ "POST" then .refused .methodNotAllowed
      else .allow request.ip request.body⟩
  | .allow ip body =>
    some ⟨.allow ip, fun ok =>
      if !ok then .refused .tooManyLogins else LoginPC.decoded ip body⟩
  | .verify ip username password =>
    some ⟨.verifyAdmin username password, fun ok =>
      if !ok then .recordFail ip else .reset ip username password⟩
  | .recordFail ip => some ⟨.recordFail ip, fun _ => .refused .wrongCredentials⟩
  | .reset ip username password => some ⟨.reset ip, fun _ => .create username password⟩
  | .create username password =>
    some ⟨.createSession, fun token => .loggedIn username password token⟩
  | .refused _ => none
  | .loggedIn _ _ _ => none

/-- A change that has been answered with success keeps the new password. -/
inductive ChangePC
  | auth (token : Option Token) (request : PanelRequest)
  | allow (ip : String) (body : Option (String × String))
  | change (ip oldPwd newPwd : String)
  | recordFail (ip : String) (err : StoreError)
  | reset (ip newPwd : String)
  | deleteAll (newPwd : String)
  | refused (refusal : Refusal)
  | changed (newPwd : String)
deriving DecidableEq

def ChangePC.decoded (ip : String) : Option (String × String) → ChangePC
  | none => .refused .invalidJSON
  | some (oldPwd, newPwd) =>
    if newPwd.utf8ByteSize < 6 then .refused .shortPassword else .change ip oldPwd newPwd

def ChangePC.written (ip newPwd : String) : Option StoreError → ChangePC
  | some err => .recordFail ip err
  | none => .reset ip newPwd

/-- `handleChangePassword` behind `auth`. -/
def changeControl (disk : Disk) : ChangePC → Option (Request PanelOp ChangePC)
  | .auth token request =>
    some ⟨.validate token, fun ok =>
      if !ok then .refused .unauthorized
      else if request.method ≠ "POST" then .refused .methodNotAllowed
      else .allow request.ip request.body⟩
  | .allow ip body =>
    some ⟨.allow ip, fun ok =>
      if !ok then .refused .tooManyAttempts else ChangePC.decoded ip body⟩
  | .change ip oldPwd newPwd =>
    some ⟨.changeAdminPassword oldPwd newPwd disk, ChangePC.written ip newPwd⟩
  | .recordFail ip err => some ⟨.recordFail ip, fun _ => .refused (.storeError err)⟩
  | .reset ip newPwd => some ⟨.reset ip, fun _ => .deleteAll newPwd⟩
  | .deleteAll newPwd => some ⟨.deleteAll, fun _ => .changed newPwd⟩
  | .refused _ => none
  | .changed _ => none

/-! ## The system -/

inductive PanelLocal
  | login (pc : LoginPC)
  | change (pc : ChangePC)
deriving DecidableEq

/-- The other calls: requests with a session, logouts, the methods of the
store, the two cleanup loops. -/
inductive PanelEvent
  | tick (elapsed : Nat)
  | validate (token : Option Token)
  | logout (token : Option Token)
  | store (op : Op) (disk : Disk)
  | addTraffic (username : String) (delta : UInt64)
  | cleanSessions
  | cleanLimiter

abbrev PanelConfig := Config Nat Panel PanelLocal

abbrev PanelAction := Action Nat PanelLocal Disk PanelEvent

def panelSpawnable : PanelLocal → Bool
  | .login (.start _) => true
  | .change (.auth _ _) => true
  | _ => false

def panelControl (disk : Disk) : PanelLocal → Option (Request PanelOp PanelLocal)
  | .login pc => (loginControl pc).map (·.map .login)
  | .change pc => (changeControl disk pc).map (·.map .change)

def Panel.event (upper : Char → Char) (p : Panel) : PanelEvent → Panel
  | .tick elapsed => { p with now := p.now + elapsed }
  | .validate token => { p with sessions := (p.sessions.validate token p.now).1 }
  | .logout token => { p with sessions := p.sessions.delete token }
  | .store op disk => { p with users := (p.users.exec upper disk op).1 }
  | .addTraffic username delta => { p with users := p.users.addTraffic username delta }
  | .cleanSessions => { p with sessions := p.sessions.cleanup p.now }
  | .cleanLimiter => { p with limiter := p.limiter.cleanup p.now }

def panelSystem (upper : Char → Char) :
    System Nat Panel PanelLocal Disk PanelEvent PanelOp where
  exec _ p op := some (p.exec op)
  control _ l disk := panelControl disk l
  spawnable _ _ l := panelSpawnable l
  environment p e := some (p.event upper e)

/-- How a panel is started: the table of `unicode.ToUpper`, the store and the
time of day. -/
structure PanelSetup where
  upper : Char → Char
  users : Store
  now : Time

def PanelSetup.initial (setup : PanelSetup) : PanelConfig where
  shared := ⟨setup.now, setup.users, newSessionManager (24 * hour), ⟨∅⟩⟩
  threads := ∅

def PanelSetup.next (setup : PanelSetup) : PanelConfig → PanelAction → Option PanelConfig :=
  (panelSystem setup.upper).next

/-! ## Steps -/

inductive LoginStep (p : Panel) : LoginPC → Panel → LoginPC → Prop
  | badMethod (hmethod : request.method ≠ "POST") :
      LoginStep p (.start request) p (.refused .methodNotAllowed)
  | post (hmethod : request.method = "POST") :
      LoginStep p (.start request) p (.allow request.ip request.body)
  | tooMany
      (hallow : (p.limiter.allow ip p.now).2 = false) :
      LoginStep p (.allow ip body) { p with limiter := (p.limiter.allow ip p.now).1 }
        (.refused .tooManyLogins)
  | undecodable (hallow : (p.limiter.allow ip p.now).2 = true) :
      LoginStep p (.allow ip none) { p with limiter := (p.limiter.allow ip p.now).1 }
        (.refused .invalidJSON)
  | allowed (hallow : (p.limiter.allow ip p.now).2 = true) :
      LoginStep p (.allow ip (some (username, password)))
        { p with limiter := (p.limiter.allow ip p.now).1 } (.verify ip username password)
  | verified {ip username password : String}
      (hverify : p.users.verifyAdmin username password = true) :
      LoginStep p (.verify ip username password) p (.reset ip username password)
  | failed {ip username password : String}
      (hverify : p.users.verifyAdmin username password = false) :
      LoginStep p (.verify ip username password) p (.recordFail ip)
  | recordFail :
      LoginStep p (.recordFail ip) { p with limiter := p.limiter.recordFail ip p.now }
        (.refused .wrongCredentials)
  | reset :
      LoginStep p (.reset ip username password) { p with limiter := p.limiter.reset ip }
        (.create username password)
  | create :
      LoginStep p (.create username password) { p with sessions := (p.sessions.create p.now).1 }
        (.loggedIn username password p.sessions.nextToken)

section

variable (disk : Disk) (p : Panel)

inductive ChangeStep : ChangePC → Panel → ChangePC → Prop
  | unauthorized : ChangeStep (.auth token request)
        { p with sessions := (p.sessions.validate token p.now).1 } (.refused refusal)
  | authorized
      (hvalid : (p.sessions.validate token p.now).2 = true) :
      ChangeStep (.auth token request)
        { p with sessions := (p.sessions.validate token p.now).1 }
        (.allow request.ip request.body)
  | refused : ChangeStep (.allow ip body) { p with limiter := (p.limiter.allow ip p.now).1 }
        (.refused refusal)
  | allowed (hallow : (p.limiter.allow ip p.now).2 = true) :
      ChangeStep (.allow ip (some (oldPwd, newPwd)))
        { p with limiter := (p.limiter.allow ip p.now).1 } (.change ip oldPwd newPwd)
  | change : ChangeStep (.change ip oldPwd newPwd)
        { p with users := (p.users.changeAdminPassword oldPwd newPwd disk).1 }
        (ChangePC.written ip newPwd (p.users.changeAdminPassword oldPwd newPwd disk).2)
  | recordFail : ChangeStep (.recordFail ip err)
        { p with limiter := p.limiter.recordFail ip p.now } (.refused (.storeError err))
  | reset : ChangeStep (.reset ip newPwd) { p with limiter := p.limiter.reset ip }
        (.deleteAll newPwd)
  | deleteAll : ChangeStep (.deleteAll newPwd) { p with sessions := p.sessions.deleteAll }
        (.changed newPwd)

end

theorem loginStep_of_control (hcontrol : loginControl pc = some request) :
    LoginStep p pc (p.exec request.op).1 (request.resume (p.exec request.op).2) := by
  cases pc with
  | start request =>
    cases hcontrol
    dsimp only [Panel.exec]
    split
    next hmethod => exact .badMethod hmethod
    next hmethod => exact .post (not_ne_iff.1 hmethod)
  | allow ip body =>
    cases hcontrol
    dsimp only [Panel.exec]
    cases hallow : (p.limiter.allow ip p.now).2 with
    | false => exact .tooMany hallow
    | true =>
      cases body with
      | none => exact .undecodable hallow
      | some body => exact .allowed hallow
  | verify ip username password =>
    cases hcontrol
    dsimp only [Panel.exec]
    cases hverify : p.users.verifyAdmin username password with
    | false => exact .failed hverify
    | true => exact .verified hverify
  | recordFail ip =>
    cases hcontrol
    exact .recordFail
  | reset ip username password =>
    cases hcontrol
    exact .reset
  | create username password =>
    cases hcontrol
    exact .create
  | refused | loggedIn => cases hcontrol

theorem changeStep_of_control (hcontrol : changeControl disk pc = some request) :
    ChangeStep disk p pc (p.exec request.op).1 (request.resume (p.exec request.op).2) := by
  cases pc with
  | auth token request =>
    cases hcontrol
    dsimp only [Panel.exec]
    split
    · exact .unauthorized
    next hvalid =>
      split
      · exact .unauthorized
      · exact .authorized (by simpa using hvalid)
  | allow ip body =>
    cases hcontrol
    dsimp only [Panel.exec]
    cases hallow : (p.limiter.allow ip p.now).2 with
    | false => exact .refused
    | true =>
      cases body with
      | none => exact .refused
      | some body =>
        simp only [ChangePC.decoded, Bool.not_true, Bool.false_eq_true, if_false]
        split
        · exact .refused
        · exact .allowed hallow
  | change ip oldPwd newPwd =>
    cases hcontrol
    exact .change
  | recordFail ip err =>
    cases hcontrol
    exact .recordFail
  | reset ip newPwd =>
    cases hcontrol
    exact .reset
  | deleteAll newPwd =>
    cases hcontrol
    exact .deleteAll
  | refused | changed => cases hcontrol

inductive PanelStep (upper : Char → Char) (cfg : PanelConfig) : PanelAction → PanelConfig → Prop
  | spawn (hfresh : cfg.threads.lookup n = none)
      (hspawn : panelSpawnable l = true) :
      PanelStep upper cfg (.spawn n l) { cfg with threads := cfg.threads.insert n l }
  | login {n : Nat} {disk : Disk} {pc pc' : LoginPC} {p : Panel}
      (hlocal : cfg.threads.lookup n = some (.login pc)) (hstep : LoginStep cfg.shared pc p pc') :
      PanelStep upper cfg (.step n disk) ⟨p, cfg.threads.insert n (.login pc')⟩
  | change
      (hlocal : cfg.threads.lookup n = some (.change pc))
      (hstep : ChangeStep disk cfg.shared pc p pc') :
      PanelStep upper cfg (.step n disk) ⟨p, cfg.threads.insert n (.change pc')⟩
  | env :
      PanelStep upper cfg (.env e) { cfg with shared := cfg.shared.event upper e }

/-- Everything that a step of the panel can do. -/
theorem panelStep_of_next {setup : PanelSetup} (hnext : setup.next cfg action = some cfg') :
    PanelStep setup.upper cfg action cfg' := by
  cases action with
  | spawn n l =>
    obtain ⟨hfresh, hspawn, rfl⟩ := next_spawn.1 hnext
    exact .spawn hfresh hspawn
  | env e =>
    obtain ⟨shared, henv, rfl⟩ := next_env.1 hnext
    cases henv
    exact .env
  | step n disk =>
    obtain ⟨l, request, shared, result, hlocal, hcontrol, hexec, rfl⟩ := next_step.1 hnext
    have heq : cfg.shared.exec request.op = (shared, result) := Option.some.inj hexec
    obtain rfl : (cfg.shared.exec request.op).1 = shared := congrArg Prod.fst heq
    obtain rfl : (cfg.shared.exec request.op).2 = result := congrArg Prod.snd heq
    cases l with
    | login pc =>
      obtain ⟨inner, hinner, rfl⟩ := Option.map_eq_some_iff.1 hcontrol
      exact .login hlocal (loginStep_of_control hinner)
    | change pc =>
      obtain ⟨inner, hinner, rfl⟩ := Option.map_eq_some_iff.1 hcontrol
      exact .change hlocal (changeStep_of_control hinner)

/-! ## Pieces of runs -/

def rootPanel : PanelSetup where
  upper := Char.toUpper
  users :=
    let cfg : Config :=
      { Config.default with adminUsername := "root", adminPassword := hashPassword "old-password" }
    ⟨⟨cfg, 0⟩, cfg, ∅, false⟩
  now := 0

def panelSteps (n count : Nat) : List PanelAction := List.replicate count (.step n .saved)

def panelLogin (n count : Nat) (username password : String) : List PanelAction :=
  .spawn n (.login (.start ⟨"POST", "192.0.2.7", some (username, password)⟩)) :: panelSteps n count

end Hy2Link.Admin
