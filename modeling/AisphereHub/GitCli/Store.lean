import AisphereHub.Foundation.Threads

/-! The session store of the git CLI: `credentials.json`, the lock file beside it, and the
processes that use them. `LoadAndRefresh` is cut at its reads of the file, the lock attempt, the
refresh, the save and the unlock; `logout` and `login` touch the file once and take no
lock. -/
namespace AisphereHub

/-- Times are in seconds, the zero time is 0. -/
structure Credentials where
  accessToken : String := ""
  accessTokenExp : Nat := 0
  refreshToken : String := ""
  subjectID : String := ""
  subjectName : String := ""
deriving DecidableEq

inductive StoreError where
  | errNoSession
  | other (message : String)
deriving DecidableEq

/-- `file` is what reading and decoding the credentials file gives: a missing or blank file is
no session. -/
structure SessionStore where
  file : Except StoreError Credentials := .error .errNoSession
  locked : Bool := false
deriving DecidableEq

def Credentials.isFresh (c : Credentials) (skew now : Nat) : Bool :=
  c.accessToken != "" && c.accessTokenExp != 0 && decide (now + skew < c.accessTokenExp)

def Credentials.canRefresh (c : Credentials) : Bool := c.refreshToken != ""

def refreshSkew : Nat := 120

inductive RefreshCall where
  | load
  | acquire
  | reread
  | clear
  | refresh (c : Credentials)
  | save (freshened : Credentials)
  | unlock (out : Except StoreError Credentials)
  | returned (out : Except StoreError Credentials)
deriving DecidableEq

/-- What a step meets: the time, a failure of the file system, the result of `refreshFn`. -/
structure RefreshAnswer where
  now : Nat := 0
  fault : Option String := none
  refreshed : Except StoreError Credentials := .error .errNoSession

def SessionStore.load (s : SessionStore) (a : RefreshAnswer) : Except StoreError Credentials :=
  match a.fault with
  | some cause => .error (.other ("read credentials: " ++ cause))
  | none => s.file

def SessionStore.save (s : SessionStore) (c : Credentials) (a : RefreshAnswer) :
    Except String SessionStore :=
  match a.fault with
  | some cause => .error cause
  | none => .ok { s with file := .ok c }

def SessionStore.clear (s : SessionStore) (a : RefreshAnswer) : Except String SessionStore :=
  match a.fault with
  | some cause => .error cause
  | none => .ok { s with file := .error .errNoSession }

def RefreshCall.next (s : SessionStore) (a : RefreshAnswer) :
    RefreshCall → Option (SessionStore × RefreshCall)
  | .load =>
    match s.load a with
    | .ok c => some (s, if c.isFresh refreshSkew a.now then .returned (.ok c) else .acquire)
    | .error _ => some (s, .acquire)
  | .acquire =>
    match a.fault with
    | some cause => some (s, .returned (.error (.other cause)))
    | none =>
      -- the error of a failed attempt is shadowed: the nil error around it is the one tested
      -- against `errLocked`, so the first attempt is the last and its wrapped error is nil
      if s.locked then some (s, .returned (.error (.other "acquire lock: %!w(<nil>)")))
      else some ({ s with locked := true }, .reread)
  | .reread =>
    match s.load a with
    | .error e => some (s, .unlock (.error e))
    | .ok c =>
      some (s, if c.isFresh refreshSkew a.now then .unlock (.ok c)
        else if c.canRefresh then .refresh c else .clear)
  | .clear => some ((s.clear a).toOption.getD s, .unlock (.error .errNoSession))
  | .refresh _ =>
    match a.refreshed with
    | .error e => some (s, .unlock (.error e))
    | .ok freshened => some (s, .save freshened)
  | .save freshened =>
    match s.save freshened a with
    | .error cause => some (s, .unlock (.error (.other cause)))
    | .ok s' => some (s', .unlock (.ok freshened))
  | .unlock out => some ({ s with locked := false }, .returned out)
  | .returned _ => none

def RefreshCall.isReturned : RefreshCall → Bool
  | .returned _ => true
  | _ => false

def refreshProgram : Threads.Program SessionStore RefreshCall Unit RefreshAnswer where
  start _ := .load
  next s call a := call.next s a
  finished := RefreshCall.isReturned

inductive CliRequest where
  | loadAndRefresh
  | logout
  | login (creds : Credentials)

inductive CliCall where
  | refresh (call : RefreshCall)
  | logout
  | login (creds : Credentials)
  | ended (out : Except StoreError Unit)
deriving DecidableEq

def CliCall.next (s : SessionStore) (a : RefreshAnswer) :
    CliCall → Option (SessionStore × CliCall)
  | .refresh call => (call.next s a).map fun out => (out.1, .refresh out.2)
  | .logout =>
    match s.clear a with
    | .error cause => some (s, .ended (.error (.other ("logout: " ++ cause))))
    | .ok s' => some (s', .ended (.ok ()))
  | .login creds =>
    match s.save creds a with
    | .error cause => some (s, .ended (.error (.other ("store session: " ++ cause))))
    | .ok s' => some (s', .ended (.ok ()))
  | .ended _ => none

def cliProgram : Threads.Program SessionStore CliCall CliRequest RefreshAnswer where
  start
    | .loadAndRefresh => .refresh .load
    | .logout => .logout
    | .login creds => .login creds
  next s call a := call.next s a
  finished
    | .refresh call => call.isReturned
    | .ended _ => true
    | _ => false

end AisphereHub
