import AisphereHub.GitCli.Credential
import AisphereHub.Proof.SessionRefresh

/-! Where the token of the git CLI goes, and when again. The endpoint test compares the host and a
raw path prefix only, so the protocol, a missing path and dot segments are not covered by it; and
since `erase` leaves the store alone, a rejected token comes back for as long as it is fresh. -/
namespace AisphereHub

open GoStrings GoPath Threads Transition

/-- `scheme://host[:port][/path]`, without empty or dot segments. -/
structure GitEndpoint where
  scheme : String
  host : String
  segments : List String
  colon : ':' ∉ scheme.toList
  slash : '/' ∉ host.toList
  plain : ∀ part ∈ segments, Plain part
  solid : Trimmed (scheme ++ "://" ++ join (host :: segments) '/').toList

def GitEndpoint.text (e : GitEndpoint) : String :=
  e.scheme ++ "://" ++ join (e.host :: e.segments) '/'

/-- The segments of a URL path once its dot segments are resolved. -/
def resolvedPath (path : String) : List String :=
  ((split path '/').foldl (cleanStep true) []).reverse

theorem find_scheme (colon : ':' ∉ scheme) (rest : List Char) :
    (scheme ++ ("://".toList ++ rest)).tails.find? ("://".toList.isPrefixOf ·) =
      some ("://".toList ++ rest) := by
  induction scheme with
  | nil => simp [List.isPrefixOf]
  | cons c scheme ih =>
    obtain ⟨other, free⟩ : ':' ≠ c ∧ ':' ∉ scheme := by simpa using colon
    simpa [List.isPrefixOf, other] using ih free

variable {parts : List String}

theorem split_plain (some : parts ≠ []) (plain : ∀ part ∈ parts, Plain part)
    : split (join parts '/') '/' = parts :=
  split_join some fun part member => (plain part member).2.2.2

theorem trim_join (some : parts ≠ []) (plain : ∀ part ∈ parts, Plain part) :
    trim (String.ofList ('/' :: (join parts '/').toList)) '/' = join parts '/' := by
  have back := split_plain some plain
  have first : ∀ chars, (join parts '/').toList ≠ '/' :: chars := by
    intro chars starts
    obtain ⟨rest, shape⟩ := hasPrefix_slash (p := join parts '/') (by simp [hasPrefix, starts])
    exact (plain "" (by simp [back.symm.trans shape])).1 rfl
  have last : ∀ chars, (join parts '/').toList ≠ chars ++ ['/'] := by
    intro chars ends
    have seam := split_append (String.ofList chars) "" '/'
    have whole : String.ofList chars ++ String.ofList ['/'] ++ "" = join parts '/' := by
      rw [← String.toList_inj]
      simp [ends]
    rw [whole, back] at seam
    exact (plain "" (by simp [seam, split])).1 rfl
  rw [trim, String.toList_ofList, List.dropWhile_cons_of_pos (by simp)]
  have front : (join parts '/').toList.dropWhile (· == '/') = (join parts '/').toList := by
    cases text : (join parts '/').toList with
    | nil => rfl
    | cons c chars =>
      refine List.dropWhile_cons_of_neg fun same => ?_
      exact first chars (by simpa [text] using same)
  have rear : (join parts '/').toList.rdropWhile (· == '/') = (join parts '/').toList := by
    rw [List.rdropWhile_eq_self_iff]
    intro some same
    have shape := List.dropLast_append_getLast some
    rw [beq_iff_eq.mp same] at shape
    exact last _ shape.symm
  rw [front, rear, String.ofList_toList]

theorem splitEndpoint_text (e : GitEndpoint) : splitEndpoint e.text =
    (e.host, if e.segments = [] then "" else join e.segments '/' ++ "/") := by
  obtain ⟨scheme, host, segments, colon, slash, plain, solid⟩ := e
  have whole := trimSpace_of_trimmed solid
  have keeps : ∀ c ∈ host.toList, decide (c ≠ '/') = true := by
    intro c member
    have other : c ≠ '/' := by
      rintro rfl
      exact slash member
    simpa using other
  have found := find_scheme colon (join (host :: segments) '/').toList
  simp only [splitEndpoint, GitEndpoint.text, whole, String.toList_append, List.append_assoc, found,
    List.drop_left' (show "://".toList.length = 3 from rfl)]
  cases segments with
  | nil =>
    rw [join_singleton, List.takeWhile_eq_self_iff.mpr keeps, List.dropWhile_eq_nil_iff.mpr keeps,
      String.ofList_toList]
    rfl
  | cons first rest =>
    have ends : join (first :: rest) '/' ≠ "" := by
      intro empty
      have back := split_plain (by simp) plain
      rw [empty] at back
      exact (plain "" (by simp [← back, split])).1 rfl
    have shape : (join (host :: first :: rest) '/').toList =
        host.toList ++ '/' :: (join (first :: rest) '/').toList := by
      rw [join_cons, String.toList_append, String.toList_append]
      simp
    simp only [shape, List.takeWhile_append_of_pos keeps, List.dropWhile_append_of_pos keeps]
    rw [List.takeWhile_cons_of_neg (by simp), List.dropWhile_cons_of_neg (by simp),
      trim_join (by simp) plain]
    simp [ends]

/-- The request names the scheme and, where the endpoint has a path, a path that goes down again
through what it climbs of the endpoint's. -/
structure CredentialRequest.Inside (e : GitEndpoint) (req : CredentialRequest) : Prop where
  scheme : req.protocol = e.scheme
  named : req.path = "" → e.segments = []
  back : e.segments.drop
      (e.segments.length - ups ((split req.path '/').drop e.segments.length)) <+:
    downs ((split req.path '/').drop e.segments.length)

variable {fold : Char → Char}

/-- Of a request that the endpoint test accepts, the host is the endpoint's, and this says when
the rest is. -/
theorem inside_iff (ours : isOurEndpoint fold e.text req = true) :
    req.protocol = e.scheme ∧ equalFold fold req.host e.host ∧
      e.segments <+: resolvedPath req.path ↔ req.Inside e := by
  simp only [isOurEndpoint, splitEndpoint_text] at ours
  split_ifs at ours with nameless other blank bare
  · have nowhere : resolvedPath req.path = [] := by
      rw [blank]
      rfl
    rw [nowhere, List.prefix_nil]
    refine ⟨fun law => ⟨law.1, fun _ => law.2.2, ?_⟩,
      fun inside => ⟨inside.scheme, other, inside.named blank⟩⟩
    simp [law.2.2]
  · exact ⟨fun law => ⟨law.1, fun _ => bare, by simp [bare]⟩,
      fun inside => ⟨inside.scheme, other, by simp [bare]⟩⟩
  · have flat : ".." ∉ e.segments := fun up => (e.plain _ up).2.2.1 rfl
    have leads := split_prefix_iff.mpr (.inr ours)
    rw [split_plain bare e.plain] at leads
    obtain ⟨rest, parts⟩ := leads
    have under : e.segments <+: resolvedPath req.path ↔
        e.segments.drop (e.segments.length - ups rest) <+: downs rest := by
      rw [← prefix_foldl_rooted flat, resolvedPath, ← parts, List.foldl_append,
        foldl_plain e.plain, List.append_nil]
    have behind : (split req.path '/').drop e.segments.length = rest := by
      rw [← parts, List.drop_left]
    rw [under]
    refine ⟨fun law => ⟨law.1, fun empty => absurd empty blank, ?_⟩,
      fun inside => ⟨inside.scheme, other, ?_⟩⟩
    · rw [behind]
      exact law.2.2
    · have back := inside.back
      rwa [behind] at back

def heldSession : SessionStore :=
  { file := .ok { accessToken := "t", accessTokenExp := 4000, refreshToken := "r" } }

theorem heldSession_served : ∃ c, refreshProgram.serve heldSession () [{ now := 50 }] =
    some (heldSession, .returned (.ok c)) :=
  ⟨_, rfl⟩

theorem answer_ne_nil (req : CredentialRequest) (c : Credentials) : req.answer c ≠ [] := by
  unfold CredentialRequest.answer
  split_ifs <;> simp

/-- The token goes only to the configured endpoint for exactly the streams whose request the
endpoint test rejects or that keep inside the endpoint. -/
theorem get_only_endpoint_iff (fold : Char → Char) (e : GitEndpoint) (stream : String) :
    (∀ answers s s' out,
      credentialGet refreshProgram fold e.text stream answers s = some (s', .ok out) → out ≠ [] →
      (parseRequest stream).1.protocol = e.scheme ∧
        equalFold fold (parseRequest stream).1.host e.host ∧
        e.segments <+: resolvedPath (parseRequest stream).1.path) ↔
    ((parseRequest stream).2 = none → isOurEndpoint fold e.text (parseRequest stream).1 = true →
      (parseRequest stream).1.Inside e) := by
  unfold credentialGet
  constructor
  · intro law parsed ours
    obtain ⟨c, served⟩ := heldSession_served
    refine (inside_iff ours).mp (law [{ now := 50 }] heldSession heldSession
      ((parseRequest stream).1.answer c) ?_ (answer_ne_nil _ c))
    rw [show parseRequest stream = ((parseRequest stream).1, none) from Prod.ext rfl parsed]
    simp only [ours, if_true, served]
    rfl
  · intro inside answers s s' out got written
    split at got
    · cases got
    · rename_i req parsed
      rw [parsed] at inside ⊢
      split_ifs at got with ours
      · exact (inside_iff ours).mpr (inside rfl ours)
      · cases got
        exact absurd rfl written

def hubEndpoint : GitEndpoint where
  scheme := "https"
  host := "hub:30723"
  segments := ["git"]
  colon := by decide
  slash := by decide
  plain := by simp [Plain]
  solid := by constructor <;> rintro _ ⟨⟩ <;> rfl

theorem get_only_endpoint_request : "git" ∈
    resolvedPath (parseRequest "protocol=https\nhost=HUB:30723\npath=git/x/../a.git\n\n").1.path := by
  obtain ⟨_, _, rest, shape⟩ := (get_only_endpoint_iff Char.toLower hubEndpoint
    "protocol=https\nhost=HUB:30723\npath=git/x/../a.git\n\n").mpr
    (fun _ _ => ⟨by decide +kernel, by decide +kernel, by decide +kernel⟩)
    [{ now := 50 }] heldSession heldSession [("username", "aisphere"), ("password", "t")]
    (by decide +kernel) (by simp)
  rw [← shape]
  exact List.mem_append_left rest (by decide)

/-- The token is written over plain HTTP, and for a path that leads elsewhere. -/
theorem get_beyond_endpoint : hubEndpoint.text = "https://hub:30723/git" ∧
    ∀ stream ∈ ["protocol=http\nhost=hub:30723\npath=git/a.git\n\n",
      "protocol=https\nhost=hub:30723\npath=git/../v1/models\n\n"],
    credentialGet refreshProgram Char.toLower hubEndpoint.text stream [{ now := 50 }] heldSession =
      some (heldSession, .ok [("username", "aisphere"), ("password", "t")]) ∧
    ¬ ((parseRequest stream).1.protocol = hubEndpoint.scheme ∧
      hubEndpoint.segments <+: resolvedPath (parseRequest stream).1.path) := by
  decide +kernel

section Rejected

variable {bad : Credentials → Prop} {file : Except StoreError Credentials}

/-- Bad credentials are on their way out only if `refreshFn` has returned them. -/
def RefreshCall.Sourced (bad : Credentials → Prop) (file : Except StoreError Credentials)
    (x : RefreshHistory) : RefreshCall → Prop
  | .load | .acquire | .reread => x.1.file = file
  | .save r | .unlock (.ok r) | .returned (.ok r) => bad r → .ok r ∈ x.2
  | _ => True

theorem RefreshCall.Sourced.next
    (stale : ∀ c, file = .ok c → bad c → c.isFresh refreshSkew a.now = false)
    (sourced : call.Sourced bad file x) (taken : recordedRefresh.next x call a = some (x', call')) :
    call'.Sourced bad file x' := by
  obtain ⟨s, log⟩ := x
  obtain ⟨s', log'⟩ := x'
  obtain ⟨taken, history⟩ := recorded_next.mp taken
  change call.next s a = _ at taken
  subst history
  have read (c : Credentials) (same : s.file = file) (loaded : s.load a = .ok c)
      (fresh : c.isFresh refreshSkew a.now = true) (wrong : bad c) : False := by
    unfold SessionStore.load at loaded
    split at loaded
    · cases loaded
    · simp [stale c (same.symm.trans loaded) wrong] at fresh
  cases call with simp only [RefreshCall.next, reduceCtorEq] at taken
  | load =>
    split at taken <;> cases taken
    · rename_i c loaded
      split_ifs with fresh
      · exact fun wrong => (read c sourced loaded fresh wrong).elim
      · exact sourced
    · exact sourced
  | acquire =>
    repeat' split at taken
    all_goals cases taken
    · trivial
    · trivial
    · exact sourced
  | reread =>
    split at taken <;> cases taken
    · trivial
    · rename_i c loaded
      split_ifs with fresh able
      · exact fun wrong => (read c sourced loaded fresh wrong).elim
      · trivial
      · trivial
  | clear =>
    cases taken
    trivial
  | refresh c =>
    split at taken <;> cases taken
    · trivial
    · rename_i r given
      exact fun _ => by simp [given]
  | save r =>
    split at taken <;> cases taken
    · trivial
    · exact fun wrong => List.mem_append_left _ (sourced wrong)
  | unlock out =>
    cases taken
    cases out with
    | error e => trivial
    | ok r => exact fun wrong => List.mem_append_left _ (sourced wrong)

/-- What `get` writes holds bad credentials only if they come from a refresh it made. -/
theorem get_sourced (bad : Credentials → Prop)
    (stale : ∀ a ∈ answers, ∀ c, s.file = .ok c → bad c → c.isFresh refreshSkew a.now = false)
    (got : credentialGet recordedRefresh fold endpoint stream answers (s, []) =
      some (x', .ok out)) :
    out = [] ∨ ∃ r req, out = CredentialRequest.answer req r ∧ (bad r → .ok r ∈ x'.2) := by
  unfold credentialGet at got
  split at got
  · cases got
  rename_i req parsed
  split_ifs at got
  · split at got
    · rename_i s' answer served
      obtain ⟨ran, _⟩ := Option.filter_eq_some_iff.mp served
      have start : RefreshCall.load.Sourced bad s.file (s, []) := rfl
      have guarded : Guarded (fun y a => recordedRefresh.next y.1 y.2 a)
          (fun _ a => ∀ c, s.file = .ok c → bad c → c.isFresh refreshSkew a.now = false)
          ((s, []), .load) answers := guarded_of_forall _ _ stale
      have sourced := run_preserves
        (I := fun y : RefreshHistory × RefreshCall => y.2.Sourced bad s.file y.1)
        (fun _ _ _ stale sourced taken => sourced.next stale taken) start guarded ran
      cases answer with
      | error e => cases got
      | ok r =>
        cases got
        exact .inr ⟨r, req, rfl, sourced⟩
    · cases got
  · cases got
    exact .inl rfl

end Rejected

inductive HelperEvent where
  | served (token : String)
  | erased (token : String)
  | refreshed (token : String)
deriving DecidableEq

inductive HelperOp where
  | get (stream : String) (answers : List RefreshAnswer)
  | erase (stream : String)

def writtenToken (out : List (String × String)) : Option String :=
  (out.find? fun pair => pair.1 = "credential" ∨ pair.1 = "password").map Prod.snd

def CredentialRequest.names (req : CredentialRequest) (token : String) : Bool :=
  req.password = token ∨ req.extra.lookup "credential" = some token

def HelperEvent.token? : HelperEvent → Option String
  | .served token => some token
  | _ => none

/-- One operation of the helper and what it adds to the history: an erasure counts when it names
the token that was returned last. -/
def helperStep (fold : Char → Char) (endpoint : String) (x : SessionStore × List HelperEvent) :
    HelperOp → Option (SessionStore × List HelperEvent)
  | .get stream answers =>
    (credentialGet recordedRefresh fold endpoint stream answers (x.1, [])).map fun got =>
      (got.1.1, x.2 ++ got.1.2.filterMap (fun r => r.toOption.map (.refreshed ·.accessToken)) ++
        (got.2.toOption.bind writtenToken).toList.map .served)
  | .erase stream =>
    some (x.1, x.2 ++ ((x.2.reverse.findSome? HelperEvent.token?).filter
      (parseRequest stream).1.names).toList.map .erased)

/-- Of the erasures and refreshes of the token, the last is an erasure. -/
def rejected (token : String) (log : List HelperEvent) : Bool :=
  (log.filter fun e => e = .erased token ∨ e = .refreshed token).getLast? = some (.erased token)

/-- A rejected token that is still stored is not fresh any more. -/
def RejectedStale (x : SessionStore × List HelperEvent) : HelperOp → Prop
  | .get _ answers => ∀ a ∈ answers, ∀ c ∈ x.1.file.toOption, rejected c.accessToken x.2 = true →
    c.isFresh refreshSkew a.now = false
  | .erase _ => True

instance (x : SessionStore × List HelperEvent) : (op : HelperOp) → Decidable (RejectedStale x op)
  | .get _ _ => inferInstanceAs (Decidable (∀ _ ∈ _, ∀ _ ∈ _, _))
  | .erase _ => .isTrue trivial

variable {log news : List HelperEvent}

theorem rejected_refreshed (fresh : ∀ e ∈ news, ∃ t, e = .refreshed t)
    (still : rejected token (log ++ news) = true) :
    .refreshed token ∉ news ∧ rejected token log = true := by
  simp only [rejected, decide_eq_true_eq, List.filter_append, List.getLast?_append] at still ⊢
  cases last : (news.filter fun e => e = .erased token ∨ e = .refreshed token).getLast? with
  | none =>
    rw [last] at still
    refine ⟨fun member => ?_, still⟩
    simpa using List.filter_eq_nil_iff.mp (List.getLast?_eq_none_iff.mp last) _ member
  | some e =>
    rw [last] at still
    cases still
    obtain ⟨_, same⟩ := fresh _ (List.mem_filter.mp (List.mem_of_getLast? last)).1
    cases same

/-- No token was returned while it was rejected. -/
def Unserved (log : List HelperEvent) : Prop :=
  ∀ before token after, log = before ++ .served token :: after → rejected token before = false

theorem Unserved.append (holds : Unserved log)
    (later : ∀ before token after, news = before ++ .served token :: after →
      rejected token (log ++ before) = false) : Unserved (log ++ news) := by
  intro before token after cut
  rcases List.append_eq_append_iff.mp cut with ⟨front, rfl, rest⟩ | ⟨front, rfl, rest⟩
  · exact later front token after rest
  · cases front with
    | nil => simpa using later [] token after rest.symm
    | cons e front =>
      cases rest
      exact holds before token front rfl

theorem Unserved.quiet (holds : Unserved log) (news : List HelperEvent)
    (quiet : ∀ token, .served token ∉ news) : Unserved (log ++ news) :=
  holds.append fun before token after same => absurd (by simp [same]) (quiet token)

theorem writtenToken_answer (req : CredentialRequest) (c : Credentials) :
    writtenToken (req.answer c) = some c.accessToken := by
  unfold CredentialRequest.answer
  split_ifs <;> rfl

theorem helperStep_unserved (stale : RejectedStale x op) (holds : Unserved x.2)
    (taken : helperStep fold endpoint x op = some x') : Unserved x'.2 := by
  cases op with
  | erase stream =>
    cases taken
    exact holds.quiet _ (by simp)
  | get stream answers =>
    obtain ⟨⟨⟨s', refreshes⟩, out⟩, got, rfl⟩ := Option.map_eq_some_iff.mp taken
    have known := holds.quiet
      (refreshes.filterMap fun r => r.toOption.map (.refreshed ·.accessToken)) (by simp)
    cases out with
    | error e => simpa [Except.toOption] using known
    | ok out =>
      rcases get_sourced (fun c => rejected c.accessToken x.2 = true)
        (fun a member c stored => stale a member c (by simp [stored, Except.toOption])) got with
        rfl | ⟨r, req, rfl, sourced⟩
      · simpa [Except.toOption, writtenToken] using known
      · refine known.append fun before token after same => ?_
        obtain ⟨rfl, rfl⟩ : before = [] ∧ token = r.accessToken := by
          rw [Except.toOption, Option.bind_some, writtenToken_answer] at same
          cases before with
          | nil => simpa using congrArg List.head? same.symm
          | cons e before => simpa using congrArg List.length same
        rw [List.append_nil, Bool.eq_false_iff]
        intro still
        obtain ⟨fresh, old⟩ := rejected_refreshed (fun e member => by
          obtain ⟨_, _, made⟩ := List.mem_filterMap.mp member
          obtain ⟨c, _, rfl⟩ := Option.map_eq_some_iff.mp made
          exact ⟨_, rfl⟩) still
        exact fresh (List.mem_filterMap.mpr ⟨_, sourced old, rfl⟩)

/-- In every sequence of operations that never meets a rejected token fresh in the store, a
returned token is not a rejected one. -/
theorem rejected_not_served (fold : Char → Char) (endpoint : String) (ops : List HelperOp)
    (s s' : SessionStore) (log : List HelperEvent)
    (guarded : Guarded (helperStep fold endpoint) RejectedStale (s, []) ops)
    (ran : run (helperStep fold endpoint) (s, []) ops = some (s', log)) :
    ∀ before token after, log = before ++ .served token :: after →
      rejected token before = false := by
  have start : Unserved [] := by simp [Unserved]
  exact run_preserves (I := fun x : SessionStore × List HelperEvent => Unserved x.2)
    (fun _ _ _ => helperStep_unserved) start guarded ran

def askedAgain (again : List RefreshAnswer) : List HelperOp :=
  let stream := "protocol=https\nhost=hub:30723\npath=git/a.git\n\n"
  [.get stream [{ now := 50 }], .erase "password=t\n\n", .get stream again]

theorem rejected_not_served_later : ∃ x,
    run (helperStep Char.toLower hubEndpoint.text) (heldSession, [])
      (askedAgain (List.replicate 6 { now := 5000, refreshed := .ok freshSession })) = some x ∧
    ∀ before token after, x.2 = before ++ .served token :: after →
      rejected token before = false := by
  refine exists_run (P := fun _ => True) (by decide +kernel) fun x ran _ => ?_
  exact rejected_not_served _ _ _ _ _ _ (by decide +kernel) ran

theorem rejected_served :
    run (helperStep Char.toLower hubEndpoint.text) (heldSession, []) (askedAgain [{ now := 60 }]) =
      some (heldSession, [.served "t", .erased "t", .served "t"]) ∧
    rejected "t" [.served "t", .erased "t"] = true := by
  decide +kernel

end AisphereHub
