import Mathlib.Data.List.Basic

/-! The loopback callback server of `git aisphere login` and what Login makes of the request
it captured. The handler takes the first request for the callback, whatever its path and its
parameters, and Login judges the state only afterwards, when the server is used up. -/
namespace AisphereHub

/-- The parsed query parameters of a request, in order. -/
abbrev Query := List (String × String)

def Query.get (q : Query) (key : String) : String := (q.lookup key).getD ""

structure CallbackServer where
  consumed : Bool := false
  cbCode : String := ""
  cbState : String := ""
  cbErr : String := ""
  received : Bool := false
  deriving DecidableEq

def replaceAll (old : Char) (new s : String) : String :=
  String.ofList (s.toList.flatMap fun c => if c = old then new.toList else [c])

def htmlEscape (s : String) : String :=
  replaceAll '\x22' "&#34;" (replaceAll '>' "&gt;" (replaceAll '<' "&lt;" (replaceAll '&' "&amp;" s)))

/-- The handler, with the status and the page it answers. It takes `consumed` under the lock, so
one request alone writes what follows, before it signals. -/
def CallbackServer.handle (s : CallbackServer) (q : Query) : CallbackServer × Nat × String :=
  if s.consumed then (s, 400, "callback already consumed\n")
  else
    ({ consumed := true, cbCode := q.get "code", cbState := q.get "state", cbErr := q.get "error",
       received := true },
      if q.get "error" ≠ "" then
        (400, "<h1>Login failed</h1><p>" ++ htmlEscape (q.get "error") ++
          "</p><p>You may close this tab.</p>")
      else (200, "<h1>Login successful</h1><p>You may close this tab and return to the terminal.</p>"))

def CallbackServer.serve (s : CallbackServer) (requests : List Query) : CallbackServer :=
  requests.foldl (fun s q => (s.handle q).1) s

inductive LoginOutcome where
  | waiting
  | failed (message : String)
  | exchange (code : String)
  deriving DecidableEq

/-- Login from its select on, up to the request to the token endpoint. The select is interrupted
by a cancelled context or by a server that stopped. -/
def login (state : String) (interrupted : Option String) (s : CallbackServer) : LoginOutcome :=
  match interrupted with
  | some e => .failed e
  | none =>
    if s.received = false then .waiting
    else if s.cbErr ≠ "" then .failed ("login rejected by provider: " ++ s.cbErr)
    else if s.cbState = "" ∨ s.cbState ≠ state then
      .failed "oauth state mismatch (possible CSRF); aborting"
    else if s.cbCode = "" then .failed "no authorization code in callback"
    else .exchange s.cbCode

/-- The request carries the state of the login and a code. -/
def Query.Carries (q : Query) (state : String) : Prop :=
  state ≠ "" ∧ q.get "state" = state ∧ q.get "code" ≠ ""

variable {state code : String} {first : Query}

theorem serve_of_consumed {s : CallbackServer} (used : s.consumed = true) (requests : List Query) :
    s.serve requests = s := by
  induction requests with
  | nil => rfl
  | cons q rest ih =>
    have same : (s.handle q).1 = s := by simp [CallbackServer.handle, used]
    rw [CallbackServer.serve, List.foldl_cons, same]
    exact ih

/-- The first request alone decides the login. -/
theorem login_serve_cons (rest : List Query) :
    login state none (CallbackServer.serve {} (first :: rest)) = .exchange code ↔
      (first.Carries state ∧ first.get "error" = "") ∧ first.get "code" = code := by
  have used : (CallbackServer.handle {} first).1.consumed = true := rfl
  have served := serve_of_consumed used rest
  rw [CallbackServer.serve] at served ⊢
  rw [List.foldl_cons, served]
  simp only [login, CallbackServer.handle, Query.Carries, Bool.false_eq_true, if_false]
  grind

/-- Only a code that came with the state is exchanged. One that came with it is exchanged for sure
only where the first request of all is such a one, and reports no error. -/
theorem login_exchanges_iff (state : String) (requests : List Query) :
    (∀ code interrupted, login state interrupted (CallbackServer.serve {} requests) = .exchange code →
      ∃ q ∈ requests, q.Carries state ∧ q.get "code" = code) ∧
    (((∃ q ∈ requests, q.Carries state) → ∃ q ∈ requests, q.Carries state ∧
        login state none (CallbackServer.serve {} requests) = .exchange (q.get "code")) ↔
      (∀ q ∈ requests, ¬q.Carries state) ∨
        ∃ first rest, requests = first :: rest ∧ first.Carries state ∧ first.get "error" = "") := by
  cases requests with
  | nil =>
    refine ⟨fun code interrupted exchanged => ?_, by simp⟩
    cases interrupted <;> cases exchanged
  | cons first rest =>
    refine ⟨fun code interrupted exchanged => ?_, fun exchanges => ?_, ?_⟩
    · cases interrupted with
      | some e => cases exchanged
      | none =>
        obtain ⟨⟨carries, _⟩, same⟩ := (login_serve_cons rest).mp exchanged
        exact ⟨first, List.mem_cons_self, carries, same⟩
    · by_cases carried : ∃ q ∈ first :: rest, q.Carries state
      · obtain ⟨_, _, _, exchanged⟩ := exchanges carried
        exact .inr ⟨first, rest, rfl, ((login_serve_cons rest).mp exchanged).1⟩
      · exact .inl fun q member carries => carried ⟨q, member, carries⟩
    · rintro (none | ⟨_, _, ⟨⟩, accepted⟩) ⟨q, member, carries⟩
      · exact absurd carries (none q member)
      · exact ⟨first, List.mem_cons_self, accepted.1, (login_serve_cons rest).mpr ⟨accepted, rfl⟩⟩

/-- A browser that asks for an icon first uses up the callback. -/
theorem icon_request_ends_login : ∃ requests, (∃ q ∈ requests, q.Carries "s1") ∧
    login "s1" none (CallbackServer.serve {} requests) =
      .failed "oauth state mismatch (possible CSRF); aborting" :=
  ⟨[[], [("code", "c1"), ("state", "s1")]], ⟨_, List.mem_cons_of_mem _ List.mem_cons_self,
    by decide, by decide, by decide⟩, by decide⟩

end AisphereHub
